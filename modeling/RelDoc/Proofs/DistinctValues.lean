import RelDoc.Proofs.FieldConditions
import RelDoc.Proofs.FilterAgreement
import RelDoc.Proofs.FirstOccurrences

namespace RelDoc

namespace Filter

variable {f g d : Document} {column : String} {v : Value}

end Filter

namespace Collection

open RelDoc.Filter

variable {c : Collection} {filter d : Document} {column : String} {v : Value}

end Collection

end RelDoc
