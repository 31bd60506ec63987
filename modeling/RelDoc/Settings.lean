import RelDoc.QueryError
import RelDoc.Text.Classes
import RelDoc.Value.Basic

namespace RelDoc

structure Settings where
  idField : String
  multipleByDefault : Bool
  typeMap : Document
  naturalSortColumn : String

namespace Settings

def standard : Settings where
  idField := "_id"
  multipleByDefault := true
  typeMap := [("root", .string "document"), ("document", .string "document")]
  naturalSortColumn := "natural"

instance : Inhabited Settings := ⟨standard⟩

def check (s : Settings) : Except SettingsFault Unit :=
  if (Text.trim s.idField.toList).isEmpty then .error .emptyIdField
  else if isOperator s.idField then .error (.idFieldIsOperator s.idField)
  else if s.naturalSortColumn.isEmpty then .error .emptyNaturalColumn
  else .ok ()

theorem check_standard : standard.check = .ok () := rfl

end Settings

end RelDoc
