import RelDoc.Query.Basic
import RelDoc.Wire.Settings
import RelDoc.Proofs.ScopeNarrowing
import RelDoc.Proofs.IdentifierRoundTrip
import RelDoc.Proofs.EqualityClauses
import RelDoc.Proofs.PathWrites
import RelDoc.Proofs.CollectionWrites
import RelDoc.Proofs.FieldUpdates
import RelDoc.Proofs.FailedCalls
import RelDoc.Proofs.EqualityLaws
import RelDoc.Proofs.GroupPartition
import RelDoc.Proofs.StoredIdentifiers
import RelDoc.Proofs.GroupedRows
import RelDoc.Proofs.FilterAgreement
import RelDoc.Proofs.IntegerRounding
import RelDoc.Proofs.IntegerColumns
import RelDoc.Proofs.KeyOrder
import RelDoc.Proofs.UpdateReadBack
import RelDoc.Proofs.InstantTexts
import RelDoc.Proofs.ShortestDecimals
import RelDoc.Proofs.JsonTexts
import RelDoc.Proofs.PlanShapes
import RelDoc.Proofs.SharedShapes
import RelDoc.Proofs.PlannedPipelines
import RelDoc.Proofs.PageRows
import RelDoc.Proofs.KeysetWalk
import RelDoc.Proofs.Increments
import RelDoc.Proofs.LikePatterns
import RelDoc.Proofs.PlannedCommands
import RelDoc.Proofs.FirstRows
import RelDoc.Proofs.IntegerSums
import RelDoc.Proofs.CountedRows
import RelDoc.Proofs.FieldConditions
import RelDoc.Proofs.Upserts
import RelDoc.Proofs.UpsertedColumns
import RelDoc.Proofs.CountedCalls
import RelDoc.Proofs.RoundTrips
import RelDoc.Proofs.Acknowledgement
import RelDoc.Proofs.JsonReading
import RelDoc.Proofs.PlanTexts
import RelDoc.Proofs.SortableValues
import RelDoc.Proofs.StableSorting
import RelDoc.Proofs.RequestedOrder
import RelDoc.Proofs.UnwoundArrays
import RelDoc.Proofs.GroupOrder
import RelDoc.Proofs.OppositeClauses
import RelDoc.Proofs.KeptIdentifiers
import RelDoc.Proofs.PluckedColumns
import RelDoc.Proofs.CaseFolding
import RelDoc.Proofs.PatternSearches
import RelDoc.Proofs.LikeMatches
import RelDoc.Proofs.ProjectedColumns
import RelDoc.Proofs.RemovedPaths
import RelDoc.Proofs.DroppedColumns
import RelDoc.Proofs.FirstOccurrences
import RelDoc.Proofs.DistinctValues
import RelDoc.Proofs.GroupMembers
import RelDoc.Proofs.BatchPushes
import RelDoc.Proofs.UpdateReports
import RelDoc.Proofs.RoundedSums
import RelDoc.Proofs.ExtremeValues
import RelDoc.Proofs.ClassifiedIdentifiers
import RelDoc.Proofs.MarkedColumns
import RelDoc.Proofs.DelimitedPatterns
import RelDoc.Proofs.NegatedAmounts
import RelDoc.Proofs.PathLaws
import RelDoc.Proofs.WriteOrder
import RelDoc.Proofs.PulledValues
import RelDoc.Proofs.RawFilters
import RelDoc.Proofs.ComposedPaths
