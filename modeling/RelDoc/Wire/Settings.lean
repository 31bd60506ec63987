import RelDoc.Settings
import RelDoc.Wire.Nesting
import RelDoc.Wire.Value

namespace RelDoc.Settings

open Wire

def fieldNames : List String :=
  ["id_field", "multiple_by_default", "type_map", "natural_sort_column"]

def toJson (s : Settings) : Json :=
  .object [("id_field", .string s.idField), ("multiple_by_default", .boolean s.multipleByDefault),
    ("type_map", s.typeMap.toJson), ("natural_sort_column", .string s.naturalSortColumn)]

def text (s : Settings) : String := String.ofList s.toJson.text

def ofJson? (j : Json) : Option Settings := do
  let r ← Record.readPartial? fieldNames j
  let idField ← r.default? "id_field" Json.string? standard.idField
  let multiple ← r.default? "multiple_by_default" Json.boolean? standard.multipleByDefault
  let typeMap ← r.default? "type_map" Document.ofJson? standard.typeMap
  let natural ← r.default? "natural_sort_column" Json.string? standard.naturalSortColumn
  some ⟨idField, multiple, typeMap, natural⟩

def parse (text : String) : Except QueryError Settings :=
  match (Json.parse? text.toList).bind ofJson? with
  | some s => .ok s
  | none => .error .unreadable

end RelDoc.Settings
