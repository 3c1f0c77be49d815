/-
Stores and lineages as JSON documents. A store is an object of tables, a table an object of records, a
record an object of fields, and a value a string or an array of strings.
-/
import TagHarvest.Json.Codec
import TagHarvest.Record.Lineage

namespace TagHarvest

namespace FieldValue

def toJson : FieldValue → Json
  | scalar s => .string s
  | list l => .ofStrings l

def ofJson? : Json → Option FieldValue
  | .string s => some (scalar s)
  | .array items => (items.mapM Json.string?).map list
  | _ => none

end FieldValue

namespace Store

def toJson (s : Store) : Json :=
  Json.ofTextMap (Json.ofTextMap (Json.ofTextMap FieldValue.toJson)) s

def ofJson? (v : Json) : Option Store :=
  Json.textMap? (Json.textMap? (Json.textMap? FieldValue.ofJson?)) v

/-- The document of a store. -/
def document (s : Store) : String := s.toJson.pretty

/-- The store that a document holds. -/
def ofDocument? (text : String) : Option Store :=
  (Json.read? text).bind ofJson?

end Store

namespace Lineage

mutual
def toJson : Lineage → Json
  | node i [] => .object [("id", .string i)]
  | node i (c :: cs) => .object [("id", .string i), ("children", .array (toJson c :: toJsonAll cs))]

def toJsonAll : List Lineage → List Json
  | [] => []
  | t :: ts => toJson t :: toJsonAll ts
end

end Lineage

/-- The document of the lineages of all tables. -/
def Store.lineageDocument (s : Store) : String :=
  (Json.object (s.lineages.map fun (name, ts) => (name, .array (ts.map Lineage.toJson)))).pretty

end TagHarvest
