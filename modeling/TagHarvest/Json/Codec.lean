/-
JSON values of texts, lists and ordered maps. A map is read from an object by inserting its members one
after the other, and every member must have the right form, also one that a later member replaces.
-/
import TagHarvest.Json.Reader
import TagHarvest.Json.Printer
import TagHarvest.OrderedMap

namespace TagHarvest

namespace Json

def string? : Json → Option String
  | string s => some s
  | _ => none

def bool? : Json → Option Bool
  | bool b => some b
  | _ => none

def list? {α : Type} (f : Json → Option α) : Json → Option (List α)
  | array items => items.mapM f
  | _ => none

def strings? : Json → Option (List String) := list? string?

def ofStrings (l : List String) : Json := array (l.map string)

/-- A map whose keys and values are read from names and members. -/
def map? {α β : Type} [DecidableEq α] (key : String → Option α) (value : Json → Option β) :
    Json → Option (OrderedMap α β)
  | object members =>
    (members.mapM fun (name, v) => do return (← key name, ← value v)).map OrderedMap.ofList
  | _ => none

/-- A map with texts as keys. -/
def textMap? {β : Type} (value : Json → Option β) : Json → Option (OrderedMap String β) :=
  map? some value

def ofMap {α β : Type} (name : α → String) (value : β → Json) (m : OrderedMap α β) : Json :=
  object (m.entries.map fun (k, v) => (name k, value v))

def ofTextMap {β : Type} (value : β → Json) : OrderedMap String β → Json := ofMap id value

end Json
end TagHarvest
