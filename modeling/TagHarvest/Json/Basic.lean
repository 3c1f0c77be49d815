/-
JSON values. The members of an object are kept in the order of the document and with repetitions;
`merged` gives every object the members a map of them would have: a repeated name keeps its first place
and takes its last value.
-/
import TagHarvest.Number.Binary64

namespace TagHarvest

/-- Numbers: integers of at most 64 bits are exact, all others are numbers of the format binary64. -/
inductive JsonNumber where
  | int (n : Int)
  | real (negative : Bool) (magnitude : Rat)
  deriving DecidableEq

inductive Json where
  | null
  | bool (b : Bool)
  | number (n : JsonNumber)
  | string (s : String)
  | array (items : List Json)
  | object (members : List (String × Json))

instance : Inhabited Json := ⟨.null⟩

namespace Json

/-- Replaces the value of a name, or adds a member at the end. -/
def putMember (name : String) (v : Json) : List (String × Json) → List (String × Json)
  | [] => [(name, v)]
  | m :: ms => if m.1 = name then (name, v) :: ms else m :: putMember name v ms

mutual
/-- The value with the repeated members of every object merged. -/
def merged : Json → Json
  | array items => array (mergedItems items)
  | object members => object (mergedMembers [] members)
  | v => v

def mergedItems : List Json → List Json
  | [] => []
  | v :: vs => merged v :: mergedItems vs

/-- The members `seen` with further ones merged into them. -/
def mergedMembers (seen : List (String × Json)) : List (String × Json) → List (String × Json)
  | [] => seen
  | (name, v) :: ms => mergedMembers (putMember name (merged v) seen) ms
end

/-- The value of the first member of a name. -/
def member? (name : String) : List (String × Json) → Option Json
  | [] => none
  | m :: ms => if m.1 = name then some m.2 else member? name ms

end Json
end TagHarvest
