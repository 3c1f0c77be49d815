/-
Values of record fields: one text, or an ordered list of texts. `merge` is what happens when two rows
give the same field of the same record; `extend` is what happens when two columns of one row do.
-/

namespace TagHarvest

/-- One text, or an ordered list of texts. -/
inductive FieldValue where
  | scalar (text : String)
  | list (items : List String)
  deriving DecidableEq, Repr, Inhabited

/-- Why two values cannot be concatenated. -/
inductive ShapeMismatch where
  | lengths (left right : Nat)
  | listIntoScalar
  deriving DecidableEq, Repr

namespace ShapeMismatch

def message : ShapeMismatch → String
  | lengths left right => s!"list lengths differ ({left} vs {right})"
  | listIntoScalar => "cannot combine a list into a scalar field"

end ShapeMismatch

namespace FieldValue

def isList : FieldValue → Bool
  | scalar _ => false
  | list _ => true

def asScalar? : FieldValue → Option String
  | scalar s => some s
  | list _ => none

/-- The texts of a value; a scalar has one. -/
def texts : FieldValue → List String
  | scalar s => [s]
  | list l => l

/-- True if one of the texts is `needle`. -/
def contains (v : FieldValue) (needle : String) : Bool :=
  v.texts.contains needle

/-- True of the empty scalar and of the empty list. -/
def isEmpty : FieldValue → Bool
  | scalar s => s.isEmpty
  | list l => l.isEmpty

/-- Adds the texts that are not there yet, each once. -/
def addNew (present incoming : List String) : List String :=
  incoming.foldl (fun seen s => if s ∈ seen then seen else seen ++ [s]) present

/--
The value after another row gives `incoming`: an equal value changes nothing, a list gains the texts
it does not hold, and a scalar becomes a list as soon as it meets a second text.
-/
def merge (v incoming : FieldValue) : FieldValue :=
  if v = incoming then v
  else match v with
    | list l => list (addNew l incoming.texts)
    | scalar s =>
      match addNew [s] incoming.texts with
      | [t] => scalar t
      | l => list l

/-- The value after another column of the same row gives `incoming`: all texts, in order. -/
def extend (v incoming : FieldValue) : FieldValue :=
  list (v.texts ++ incoming.texts)

/-- A function applied to the scalar or to each item. -/
def mapTexts (f : String → String) : FieldValue → FieldValue
  | scalar s => scalar (f s)
  | list l => list (l.map f)

/--
Joins `other` to a value: scalar to scalar, scalar to every item of a list, or two lists of one length
item by item.
-/
def combine (join : String → String → String) :
    FieldValue → FieldValue → Except ShapeMismatch FieldValue
  | scalar s, scalar t => .ok (scalar (join s t))
  | list l, scalar t => .ok (list (l.map (join · t)))
  | list l, list m =>
    if l.length = m.length then .ok (list (List.zipWith join l m))
    else .error (.lengths l.length m.length)
  | scalar _, list _ => .error .listIntoScalar

/-- Writes `suffix` after the value. -/
def append (v suffix : FieldValue) : Except ShapeMismatch FieldValue :=
  v.combine (fun current other => current ++ other) suffix

/-- Writes `lead` before the value. -/
def prepend (v lead : FieldValue) : Except ShapeMismatch FieldValue :=
  v.combine (fun current other => other ++ current) lead

/-- Writes `new` for every text `old`. -/
def replace (v : FieldValue) (old new : String) : FieldValue :=
  v.mapTexts fun s => if s = old then new else s

/-- The text shown for a value: the scalar itself, or the items in square brackets. -/
def display : FieldValue → String
  | scalar s => s
  | list l => "[" ++ ", ".intercalate l ++ "]"

@[simp] theorem texts_extend (v w : FieldValue) : (v.extend w).texts = v.texts ++ w.texts := rfl

@[simp] theorem merge_self (v : FieldValue) : v.merge v = v := by simp [merge]

end FieldValue
end TagHarvest
