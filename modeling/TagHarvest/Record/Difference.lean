/-
Differences of two stores: tables and records present on one side only, and fields of shared records
whose values differ. Two texts agree when they are equal or both close numerals, so `1.0` and `1` do;
a scalar never agrees with a list.
-/
import TagHarvest.Number.Numeral
import TagHarvest.Record.Store
import TagHarvest.Text.Blank

namespace TagHarvest

/-- Equal texts, or numerals that are close. -/
def textsAgree (a b : String) : Bool :=
  a == b ||
    match Numeral.read? (Text.trim a), Numeral.read? (Text.trim b) with
    | some m, some n => m.quantity.close n.quantity
    | _, _ => false

namespace FieldValue

/-- Values of one shape whose texts agree one by one. -/
def agrees (v w : FieldValue) : Bool :=
  v.isList == w.isList && v.texts.length == w.texts.length &&
    (v.texts.zip w.texts).all fun (a, b) => textsAgree a b

end FieldValue

/-- A field that is missing on one side, or whose values do not agree. -/
structure FieldDifference where
  field : String
  left : Option FieldValue
  right : Option FieldValue
  deriving DecidableEq, Repr

/-- Differences of two tables of one name. -/
structure TableDifference where
  onlyLeft : List String
  onlyRight : List String
  /-- Shared records with the fields in which they differ. -/
  records : List (String × List FieldDifference)
  deriving DecidableEq, Repr

/-- Differences of two stores. -/
structure StoreDifference where
  onlyLeft : List String
  onlyRight : List String
  tables : List (String × TableDifference)
  deriving DecidableEq, Repr

namespace OrderedMap

variable {α β : Type} [DecidableEq α]

/-- The keys of `m` that are not keys of `n`. -/
def keysMissingIn (m n : OrderedMap α β) : List α :=
  m.keys.filter fun k => !n.contains k

end OrderedMap

namespace Record

/-- The fields in which two records differ: those of the left one first. -/
def differences (agree : FieldValue → FieldValue → Bool) (l r : Record) : List FieldDifference :=
  let shared := l.entries.filterMap fun (field, v) =>
    match r.get? field with
    | some w => if agree v w then none else some ⟨field, some v, some w⟩
    | none => some ⟨field, some v, none⟩
  let added := (r.entries.filter fun e => !l.contains e.1).map fun (field, w) =>
    ⟨field, none, some w⟩
  shared ++ added

end Record

namespace Table

def differences (agree : FieldValue → FieldValue → Bool) (l r : Table) : TableDifference where
  onlyLeft := l.keysMissingIn r
  onlyRight := r.keysMissingIn l
  records := l.entries.filterMap fun (id, a) =>
    match r.get? id with
    | none => none
    | some b =>
      match a.differences agree b with
      | [] => none
      | ds => some (id, ds)

end Table

namespace TableDifference

def isEmpty (d : TableDifference) : Bool :=
  d.onlyLeft.isEmpty && d.onlyRight.isEmpty && d.records.isEmpty

/-- The lines that report the differences of a table. -/
def lines (table : String) (d : TableDifference) : List String :=
  let quoted (id : String) := table ++ "['" ++ id ++ "']"
  let side : Option FieldValue → String
    | some v => "'" ++ v.display ++ "'"
    | none => "<missing>"
  d.onlyLeft.map (fun id => quoted id ++ " only in the first store") ++
    d.onlyRight.map (fun id => quoted id ++ " only in the second store") ++
    d.records.flatMap fun (id, ds) =>
      ds.map fun f => quoted id ++ "." ++ f.field ++ ": " ++ side f.left ++ " != " ++ side f.right

end TableDifference

namespace Store

/-- The differences of two stores, values compared by `agree`. -/
def differencesBy (agree : FieldValue → FieldValue → Bool) (l r : Store) : StoreDifference where
  onlyLeft := l.keysMissingIn r
  onlyRight := r.keysMissingIn l
  tables := l.entries.filterMap fun (name, t) =>
    match r.get? name with
    | none => none
    | some u =>
      let d := t.differences agree u
      if d.isEmpty then none else some (name, d)

/-- The differences of two stores. -/
def differences (l r : Store) : StoreDifference := l.differencesBy FieldValue.agrees r

end Store

namespace StoreDifference

def isIdentical (d : StoreDifference) : Bool :=
  d.onlyLeft.isEmpty && d.onlyRight.isEmpty && d.tables.isEmpty

/-- The lines that report every difference. -/
def lines (d : StoreDifference) : List String :=
  d.onlyLeft.map (fun t => "Table '" ++ t ++ "' only in the first store") ++
    d.onlyRight.map (fun t => "Table '" ++ t ++ "' only in the second store") ++
    d.tables.flatMap fun (name, t) => t.lines name

end StoreDifference
end TagHarvest
