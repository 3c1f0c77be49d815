/-
Directives: what is done to a worksheet before it is harvested (tagging) and to the store afterwards
(conversion). A conversion directive stands under a table, a field, a way of comparing and a key, and
holds the edits for the records that match. Documents are folded together with `extend`.
-/
import TagHarvest.Record.Store
import TagHarvest.Text.Blank
import TagHarvest.Text.Case

namespace TagHarvest

/-- How a key is compared with the values of a field. -/
inductive MatchKind where
  | exact
  | regex
  | levenshtein
  deriving DecidableEq, Repr

/-- A way of comparing; a unique one takes each value for itself. -/
structure Comparison where
  kind : MatchKind
  unique : Bool
  deriving DecidableEq, Repr

namespace MatchKind

def name : MatchKind → String
  | exact => "exact"
  | regex => "regex"
  | levenshtein => "levenshtein"

/-- The kind that a cell names, in any case of letters; an empty cell means exact. -/
def ofCell? (cell : String) : Option MatchKind :=
  match Text.lowerAscii (Text.trim cell) with
  | "" => some exact
  | "exact" => some exact
  | "regex" => some regex
  | "levenshtein" => some levenshtein
  | _ => none

end MatchKind

namespace Comparison

def name (c : Comparison) : String :=
  if c.unique then c.kind.name ++ "-unique" else c.kind.name

/-- The comparisons in the order of their passes over a field. -/
def passes : List Comparison :=
  [⟨.exact, true⟩, ⟨.regex, true⟩, ⟨.levenshtein, true⟩,
    ⟨.exact, false⟩, ⟨.regex, false⟩, ⟨.levenshtein, false⟩]

def ofName? (s : String) : Option Comparison := passes.find? (·.name == s)

end Comparison

/-- The edits of a directive; a scalar that is assigned is an expression. -/
structure Edits where
  assign : OrderedMap String FieldValue := .empty
  append : OrderedMap String FieldValue := .empty
  prepend : OrderedMap String FieldValue := .empty
  /-- A pattern and its replacement for each field. -/
  regex : OrderedMap String (List String) := .empty
  delete : List String := []
  rename : OrderedMap String String := .empty
  /-- Whether a failure ends the run. -/
  required : Bool := false
  deriving DecidableEq

/-- True if nothing is edited. -/
def Edits.isEmpty (e : Edits) : Bool :=
  e.assign.isEmpty && e.append.isEmpty && e.prepend.isEmpty && e.regex.isEmpty &&
    e.delete.isEmpty && e.rename.isEmpty

/-- Edits by key. -/
abbrev KeyedEdits := OrderedMap String Edits

/-- Keyed edits by comparison. -/
abbrev FieldDirectives := OrderedMap Comparison KeyedEdits

/-- Directives of a table by field. -/
abbrev TableDirectives := OrderedMap String FieldDirectives

/-- Conversion directives by table. -/
abbrev ConversionDirectives := OrderedMap String TableDirectives

/-- A test for header cells and the tag that a passing one gets. -/
structure HeaderDescription where
  header : String
  tag : String
  required : Bool := false
  deriving DecidableEq, Repr

/-- Tagging directives that belong together. -/
structure TaggingGroup where
  descriptions : List HeaderDescription := []
  /-- A row with a cell that passes this test is no header. -/
  exclusion : Option String := none
  insert : List (List String) := []
  insertMultiple : Bool := false
  deriving DecidableEq, Repr

structure Directives where
  conversion : ConversionDirectives := .empty
  tagging : List TaggingGroup := []
  deriving DecidableEq

namespace FieldDirectives

/-- Adds keyed edits; a key that is there takes the new edits. -/
def extend (d other : FieldDirectives) : FieldDirectives :=
  other.entries.foldl (fun d e => d.alter e.1 fun old => (old.getD .empty).insertAll e.2.entries) d

end FieldDirectives

namespace TableDirectives

def extend (d other : TableDirectives) : TableDirectives :=
  other.entries.foldl (fun d e => d.alter e.1 fun old =>
    FieldDirectives.extend (old.getD .empty) e.2) d

end TableDirectives

namespace ConversionDirectives

def extend (d other : ConversionDirectives) : ConversionDirectives :=
  other.entries.foldl (fun d e => d.alter e.1 fun old =>
    TableDirectives.extend (old.getD .empty) e.2) d

/-- Puts the edits of one directive into its place. -/
def put (d : ConversionDirectives) (table field : String) (c : Comparison) (key : String)
    (e : Edits) : ConversionDirectives :=
  d.alter table fun t => (t.getD .empty).alter field fun f => (f.getD .empty).alter c fun k =>
    (k.getD .empty).insert key e

/-- The number of directives. -/
def count (d : ConversionDirectives) : Nat :=
  (d.values.flatMap fun t => t.values.flatMap fun f => f.values.map OrderedMap.size).foldl (· + ·) 0

end ConversionDirectives

namespace Directives

def isEmpty (d : Directives) : Bool := d.conversion.isEmpty && d.tagging.isEmpty

/-- Adds the directives of another document; its edits win, its tagging groups come last. -/
def extend (d other : Directives) : Directives :=
  ⟨ConversionDirectives.extend d.conversion other.conversion, d.tagging ++ other.tagging⟩

end Directives
end TagHarvest
