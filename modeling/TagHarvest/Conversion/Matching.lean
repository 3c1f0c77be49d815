/-
Which records a directive is about. The values of a field that may still be used make a candidate of each
record; keys are matched with candidates exactly, by a pattern, or by distance. A key and a candidate
belong together by distance only if no other key, or for mutual matching no other candidate either, is as
near.
-/
import TagHarvest.Record.Store

namespace TagHarvest

/-- A record with the values of its field that may be used, of which there is at least one. -/
structure Candidate where
  id : String
  values : List String
  values_ne_nil : values ≠ []

/-- A record that a key matches, and the value by which it does. -/
structure RecordMatch where
  id : String
  value : String
  deriving DecidableEq, Repr

namespace Candidate

/-- The candidate of some values, if there are any. -/
def of? (id : String) (values : List String) : Option Candidate :=
  if h : values = [] then none else some ⟨id, values, h⟩

/-- The nearer of two values, the first if they are as near; a value comes with its distance. -/
def nearer (a b : Nat × String) : Nat × String := if b.1 < a.1 then b else a

/-- The least distance of a key to a value of the candidate, and the first value at that distance. -/
def closest (distance : String → String → Nat) (key : String) (c : Candidate) : Nat × String :=
  let at_ (v : String) : Nat × String := (distance key v, v)
  (c.values.tail.map at_).foldl nearer (at_ (c.values.head c.values_ne_nil))

/-- The match by the value closest to a key. -/
def matchOf (distance : String → String → Nat) (key : String) (c : Candidate) : RecordMatch :=
  ⟨c.id, (c.closest distance key).2⟩

end Candidate

/-- The candidates of a field: the values of each record that are `usable`. -/
def Table.candidates (t : Table) (field : String) (usable : String → Bool) : List Candidate :=
  t.entries.filterMap fun (id, r) =>
    (r.get? field).bind fun v => Candidate.of? id (v.texts.filter usable)

/-- The candidates with a value that passes a test, each with the first such value. -/
def matchesBy (test : String → Bool) (cs : List Candidate) : List RecordMatch :=
  cs.filterMap fun c => (c.values.find? test).map fun v => ⟨c.id, v⟩

/-- The candidates that hold the key. -/
def exactMatches (key : String) (cs : List Candidate) : List RecordMatch :=
  matchesBy (· == key) cs

/-- The index of a number that is less than all others of the list. -/
def strictMin? (ds : List Nat) : Option Nat :=
  match ds.min? with
  | none => none
  | some m => if ds.count m = 1 then ds.idxOf? m else none

section Nearest

variable (distance : String → String → Nat) (keys : List String) (cs : List Candidate)

/-- The key that is nearer to a candidate than all others, by its index. -/
def bestKey? (c : Candidate) : Option Nat :=
  strictMin? (keys.map fun k => (c.closest distance k).1)

/-- The candidate that is nearer to a key than all others, by its index. -/
def bestCandidate? (key : String) : Option Nat :=
  strictMin? (cs.map fun c => (c.closest distance key).1)

/-- Each candidate with the key that is nearest to it; several may have the same key. -/
def nearestMatches : List (Nat × RecordMatch) :=
  cs.filterMap fun c => do
    let i ← bestKey? distance keys c
    let key ← keys[i]?
    return (i, c.matchOf distance key)

/-- Each key with the candidate that is nearest to it, if the key is nearest to that candidate too. -/
def mutualMatches : List (Nat × RecordMatch) :=
  keys.zipIdx.filterMap fun (key, i) => do
    let c ← cs[← bestCandidate? distance cs key]?
    if bestKey? distance keys c = some i then some (i, c.matchOf distance key) else none

end Nearest
end TagHarvest
