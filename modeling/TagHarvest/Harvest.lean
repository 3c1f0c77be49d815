/-
Harvesting a worksheet: its rows, read by the header above them, become records of the store. A `#tags`
row opens a block, a blank row closes it, and `#ignore` rows are passed over. The latest project and
study ids go on from one worksheet to the next and are attached to the records of lower tables.
-/
import TagHarvest.Header.Compile
import TagHarvest.Record.Hierarchy
import TagHarvest.Record.Merge

namespace TagHarvest

/-- How many headers, rows and records a worksheet gave. -/
structure HarvestCount where
  headers : Nat := 0
  rows : Nat := 0
  records : Nat := 0
  deriving DecidableEq, Repr

/-- How records are attached to projects and studies. -/
structure HarvestRules where
  hierarchy : Hierarchy := .standard
  /-- Whether records take the latest project and study ids. -/
  propagate : Bool := true

/-- The store, with the latest project and study ids. -/
structure Harvest where
  store : Store
  project : Option String := none
  study : Option String := none
  deriving DecidableEq

namespace Harvest

def projectTable : String := "project"
def studyTable : String := "study"

/-- Notes the ids of the projects and studies among the records of a row. -/
def note (h : Harvest) (built : List (String × Record)) : Harvest :=
  built.foldl
    (fun h (table, r) =>
      if table = projectTable then { h with project := r.id? }
      else if table = studyTable then { h with study := r.id? }
      else h) h

/-- Gives a record the latest id of a table above its own, unless it names one. -/
def attach (rules : HarvestRules) (table ancestor : String) (latest : Option String)
    (r : Record) : Record :=
  let field := ancestor ++ ".id"
  match latest with
  | some id =>
    if rules.hierarchy.isBelow table ancestor && !r.contains field then
      r.insert field (.scalar id)
    else r
  | none => r

/-- A record with the latest project and study ids attached. -/
def propagated (rules : HarvestRules) (h : Harvest) (table : String) (r : Record) : Record :=
  if rules.propagate then
    attach rules table studyTable h.study (attach rules table projectTable h.project r)
  else r

/-- The records that a header makes of a row, with their tables. -/
def build (recipes : List RecordRecipe) (row : Row) : List (String × Record) :=
  recipes.filterMap fun r => (r.build row).map fun record => (r.table, record)

/-- Takes the records of a row into the store. -/
def absorb (rules : HarvestRules) (h : Harvest) (built : List (String × Record)) : Harvest :=
  let h := h.note built
  let store := built.foldl
    (fun s (table, r) => s.mergeRecord table (h.propagated rules table r)) h.store
  { h with store }

/-- What a row does under the header in force; `compile` gives the recipes of a header row. -/
def row (rules : HarvestRules) (compile : Except TagError (List RecordRecipe)) (cells : Row)
    (scope : Option (List RecordRecipe)) (count : HarvestCount) (h : Harvest) :
    Except TagError (Option (List RecordRecipe) × HarvestCount × Harvest) :=
  if cells.isTags then
    compile.map fun recipes => (some recipes, { count with headers := count.headers + 1 }, h)
  else if cells.isIgnore then .ok (scope, count, h)
  else if cells.isBlank then .ok (none, count, h)
  else match scope with
  | none => .ok (none, count, h)
  | some recipes =>
    let built := build recipes cells
    .ok (scope,
      { count with rows := count.rows + 1, records := count.records + built.length },
      h.absorb rules built)

/--
Harvests the rows of a worksheet from an index on. When a header does not compile, the rows above it
have been taken in.
-/
def rows (rules : HarvestRules) (sheet : Worksheet) :
    (index : Nat) → List Row → Option (List RecordRecipe) → HarvestCount → Harvest →
      Except TagError HarvestCount × Harvest
  | _, [], _, count, h => (.ok count, h)
  | index, cells :: rest, scope, count, h =>
    match row rules (compileHeader sheet index) cells scope count h with
    | .error e => (.error e, h)
    | .ok (scope, count, h) => rows rules sheet (index + 1) rest scope count h

/-- Harvests a worksheet: its counts or the fault that ended it, and the state after it. -/
def worksheet (rules : HarvestRules) (h : Harvest) (sheet : Worksheet) :
    Except TagError HarvestCount × Harvest :=
  rows rules sheet 0 sheet.rows none {} h

end Harvest
end TagHarvest
