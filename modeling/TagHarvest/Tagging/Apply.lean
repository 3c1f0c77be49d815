/-
Tagging a worksheet. The values of a block go into new columns on the right, so that no cell moves
sideways; an `#ignore` row with the labels and a `#tags` row with the tags go in below the header, or
are continued where an earlier group put them. Groups without descriptions insert rows only.
-/
import TagHarvest.Diagnostics
import TagHarvest.Tagging.Block

namespace TagHarvest

/-- What tagging changed. -/
structure TaggingSummary where
  headers : Nat := 0
  columns : Nat := 0
  rows : Nat := 0
  deriving DecidableEq, Repr

def TaggingSummary.display (s : TaggingSummary) : String :=
  s!"Tagged: {s.headers} headers, {s.columns} columns added, {s.rows} rows inserted"

structure TaggingState where
  sheet : Worksheet
  diagnostics : Diagnostics
  summary : TaggingSummary := {}

/-- A part of tagging, which may fail and then keeps what it did before. -/
abbrev Tagging := EStateM TaggingError TaggingState

namespace Tagging

/-- Notes how much was changed. -/
def tally (headers columns rows : Nat) : Tagging Unit :=
  modify fun s => { s with summary :=
    ⟨s.summary.headers + headers, s.summary.columns + columns, s.summary.rows + rows⟩ }

def warn (message : String) : Tagging Unit :=
  modify fun s => { s with diagnostics := s.diagnostics.warn message }

/-- Changes the rows of the worksheet. -/
def setRows (rows : List Row) : Tagging Unit :=
  modify fun s => { s with sheet := { s.sheet with rows } }

/-- Puts rows in at an index. -/
def splice (index : Nat) (inserted : List Row) : Tagging Unit := do
  let rows := (← get).sheet.rows
  setRows (rows.take index ++ inserted ++ rows.drop index)
  tally 0 0 inserted.length

/-- Puts the rows of a group without descriptions at the top, or above every `#tags` row. -/
def insertRows (g : TaggingGroup) : Tagging Unit := do
  if g.insertMultiple then
    let rows := (← get).sheet.rows
    setRows (rows.flatMap fun r => if r.isTags then g.insert ++ [r] else [r])
    tally 0 0 ((rows.filter Row.isTags).length * g.insert.length)
  else splice 0 g.insert

/-- New cells right of a width. -/
def extendRow (width : Nat) (cells : List String) (row : Row) : Row := row.pad width ++ cells

section

variable (finds : Pattern → String → Bool)

/-- The new cell of a description in a data row; an optional one is left empty when it fails. -/
def newCell (s : Worksheet) (header : Row) (index : Nat) (row : Row)
    (d : Description × Option ValueSource) : EStateM TaggingError Diagnostics String :=
  match d.2 with
  | none => return ""
  | some (.column c) => return row.cell c
  | some (.computed e) =>
    match e.evaluate finds (HeaderTest.dataRecord header row) with
    | .ok v => return ",".intercalate v.texts
    | .error cause => do
      let tag := d.1.header.tag
      if d.1.header.required then throw (.requiredFailed tag s.name index cause)
      modify (·.warn
        s!"{s.source}:{s.name} row {index + 1}: '{tag}' left empty: {cause.message}")
      return ""

/--
Adds the new cells to the data rows from an index on, with `#ignore` rows left as they are. A failure
leaves its row and those below unchanged.
-/
def fillRows (s : Worksheet) (header : Row) (width : Nat)
    (ds : List (Description × Option ValueSource)) :
    (index : Nat) → List Row → Diagnostics → Option TaggingError × List Row × Diagnostics
  | _, [], log => (none, [], log)
  | index, row :: rows, log =>
    if row.isIgnore then
      let (e, filled, log) := fillRows s header width ds (index + 1) rows log
      (e, row :: filled, log)
    else match ds.mapM (newCell finds s header index row) log with
    | .error e log => (some e, row :: rows, log)
    | .ok cells log =>
      let (e, filled, log) := fillRows s header width ds (index + 1) rows log
      (e, extendRow width cells row :: filled, log)

/-- The new cells of the label row or the tag row, empty for a description without a source. -/
def labelCells (text : HeaderDescription → String) (ds : List (Description × Option ValueSource)) :
    List String :=
  ds.map fun d => if d.2.isSome then text d.1.header else ""

/-- Fills the new columns of a block, which begin at `width`, and labels them. -/
def tagBlock (ds : List Description) (width : Nat) (b : Block) : Tagging Unit := do
  let s ← get
  let rows := s.sheet.rows
  let ds := ds.zip b.sources
  let header := s.sheet.row b.header
  let (failure, filled, log) := fillRows finds s.sheet header width ds b.start
    ((rows.drop b.start).take b.length) s.diagnostics
  modify fun s => { s with diagnostics := log }
  let below := rows.drop b.stop
  match failure with
  | some e =>
    setRows (rows.take b.start ++ filled ++ below)
    throw e
  | none =>
    let labels := if b.tagged then s.sheet.row (b.header + 1) else ["#ignore"]
    let tags := if b.tagged then s.sheet.row (b.header + 2) else ["#tags"]
    setRows (rows.take (b.header + 1) ++
      [extendRow width (labelCells (·.header) ds) labels,
        extendRow width (labelCells (·.tag) ds) tags] ++ filled ++ below)
    tally 0 0 (if b.tagged then 0 else 2)

/-- Tags blocks from the bottom up; rows of the group go in above each header, or the first only. -/
def tagBlocks (g : TaggingGroup) (ds : List Description) (width : Nat) (first : Bool) :
    List Block → Tagging Unit
  | [] => return ()
  | b :: bs => do
    tagBlocks g ds width false bs
    tagBlock finds ds width b
    if first || g.insertMultiple then splice b.header g.insert

variable [PatternSyntax]

/-- Applies the group that comes at an index. -/
def applyGroup (index : Nat) (g : TaggingGroup) : Tagging Unit := do
  if g.descriptions.isEmpty then insertRows g
  else
    let compiled : Except TaggingError (List Description × Option HeaderTest) := do
      let ds ← g.descriptions.mapM Description.compile
      let exclusion ← g.exclusion.mapM HeaderTest.ofText
      return (ds, exclusion)
    match compiled with
    | .error e => throw e
    | .ok (ds, exclusion) =>
      let sheet := (← get).sheet
      match Block.find finds ds exclusion 0 false sheet.rows with
      | [] =>
        warn s!"Tagging group {index + 1} matched no header in {sheet.source}:{sheet.name}"
      | blocks => do
        tally blocks.length ds.length 0
        tagBlocks finds g ds sheet.width true blocks

/-- Applies groups that begin at an index, one after the other. -/
def applyGroups : (index : Nat) → List TaggingGroup → Tagging Unit
  | _, [] => return ()
  | index, g :: gs => do
    applyGroup finds index g
    applyGroups (index + 1) gs

end

end Tagging

/-- The end of tagging: the summary or the fault, and the worksheet and diagnostics after it. -/
structure TaggingOutcome where
  result : Except TaggingError TaggingSummary
  sheet : Worksheet
  diagnostics : Diagnostics

/-- Applies tagging groups to a worksheet. -/
def Worksheet.applyTagging [PatternSyntax] (finds : Pattern → String → Bool) (sheet : Worksheet)
    (groups : List TaggingGroup) (log : Diagnostics) : TaggingOutcome :=
  match Tagging.applyGroups finds 0 groups ⟨sheet, log, {}⟩ with
  | .ok _ s => ⟨.ok s.summary, s.sheet, s.diagnostics⟩
  | .error e s => ⟨.error e, s.sheet, s.diagnostics⟩

end TagHarvest
