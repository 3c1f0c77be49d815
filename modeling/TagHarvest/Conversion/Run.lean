/-
Running a conversion. The groups of a program work on the store one after the other, each in the passes
exact, regex and levenshtein, first for unique directives and then for the others; a unique directive
takes the value it matched from those after it. Records keep their old keys until all groups have run,
and then renames are propagated.
-/
import TagHarvest.Conversion.Matching
import TagHarvest.Conversion.Program
import TagHarvest.Conversion.Rename

namespace TagHarvest

/-- A directive that matched no record. -/
structure UnusedDirective where
  table : String
  field : String
  comparison : Comparison
  key : String
  deriving DecidableEq, Repr

def UnusedDirective.display (u : UnusedDirective) : String :=
  s!"{u.table}.{u.field} [{u.comparison.name}] '{u.key}' matched no record"

/-- What a conversion did. -/
structure ConversionReport where
  /-- How often a directive changed a record. -/
  applied : Nat
  renames : List Rename
  unused : List UnusedDirective
  deriving DecidableEq, Repr

def ConversionReport.summary (r : ConversionReport) : String :=
  s!"Converted: {r.applied} applications, {r.renames.length} id renames, " ++
    s!"{r.unused.length} unused directives"

/-- What a run has done so far. -/
structure RunState where
  store : Store
  diagnostics : Diagnostics
  applied : Nat := 0
  /-- The values that unique directives of the group have taken. -/
  consumed : List String := []
  /-- The directives of the group that have matched, by their indices. -/
  used : List Nat := []

/-- A part of a run, which may fail and then keeps what it did before. -/
abbrev Run := EStateM DirectiveError RunState

/-- A directive with its index in its group. -/
abbrev IndexedDirective := CompiledDirective × Nat

namespace Run

def warn (message : String) : Run Unit :=
  modify fun s => { s with diagnostics := s.diagnostics.warn message }

/-- Records a failure, which ends the run if it is of something required. -/
def report (required : Bool) (e : DirectiveError) : Run Unit := do
  modify fun s => { s with diagnostics := s.diagnostics.report required e.message }
  if required then throw e

section

variable (m : Matchers) (cache : PatternCache) (g : DirectiveGroup)

/--
Applies a directive to the record it matched: all of its edits, or none if one of them fails. Tells
whether the record was changed.
-/
def applyDirective (d : CompiledDirective) (found : RecordMatch) : Run Bool := do
  match (← get).store.record? g.table found.id with
  | none => return false
  | some r =>
    let (skips, outcome) := Edit.applyAll m cache d.edits r
    skips.forM fun s =>
      warn s!"{g.table}.{g.field} = '{d.key}' on record '{found.id}': {s.message}"
    match outcome with
    | .done r =>
      modify fun s => { s with store := s.store.updateRecord g.table found.id fun _ => r }
      return true
    | .failed f =>
      report d.required
        (.failed g.table g.field d.key s!"record '{found.id}': {f.message}")
      return false
    | .skipped _ => return false
    | .aborted => throw .aborted

/-- Applies a directive and counts it if the record was changed. -/
def applyCounted (d : CompiledDirective) (found : RecordMatch) : Run Unit := do
  if ← applyDirective m cache g d found then
    modify fun s => { s with applied := s.applied + 1 }

/-- Notes that a directive has matched. -/
def markUsed (i : Nat) : Run Unit :=
  modify fun s => { s with used := i :: s.used }

/-- Takes a value from the unique directives that follow. -/
def consume (value : String) : Run Unit :=
  modify fun s => { s with consumed := value :: s.consumed }

/-- The candidates of the group's field; for unique directives without the values taken before. -/
def candidates (unique : Bool) : Run (List Candidate) := do
  let s ← get
  return ((s.store.table? g.table).map fun t =>
    t.candidates g.field fun v => !unique || !s.consumed.contains v).getD []

/-- The records that a directive matches exactly or by its pattern. -/
def matchesOf (d : CompiledDirective) (cs : List Candidate) : List RecordMatch :=
  if d.comparison.kind = .regex then
    match cache.get? d.key with
    | some p => matchesBy (m.finds p) cs
    | none => []
  else exactMatches d.key cs

/-- Runs a directive that matches exactly or by a pattern; a unique one has its first match only. -/
def runDirective (d : IndexedDirective) : Run Unit := do
  let (d, i) := d
  match matchesOf m cache d (← candidates g d.comparison.unique) with
  | [] => return ()
  | found :: more =>
    markUsed i
    if d.comparison.unique then
      if !more.isEmpty then
        warn <| s!"{g.table}.{g.field} [{d.comparison.name}] '{d.key}' matched " ++
          s!"{more.length + 1} records; applying to '{found.id}' only"
      consume found.value
      applyCounted m cache g d found
    else
      (found :: more).forM (applyCounted m cache g d)

/-- Applies a directive to the record that is nearest to its key. -/
def runNearest (pass : List IndexedDirective) (pair : Nat × RecordMatch) : Run Unit := do
  match pass[pair.1]? with
  | none => return ()
  | some (d, i) =>
    markUsed i
    if d.comparison.unique then consume pair.2.value
    applyCounted m cache g d pair.2

/-- Runs the directives that match by distance, all of which see the same candidates. -/
def runDistancePass (unique : Bool) (pass : List IndexedDirective) : Run Unit := do
  let cs ← candidates g unique
  let keys := pass.map fun d => d.1.key
  let pairs :=
    if unique then mutualMatches m.distance keys cs else nearestMatches m.distance keys cs
  pairs.forM (runNearest m cache g pass)

/-- Runs the directives of a group that compare in one way. -/
def runPass (c : Comparison) : Run Unit := do
  let pass := g.directives.zipIdx.filter fun d => d.1.comparison = c
  if c.kind = .levenshtein then
    if pass.isEmpty then return () else runDistancePass m cache g c.unique pass
  else pass.forM (runDirective m cache g)

/-- Runs all passes of a group. -/
def runGroup : Run Unit := do
  modify fun s => { s with consumed := [], used := [] }
  Comparison.passes.forM (runPass m cache g)

/-- What the store lacks of a group's target. -/
def missingTarget? (s : Store) : Option MissingTarget :=
  match s.table? g.table with
  | none => some (.table g.table)
  | some t =>
    if t.values.any fun r => r.contains g.field then none else some (.field g.field g.table)

/-- The directives of a group that are not among the used ones. -/
def unusedOf (used : List Nat) : List UnusedDirective :=
  (g.directives.zipIdx.filter fun d => !used.contains d.2).map fun d =>
    ⟨g.table, g.field, d.1.comparison, d.1.key⟩

/-- Runs a group whose target is there, and tells which of its directives matched nothing. -/
def convertGroup : Run (List UnusedDirective) := do
  match missingTarget? g (← get).store with
  | some target =>
    report g.isRequired (.missingTarget target)
    modify fun s => { s with used := [] }
  | none => runGroup m cache g
  let unused := unusedOf g (← get).used
  unused.forM fun u => warn s!"Unused conversion directive: {u.display}"
  return unused

end

/-- Re-keys the renamed records. -/
def propagate : Run (List Rename) := do
  let (store, r) := (← get).store.propagateRenames
  modify fun s => { s with store }
  match r with
  | .ok renames => return renames
  | .error e => throw e

/-- Runs a program. -/
def program (m : Matchers) (p : ConversionProgram) : Run ConversionReport := do
  let unused ← p.groups.mapM (convertGroup m p.cache)
  let renames ← propagate
  return ⟨(← get).applied, renames, unused.flatten⟩

end Run

/-- A conversion's report or failure, with the store and the diagnostics after it. -/
structure Conversion where
  result : Except DirectiveError ConversionReport
  store : Store
  diagnostics : Diagnostics

namespace Store

/-- Runs a compiled conversion on a store. -/
def convert (m : Matchers) (s : Store) (p : ConversionProgram) (diagnostics : Diagnostics) :
    Conversion :=
  match Run.program m p { store := s, diagnostics } with
  | .ok r t => ⟨.ok r, t.store, t.diagnostics⟩
  | .error e t => ⟨.error e, t.store, t.diagnostics⟩

/-- Compiles conversion directives and runs them on a store. -/
def applyConversion [PatternSyntax] (m : Matchers) (s : Store) (d : ConversionDirectives)
    (diagnostics : Diagnostics) : Conversion :=
  match ConversionProgram.compile d diagnostics with
  | (.ok p, diagnostics) => s.convert m p diagnostics
  | (.error e, diagnostics) => ⟨.error e, s, diagnostics⟩

end Store
end TagHarvest
