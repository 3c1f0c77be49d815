/-
Conversion programs: the directives of a document with their edits compiled, grouped by table and field
and ordered by passes. A directive that cannot be compiled is left out with a warning, or ends the
compilation if it is required.
-/
import TagHarvest.Conversion.Edit
import TagHarvest.Diagnostics

namespace TagHarvest

structure CompiledDirective where
  comparison : Comparison
  key : String
  edits : List Edit
  required : Bool

/-- The directives on one field, in the order of the passes. -/
structure DirectiveGroup where
  table : String
  field : String
  directives : List CompiledDirective

/-- True if one of the directives is required. -/
def DirectiveGroup.isRequired (g : DirectiveGroup) : Bool := g.directives.any (·.required)

structure ConversionProgram where
  groups : List DirectiveGroup
  cache : PatternCache

/-- The number of compiled directives. -/
def ConversionProgram.size (p : ConversionProgram) : Nat :=
  (p.groups.map fun g => g.directives.length).foldl (· + ·) 0

namespace ConversionProgram

section

variable [PatternSyntax]

/-- Compiles one directive; a key that is a pattern is read first. -/
def compileDirective (place : DirectivePlace) (c : Comparison) (e : Edits) :
    CompileEdits CompiledDirective := do
  if c.kind = .regex then PatternCache.require place.key
  return ⟨c, place.key, ← e.compile place, e.required⟩

/-- What compilation keeps, also when it fails. -/
structure State where
  cache : PatternCache := .empty
  diagnostics : Diagnostics := {}

abbrev Compiling := EStateM DirectiveError State

/-- Compiles a directive, or reports that it cannot be. -/
def directive? (place : DirectivePlace) (c : Comparison) (e : Edits) :
    Compiling (Option CompiledDirective) := do
  let s ← get
  match compileDirective place c e s.cache with
  | .ok d cache =>
    set { s with cache }
    return some d
  | .error failure cache =>
    set { s with cache, diagnostics := s.diagnostics.report e.required failure.message }
    if e.required then throw failure else return none

/-- The compiled directives of some keys. -/
def keyed (table field : String) (c : Comparison) (es : List (String × Edits)) :
    Compiling (List CompiledDirective) := do
  return (← es.mapM fun (key, e) => directive? ⟨table, field, key⟩ c e).filterMap id

/-- The group of a field, in the order of the passes. -/
def group (table field : String) (d : FieldDirectives) : Compiling DirectiveGroup := do
  let passes ← Comparison.passes.mapM fun c =>
    match d.get? c with
    | some es => keyed table field c es.entries
    | none => pure []
  return ⟨table, field, passes.flatten⟩

/-- The groups of a table that have directives. -/
def tableGroups (table : String) (d : TableDirectives) : Compiling (List DirectiveGroup) := do
  let groups ← d.entries.mapM fun (field, fd) => group table field fd
  return groups.filter fun g => !g.directives.isEmpty

/-- All groups of a document. -/
def groupsOf (d : ConversionDirectives) : Compiling (List DirectiveGroup) := do
  return (← d.entries.mapM fun (table, td) => tableGroups table td).flatten

/-- Compiles the directives of a document, and records what cannot be compiled. -/
def compile (d : ConversionDirectives) (diagnostics : Diagnostics) :
    Except DirectiveError ConversionProgram × Diagnostics :=
  match groupsOf d { diagnostics } with
  | .ok groups s => (.ok ⟨groups, s.cache⟩, s.diagnostics)
  | .error e s => (.error e, s.diagnostics)

end

end ConversionProgram
end TagHarvest
