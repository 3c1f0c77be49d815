/-
Edits of a record. The edits of a directive are compiled in the order assign, append, prepend, regex,
delete, rename, and applied one after the other. An edit whose field is missing is skipped, with a reason;
one that cannot be carried out fails.
-/
import TagHarvest.Conversion.Matchers
import TagHarvest.Directive.Document
import TagHarvest.Directive.Error
import TagHarvest.Expression

namespace TagHarvest

/-- What is assigned to a field. -/
inductive AssignedValue where
  | expression (e : Expression)
  | list (items : List String)

inductive Edit where
  | assign (field : String) (value : AssignedValue)
  | append (field : String) (value : FieldValue)
  | prepend (field : String) (value : FieldValue)
  /-- The pattern is given by its text. -/
  | regex (field pattern replacement : String)
  | delete (field : String)
  | rename (source target : String)

/-- Why an edit had nothing to do. -/
inductive Skip where
  | missing (field : String)
  | missingForPattern (field : String)
  | unchanged (pattern field : String)
  | missingToDelete (field : String)
  | missingToRename (field : String)
  deriving DecidableEq, Repr

/-- Why an edit cannot be carried out. -/
inductive EditFailure where
  | expression (e : ExpressionError)
  | listAsId
  | emptyId
  | shape (field : String) (m : ShapeMismatch)
  | notCompiled (pattern : String)
  deriving DecidableEq, Repr

namespace Skip

def message : Skip → String
  | missing f => s!"field '{f}' is missing"
  | missingForPattern f => s!"regex target field '{f}' is missing"
  | unchanged p f => s!"regex '{p}' made no change to field '{f}'"
  | missingToDelete f => s!"field '{f}' to delete is missing"
  | missingToRename f => s!"field '{f}' to rename is missing"

end Skip

namespace EditFailure

def message : EditFailure → String
  | expression e => e.message
  | listAsId => "cannot assign a list to 'id'"
  | emptyId => "cannot assign an empty 'id'"
  | shape f m => s!"field '{f}': {m.message}"
  | notCompiled p => s!"pattern '{p}' was not compiled"

end EditFailure

/-- What comes of an edit. -/
inductive EditOutcome where
  | done (r : Record)
  | skipped (s : Skip)
  | failed (f : EditFailure)
  /-- There is no place for the entry that is moved, and the run cannot go on. -/
  | aborted

namespace Edit

/-- Sets a field; an id must be a scalar that is not blank. -/
def applyAssign (m : Matchers) (r : Record) (field : String) (value : AssignedValue) :
    EditOutcome :=
  let v := match value with
    | .expression e => e.evaluate m.finds r
    | .list items => .ok (.list items)
  match v with
  | .error e => .failed (.expression e)
  | .ok v =>
    if field = idField then
      match v with
      | .list _ => .failed .listAsId
      | .scalar s =>
        if Text.isBlankText s then .failed .emptyId else .done (r.insert field v)
    else .done (r.insert field v)

/-- Changes the value of a field by joining another value to it. -/
def applyJoin (r : Record) (field : String)
    (join : FieldValue → Except ShapeMismatch FieldValue) : EditOutcome :=
  match r.get? field with
  | none => .skipped (.missing field)
  | some v =>
    match join v with
    | .ok v => .done (r.insert field v)
    | .error e => .failed (.shape field e)

/-- Replaces the matches of a pattern in the texts of a field. -/
def applyRegex (m : Matchers) (cache : PatternCache) (r : Record)
    (field pattern replacement : String) : EditOutcome :=
  match cache.get? pattern with
  | none => .failed (.notCompiled pattern)
  | some p =>
    match r.get? field with
    | none => .skipped (.missingForPattern field)
    | some v =>
      let w := v.mapTexts (m.replaceAll p replacement)
      if w = v then .skipped (.unchanged pattern field) else .done (r.insert field w)

/-- Takes a field out. -/
def applyDelete (r : Record) (field : String) : EditOutcome :=
  if r.contains field then .done (r.erase field) else .skipped (.missingToDelete field)

/-- Gives a field another name in its place. -/
def applyRename (r : Record) (source target : String) : EditOutcome :=
  match r.get? source, r.indexOf? source with
  | some v, some i =>
    match (r.erase source).place? (min i (r.erase source).size) target v with
    | some r => .done r
    | none => .aborted
  | _, _ => .skipped (.missingToRename source)

def apply (m : Matchers) (cache : PatternCache) (r : Record) : Edit → EditOutcome
  | assign field value => applyAssign m r field value
  | append field value => applyJoin r field (·.append value)
  | prepend field value => applyJoin r field (·.prepend value)
  | regex field pattern replacement => applyRegex m cache r field pattern replacement
  | delete field => applyDelete r field
  | rename source target => applyRename r source target

/-- What comes of several edits: the result of the last, and those that were skipped on the way. -/
def applyAll (m : Matchers) (cache : PatternCache) : List Edit → Record → List Skip × EditOutcome
  | [], r => ([], .done r)
  | e :: es, r =>
    match e.apply m cache r with
    | .done r => applyAll m cache es r
    | .skipped s =>
      let (ss, o) := applyAll m cache es r
      (s :: ss, o)
    | o => ([], o)

end Edit

/-- The place of a directive in its document. -/
structure DirectivePlace where
  table : String
  field : String
  key : String
  deriving DecidableEq, Repr

/-- Compilation, which keeps the patterns read before a failure. -/
abbrev CompileEdits := EStateM DirectiveError PatternCache

section

variable [PatternSyntax]

namespace PatternCache

/-- Reads a pattern, unless it has been read before. -/
def require (text : String) : CompileEdits Unit := do
  let cache ← get
  if cache.contains text then return ()
  else match PatternSyntax.compile text with
  | .ok p => set (cache.insert text p)
  | .error e => throw (.badPattern text e)

end PatternCache

namespace Edits

def compileAssign (field : String) (v : FieldValue) : CompileEdits Edit :=
  match v with
  | .list items => return .assign field (.list items)
  | .scalar text =>
    match Expression.compile text with
    | .ok e => return .assign field (.expression e)
    | .error (.malformed source cause) => throw (.badPattern source cause)
    | .error e => throw (.badPattern text (.malformed e.message))

def compileRegex (field : String) (pair : List String) : CompileEdits Edit := do
  match pair with
  | [pattern, replacement] =>
    PatternCache.require pattern
    return .regex field pattern (Pattern.normalize replacement)
  | _ => throw (.malformedPair field (.count pair.length))

def compileDelete (place : DirectivePlace) (field : String) : CompileEdits Edit :=
  if field = idField then throw (.deletesId place.table place.field place.key)
  else return .delete field

def compileRename (place : DirectivePlace) (source target : String) : CompileEdits Edit :=
  if source = idField ∨ target = idField then
    throw (.renamesId place.table place.field place.key)
  else return .rename source target

/-- The edits in the order in which they are applied. -/
def compile (place : DirectivePlace) (e : Edits) : CompileEdits (List Edit) := do
  let assigns ← e.assign.entries.mapM fun (f, v) => compileAssign f v
  let appends := e.append.entries.map fun (f, v) => Edit.append f v
  let prepends := e.prepend.entries.map fun (f, v) => Edit.prepend f v
  let regexes ← e.regex.entries.mapM fun (f, pair) => compileRegex f pair
  let deletes ← e.delete.mapM (compileDelete place)
  let renames ← e.rename.entries.mapM fun (source, target) => compileRename place source target
  return assigns ++ appends ++ prepends ++ regexes ++ deletes ++ renames

end Edits

end

end TagHarvest
