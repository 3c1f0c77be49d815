/-
Why directives cannot be loaded or applied.
-/
import TagHarvest.Header.Fault
import TagHarvest.Pattern.Search
import TagHarvest.Text.Quoted

namespace TagHarvest

/-- What is wrong with the cell or the list that gives a pattern and its replacement. -/
inductive PairFault where
  | lexical (e : LexError) (location : Location)
  | shape (cell : String) (location : Location)
  | count (n : Nat)
  deriving DecidableEq, Repr

/-- What a conversion directive is aimed at and the store does not have. -/
inductive MissingTarget where
  | table (name : String)
  | field (name owner : String)
  deriving DecidableEq, Repr

inductive DirectiveError where
  /-- A rename from or to the id field. -/
  | renamesId (table field key : String)
  | schema (errors : List String)
  | badPattern (pattern : String) (cause : Pattern.Error)
  | malformedPair (field : String) (fault : PairFault)
  | deletesId (table field key : String)
  | invalidId (table id : String)
  | idCollision (table old new : String)
  | missingTarget (target : MissingTarget)
  /-- A required directive failed on a record. -/
  | failed (table field key : String) (message : String)
  | tag (e : TagError)
  | json
  /-- An edit that has no result ended the run. -/
  | aborted
  deriving DecidableEq, Repr

namespace PairFault

def message : PairFault → String
  | lexical e l => s!"{e.message} at {l.display}"
  | shape cell l => s!"expected '\"pattern\", \"replacement\"', found '{cell}' at {l.display}"
  | count n => s!"expected [pattern, replacement], found {n} element(s)"

end PairFault

namespace MissingTarget

def message : MissingTarget → String
  | table name => s!"table '{name}'"
  | field name owner => s!"field '{name}' in table '{owner}'"

end MissingTarget

namespace DirectiveError

def message : DirectiveError → String
  | renamesId table field key =>
    s!"Invalid directives document: directive {table}.{field} = '{key}' renames to or from the id " ++
      "field; assign the id instead"
  | schema errors => "Directives failed schema validation: " ++ Text.quotedList errors
  | badPattern p cause => s!"Invalid regular expression '{p}': {cause.message}"
  | malformedPair field fault => s!"Malformed regex pair for field '{field}': {fault.message}"
  | deletesId table field key =>
    s!"Directive for {table}.{field} = '{key}' tries to delete the id field"
  | invalidId table id => s!"Record '{id}' in table '{table}' has an invalid id after conversion"
  | idCollision table old new =>
    s!"Cannot rename '{old}' to '{new}' in table '{table}': id already exists"
  | missingTarget target => s!"Conversion directive target not found: {target.message}"
  | failed table field key message => s!"Directive {table}.{field} = '{key}' failed: {message}"
  | tag e => e.message
  | json => "Directives JSON error"
  | aborted => "The run was aborted"

end DirectiveError
end TagHarvest
