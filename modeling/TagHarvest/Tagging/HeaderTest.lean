/-
Tests for header cells. A description of a header is a text, found in any case of letters; a pattern
written `r"pattern"` or `r'pattern'`; or an expression with placeholders, which is no cell but is
computed from the cells of a row.
-/
import TagHarvest.Expression
import TagHarvest.Sheet.Worksheet
import TagHarvest.Text.Case
import TagHarvest.Text.Cut

namespace TagHarvest

/-- What is wrong with the description of a header. -/
inductive DescriptionFault where
  | empty
  | pattern (cause : Pattern.Error)
  | expression (cause : ExpressionError)
  deriving DecidableEq, Repr

/-- Why a worksheet cannot be tagged. -/
inductive TaggingError where
  | invalidDescription (description : String) (fault : DescriptionFault)
  /-- A computed value that is required has a placeholder without a value; rows count from 0. -/
  | requiredFailed (tag sheet : String) (row : Nat) (cause : ExpressionError)
  deriving DecidableEq, Repr

def DescriptionFault.message : DescriptionFault → String
  | empty => "empty header description"
  | pattern cause => cause.message
  | expression cause => cause.message

def TaggingError.message : TaggingError → String
  | invalidDescription d fault => s!"Invalid header description '{d}': {fault.message}"
  | requiredFailed tag sheet row cause =>
    s!"Required tag '{tag}' failed at sheet '{sheet}' row {row + 1}: {cause.message}"

inductive HeaderTest where
  /-- A text in lower case. -/
  | literal (text : String)
  | pattern (p : Pattern)
  | computed (e : Expression)

namespace HeaderTest

/-- The pattern between `r"` and `"`, or `r'` and `'`. -/
def patternText? (text : String) : Option String :=
  (Text.afterStart? "r\"" text).bind (Text.beforeEnding? "\"") <|>
    (Text.afterStart? "r'" text).bind (Text.beforeEnding? "'")

/-- Reads the description of a header. -/
def ofText [PatternSyntax] (description : String) : Except TaggingError HeaderTest :=
  let text := Text.trim description
  let invalid (fault : DescriptionFault) := TaggingError.invalidDescription description fault
  if text.isEmpty then .error (invalid .empty)
  else match patternText? text with
  | some p => (PatternSyntax.compile p).mapError (invalid ∘ .pattern) |>.map .pattern
  | none =>
    match Expression.compile text with
    | .error e => .error (invalid (.expression e))
    | .ok e => .ok (if e.hasPlaceholders then .computed e else .literal (Text.lower text))

/-- The filled cells of a header row, each under its own text. -/
def headerRecord (row : Row) : Record :=
  .ofFirsts (((row.map Text.trim).filter fun c => !c.isEmpty).map fun c => (c, .scalar c))

/-- The filled cells of a data row under the texts of the header above them. -/
def dataRecord (header row : Row) : Record :=
  .ofFirsts (((header.map Text.trim).zip (row.map Text.trim)).filterMap fun (name, v) =>
    if name.isEmpty || v.isEmpty then none else some (name, .scalar v))

section

variable (finds : Pattern → String → Bool)

/-- True if a cell is what a test looks for: the very text, or one that its pattern matches. -/
def exact (t : HeaderTest) (cell : String) : Bool :=
  let cell := Text.trim cell
  !cell.isEmpty &&
    match t with
    | literal text => Text.lower cell == text
    | pattern p => finds p cell
    | computed _ => false

/-- As `exact`, but a text may also be a part of the cell. -/
def loose (t : HeaderTest) (cell : String) : Bool :=
  match t with
  | literal text =>
    !Text.isBlankText cell && Text.occursIn text.toList (Text.lower cell).toList
  | t => t.exact finds cell

/-- True if the values of a computed test can be taken from a record. -/
def computes (e : Expression) (r : Record) : Bool := (e.evaluate finds r).isOk

/-- True if a cell of the row passes, or all cells are there that a computed test needs. -/
def passesRow (t : HeaderTest) (row : Row) : Bool :=
  match t with
  | computed e => computes finds e (headerRecord row)
  | t => row.any (t.loose finds)

end

end HeaderTest
end TagHarvest
