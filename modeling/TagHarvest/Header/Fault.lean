/-
What can be wrong with a header row. A grammar fault is seen in the tokens of one cell; a structure
fault concerns what the row has declared before. Each fault names its cause; `message` is its wording,
and a `TagError` adds the cell.
-/
import TagHarvest.Cell.Token
import TagHarvest.Sheet.Worksheet

namespace TagHarvest

/-- Faults in the tokens of a header cell. -/
inductive GrammarFault where
  | lexical (e : LexError)
  | missingMarker
  | operatorAfterStar (op : Token)
  | strayStar
  | strayOperator (op : Token)
  | strayOperand (t : Token)
  | emptyTag
  | emptyAttribute
  | childWithoutField (tag : String)
  | namelessAttribute (tag : String)
  | namelessField (tag : String)
  | misplacedTags
  | misplacedIgnore
  | starBeforeTable
  | plusOutsideAssignment
  | operandAfterTag (t : Token)
  | tableWithoutEquals
  | operatorAfterTable
  | namelessTable
  | patternOperand
  | operatorBefore (op : Token)
  | missingOperand
  | operatorInAssignment
  | operandAfterOperand (t : Token)
  | childOperand
  | markerOperand (tag : String)
  | unassignedGlobal
  | computedGlobal
  | childGlobal
  | attributeOfGlobal
  | severalDirectiveTags
  | unknownDirectiveTag (tag : String)
  | unknownOperation (suffix : String)
  deriving DecidableEq, Repr

/-- Faults against what a header row has declared. -/
inductive StructureFault where
  | orphanAttribute (name : String)
  | attributeBeforeChildId
  | pendingChildAttribute
  | listId
  | noTable
  | duplicateField (field table : String) (firstColumn : Nat)
  | childWithoutId
  | childWithoutParent (table : String)
  | childBeforeParentId (table : String)
  | secondPendingChild
  | unresolvedReference (table field : String)
  | missingId (table : String)
  | foreignTable (tag table valueTable : String)
  | secondValueColumn
  | missingValueColumn
  | foreignOperation (target table : String)
  | unknownComparison (text : String)
  deriving DecidableEq, Repr

namespace GrammarFault

def message : GrammarFault → String
  | lexical e => e.message
  | missingMarker => "a header row must start with '#tags' in column 0"
  | operatorAfterStar op => s!"two consecutive operators '*{op.display}'"
  | strayStar => "'*' must immediately precede a field tag"
  | strayOperator op => s!"operator '{op.display}' without a preceding field tag"
  | strayOperand t => s!"operand '{t.display}' without a field tag"
  | emptyTag => "empty tag '#'"
  | emptyAttribute => "attribute tag '#%' has no name"
  | childWithoutField tag => s!"'{tag}' must be followed by '.<field>'"
  | namelessAttribute tag => s!"attribute in '{tag}' has no name"
  | namelessField tag => s!"tag '{tag}' has no field name"
  | misplacedTags => "'#tags' is only valid at the start of column 0"
  | misplacedIgnore => "'#ignore' is not valid inside a header row"
  | starBeforeTable => "'*' must precede a field tag, not '#table'"
  | plusOutsideAssignment => "'+' is only valid inside an assignment"
  | operandAfterTag t => s!"operand '{t.display}' directly follows a field tag without '='"
  | tableWithoutEquals => "'#table' must be followed by '=<name>'"
  | operatorAfterTable => "two consecutive operators after '#table'"
  | namelessTable => "'#table=' requires a table name"
  | patternOperand => "regular expressions are not valid assignment operands"
  | operatorBefore op => s!"two consecutive operators before '{op.display}'"
  | missingOperand => "assignment operator without an operand"
  | operatorInAssignment => "unexpected operator inside an assignment"
  | operandAfterOperand t => s!"operand '{t.display}' directly follows another operand"
  | childOperand => "child tags are not valid inside an assignment"
  | markerOperand tag => s!"'{tag}' is not valid inside an assignment"
  | unassignedGlobal => "fields declared in column 0 must be assigned a literal"
  | computedGlobal => "fields declared in column 0 may only use literal operands"
  | childGlobal => "child tags are not valid in column 0"
  | attributeOfGlobal => "attributes of column-0 fields are not supported"
  | severalDirectiveTags => "expected a single directive tag"
  | unknownDirectiveTag tag => s!"'{tag}' is not a directive tag"
  | unknownOperation suffix => s!"unknown directive operation '.{suffix}'"

end GrammarFault

namespace StructureFault

def message : StructureFault → String
  | orphanAttribute a => s!"attribute '%{a}' has no preceding field"
  | attributeBeforeChildId =>
    "an attribute of a child field requires the child id to be declared first"
  | pendingChildAttribute => "attribute of a child field declared before the child id"
  | listId => "the id field cannot be list-valued"
  | noTable => "field tag without a table and no preceding '#table'"
  | duplicateField field table column =>
    s!"field '{field}' of table '{table}' is declared twice (first in column {column + 1})"
  | childWithoutId => "child field declared without a preceding child id field"
  | childWithoutParent table => s!"child of '{table}' declared without a parent record"
  | childBeforeParentId table => s!"child of '{table}' declared before the parent id"
  | secondPendingChild => "two explicit non-id child fields declared before the child id"
  | unresolvedReference table field =>
    s!"'#{table}.{field}' does not refer to a column-sourced field of this header"
  | missingId table => s!"no id field declared for table '{table}'"
  | foreignTable tag table valueTable =>
    s!"'{tag}' names table '{table}' but the value column uses '{valueTable}'"
  | secondValueColumn => "more than one '.value' column"
  | missingValueColumn => "directive header has no '.value' column"
  | foreignOperation target table => s!"operation on '{target}' does not name table '{table}'"
  | unknownComparison text => s!"unknown comparison '{text}'"

end StructureFault

/-- A fault and the cell it was found in. -/
inductive TagError where
  | grammar (location : Location) (fault : GrammarFault)
  | shape (location : Location) (fault : StructureFault)
  deriving DecidableEq, Repr

namespace TagError

def location : TagError → Location
  | grammar l _ => l
  | shape l _ => l

def message : TagError → String
  | grammar l f => s!"Tag grammar error at {l.display}: {f.message}"
  | shape l f => s!"Tag structure error at {l.display}: {f.message}"

end TagError
end TagHarvest
