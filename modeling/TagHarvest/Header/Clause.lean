/-
Clauses of a header cell: what its tokens say before any of it is given a meaning. A clause is a
`#table=` directive or the declaration of one field, with the operands assigned to it. Reading goes from
left to right and stops at the first grammar fault, which becomes the last thing said; so a fault
against an earlier declaration can still be reported first.
-/
import TagHarvest.Header.Tag

namespace TagHarvest

/-- An operand as it is written. -/
inductive OperandText where
  | literal (text : String)
  | attr (name : String)
  | field (table : Option String) (name : String)
  deriving DecidableEq, Repr

/-- What follows the tag of a declaration. -/
inductive Assignment where
  /-- No operands: the field reads its own column. -/
  | column
  /-- The operands after `=`, and the fault that ended them. -/
  | operands (parts : List OperandText) (fault : Option GrammarFault)
  /-- Something that cannot follow a tag. -/
  | fault (f : GrammarFault)
  deriving DecidableEq, Repr

inductive Clause where
  /-- `#table=name` -/
  | table (name : String)
  /-- An attribute of the field declared before. -/
  | attr (list : Bool) (name : String) (value : Assignment)
  | field (list : Bool) (name : FieldName) (value : Assignment)
  | fault (f : GrammarFault)
  deriving DecidableEq, Repr

namespace Clause

/-- The operand of an assignment that a token stands for. -/
def operand : Token → Except GrammarFault OperandText
  | .literal s => .ok (.literal s)
  | .word s => .ok (.literal s)
  | .pattern _ => .error .patternOperand
  | .tag t => do
    match ← Tag.ofText t with
    | .field f => if f.child then .error .childOperand else .ok (.field f.table f.name)
    | .attr name => .ok (.attr name)
    | _ => .error (.markerOperand t)
  | op => .error (.operatorBefore op)

/-- The operands after `=`, the fault that ended them, and the tokens that are left. -/
def readOperands : List Token → List OperandText × Option GrammarFault × List Token
  | [] => ([], some .missingOperand, [])
  | t :: ts =>
    match operand t with
    | .error f => ([], some f, [])
    | .ok part =>
      match ts with
      | .plus :: rest =>
        let r := readOperands rest
        (part :: r.1, r.2)
      | [] => ([part], none, [])
      | .semicolon :: _ => ([part], none, ts)
      | .comma :: _ => ([part], none, ts)
      | .equals :: _ => ([part], some .operatorInAssignment, [])
      | .star :: _ => ([part], some .operatorInAssignment, [])
      | other :: _ => ([part], some (.operandAfterOperand other), [])

/-- What follows the tag of a declaration, and the tokens that are left. -/
def readAssignment : List Token → Assignment × List Token
  | .equals :: ts =>
    let r := readOperands ts
    (.operands r.1 r.2.1, r.2.2)
  | .plus :: _ => (.fault .plusOutsideAssignment, [])
  | [] => (.column, [])
  | .tag t :: ts => (.column, .tag t :: ts)
  | t :: ts => if t.isOperator then (.column, t :: ts) else (.fault (.operandAfterTag t), [])

/-- The name after `#table`, and the tokens that are left. -/
def readTable : List Token → Clause × List Token
  | .equals :: t :: ts =>
    match t with
    | .word name => if name.isEmpty then (.fault .namelessTable, []) else (.table name, ts)
    | .literal name => if name.isEmpty then (.fault .namelessTable, []) else (.table name, ts)
    | op => (.fault (if op.isOperator then .operatorAfterTable else .namelessTable), [])
  | [.equals] => (.fault .namelessTable, [])
  | _ => (.fault .tableWithoutEquals, [])

/-- The clause that starts with a tag, and the tokens that are left. -/
def readTag (list : Bool) (tag : String) (ts : List Token) : Clause × List Token :=
  match Tag.ofText tag with
  | .error f => (.fault f, [])
  | .ok .tags => (.fault .misplacedTags, [])
  | .ok .ignore => (.fault .misplacedIgnore, [])
  | .ok .table => if list then (.fault .starBeforeTable, []) else readTable ts
  | .ok (.attr name) => let r := readAssignment ts; (.attr list name r.1, r.2)
  | .ok (.field name) => let r := readAssignment ts; (.field list name r.1, r.2)

theorem length_readOperands (ts : List Token) : (readOperands ts).2.2.length ≤ ts.length := by
  induction ts using readOperands.induct <;> simp_all [readOperands]
  omega

theorem length_readAssignment (ts : List Token) : (readAssignment ts).2.length ≤ ts.length := by
  unfold readAssignment
  split
  · rename_i ts
    have := length_readOperands ts
    simp only [List.length_cons]; omega
  · simp
  · simp
  · simp
  · split <;> simp

theorem length_readTable (ts : List Token) : (readTable ts).2.length ≤ ts.length := by
  unfold readTable
  split
  · split
    · split
      · simp
      · simp only [List.length_cons]
        omega
    · split
      · simp
      · simp only [List.length_cons]
        omega
    · simp
  · simp
  · simp

theorem length_readTag (list : Bool) (tag : String) (ts : List Token) :
    (readTag list tag ts).2.length ≤ ts.length := by
  unfold readTag
  split
  · simp
  · simp
  · simp
  · split
    · simp
    · exact length_readTable ts
  · exact length_readAssignment ts
  · exact length_readAssignment ts

/-- The clauses of a cell's tokens, up to the first fault. -/
def ofTokens : List Token → List Clause
  | [] => []
  | .semicolon :: ts => ofTokens ts
  | .comma :: ts => ofTokens ts
  | .tag t :: ts =>
    have := length_readTag false t ts
    (readTag false t ts).1 :: ofTokens (readTag false t ts).2
  | .star :: .tag t :: ts =>
    have := length_readTag true t ts
    (readTag true t ts).1 :: ofTokens (readTag true t ts).2
  | .star :: t :: _ => [.fault (if t.isOperator then .operatorAfterStar t else .strayStar)]
  | [.star] => [.fault .strayStar]
  | t :: _ => [.fault (if t.isOperator then .strayOperator t else .strayOperand t)]
termination_by ts => ts.length
decreasing_by all_goals simp only [List.length_cons] at *; omega

end Clause
end TagHarvest
