/-
Where a header stands. The cells of a header row know their places, but a place is used for two things only:
its column, which tells column 0 from the others and which fields read, and the location of a fault. So two
rows with the same cells compile to the same recipes or both do not compile, whatever their worksheets and
their indices.
-/
import TagHarvest.Header.Compile
import TagHarvest.Proofs.Effects

namespace TagHarvest

namespace HeaderState

variable {here here' : Location}

/-! ## Looking at the state -/

theorem agree_tableOf (s : HeaderState) (here here' : Location) (named : Option String) :
    Agree (s.tableOf here named) (s.tableOf here' named) := by
  unfold tableOf
  split <;> rfl

theorem agree_lastFor (s : HeaderState) (here here' : Location) (attr : String) :
    Agree (s.lastFor here attr) (s.lastFor here' attr) := by
  unfold lastFor
  split <;> rfl

theorem inStep_look {α : Type} {f g : HeaderState → Except TagError α} (h : ∀ s, Agree (f s) (g s)) :
    InStep Eq (look f) (look g) := by
  refine .get_bind fun s => ?_
  have hs := h s
  generalize f s = x, g s = y at hs ⊢
  cases x with
  | error e =>
    cases y with
    | error e' => exact .throw e e'
    | ok b => cases hs
  | ok a =>
    cases y with
    | error e' => cases hs
    | ok b =>
      cases hs
      exact .refl _

section Column

variable (hcolumn : here'.column = here.column)

include hcolumn

theorem agree_operand (s : HeaderState) (part : OperandText) :
    Agree (s.operand here part) (s.operand here' part) := by
  unfold operand
  cases part with
  | literal text => rfl
  | attr name =>
    rw [hcolumn]
    exact (agree_lastFor s here here' name).bind fun _ => rfl
  | field named name =>
    rw [hcolumn]
    exact (agree_tableOf s here here' named).bind fun _ => rfl

theorem agree_operands? (s : HeaderState) (value : Assignment) :
    Agree (s.operands? here value) (s.operands? here' value) := by
  unfold operands?
  cases value with
  | column => rfl
  | fault f => rfl
  | operands parts f =>
    refine (Agree.mapM parts fun part _ => agree_operand hcolumn s part).bind fun os => ?_
    cases f <;> rfl

theorem agree_clauseTokens (text : String) : Agree (clauseTokens here text) (clauseTokens here' text) := by
  unfold clauseTokens
  rw [hcolumn]
  cases Token.tokenize text with
  | error e => rfl
  | ok ts =>
    dsimp only
    split
    · split <;> rfl
    · rfl

end Column

/-! ## Declaring a field -/

theorem inStep_addTo (here here' : Location) (index : Nat) (f : FieldRecipe) :
    InStep Eq (addTo here index f) (addTo here' index f) := by
  refine .get_bind fun s => ?_
  cases s.recipes[index]? with
  | none => exact .refl _
  | some r =>
    dsimp only
    cases r.add f with
    | ok r' => exact .refl _
    | error fault => exact .throw _ _

theorem inStep_childScope (here here' : Location) (table : String) :
    InStep Eq (childScope here table) (childScope here' table) := by
  refine .get_bind fun s => ?_
  cases s.child with
  | none => exact .refl _
  | some scope =>
    dsimp only
    split
    · exact .refl _
    · split
      · exact .throw _ _
      · exact .refl _

/-- A fault of the row's structure is thrown at either place. -/
theorem inStep_shape {α : Type} (here here' : Location) (r : Except StructureFault α) :
    InStep Eq (match r with | .ok a => pure a | .error fault => throw (.shape here fault) : Compile α)
      (match r with | .ok a => pure a | .error fault => throw (.shape here' fault) : Compile α) := by
  cases r with
  | ok a => exact .refl _
  | error fault => exact .throw _ _

theorem inStep_addChildId (here here' : Location) (scope : ChildScope) (id : FieldRecipe) :
    InStep Eq (addChildId here scope id) (addChildId here' scope id) := by
  refine .get_bind fun s => ?_
  dsimp only
  split
  · exact .throw _ _
  · split
    · exact .throw _ _
    · rename_i child _
      refine (inStep_shape here here' (child.add id)).bind fun child => (InStep.refl _).bind fun _ => ?_
      cases scope.pending with
      | none => exact .refl _
      | some f => exact (inStep_shape here here' (child.add f)).bind fun _ => .refl _

theorem inStep_addChild (here here' : Location) (table : String) (f : FieldRecipe) :
    InStep Eq (addChild here table f) (addChild here' table f) := by
  refine (inStep_childScope here here' table).bind fun scope => ?_
  split
  · exact inStep_addChildId here here' scope f
  · split
    · exact (inStep_addTo here here' _ f).bind fun _ => .refl _
    · exact .throw _ _
    · exact .refl _

theorem inStep_addGlobal (here here' : Location) (d : Declaration) (f : FieldRecipe) :
    InStep Eq (addGlobal here d f) (addGlobal here' d f) := by
  unfold addGlobal
  split
  · exact .throw _ _
  · split
    · exact .throw _ _
    · exact .refl _

section Column

variable (hcolumn : here'.column = here.column)

include hcolumn

theorem inStep_place (d : Declaration) (f : FieldRecipe) : InStep Eq (place here d f) (place here' d f) := by
  unfold place
  rw [hcolumn]
  split
  · exact inStep_addGlobal here here' d f
  · split
    · exact (inStep_addTo here here' _ f).bind fun _ => .refl _
    · exact .throw _ _
    · exact .throw _ _
    · split
      · exact inStep_addChild here here' d.table f
      · refine (InStep.refl _).bind fun index => ?_
        exact (inStep_addTo here here' index f).bind fun _ => .refl _

theorem inStep_register (d : Declaration) (operands : Option (List Operand)) :
    InStep Eq (register here d operands) (register here' d operands) := by
  unfold register
  rw [hcolumn]
  split
  · exact .throw _ _
  · exact (inStep_place hcolumn d _).bind fun _ => .refl _

theorem inStep_declare (d : Declaration) (value : Assignment) :
    InStep Eq (declare here d value) (declare here' d value) := by
  refine (inStep_look fun s => agree_operands? hcolumn s value).bind fun operands => ?_
  split
  · exact .throw _ _
  · exact inStep_register hcolumn d operands

/-! ## Clauses, cells and rows -/

theorem inStep_clause (c : Clause) : InStep Eq (clause here c) (clause here' c) := by
  cases c with
  | fault f => exact .throw _ _
  | table name => exact .refl _
  | attr list name value =>
    refine (inStep_look fun s => agree_lastFor s here here' name).bind fun last => ?_
    split
    · exact .throw _ _
    · exact inStep_declare hcolumn _ value
  | field list name value =>
    refine (inStep_look fun s => agree_tableOf s here here' name.table).bind fun table => ?_
    exact inStep_declare hcolumn _ value

theorem inStep_cell (text : String) : InStep Eq (cell here text) (cell here' text) :=
  (inStep_look fun _ => agree_clauseTokens hcolumn text).bind fun tokens =>
    .forM (Clause.ofTokens tokens) fun c _ => inStep_clause hcolumn c

end Column

section Row

variable {place place' : Nat → Location} (hplace : ∀ i, (place' i).column = (place i).column)

include hplace

theorem inStep_cells (column : Nat) (row : Row) :
    InStep Eq (cells place column row) (cells place' column row) := by
  induction row generalizing column with
  | nil => exact .refl _
  | cons text rest ih => exact (inStep_cell (hplace column) text).bind fun _ => ih (column + 1)

end Row

/-! ## The end of the row -/

theorem agree_resolveRecipe (place place' : Nat → Location) (sources : List ((String × String) × Operand))
    (r : RecordRecipe) : Agree (resolveRecipe place sources r) (resolveRecipe place' sources r) := by
  have hresolve : ∀ o, Agree (resolve place sources o) (resolve place' sources o) := by
    intro o
    unfold resolve
    split
    · split <;> rfl
    · rfl
  unfold resolveRecipe
  refine (Agree.mapM r.fields fun f _ => ?_).bind fun _ => rfl
  exact (Agree.mapM f.operands fun o _ => hresolve o).bind fun _ => rfl

theorem agree_finish (place place' : Nat → Location) (s : HeaderState) :
    Agree (s.finish place) (s.finish place') := by
  unfold finish
  split
  · rfl
  · refine (Agree.mapM _ fun r _ => agree_resolveRecipe place place' _ r).bind fun recipes => ?_
    refine (Agree.forM recipes fun r _ => ?_).bind fun _ => rfl
    unfold checkId
    split <;> rfl

end HeaderState

/-- Rows with the same cells compile to the same recipes, or both do not compile. -/
theorem agree_compileHeader {sheet sheet' : Worksheet} {i j : Nat} (h : sheet'.row j = sheet.row i) :
    Agree (compileHeader sheet i) (compileHeader sheet' j) := by
  have hplace : ∀ c, (sheet'.location j c).column = (sheet.location i c).column := fun _ => rfl
  have hcells := HeaderState.inStep_cells hplace 0 (sheet.row i) .start .start rfl
  unfold compileHeader
  rw [h]
  dsimp only
  generalize HeaderState.cells (sheet.location i) 0 (sheet.row i) .start = outcome,
    HeaderState.cells (sheet'.location j) 0 (sheet.row i) .start = outcome' at hcells ⊢
  cases hcells with
  | ok hs =>
    subst hs
    exact HeaderState.agree_finish _ _ _
  | error => rfl

end TagHarvest
