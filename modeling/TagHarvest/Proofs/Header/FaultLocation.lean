/-
Where a header row is at fault. Whatever a cell is refused for, the error is located at the cell; so the error
of a row of which not all cells compile is that of the first that does not. The end of a row looks back: an
error is located where the field that it is about was declared or where a reference is used. What the cells
keep (`Sound`) bounds these columns, also those of the fields that a child's recipe takes over from its
parent and of the literals of column 0.
-/
import TagHarvest.Proofs.Header.Acceptance
import TagHarvest.Proofs.Header.WellFormed

namespace TagHarvest

namespace HeaderState

variable {here : Location} {place : Nat → Location} {s s' : HeaderState} {e : TagError}

/-! ## The fault of a cell -/

theorem location_of_clauseTokens {text : String} (h : clauseTokens here text = .error e) :
    e.location = here := by
  unfold clauseTokens at h
  cases htokens : Token.tokenize text with
  | error lexical =>
    rw [htokens] at h
    cases h
    rfl
  | ok ts =>
    rw [htokens] at h
    dsimp only at h
    split at h
    · split at h
      · cases h
      · cases h
        rfl
    · cases h

/-- Every error of a cell is located at the cell. -/
theorem failsWith_cell (here : Location) (text : String) :
    FailsWith (fun e => e.location = here) (cell here text) := by
  have htokens : FailsWith (fun e => e.location = here) (look fun _ => clauseTokens here text) :=
    failsWith_look fun _ _ => location_of_clauseTokens
  refine htokens.bind fun ts _ => Meets.forM _ fun c _ => ?_
  exact failsWith_clause (fun _ => rfl) (fun _ _ _ => rfl) (fun _ _ => rfl) rfl

/-! ## The first cell at fault -/

/-- The cells left of a column compile, and the cell there does not: it fails with this error. -/
def FirstFault (place : Nat → Location) (row : Row) (column : Nat) (e : TagError) : Prop :=
  ∃ text s s', row[column]? = some text ∧ cells place 0 (row.take column) start = .ok () s ∧
    cell (place column) text s = .error e s'

/-- Cells that do not all compile have a first one that does not. -/
theorem exists_of_cells_eq_error {column : Nat} {row : Row} (h : cells place column row s = .error e s') :
    ∃ k text s₁, row[k]? = some text ∧ cells place column (row.take k) s = .ok () s₁ ∧
      cell (place (column + k)) text s₁ = .error e s' := by
  induction row generalizing column s with
  | nil => cases h
  | cons text row ih =>
    rcases bind_eq_error h with hcell | ⟨⟨⟩, s₁, hcell, hrest⟩
    · exact ⟨0, text, s, rfl, rfl, hcell⟩
    · obtain ⟨k, text', s₂, htext, hbefore, hfault⟩ := ih hrest
      rw [Nat.add_right_comm, Nat.add_assoc] at hfault
      exact ⟨k + 1, text', s₂, htext, (bind_apply_of_ok hcell).trans hbefore, hfault⟩

/-- Once a cell has failed no cell right of it is looked at. -/
theorem cells_eq_error {column k : Nat} {row : Row} {text : String} {s₁ : HeaderState}
    (htext : row[k]? = some text) (hbefore : cells place column (row.take k) s = .ok () s₁)
    (hfault : cell (place (column + k)) text s₁ = .error e s') : cells place column row s = .error e s' := by
  induction k generalizing column row s with
  | zero =>
    obtain ⟨row, rfl⟩ := List.head?_eq_some_iff.1 (List.head?_eq_getElem? ▸ htext)
    cases hbefore
    exact bind_apply_of_error hfault
  | succ k ih =>
    cases row with
    | nil => cases htext
    | cons first row =>
      obtain ⟨⟨⟩, s₂, hcell, hrest⟩ := bind_eq_ok hbefore
      rw [Nat.add_comm k, ← Nat.add_assoc] at hfault
      exact (bind_apply_of_ok hcell).trans (ih htext hrest hfault)

namespace FirstFault

variable {row : Row} {column : Nat}

theorem lt_length (h : FirstFault place row column e) : column < row.length := by
  obtain ⟨text, _, _, htext, -, -⟩ := h
  exact (List.getElem?_eq_some_iff.1 htext).1

theorem location (h : FirstFault place row column e) : e.location = place column := by
  obtain ⟨text, _, _, -, -, hfault⟩ := h
  exact ((failsWith_cell _ text).error hfault).2

/-- The cells up to the first at fault decide the error. -/
theorem congr_take {row' : Row} (h : FirstFault place row column e)
    (hrow : row'.take (column + 1) = row.take (column + 1)) : FirstFault place row' column e := by
  obtain ⟨text, s, s', htext, hbefore, hfault⟩ := h
  have hself : row'[column]? = row[column]? := by
    rw [← List.getElem?_take_of_lt (Nat.lt_succ_self column), hrow, List.getElem?_take_of_lt (by omega)]
  have hleft : row'.take column = row.take column := by
    simpa [List.take_take] using congrArg (List.take column) hrow
  exact ⟨text, s, s', hself.trans htext, hleft ▸ hbefore, hfault⟩

end FirstFault

/-! ## The fault of a row's end -/

theorem resolve_eq_error {sources : List ((String × String) × Operand)} {o : Operand}
    (h : resolve place sources o = .error e) : ∃ ref, o = .reference ref ∧ e.location = place ref.usedAt := by
  cases o with
  | literal text => cases h
  | column i => cases h
  | reference ref =>
    unfold resolve at h
    dsimp only at h
    split at h
    · cases h
    · cases h
      exact ⟨ref, rfl, rfl⟩

/-- A reference that names nothing is reported where it is used. -/
theorem resolveRecipe_eq_error {sources : List ((String × String) × Operand)} {r : RecordRecipe}
    (h : resolveRecipe place sources r = .error e) :
    ∃ f ∈ r.fields, ∃ ref, .reference ref ∈ f.operands ∧ e.location = place ref.usedAt := by
  rcases except_bind_eq_error h with hfields | ⟨fields, -, h⟩
  · obtain ⟨f, hf, hfield⟩ := mapM_eq_error hfields
    rcases except_bind_eq_error hfield with hoperands | ⟨os, -, h⟩
    · obtain ⟨o, ho, hresolve⟩ := mapM_eq_error hoperands
      obtain ⟨ref, rfl, hlocation⟩ := resolve_eq_error hresolve
      exact ⟨f, hf, ref, ho, hlocation⟩
    · cases h
  · cases h

/-- A recipe without an id is reported at its first field. -/
theorem checkId_eq_error {r : RecordRecipe} (h : checkId place r = .error e) :
    e.location = place ((r.fields.head?.map (·.column)).getD 0) := by
  unfold checkId at h
  split at h
  · cases h
  · cases h
    rfl

/-- The column of a recipe's first field is one of the row. -/
theorem head_column_lt {width : Nat} {r : RecordRecipe} (hwidth : 0 < width)
    (hr : ∀ f ∈ r.fields, f.column < width) : (r.fields.head?.map (·.column)).getD 0 < width := by
  cases hhead : r.fields.head? with
  | none => exact hwidth
  | some f => exact hr f (List.mem_of_head? hhead)

/-- The end of a row of this width is at fault in one of its columns. -/
theorem location_of_finish {width : Nat} (hs : s.Sound width) (hwidth : 0 < width)
    (h : s.finish place = .error e) : ∃ column < width, e.location = place column := by
  unfold finish at h
  cases hpending : s.child.bind (·.pending) with
  | some f =>
    rw [hpending] at h
    cases h
    obtain ⟨scope, hscope, hf⟩ := Option.bind_eq_some_iff.1 hpending
    have hwaiting : s.waiting? scope.table = some f := by simp [waiting?, hscope, hf]
    exact ⟨f.column, (hs.pending hwaiting).column, rfl⟩
  | none =>
    rw [hpending] at h
    dsimp only at h
    rcases except_bind_eq_error h with hresolve | ⟨recipes, hresolve, h⟩
    · obtain ⟨r, hr, hrecipe⟩ := mapM_eq_error hresolve
      obtain ⟨f, hf, ref, href, hlocation⟩ := resolveRecipe_eq_error hrecipe
      exact ⟨ref.usedAt, (declarable_of_completed hs hr f hf).references ref href, hlocation⟩
    · rcases except_bind_eq_error h with hids | ⟨⟨⟩, -, h⟩
      · obtain ⟨r', hr', hcheck⟩ := forM_eq_error hids
        refine ⟨_, head_column_lt hwidth fun f' hf' => ?_, checkId_eq_error hcheck⟩
        -- resolving a field keeps its column
        obtain ⟨r, hr, hrecipe⟩ := exists_of_mem_forall₂ (mapM_eq_ok hresolve) hr'
        obtain ⟨rfl, -⟩ := resolveRecipe_eq_ok hrecipe
        obtain ⟨f, hf, rfl⟩ := List.mem_map.1 hf'
        exact (declarable_of_completed hs hr f hf).column
      · cases h

end HeaderState

/-! ## Rows -/

variable {sheet : Worksheet} {row : Nat} {e : TagError}

/-- A row has a first cell at fault, or all its cells compile. -/
theorem firstFault_or_ok (place : Nat → Location) (row : Row) :
    (∃ column e, HeaderState.FirstFault place row column e) ∨
      ∃ s, HeaderState.cells place 0 row .start = .ok () s := by
  cases h : HeaderState.cells place 0 row .start with
  | ok _ s => exact .inr ⟨s, rfl⟩
  | error e s =>
    obtain ⟨column, text, s₁, htext, hbefore, hfault⟩ := HeaderState.exists_of_cells_eq_error h
    rw [Nat.zero_add] at hfault
    exact .inl ⟨column, e, text, s₁, s, htext, hbefore, hfault⟩

/-- A row with a first cell at fault fails with its error. -/
theorem compileHeader_of_firstFault {column : Nat}
    (h : HeaderState.FirstFault (sheet.location row) (sheet.row row) column e) :
    compileHeader sheet row = .error e := by
  obtain ⟨text, s, s', htext, hbefore, hfault⟩ := h
  have hcells := HeaderState.cells_eq_error htext hbefore (by rwa [Nat.zero_add])
  unfold compileHeader
  dsimp only
  rw [hcells]

/-- A row of which all cells compile and that fails has an error of its end. -/
theorem location_of_ended {s : HeaderState}
    (hcells : HeaderState.cells (sheet.location row) 0 (sheet.row row) .start = .ok () s)
    (h : compileHeader sheet row = .error e) :
    ∃ column < (sheet.row row).length, e.location = sheet.location row column := by
  have hfinish : s.finish (sheet.location row) = .error e := by
    unfold compileHeader at h
    dsimp only at h
    rwa [hcells] at h
  refine HeaderState.location_of_finish (HeaderState.sound_of_cells hcells) ?_ hfinish
  -- a row without cells has no recipes, and so nothing is wrong with them
  by_contra hempty
  rw [List.length_eq_zero_iff.1 (Nat.eq_zero_of_not_pos hempty)] at hcells
  cases hcells
  cases hfinish

/--
The error of a header row is located in the row, in a column that it has. If the cells, compiled from left to
right, do not all compile, the row fails with the error of the first that does not, located at that cell, and
so does every row with the same cells up to it, whatever comes after them.
-/
theorem compileHeader_location (sheet : Worksheet) (row : Nat) :
    (∀ e, compileHeader sheet row = .error e →
      ∃ column < (sheet.row row).length, e.location = ⟨sheet.source, sheet.name, row, column⟩) ∧
      ((∃ column e, HeaderState.FirstFault (sheet.location row) (sheet.row row) column e) ∨
        ∃ s, HeaderState.cells (sheet.location row) 0 (sheet.row row) .start = .ok () s) ∧
      ∀ column e, HeaderState.FirstFault (sheet.location row) (sheet.row row) column e →
        e.location = ⟨sheet.source, sheet.name, row, column⟩ ∧
          ∀ sheet' : Worksheet, sheet'.source = sheet.source → sheet'.name = sheet.name →
            (sheet'.row row).take (column + 1) = (sheet.row row).take (column + 1) →
            compileHeader sheet' row = .error e := by
  have hcases := firstFault_or_ok (sheet.location row) (sheet.row row)
  refine ⟨fun e h => ?_, hcases, fun column e hfault => ⟨hfault.location, fun sheet' hsource hname hrow => ?_⟩⟩
  · rcases hcases with ⟨column, e', hfault⟩ | ⟨s, hcells⟩
    · obtain rfl : e' = e := Except.error.inj ((compileHeader_of_firstFault hfault).symm.trans h)
      exact ⟨column, hfault.lt_length, hfault.location⟩
    · exact location_of_ended hcells h
  · have hplace : sheet'.location row = sheet.location row := by
      unfold Worksheet.location
      rw [hsource, hname]
    exact compileHeader_of_firstFault (hplace ▸ hfault.congr_take hrow)

/-- A row whose third cell declares an id again, whatever follows, and a row that ends in want of an id. -/
theorem compileHeader_location_secondId :
    let sheet : Worksheet := ⟨"a.csv", "a", [["#tags", "#sample.id", "#sample.id", "*"],
      ["#tags", "#plot.id", "#plot%child.note"]]⟩
    (∃ e, HeaderState.FirstFault (sheet.location 0) (sheet.row 0) 2 e ∧ e.location = ⟨"a.csv", "a", 0, 2⟩ ∧
      ∀ texts, compileHeader ⟨"a.csv", "a", [["#tags", "#sample.id", "#sample.id"] ++ texts]⟩ 0 = .error e) ∧
      ∃ e, compileHeader sheet 1 = .error e ∧ ∃ column < 3, e.location = ⟨"a.csv", "a", 1, column⟩ := by
  intro sheet
  have hfault : HeaderState.FirstFault (sheet.location 0) (sheet.row 0) 2
      (.shape ⟨"a.csv", "a", 0, 2⟩ (.duplicateField "id" "sample" 1)) := by
    let s : HeaderState := ⟨some "sample", some ⟨.recipe 0, "sample", "id"⟩,
      [⟨"sample", [⟨"id", [.column 1], false, 1⟩], none⟩], [], none⟩
    refine ⟨"#sample.id", s, s, rfl, ?_, ?_⟩ <;> decide +kernel
  have hend : compileHeader sheet 1 = .error (.shape ⟨"a.csv", "a", 1, 2⟩ .childWithoutId) := by
    decide +kernel
  obtain ⟨-, -, hfirst⟩ := compileHeader_location sheet 0
  obtain ⟨hlocation, hsame⟩ := hfirst 2 _ hfault
  exact ⟨⟨_, hfault, hlocation, fun texts => hsame _ rfl rfl rfl⟩, _, hend,
    (compileHeader_location sheet 1).1 _ hend⟩

end TagHarvest
