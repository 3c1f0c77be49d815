/-
The order of the columns of a worksheet of directives does not matter. The columns right of the first may
stand in any order, in the headers and the rows of data alike: the worksheet is refused in both orders or in
neither, and the directives are the same. Only within the edits of one directive do the entries come in the
order of the columns. No header may give two columns the same tag, for then the last of them counts.
-/
import TagHarvest.Proofs.Directive.BlockHeader

namespace TagHarvest

/-! ## Other orders of columns -/

/-- The row with the cells right of the first taken from some columns; cells behind its end are empty. -/
def Row.rearranged (columns : List Nat) (row : Row) : Row := (0 :: columns).map row.cell

/-- The worksheet with the columns right of the first in another order. -/
def Worksheet.rearranged (columns : List Nat) (sheet : Worksheet) : Worksheet :=
  { sheet with rows := sheet.rows.map (Row.rearranged columns) }

/-- Where a column stood before; behind the last one nothing is moved. -/
def columnBefore (columns : List Nat) (column : Nat) : Nat := (0 :: columns)[column]?.getD column

section Columns

variable {columns : List Nat} {row : Row}

theorem cell_rearranged (hwidth : row.length ≤ columns.length + 1) (column : Nat) :
    (row.rearranged columns).cell column = row.cell (columnBefore columns column) := by
  unfold Row.rearranged columnBefore Row.cell
  rw [List.getElem?_map]
  by_cases hcolumn : column < (0 :: columns).length
  · rw [List.getElem?_eq_getElem hcolumn]
    rfl
  · rw [List.getElem?_eq_none (Nat.le_of_not_lt hcolumn)]
    have hrow : row.length ≤ column := Nat.le_trans hwidth (Nat.le_of_not_lt hcolumn)
    exact congrArg (·.getD "") (List.getElem?_eq_none hrow).symm

theorem map_columnBefore : (List.range' 1 columns.length).map (columnBefore columns) = columns := by
  refine List.ext_getElem (by simp) fun i hi hi' => ?_
  simp [columnBefore, Nat.add_comm 1 i, hi']

/-- Each column comes from somewhere. -/
theorem surjective_columnBefore (hcolumns : columns.Perm (List.range' 1 columns.length)) :
    Function.Surjective (columnBefore columns) := by
  intro column
  by_cases hcolumn : column ∈ 0 :: columns
  · obtain ⟨i, hi⟩ := List.mem_iff_getElem?.1 hcolumn
    exact ⟨i, by rw [columnBefore, hi]; rfl⟩
  · refine ⟨column, ?_⟩
    rw [List.mem_cons, hcolumns.mem_iff, List.mem_range'_1, not_or] at hcolumn
    rw [columnBefore, List.getElem?_eq_none (by rw [List.length_cons]; omega)]
    rfl

theorem isMarked_rearranged {marker : String} (hmarker : marker ≠ "") :
    (row.rearranged columns).isMarked marker = row.isMarked marker := by
  cases row with
  | nil =>
    have hempty : Token.leadingBare "" = "" := by decide +kernel
    show (Token.leadingBare "" == marker) = false
    rw [hempty]
    exact beq_eq_false_iff_ne.2 hmarker.symm
  | cons cell row => rfl

theorem isBlank_iff : row.isBlank = true ↔ ∀ column, Text.isBlankText (row.cell column) = true := by
  unfold Row.isBlank Row.cell
  rw [List.all_eq_true]
  constructor
  · intro h column
    cases hcell : row[column]? with
    | none => decide
    | some cell => exact h cell (List.mem_of_getElem? hcell)
  · intro h cell hcell
    obtain ⟨column, hcolumn⟩ := List.mem_iff_getElem?.1 hcell
    simpa [hcolumn] using h column

theorem isBlank_rearranged (hcolumns : columns.Perm (List.range' 1 columns.length))
    (hwidth : row.length ≤ columns.length + 1) : (row.rearranged columns).isBlank = row.isBlank := by
  rw [Bool.eq_iff_iff, isBlank_iff, isBlank_iff]
  simp only [cell_rearranged hwidth]
  exact (surjective_columnBefore hcolumns).forall (p := fun c => Text.isBlankText (row.cell c) = true) |>.symm

end Columns

/-! ## Headers -/

/-- The key column, standing where it stood before. -/
def KeyColumn.renumber (f : Nat → Nat) (k : KeyColumn) : KeyColumn := { k with column := f k.column }

/-- The column of operations, standing where it stood before. -/
def OperationColumn.renumber (f : Nat → Nat) (c : OperationColumn) : OperationColumn :=
  { c with column := f c.column }

/-- Two headers with the same columns, which stand in the first where `f` says; no operation comes twice. -/
structure BlockHeader.Renumbered (f : Nat → Nat) (h h' : BlockHeader) : Prop where
  key : h'.key.renumber f = h.key
  operations : (h'.operations.map (OperationColumn.renumber f)).Perm h.operations
  comparison : h'.comparison.map f = h.comparison
  unique : h'.unique.map f = h.unique
  required : h'.required.map f = h.required
  distinct : (h.operations.map fun c => (c.operation, c.target)).Nodup

section Headers

variable {f : Nat → Nat} {uses uses' : List (Nat × ColumnUse)}

theorem perm_filterMap_of_renumber {α : Type} {g : Nat × ColumnUse → Option α} {move : α → α}
    (hmove : ∀ x, g (Prod.map f id x) = (g x).map move) (huses : (uses'.map (Prod.map f id)).Perm uses) :
    ((uses'.filterMap g).map move).Perm (uses.filterMap g) := by
  refine List.Perm.trans (.of_eq ?_) (huses.filterMap g)
  rw [List.map_filterMap, List.filterMap_map]
  exact List.filterMap_congr fun x _ => (hmove x).symm

/-- Of members with different marks the one with a given mark is the same in every order. -/
theorem filter_eq_of_perm {α β : Type} [DecidableEq β] {l l' : List α} {g : α → β} (h : l.Perm l')
    (hdistinct : (l'.map g).Nodup) (b : β) : l.filter (g · = b) = l'.filter (g · = b) := by
  have hlength : (l'.filter (g · = b)).length ≤ 1 := by
    have hcount := List.nodup_iff_count_le_one.1 hdistinct b
    rw [List.count_eq_countP, List.countP_map, List.countP_eq_length_filter] at hcount
    exact hcount
  match l'.filter (g · = b), h.filter (g · = b), hlength with
  | [], hperm, _ => exact hperm.eq_nil
  | [a], hperm, _ => exact List.perm_singleton.1 hperm

/-- Uses come to stand where they stood before. -/
theorem columnOf?_renumber (huses : (uses'.map (Prod.map f id)).Perm uses) (hdistinct : (uses.map Prod.snd).Nodup)
    (u : ColumnUse) : (ColumnUse.columnOf? u uses').map f = ColumnUse.columnOf? u uses := by
  have hmoved : (uses'.filter (·.2 = u)).map (Prod.map f id) = (uses'.map (Prod.map f id)).filter (·.2 = u) := by
    rw [List.filter_map]
    rfl
  unfold ColumnUse.columnOf?
  rw [← filter_eq_of_perm huses hdistinct u, ← hmoved, ← List.getLast?_map, List.map_map, List.map_map]
  rfl

namespace BlockHeader

variable {key key' : KeyColumn}

theorem perm_keys_of_renumber (huses : (uses'.map (Prod.map f id)).Perm uses) :
    ((uses'.filterMap ColumnUse.key?).map (KeyColumn.renumber f)).Perm (uses.filterMap ColumnUse.key?) :=
  perm_filterMap_of_renumber (fun ⟨c, u⟩ => by cases u <;> rfl) huses

theorem own_of_renumber (huses : (uses'.map (Prod.map f id)).Perm uses) {table : String} :
    (∀ x ∈ uses, x.2.On table) ↔ ∀ x ∈ uses', x.2.On table := by
  simp only [← huses.mem_iff]
  exact List.forall_mem_map

/-- Uses form a header wherever they stand. -/
theorem exists_forms_iff (huses : (uses'.map (Prod.map f id)).Perm uses) :
    (∃ key, Forms uses key) ↔ ∃ key', Forms uses' key' := by
  have hkeys := perm_keys_of_renumber huses
  constructor
  · rintro ⟨key, hforms⟩
    rw [hforms.keys, List.perm_singleton] at hkeys
    obtain ⟨key', hkey', rfl⟩ := List.map_eq_singleton_iff.1 hkeys
    exact ⟨key', hkey', (own_of_renumber huses).1 hforms.own⟩
  · rintro ⟨key', hforms⟩
    rw [hforms.keys, List.map_singleton, List.singleton_perm] at hkeys
    exact ⟨key'.renumber f, hkeys.symm, (own_of_renumber huses).2 hforms.own⟩

/-- Operations on one table that have different tags differ in what they do or in the field. -/
theorem Forms.distinct (hforms : Forms uses key) (hdistinct : (uses.map Prod.snd).Nodup) :
    ((ofUses key uses).operations.map fun c => (c.operation, c.target)).Nodup := by
  have hpairs : uses.Pairwise fun x y => x.2 ≠ y.2 := List.pairwise_map.1 hdistinct
  refine List.pairwise_map.2 (List.pairwise_filterMap.2 (hpairs.imp_of_mem ?_))
  rintro ⟨c, u⟩ ⟨c', u'⟩ hu hu' hne o ho o' ho' heq
  cases u with
  | comparison | unique | required | key => cases ho
  | operation table field op =>
    cases u' with
    | comparison | unique | required | key => cases ho'
    | operation table' field' op' =>
      cases ho
      cases ho'
      cases heq
      obtain rfl : table = key.table := hforms.own _ hu
      obtain rfl : table' = key.table := hforms.own _ hu'
      exact hne rfl

theorem renumbered_ofUses (huses : (uses'.map (Prod.map f id)).Perm uses) (hdistinct : (uses.map Prod.snd).Nodup)
    (hforms : Forms uses key) (hforms' : Forms uses' key') :
    Renumbered f (ofUses key uses) (ofUses key' uses') where
  key := by
    have hkeys := perm_keys_of_renumber huses
    rw [hforms.keys, hforms'.keys, List.map_singleton, List.singleton_perm] at hkeys
    exact (List.singleton_inj.1 hkeys)
  operations := perm_filterMap_of_renumber (fun ⟨c, u⟩ => by cases u <;> rfl) huses
  comparison := columnOf?_renumber huses hdistinct _
  unique := columnOf?_renumber huses hdistinct _
  required := columnOf?_renumber huses hdistinct _
  distinct := hforms.distinct hdistinct

end BlockHeader

end Headers

section HeaderRows

variable {columns : List Nat} {row : Row}

/-- The tags of the header cells right of the first. -/
def Row.headerTags (row : Row) : List String := (row.drop 1).filterMap singleTag?

/-- The cells from a column on are those of the row, and empty ones behind its end. -/
theorem map_cell_range' {k m : Nat} (hwidth : row.length ≤ k + m) :
    (List.range' k m).map row.cell = row.drop k ++ List.replicate (m - (row.drop k).length) "" := by
  refine List.ext_getElem (by simp; omega) fun i hi hi' => ?_
  rw [List.getElem_map, List.getElem_range', Nat.one_mul, List.getElem_append]
  unfold Row.cell
  split
  · rename_i hinside
    rw [List.length_drop] at hinside
    rw [List.getElem?_eq_getElem (by omega), List.getElem_drop]
    rfl
  · rename_i houtside
    rw [List.length_drop] at houtside
    rw [List.getElem?_eq_none (by omega), List.getElem_replicate]
    rfl

/-- Uses of different tags are different. -/
theorem nodup_uses (hwidth : row.length ≤ columns.length + 1) (hdistinct : row.headerTags.Nodup) :
    ((row.uses (List.range' 1 columns.length)).map Prod.snd).Nodup := by
  have htags : ∀ cs : List Nat,
      (((row.uses cs).map Prod.snd).map ColumnUse.tag).Sublist ((cs.map row.cell).filterMap singleTag?) := by
    intro cs
    induction cs with
    | nil => exact .slnil
    | cons c cs ih =>
      unfold Row.uses at ih ⊢
      rw [List.map_cons, List.filterMap_cons, List.filterMap_cons]
      cases htag : singleTag? (row.cell c) with
      | none => simpa [ColumnUse.ofCell?, htag] using ih
      | some tag =>
        cases hu : ColumnUse.ofTag? tag with
        | none => simpa [ColumnUse.ofCell?, htag, hu] using ih.cons tag
        | some u =>
          rw [ColumnUse.eq_tag_of_ofTag? hu]
          simpa [ColumnUse.ofCell?, htag, hu] using ih
  have hall : ((List.range' 1 columns.length).map row.cell).filterMap singleTag? = row.headerTags := by
    have hempty : singleTag? "" = none := by decide +kernel
    rw [map_cell_range' (Nat.add_comm _ _ ▸ hwidth), List.filterMap_append]
    simp [Row.headerTags, hempty]
  exact List.Nodup.of_map _ (hdistinct.sublist (hall ▸ htags _))

theorem perm_uses_rearranged (hcolumns : columns.Perm (List.range' 1 columns.length))
    (hwidth : row.length ≤ columns.length + 1) :
    (((row.rearranged columns).uses (List.range' 1 columns.length)).map
      (Prod.map (columnBefore columns) id)).Perm (row.uses (List.range' 1 columns.length)) := by
  have hmoved : ((row.rearranged columns).uses (List.range' 1 columns.length)).map
      (Prod.map (columnBefore columns) id) =
        row.uses ((List.range' 1 columns.length).map (columnBefore columns)) := by
    unfold Row.uses
    rw [List.map_filterMap, List.filterMap_map]
    refine List.filterMap_congr fun c _ => ?_
    simp [cell_rearranged hwidth, Function.comp_def]
  rw [hmoved, map_columnBefore]
  exact hcolumns.filterMap _

/-- A header row is compiled in both orders of its columns or in neither, and to the same header. -/
theorem BlockHeader.compile_rearranged {place place' : Nat → Location} (hplace : ∀ c, (place c).column = c)
    (hplace' : ∀ c, (place' c).column = c) (hcolumns : columns.Perm (List.range' 1 columns.length))
    (hwidth : row.length ≤ columns.length + 1) (hdistinct : row.headerTags.Nodup) :
    AgreeUpTo (Renumbered (columnBefore columns)) (compile place row)
      (compile place' (row.rearranged columns)) := by
  have hrearranged : (row.rearranged columns).length ≤ columns.length + 1 := by simp [Row.rearranged]
  have huses := perm_uses_rearranged hcolumns hwidth
  have husable : (∀ c ∈ List.range' 1 columns.length, Usable ((row.rearranged columns).cell c)) ↔
      ∀ c ∈ List.range' 1 columns.length, Usable (row.cell c) := by
    simp only [cell_rearranged hwidth]
    rw [← List.forall_mem_map (P := fun c => Usable (row.cell c)), map_columnBefore]
    simp only [hcolumns.mem_iff]
  refine .of_iff ?_ fun h h' hok hok' => ?_
  · simp only [compile_eq_ok_iff hplace hwidth, compile_eq_ok_iff hplace' hrearranged, husable]
    constructor
    · rintro ⟨-, hcells, key, hforms, -⟩
      obtain ⟨key', hforms'⟩ := (exists_forms_iff huses).1 ⟨key, hforms⟩
      exact ⟨_, hcells, key', hforms', rfl⟩
    · rintro ⟨-, hcells, key', hforms', -⟩
      obtain ⟨key, hforms⟩ := (exists_forms_iff huses).2 ⟨key', hforms'⟩
      exact ⟨_, hcells, key, hforms, rfl⟩
  · obtain ⟨-, key, hforms, rfl⟩ := (compile_eq_ok_iff hplace hwidth).1 hok
    obtain ⟨-, key', hforms', rfl⟩ := (compile_eq_ok_iff hplace' hrearranged).1 hok'
    exact renumbered_ofUses huses (nodup_uses hwidth hdistinct) hforms hforms'

end HeaderRows

/-! ## Rows -/

/-- The same edits, with the entries of each operation in some order. -/
structure Edits.Rearranged (e e' : Edits) : Prop where
  assign : e.assign.entries.Perm e'.assign.entries
  append : e.append.entries.Perm e'.append.entries
  prepend : e.prepend.entries.Perm e'.prepend.entries
  regex : e.regex.entries.Perm e'.regex.entries
  delete : e.delete.Perm e'.delete
  rename : e.rename.entries.Perm e'.rename.entries
  required : e.required = e'.required

/-- Edits that make the same changes differ only in the order of their entries. -/
theorem Edits.Rearranged.of_change? {e e' : Edits} (h : ∀ op target, e.change? op target = e'.change? op target)
    (hdelete : e.delete.Perm e'.delete) (hrequired : e.required = e'.required) : e.Rearranged e' where
  assign := OrderedMap.perm_entries fun k => Option.map_injective (fun _ _ => Change.value.inj) (h .assign k)
  append := OrderedMap.perm_entries fun k => Option.map_injective (fun _ _ => Change.value.inj) (h .append k)
  prepend := OrderedMap.perm_entries fun k => Option.map_injective (fun _ _ => Change.value.inj) (h .prepend k)
  regex := OrderedMap.perm_entries fun k => Option.map_injective (fun _ _ => Change.pair.inj) (h .regex k)
  delete := hdelete
  rename := OrderedMap.perm_entries fun k => Option.map_injective (fun _ _ => Change.name.inj) (h .rename k)
  required := hrequired

namespace OperationColumn

/-- A column whose cell can be read: only a pattern with its replacement may be malformed. -/
def Readable (place : Nat → Location) (row : Row) (c : OperationColumn) : Prop :=
  c.operation = .regex → Text.trim (row.cell c.column) ≠ "" → (c.asked? place row).isSome

/-- True of a column that deletes its target in a row. -/
def deletes (row : Row) (c : OperationColumn) : Bool :=
  c.operation = .delete && isTruthy (Text.trim (row.cell c.column))

end OperationColumn

namespace BlockHeader

variable {place : Nat → Location} {row : Row} {e e' : Edits} {c : OperationColumn}

theorem exists_addColumn_eq_ok_iff : (∃ e', addColumn place row e c = .ok e') ↔ c.Readable place row := by
  unfold addColumn OperationColumn.Readable OperationColumn.asked?
  dsimp only
  by_cases hblank : Text.trim (row.cell c.column) = ""
  · simp [hblank]
  · rw [if_neg (by simpa using hblank), if_neg (by simpa using hblank)]
    cases hop : c.operation with
    | assign | append | prepend | rename | delete => simp [Edits.addCell]
    | regex =>
      cases hpair : readPair (Text.trim (row.cell c.column)) c.target (place c.column) with
      | ok pair => simp [Edits.addCell, Operation.ask?, hpair, Except.toOption, except_bind_eq_ok_iff, pure, Except.pure]
      | error f => simp [Edits.addCell, Operation.ask?, hpair, Except.toOption, hblank]

theorem delete_of_addColumn (h : addColumn place row e c = .ok e') :
    e'.delete = e.delete ++ ([c].filter (·.deletes row)).map (·.target) ∧ e'.required = e.required := by
  have hempty : isTruthy "" = false := by decide
  unfold addColumn at h
  unfold OperationColumn.deletes
  dsimp only at h
  split at h
  · rename_i hblank
    cases h
    rw [String.isEmpty_iff] at hblank
    simp [hblank, hempty]
  · cases hop : c.operation with
    | assign | append | prepend | rename =>
      rw [hop] at h
      cases h
      simp [hop]
    | regex =>
      rw [hop] at h
      obtain ⟨pair, -, h⟩ := except_bind_eq_ok h
      cases h
      simp [hop]
    | delete =>
      rw [hop] at h
      obtain rfl := Except.ok.inj h
      cases hyes : isTruthy (Text.trim (row.cell c.column)) <;> simp [hop, hyes]

/-- The deletions of a row are those of its columns, in their order. -/
theorem delete_of_columns {columns : List OperationColumn} (h : columns.foldlM (addColumn place row) e = .ok e') :
    e'.delete = e.delete ++ (columns.filter (·.deletes row)).map (·.target) ∧ e'.required = e.required := by
  induction columns generalizing e with
  | nil =>
    cases h
    simp
  | cons c columns ih =>
    rw [List.foldlM_cons] at h
    obtain ⟨e₁, hc, h⟩ := except_bind_eq_ok h
    obtain ⟨hdelete, hrequired⟩ := delete_of_addColumn hc
    obtain ⟨hdelete', hrequired'⟩ := ih h
    refine ⟨?_, hrequired'.trans hrequired⟩
    rw [hdelete', hdelete, List.append_assoc, ← List.map_append, ← List.filter_append, List.singleton_append]

theorem editsOf_eq_foldlM (h : BlockHeader) :
    h.editsOf place row = h.operations.foldlM (addColumn place row) { required := isYes h.required row } := rfl

/-- A row has edits exactly if each of its columns can be read. -/
theorem exists_editsOf_eq_ok_iff {h : BlockHeader} :
    (∃ e, h.editsOf place row = .ok e) ↔ ∀ c ∈ h.operations, c.Readable place row := by
  rw [editsOf_eq_foldlM]
  exact exists_foldlM_eq_ok_iff (f := addColumn place row) fun _ _ => exists_addColumn_eq_ok_iff

theorem delete_of_editsOf {h : BlockHeader} (he : h.editsOf place row = .ok e) :
    e.delete = (h.operations.filter (·.deletes row)).map (·.target) ∧ e.required = isYes h.required row := by
  rw [editsOf_eq_foldlM] at he
  exact delete_of_columns he

end BlockHeader

/-- Whether a cell is a pair, and which one, does not depend on where it stands. -/
theorem toOption_readPair (cell target target' : String) (here here' : Location) :
    (readPair cell target here).toOption = (readPair cell target' here').toOption := by
  unfold readPair
  split
  · rfl
  · split <;> rfl
  · rfl

section RowPairs

variable {f : Nat → Nat} (place place' : Nat → Location) {row row' : Row} {h h' : BlockHeader}

theorem asked?_renumber (hcell : ∀ c, row'.cell c = row.cell (f c)) (c : OperationColumn) :
    (c.renumber f).asked? place row = c.asked? place' row' := by
  unfold OperationColumn.asked? OperationColumn.renumber
  dsimp only
  rw [hcell]
  split
  · rfl
  · cases hop : c.operation with
    | regex =>
      unfold Operation.ask?
      dsimp only
      rw [toOption_readPair]
    | assign | append | prepend | rename | delete => rfl

/-- What a row asks of a target by an operation is at most one change, which stands anywhere. -/
theorem asks_renumber (hcell : ∀ c, row'.cell c = row.cell (f c)) (hh : h.Renumbered f h') (op : Operation)
    (target : String) :
    OperationColumn.asks place' row' h'.operations op target =
      OperationColumn.asks place row h.operations op target := by
  have hfilter := filter_eq_of_perm hh.operations hh.distinct (op, target)
  simp only [Prod.mk.injEq] at hfilter
  unfold OperationColumn.asks
  rw [← hfilter, List.filter_map, List.filterMap_map]
  refine List.filterMap_congr fun c _ => ?_
  rw [Function.comp_apply, asked?_renumber place place' hcell]

theorem isYes_renumber (hcell : ∀ c, row'.cell c = row.cell (f c)) (o : Option Nat) :
    BlockHeader.isYes (o.map f) row = BlockHeader.isYes o row' := by
  cases o with
  | none => rfl
  | some c =>
    show isTruthy (row.cell (f c)) = isTruthy (row'.cell c)
    rw [hcell]

namespace BlockHeader.Renumbered

/-- A row has edits in both orders of its columns or in neither, and the same. -/
theorem editsOf (hh : h.Renumbered f h') (hcell : ∀ c, row'.cell c = row.cell (f c)) :
    AgreeUpTo Edits.Rearranged (h.editsOf place row) (h'.editsOf place' row') := by
  have hreadable : (∀ c ∈ h.operations, c.Readable place row) ↔ ∀ c ∈ h'.operations, c.Readable place' row' := by
    simp only [← hh.operations.mem_iff]
    rw [List.forall_mem_map]
    refine forall₂_congr fun c _ => ?_
    unfold OperationColumn.Readable
    rw [asked?_renumber place place' hcell, hcell]
    rfl
  refine .of_iff ?_ fun e e' he he' => .of_change? (fun op target => ?_) ?_ ?_
  · rw [exists_editsOf_eq_ok_iff, exists_editsOf_eq_ok_iff, hreadable]
  · rw [change?_of_editsOf he, change?_of_editsOf he', asks_renumber place place' hcell hh]
  · rw [(delete_of_editsOf he).1, (delete_of_editsOf he').1]
    refine ((hh.operations.filter (·.deletes row)).map (·.target)).symm.trans (.of_eq ?_)
    rw [List.filter_map, List.map_map]
    refine congrArg (List.map _) (List.filter_congr fun c _ => ?_)
    unfold OperationColumn.deletes
    rw [hcell]
    rfl
  · rw [(delete_of_editsOf he).2, (delete_of_editsOf he').2, ← hh.required]
    exact isYes_renumber hcell h'.required

theorem comparisonOf (hh : h.Renumbered f h') (hcell : ∀ c, row'.cell c = row.cell (f c)) :
    AgreeUpTo Eq (h.comparisonOf place row) (h'.comparisonOf place' row') := by
  have hnamed : h.comparison.map row.cell = h'.comparison.map row'.cell := by
    rw [← hh.comparison, Option.map_map]
    exact congrArg (Option.map · _) (funext fun c => (hcell c).symm)
  have hunique : isYes h.unique row = isYes h'.unique row' := by
    rw [← hh.unique]
    exact isYes_renumber hcell h'.unique
  unfold BlockHeader.comparisonOf
  dsimp only
  rw [hnamed, hunique]
  split
  · exact .ok rfl
  · exact .error ..

end BlockHeader.Renumbered

end RowPairs

/-! ## Worksheets -/

namespace ConversionDirectives

/-- The same directives in the same order, each with the same edits up to the order of their entries. -/
def Rearranged (d d' : ConversionDirectives) : Prop :=
  OrderedMap.Parallel (OrderedMap.Parallel (OrderedMap.Parallel (OrderedMap.Parallel Edits.Rearranged))) d d'

variable {d d' : ConversionDirectives}

theorem Rearranged.put (hd : d.Rearranged d') {e e' : Edits} (he : e.Rearranged e') (table field : String)
    (c : Comparison) (key : String) : (d.put table field c key e).Rearranged (d'.put table field c key e') := by
  refine OrderedMap.Parallel.alter hd table fun t t' ht => ?_
  refine (OrderedMap.Parallel.getD ht).alter field fun fs fs' hfs => ?_
  refine (OrderedMap.Parallel.getD hfs).alter c fun k k' hk => ?_
  exact (OrderedMap.Parallel.getD hk).insert key he

/-- A row gives its directive in both orders of its columns or in neither. -/
theorem Rearranged.addRow (hd : d.Rearranged d') {f : Nat → Nat} {h h' : BlockHeader} (hh : h.Renumbered f h')
    {row row' : Row} (hcell : ∀ c, row'.cell c = row.cell (f c)) (place place' : Nat → Location) :
    AgreeUpTo Rearranged (h.addRow place row d) (h'.addRow place' row' d') := by
  have hkey : row.cell h.key.column = row'.cell h'.key.column := by
    rw [hcell, ← hh.key]
    rfl
  have htable : h.key.table = h'.key.table := by
    rw [← hh.key]
    rfl
  have hfield : h.key.field = h'.key.field := by
    rw [← hh.key]
    rfl
  unfold BlockHeader.addRow
  dsimp only
  rw [hkey, htable, hfield]
  split
  · exact .ok hd
  · refine (hh.comparisonOf place place' hcell).bind fun c c' hc => ?_
    obtain rfl := hc
    refine (hh.editsOf place place' hcell).bind fun e e' he => ?_
    exact .ok (hd.put he ..)

/-- From rows on, whatever directives and header are already there. -/
theorem ofRows_rearranged {columns : List Nat} (hcolumns : columns.Perm (List.range' 1 columns.length))
    {sheet sheet' : Worksheet} {rows : List Row} (hwidth : ∀ row ∈ rows, row.length ≤ columns.length + 1)
    (hdistinct : ∀ row ∈ rows, row.isTags → row.headerTags.Nodup) (index : Nat) {header header' : Option BlockHeader}
    (hheader : Option.Rel (BlockHeader.Renumbered (columnBefore columns)) header header')
    (hd : d.Rearranged d') :
    AgreeUpTo Rearranged (ofRows sheet index rows header d)
      (ofRows sheet' index (rows.map (Row.rearranged columns)) header' d') := by
  induction rows generalizing index header header' d d' with
  | nil => exact .ok hd
  | cons row rows ih =>
    obtain ⟨hrow, hwidth⟩ := List.forall_mem_cons.1 hwidth
    obtain ⟨htags, hdistinct⟩ := List.forall_mem_cons.1 hdistinct
    have ih := fun {d d' header header'} => @ih d d' hwidth hdistinct (index + 1) header header'
    have hisTags : (row.rearranged columns).isTags = row.isTags := isMarked_rearranged (by decide)
    have hisIgnore : (row.rearranged columns).isIgnore = row.isIgnore := isMarked_rearranged (by decide)
    rw [List.map_cons]
    unfold ofRows
    rw [hisTags, hisIgnore, isBlank_rearranged hcolumns hrow]
    split_ifs with hmarked
    · have hcompile : AgreeUpTo (BlockHeader.Renumbered (columnBefore columns))
          (BlockHeader.compile (sheet.location index) row)
          (BlockHeader.compile (sheet'.location index) (row.rearranged columns)) :=
        BlockHeader.compile_rearranged (fun _ => rfl) (fun _ => rfl) hcolumns hrow (htags hmarked)
      generalize BlockHeader.compile (sheet.location index) row = x,
        BlockHeader.compile (sheet'.location index) (row.rearranged columns) = y at hcompile
      cases hcompile with
      | ok hh => exact ih (.some hh) hd
      | error e e' => exact .error ..
    · exact ih hheader hd
    · exact ih .none hd
    · cases hheader with
      | none => exact ih .none hd
      | some hh =>
        refine (hd.addRow hh (cell_rearranged hrow) _ _).bind fun d₁ d₁' hd₁ => ?_
        exact ih (.some hh) hd₁

/--
The columns of a worksheet of directives right of the first may stand in any order, if no header has a tag
twice: the worksheet is refused in both orders or in neither, and the directives are the same up to the order
of the entries of each operation.
-/
theorem ofWorksheet_rearranged {sheet : Worksheet} {columns : List Nat}
    (hcolumns : columns.Perm (List.range' 1 columns.length))
    (hwidth : ∀ row ∈ sheet.rows, row.length ≤ columns.length + 1)
    (hdistinct : ∀ row ∈ sheet.rows, row.isTags → row.headerTags.Nodup) :
    AgreeUpTo Rearranged (ofWorksheet sheet) (ofWorksheet (sheet.rearranged columns)) :=
  ofRows_rearranged hcolumns hwidth hdistinct 0 .none .nil

/-- A worksheet whose key column comes to stand right of the operations. -/
theorem ofWorksheet_rearranged_key_last :
    let sheet : Worksheet := ⟨"edits.csv", "edits", [["#tags", "#sample.name.value", "#sample.id.assign",
      "#sample.notes.assign"], ["", "a", "X", "n"]]⟩
    ∃ d d', ofWorksheet sheet = .ok d ∧ ofWorksheet (sheet.rearranged [3, 2, 1]) = .ok d' ∧ d ≠ d' ∧
      d.Rearranged d' := by
  intro sheet
  let directives (entries : OrderedMap String FieldValue) : ConversionDirectives :=
    .single "sample" (.single "name" (.single ⟨.exact, false⟩ (.single "a" { assign := entries })))
  let d := directives (.ofList [("id", .scalar "X"), ("notes", .scalar "n")])
  let d' := directives (.ofList [("notes", .scalar "n"), ("id", .scalar "X")])
  have hd : ofWorksheet sheet = .ok d := by decide +kernel
  have hd' : ofWorksheet (sheet.rearranged [3, 2, 1]) = .ok d' := by decide +kernel
  have hagree : AgreeUpTo Rearranged (ofWorksheet sheet) (ofWorksheet (sheet.rearranged [3, 2, 1])) :=
    ofWorksheet_rearranged (by decide) (by decide) (by decide +kernel)
  obtain ⟨_, hok, hrearranged⟩ := hagree.exists_ok hd
  rw [hd'] at hok
  obtain rfl := Except.ok.inj hok
  exact ⟨d, d', hd, hd', by decide, hrearranged⟩

end ConversionDirectives

end TagHarvest
