/-
What tagging keeps of a worksheet. Each step of it leaves every row where it stands among the others, with
its cells in front of any new ones, and counts the rows that it adds.
-/
import TagHarvest.Tagging.Apply
import TagHarvest.Proofs.Effects
import TagHarvest.Proofs.Tagging.Block
import Mathlib.Data.List.Forall2

namespace TagHarvest

/-- The rows of a worksheet in their order, each with its cells in front, among `n` other rows. -/
inductive Grown : Nat → List Row → List Row → Prop
  | nil : Grown 0 [] []
  | keep {n : Nat} {row image : Row} {rows rows' : List Row} (hrow : row <+: image)
    (h : Grown n rows rows') : Grown n (row :: rows) (image :: rows')
  | insert {n : Nat} {rows rows' : List Row} (new : Row) (h : Grown n rows rows') :
    Grown (n + 1) rows (new :: rows')

namespace Grown

variable {n m : Nat} {rows rows' rows'' : List Row}

theorem of_forall₂ (h : List.Forall₂ (· <+: ·) rows rows') : Grown 0 rows rows' := by
  induction h with
  | nil => exact .nil
  | cons hrow _ ih => exact .keep hrow ih

theorem refl (rows : List Row) : Grown 0 rows rows :=
  of_forall₂ (List.forall₂_same.2 fun row _ => row.prefix_refl)

theorem inserted (new : List Row) : Grown new.length [] new := by
  induction new with
  | nil => exact .nil
  | cons row new ih => exact .insert row ih

theorem append {below below' : List Row} (h : Grown n rows rows') (h' : Grown m below below') :
    Grown (n + m) (rows ++ below) (rows' ++ below') := by
  induction h with
  | nil =>
    rw [Nat.zero_add]
    exact h'
  | keep hrow _ ih => exact .keep hrow ih
  | insert new _ ih =>
    rw [Nat.add_right_comm]
    exact .insert new ih

theorem trans (h : Grown n rows rows') (h' : Grown m rows' rows'') : Grown (n + m) rows rows'' := by
  induction h' generalizing n rows with
  | nil => exact h
  | keep hrow' _ ih =>
    cases h with
    | keep hrow h => exact .keep (hrow.trans hrow') (ih h)
    | insert _ h =>
      rw [Nat.add_right_comm]
      exact .insert _ (ih h)
  | insert new _ ih => exact .insert new (ih h)

theorem length_eq (h : Grown n rows rows') : rows'.length = rows.length + n := by
  induction h with
  | nil => rfl
  | keep _ _ ih => simp only [List.length_cons]; omega
  | insert _ _ ih => simp only [List.length_cons]; omega

end Grown

/-- One state of tagging after another: the rows have grown by as many as are counted. -/
def TaggingState.Grows (s s' : TaggingState) : Prop :=
  ∃ n, s'.summary.rows = s.summary.rows + n ∧ Grown n s.sheet.rows s'.sheet.rows

namespace TaggingState.Grows

variable {s s' s'' : TaggingState}

theorem of_rows_eq (hrows : s'.sheet.rows = s.sheet.rows) (hcount : s'.summary.rows = s.summary.rows) :
    s.Grows s' :=
  ⟨0, hcount, hrows ▸ Grown.refl _⟩

theorem trans (h : s.Grows s') (h' : s'.Grows s'') : s.Grows s'' := by
  obtain ⟨n, hn, hrows⟩ := h
  obtain ⟨m, hm, hrows'⟩ := h'
  exact ⟨n + m, by omega, hrows.trans hrows'⟩

theorem length_le (h : s.Grows s') : s.sheet.rows.length ≤ s'.sheet.rows.length := by
  obtain ⟨n, -, hrows⟩ := h
  have := hrows.length_eq
  omega

end TaggingState.Grows

namespace Tagging

variable {finds : Pattern → String → Bool} {s s' : TaggingState}

/-! ## Rows that are put in -/

theorem grows_splice {index : Nat} {inserted : List Row} (h : splice index inserted s = .ok () s') :
    s.Grows s' := by
  cases h
  refine ⟨inserted.length, rfl, ?_⟩
  have habove := (Grown.refl (s.sheet.rows.take index)).append (Grown.inserted inserted)
  have hall := habove.append (Grown.refl (s.sheet.rows.drop index))
  rw [List.append_nil, List.take_append_drop, Nat.zero_add, Nat.add_zero] at hall
  exact hall

theorem grown_aboveTags (inserted rows : List Row) :
    Grown ((rows.filter Row.isTags).length * inserted.length) rows
      (rows.flatMap fun row => if row.isTags then inserted ++ [row] else [row]) := by
  induction rows with
  | nil =>
    rw [List.filter_nil, List.length_nil, Nat.zero_mul]
    exact .nil
  | cons row rows ih =>
    rw [List.flatMap_cons]
    by_cases htags : row.isTags
    · have hrow := (Grown.inserted inserted).append (Grown.refl [row])
      rw [if_pos htags, List.filter_cons_of_pos htags, List.length_cons, Nat.succ_mul, Nat.add_comm]
      exact hrow.append ih
    · rw [if_neg htags, List.filter_cons_of_neg htags]
      exact .keep row.prefix_refl ih

theorem grows_insertRows {g : TaggingGroup} (h : insertRows g s = .ok () s') : s.Grows s' := by
  unfold insertRows at h
  split at h
  · cases h
    exact ⟨_, rfl, grown_aboveTags g.insert s.sheet.rows⟩
  · exact grows_splice h

/-! ## New columns -/

theorem prefix_extendRow (width : Nat) (cells : List String) (row : Row) : row <+: extendRow width cells row :=
  (List.prefix_append row _).trans (List.prefix_append _ cells)

/-- What a new cell says, as far as it does not have to be computed. -/
def CellOf (row : Row) (d : Description × Option ValueSource) (cell : String) : Prop :=
  (∀ c, d.2 = some (.column c) → cell = row.cell c) ∧ (d.2 = none → cell = "")

theorem cellOf_newCell {sheet : Worksheet} {header row : Row} {index : Nat}
    {d : Description × Option ValueSource} {cell : String} {log log' : Diagnostics}
    (h : newCell finds sheet header index row d log = .ok cell log') : CellOf row d cell := by
  unfold newCell at h
  unfold CellOf
  rcases hd : d.2 with _ | (c | e)
  · rw [hd] at h
    cases h
    exact ⟨nofun, fun _ => rfl⟩
  · rw [hd] at h
    cases h
    refine ⟨?_, nofun⟩
    rintro _ ⟨⟩
    rfl
  · exact ⟨nofun, nofun⟩

/-- A data row and the same row with its new cells. -/
def Filled (width : Nat) (ds : List (Description × Option ValueSource)) (row image : Row) : Prop :=
  if row.isIgnore then image = row
  else ∃ cells, List.Forall₂ (CellOf row) ds cells ∧ image = extendRow width cells row

theorem Filled.prefix {width : Nat} {ds : List (Description × Option ValueSource)} {row image : Row}
    (h : Filled width ds row image) : row <+: image := by
  unfold Filled at h
  split at h
  · exact h ▸ row.prefix_refl
  · obtain ⟨cells, -, rfl⟩ := h
    exact prefix_extendRow width cells row

theorem filled_fillRows {sheet : Worksheet} {header : Row} {width : Nat}
    {ds : List (Description × Option ValueSource)} {index : Nat} {rows filled : List Row}
    {log log' : Diagnostics}
    (h : fillRows finds sheet header width ds index rows log = (none, filled, log')) :
    List.Forall₂ (Filled width ds) rows filled := by
  induction rows generalizing index log filled with
  | nil =>
    cases h
    exact .nil
  | cons row rows ih =>
    unfold fillRows at h
    split at h
    · rename_i hignore
      rcases hrest : fillRows finds sheet header width ds (index + 1) rows log with ⟨e, filled', log''⟩
      rw [hrest] at h
      cases h
      refine .cons ?_ (ih hrest)
      unfold Filled
      rw [if_pos hignore]
    · rename_i hignore
      split at h
      · cases h
      · rename_i cells log₁ hcells
        rcases hrest : fillRows finds sheet header width ds (index + 1) rows log₁ with ⟨e, filled', log''⟩
        rw [hrest] at h
        cases h
        refine .cons ?_ (ih hrest)
        unfold Filled
        rw [if_neg hignore]
        have hcell : ∀ d cell s s', newCell finds sheet header index row d s = .ok cell s' → CellOf row d cell :=
          fun _ _ _ _ => cellOf_newCell
        exact ⟨cells, forall₂_of_mapM hcell hcells, rfl⟩

/-- The labels of a block go below its header, where others stood or not, and its data rows are filled. -/
theorem tagBlock_eq_ok {ds : List Description} {width : Nat} {b : Block}
    (h : tagBlock finds ds width b s = .ok () s') :
    ∃ labels tags filled,
      labels = extendRow width (labelCells (·.header) (ds.zip b.sources))
        (if b.tagged then s.sheet.row (b.header + 1) else ["#ignore"]) ∧
      tags = extendRow width (labelCells (·.tag) (ds.zip b.sources))
        (if b.tagged then s.sheet.row (b.header + 2) else ["#tags"]) ∧
      List.Forall₂ (Filled width (ds.zip b.sources)) ((s.sheet.rows.drop b.start).take b.length) filled ∧
      s'.sheet.rows = s.sheet.rows.take (b.header + 1) ++ [labels, tags] ++ filled ++ s.sheet.rows.drop b.stop ∧
      s'.summary.rows = s.summary.rows + b.added := by
  unfold tagBlock at h
  rw [get_bind_apply] at h
  dsimp only at h
  rcases hfill : fillRows finds s.sheet (s.sheet.row b.header) width (ds.zip b.sources) b.start
    ((s.sheet.rows.drop b.start).take b.length) s.diagnostics with ⟨failure, filled, log⟩
  rw [hfill] at h
  cases failure with
  | some e => cases h
  | none =>
    cases h
    exact ⟨_, _, filled, rfl, rfl, filled_fillRows hfill, rfl, rfl⟩

theorem row_eq_getElem {sheet : Worksheet} {i : Nat} (hi : i < sheet.rows.length) :
    sheet.row i = sheet.rows[i] := by
  unfold Worksheet.row
  rw [List.getElem?_eq_getElem hi]
  rfl

/-- A header that is tagged has its labels in the two rows below it. -/
theorem rows_eq_of_tagged {sheet : Worksheet} {b : Block} (htagged : b.tagged = true)
    (hstop : b.stop ≤ sheet.rows.length) :
    sheet.rows = sheet.rows.take (b.header + 1) ++ [sheet.row (b.header + 1), sheet.row (b.header + 2)] ++
      sheet.rows.drop b.start := by
  have hstart : b.start = b.header + 3 := by
    unfold Block.start
    rw [if_pos htagged]
  have hlength : b.header + 3 ≤ sheet.rows.length := by
    have : b.stop = b.start + b.length := rfl
    omega
  have hlabels : b.header + 1 < sheet.rows.length := by omega
  have htags : b.header + 2 < sheet.rows.length := by omega
  rw [row_eq_getElem hlabels, row_eq_getElem htags, hstart, List.append_assoc]
  calc sheet.rows
      = sheet.rows.take (b.header + 1) ++ sheet.rows.drop (b.header + 1) :=
        (List.take_append_drop _ _).symm
    _ = _ := by rw [List.drop_eq_getElem_cons hlabels, List.drop_eq_getElem_cons htags]; rfl

theorem grows_tagBlock {ds : List Description} {width : Nat} {b : Block} (hstop : b.stop ≤ s.sheet.rows.length)
    (h : tagBlock finds ds width b s = .ok () s') : s.Grows s' := by
  obtain ⟨labels, tags, filled, hlabels, htags, hfilled, hrows, hcount⟩ := tagBlock_eq_ok h
  refine ⟨_, hcount, ?_⟩
  have hblock : Grown 0 (s.sheet.rows.drop b.start) (filled ++ s.sheet.rows.drop b.stop) := by
    have hdata := Grown.of_forall₂ (hfilled.imp fun _ _ => Filled.prefix)
    have hall := hdata.append (Grown.refl (s.sheet.rows.drop b.stop))
    have hsplit : (s.sheet.rows.drop b.start).take b.length ++ s.sheet.rows.drop b.stop =
        s.sheet.rows.drop b.start := by
      unfold Block.stop
      rw [← List.drop_drop, List.take_append_drop]
    rw [hsplit] at hall
    exact hall
  have habove := Grown.refl (s.sheet.rows.take (b.header + 1))
  rw [hrows, List.append_assoc]
  unfold Block.added
  cases htagged : b.tagged with
  | true =>
    rw [if_pos htagged] at hlabels htags
    have hpair : Grown 0 [s.sheet.row (b.header + 1), s.sheet.row (b.header + 2)] [labels, tags] := by
      rw [hlabels, htags]
      exact .keep (prefix_extendRow _ _ _) (.keep (prefix_extendRow _ _ _) .nil)
    have hall := (habove.append hpair).append hblock
    rw [← rows_eq_of_tagged htagged hstop] at hall
    exact hall
  | false =>
    have hstart : b.start = b.header + 1 := by
      unfold Block.start
      rw [htagged]
      rfl
    have hall := (habove.append (Grown.inserted [labels, tags])).append hblock
    rw [List.append_nil, hstart, List.take_append_drop] at hall
    exact hall

theorem grows_tagBlocks {g : TaggingGroup} {ds : List Description} {width : Nat} {first : Bool}
    {bs : List Block} {index : Nat} (hbs : Block.Stacked s.sheet.rows.length index bs)
    (h : tagBlocks finds g ds width first bs s = .ok () s') : s.Grows s' := by
  induction bs generalizing first index s' with
  | nil =>
    cases h
    exact .of_rows_eq rfl rfl
  | cons b bs ih =>
    obtain ⟨-, hstop, hbs⟩ := hbs
    unfold tagBlocks at h
    obtain ⟨_, s₁, hbelow, h⟩ := bind_eq_ok h
    obtain ⟨_, s₂, hblock, h⟩ := bind_eq_ok h
    have hgrows := ih hbs hbelow
    have htagged := hgrows.trans (grows_tagBlock (Nat.le_trans hstop hgrows.length_le) hblock)
    split at h
    · exact htagged.trans (grows_splice h)
    · cases h
      exact htagged

/-! ## Groups -/

variable [PatternSyntax]

/-- A group with descriptions tags the blocks that it finds, if its texts can be read. -/
theorem applyGroup_eq_ok {index : Nat} {g : TaggingGroup} (hg : g.descriptions ≠ [])
    (h : applyGroup finds index g s = .ok () s') :
    ∃ ds exclusion, g.descriptions.mapM Description.compile = .ok ds ∧
      g.exclusion.mapM HeaderTest.ofText = .ok exclusion ∧
      ∃ s₁, s₁.sheet = s.sheet ∧ s₁.summary.rows = s.summary.rows ∧
        tagBlocks finds g ds s.sheet.width true (Block.find finds ds exclusion 0 false s.sheet.rows) s₁ =
          .ok () s' := by
  unfold applyGroup at h
  rw [if_neg (by simpa using hg)] at h
  generalize hcompiled : (do
    let ds ← g.descriptions.mapM Description.compile
    let exclusion ← g.exclusion.mapM HeaderTest.ofText
    return (ds, exclusion) : Except TaggingError (List Description × Option HeaderTest)) = compiled at h
  rcases compiled with e | ⟨ds, exclusion⟩
  · cases h
  · obtain ⟨ds', hds, hcompiled⟩ := except_bind_eq_ok hcompiled
    obtain ⟨exclusion', hexclusion, hcompiled⟩ := except_bind_eq_ok hcompiled
    cases hcompiled
    refine ⟨ds, exclusion, hds, hexclusion, ?_⟩
    dsimp only at h
    rw [get_bind_apply] at h
    cases hfind : Block.find finds ds exclusion 0 false s.sheet.rows with
    | nil =>
      rw [hfind] at h
      exact ⟨s', by cases h; rfl, by cases h; rfl, rfl⟩
    | cons b bs =>
      rw [hfind] at h
      obtain ⟨_, s₁, htally, h⟩ := bind_eq_ok h
      exact ⟨s₁, by cases htally; rfl, by cases htally; rfl, h⟩

theorem grows_applyGroup {index : Nat} {g : TaggingGroup} (h : applyGroup finds index g s = .ok () s') :
    s.Grows s' := by
  by_cases hg : g.descriptions = []
  · unfold applyGroup at h
    rw [hg, List.isEmpty_nil, if_pos rfl] at h
    exact grows_insertRows h
  · obtain ⟨ds, exclusion, -, -, s₁, hsheet, hcount, h⟩ := applyGroup_eq_ok hg h
    have hbs : Block.Stacked s₁.sheet.rows.length 0 (Block.find finds ds exclusion 0 false s.sheet.rows) := by
      rw [hsheet, ← Nat.zero_add s.sheet.rows.length]
      exact Block.stacked_find 0 false s.sheet.rows
    exact (TaggingState.Grows.of_rows_eq (congrArg Worksheet.rows hsheet) hcount).trans (grows_tagBlocks hbs h)

theorem grows_applyGroups {index : Nat} {gs : List TaggingGroup} (h : applyGroups finds index gs s = .ok () s') :
    s.Grows s' := by
  induction gs generalizing index s with
  | nil =>
    cases h
    exact .of_rows_eq rfl rfl
  | cons g gs ih =>
    unfold applyGroups at h
    obtain ⟨_, s₁, hfirst, h⟩ := bind_eq_ok h
    exact (grows_applyGroup hfirst).trans (ih h)

end Tagging
end TagHarvest
