/-
What stands in the new columns. A block is tagged without a change to the rows above its header and with
those below it moved as a whole, so the blocks of a group, which are tagged from the bottom up, are found
where they were; in each of their data rows a new cell repeats the cell that its description was matched to.
-/
import TagHarvest.Proofs.Tagging.Growth
import Mathlib.Algebra.GroupWithZero.Nat

namespace TagHarvest

namespace Block

/-- Where a row comes to stand when blocks get their labels. -/
def moved (bs : List Block) (i : Nat) : Nat := i + ((bs.filter (·.header < i)).map added).sum

theorem moved_cons_of_lt {b : Block} {i : Nat} (h : b.header < i) (bs : List Block) :
    moved (b :: bs) i = moved bs i + b.added := by
  unfold moved
  rw [List.filter_cons_of_pos (by simpa using h), List.map_cons, List.sum_cons]
  omega

theorem moved_of_le {bs : List Block} {i : Nat} (h : ∀ b ∈ bs, i ≤ b.header) : moved bs i = i := by
  have hnone : bs.filter (·.header < i) = [] :=
    List.filter_eq_nil_iff.2 fun b hb => by have := h b hb; simp; omega
  unfold moved
  rw [hnone]
  rfl

theorem le_moved (bs : List Block) (i : Nat) : i ≤ moved bs i := Nat.le_add_right i _

end Block

namespace Tagging

variable {finds : Pattern → String → Bool} {s s' : TaggingState}

/-- The rows of a worksheet around a block and in it, before and after its data rows are changed. -/
structure Retold (b : Block) (R : Row → Row → Prop) (sheet sheet' : Worksheet) : Prop where
  above : ∀ i ≤ b.header, sheet'.row i = sheet.row i
  data : ∀ i, b.start ≤ i → i < b.stop → R (sheet.row i) (sheet'.row (i + b.added))
  below : ∀ i, b.stop ≤ i → sheet'.row (i + b.added) = sheet.row i

theorem retold_tagBlock {ds : List Description} {width : Nat} {b : Block} (hstop : b.stop ≤ s.sheet.rows.length)
    (h : tagBlock finds ds width b s = .ok () s') :
    Retold b (Filled width (ds.zip b.sources)) s.sheet s'.sheet := by
  obtain ⟨labels, tags, filled, -, -, hfilled, hrows, -⟩ := tagBlock_eq_ok h
  have hstart := b.start_add_added
  have hlt := b.header_lt_start
  have hstoplength : b.stop = b.start + b.length := rfl
  have habove : (s.sheet.rows.take (b.header + 1)).length = b.header + 1 := by
    rw [List.length_take]
    omega
  have hdata : ((s.sheet.rows.drop b.start).take b.length).length = b.length := by
    rw [List.length_take, List.length_drop]
    omega
  have hlength : filled.length = b.length := by rw [← hfilled.length_eq, hdata]
  have hupper : (s.sheet.rows.take (b.header + 1) ++ [labels, tags]).length = b.start + b.added := by
    rw [List.length_append, habove, hstart]
    rfl
  refine ⟨fun i hi => ?_, fun i hi hi' => ?_, fun i hi => ?_⟩
  · unfold Worksheet.row
    rw [hrows, List.append_assoc, List.append_assoc, List.getElem?_append_left (by omega),
      List.getElem?_take_of_lt (by omega)]
  · have hindex : i + b.added - (b.start + b.added) = i - b.start := by omega
    have hdatalt : i - b.start < ((s.sheet.rows.drop b.start).take b.length).length := by omega
    have hfilledlt : i - b.start < filled.length := by omega
    have hbefore : s.sheet.row i = ((s.sheet.rows.drop b.start).take b.length)[i - b.start] := by
      rw [row_eq_getElem (by omega)]
      simp only [List.getElem_take, List.getElem_drop, Nat.add_sub_cancel' hi]
    have hafter : s'.sheet.row (i + b.added) = filled[i - b.start] := by
      unfold Worksheet.row
      rw [hrows, List.getElem?_append_left (by rw [List.length_append]; omega),
        List.getElem?_append_right (by omega), hupper, hindex, List.getElem?_eq_getElem hfilledlt]
      rfl
    rw [hbefore, hafter]
    exact hfilled.get hdatalt hfilledlt
  · unfold Worksheet.row
    rw [hrows, List.getElem?_append_right (by rw [List.length_append]; omega), List.length_append, hupper, hlength,
      List.getElem?_drop]
    congr 2
    omega

theorem splice_nil {index : Nat} (h : splice index [] s = .ok () s') : s'.sheet = s.sheet := by
  cases h
  show { s.sheet with rows := s.sheet.rows.take index ++ [] ++ s.sheet.rows.drop index } = s.sheet
  rw [List.append_nil, List.take_append_drop]

/-- All blocks of a group are told anew, each where the labels of those above it move it to. -/
theorem filled_tagBlocks {g : TaggingGroup} (hg : g.insert = []) {ds : List Description} {width : Nat}
    {first : Bool} {bs : List Block} {index : Nat} (hbs : Block.Stacked s.sheet.rows.length index bs)
    (h : tagBlocks finds g ds width first bs s = .ok () s') :
    (∀ i ≤ index, s'.sheet.row i = s.sheet.row i) ∧
      ∀ b ∈ bs, ∀ i, b.start ≤ i → i < b.stop →
        Filled width (ds.zip b.sources) (s.sheet.row i) (s'.sheet.row (Block.moved bs i)) := by
  induction bs generalizing first index s' with
  | nil =>
    cases h
    exact ⟨fun _ _ => rfl, nofun⟩
  | cons b bs ih =>
    obtain ⟨hindex, hstop, hbs⟩ := hbs
    unfold tagBlocks at h
    obtain ⟨_, s₁, hbelow, h⟩ := bind_eq_ok h
    obtain ⟨_, s₂, hblock, h⟩ := bind_eq_ok h
    have hsheet : s'.sheet = s₂.sheet := by
      split at h
      · rw [hg] at h
        exact splice_nil h
      · cases h
        rfl
    have hlength := (grows_tagBlocks hbs hbelow).length_le
    have hretold := retold_tagBlock (Nat.le_trans hstop hlength) hblock
    obtain ⟨habove, hdata⟩ := ih hbs hbelow
    have hlt := b.header_lt_start
    have hstoplength : b.stop = b.start + b.length := rfl
    rw [hsheet]
    refine ⟨fun i hi => ?_, fun b' hb' i hi hi' => ?_⟩
    · rw [hretold.above i (by omega), habove i (by omega)]
    · rcases List.mem_cons.1 hb' with rfl | hb'
      · -- the blocks below are tagged already and have not touched this one
        have hmoved : Block.moved bs i = i :=
          Block.moved_of_le fun b hb => by have := hbs.le_header b hb; omega
        have hrow := hretold.data i hi hi'
        rw [habove i (by omega)] at hrow
        rw [Block.moved_cons_of_lt (by omega), hmoved]
        exact hrow
      · have hheader := hbs.le_header b' hb'
        have hlt' := b'.header_lt_start
        have hle := Block.le_moved bs i
        rw [Block.moved_cons_of_lt (by omega), hretold.below _ (by omega)]
        exact hdata b' hb' i hi hi'

/-! ## New cells -/

theorem length_le_foldl_max (ns : List Nat) (m : Nat) : m ≤ ns.foldl max m ∧ ∀ n ∈ ns, n ≤ ns.foldl max m := by
  induction ns generalizing m with
  | nil => exact ⟨Nat.le_refl m, nofun⟩
  | cons n ns ih =>
    obtain ⟨hle, hall⟩ := ih (max m n)
    rw [List.foldl_cons]
    refine ⟨by omega, fun k hk => ?_⟩
    rcases List.mem_cons.1 hk with rfl | hk
    · omega
    · exact hall k hk

theorem length_le_width_of_mem {sheet : Worksheet} {row : Row} (h : row ∈ sheet.rows) : row.length ≤ sheet.width :=
  (length_le_foldl_max _ 0).2 _ (List.mem_map_of_mem h)

theorem length_row_le_width (sheet : Worksheet) (i : Nat) : (sheet.row i).length ≤ sheet.width := by
  unfold Worksheet.row
  cases h : sheet.rows[i]? with
  | none => exact Nat.zero_le _
  | some row => exact length_le_width_of_mem (List.mem_of_getElem? h)

/-- The new cells begin at the width up to which the row is padded. -/
theorem getElem?_extendRow {width : Nat} {cells : List String} {row : Row} (h : row.length ≤ width) (i : Nat) :
    (extendRow width cells row)[width + i]? = cells[i]? := by
  have hlength : (row.pad width).length = width := by
    unfold Row.pad
    rw [List.length_append, List.length_replicate]
    omega
  unfold extendRow
  rw [List.getElem?_append_right (by omega), hlength, Nat.add_sub_cancel_left]

theorem cell_extendRow {width : Nat} {cells : List String} {row : Row} (h : row.length ≤ width) (j : Nat) :
    (extendRow width cells row).cell (width + j) = cells[j]?.getD "" := by
  unfold Row.cell
  rw [getElem?_extendRow h]

/-- The cells that a group adds to the data rows of the blocks that it finds. -/
def Fills [PatternSyntax] (finds : Pattern → String → Bool) (g : TaggingGroup) (sheet sheet' : Worksheet) : Prop :=
  ∃ ds exclusion, g.descriptions.mapM Description.compile = .ok ds ∧
    g.exclusion.mapM HeaderTest.ofText = .ok exclusion ∧
    let blocks := Block.find finds ds exclusion 0 false sheet.rows
    ∀ b ∈ blocks, ∀ i, b.start ≤ i → i < b.stop → (sheet.row i).isIgnore = false →
      let row := sheet.row i
      let image := sheet'.row (Block.moved blocks i)
      row <+: image ∧ ∀ j d, g.descriptions[j]? = some d → ∃ source, b.sources[j]? = some source ∧
        (∀ c, source = some (.column c) → image.cell (sheet.width + j) = row.cell c) ∧
        (source = none → d.required = false ∧ image.cell (sheet.width + j) = "")

theorem fills_applyGroup [PatternSyntax] {g : TaggingGroup} (hg : g.descriptions ≠ []) (hinsert : g.insert = [])
    {index : Nat} (h : applyGroup finds index g s = .ok () s') : Fills finds g s.sheet s'.sheet := by
  obtain ⟨ds, exclusion, hds, hexclusion, s₁, hsheet, -, hrun⟩ := applyGroup_eq_ok hg h
  refine ⟨ds, exclusion, hds, hexclusion, ?_⟩
  intro blocks b hb i hi hi' hignore row image
  have hblocks : Block.Stacked s₁.sheet.rows.length 0 blocks := by
    rw [hsheet, ← Nat.zero_add s.sheet.rows.length]
    exact Block.stacked_find 0 false s.sheet.rows
  have hfilled := (filled_tagBlocks hinsert hblocks hrun).2 b hb i hi hi'
  rw [hsheet] at hfilled
  unfold Filled at hfilled
  rw [if_neg (by rw [hignore]; exact Bool.false_ne_true)] at hfilled
  obtain ⟨cells, hcells, himage⟩ := hfilled
  have hsources : List.Forall₂ (fun d source => source = none → d.header.required = false) ds b.sources := by
    obtain ⟨header, -, hheader⟩ := Block.candidate?_of_mem_find hb
    unfold Block.candidate? at hheader
    exact Description.forall₂_of_matchHeader? (Option.ite_none_left_eq_some.1 hheader).2
  constructor
  · show s.sheet.row i <+: s'.sheet.row _
    rw [himage]
    exact prefix_extendRow _ _ _
  intro j d hd
  -- the description, its test, its source and its cell stand at the same place
  obtain ⟨test, htest, hcompile⟩ := exists_getElem?_of_forall₂ (mapM_eq_ok hds) hd
  obtain ⟨source, hsource, hrequired⟩ := exists_getElem?_of_forall₂ hsources htest
  have hpair : (ds.zip b.sources)[j]? = some (test, source) :=
    List.getElem?_zip_eq_some.2 ⟨htest, hsource⟩
  obtain ⟨cell, hcell, hcolumn, hnone⟩ := exists_getElem?_of_forall₂ hcells hpair
  have hnew : image.cell (s.sheet.width + j) = cell := by
    show (s'.sheet.row _).cell _ = cell
    rw [himage, cell_extendRow (length_row_le_width s.sheet i), hcell]
    rfl
  have hheader : test.header = d := Description.header_of_compile hcompile
  rw [hnew]
  exact ⟨source, hsource, hcolumn, fun h => ⟨hheader ▸ hrequired h, hnone h⟩⟩

end Tagging

/--
Tagging keeps all rows in their order, each as the beginning of its image, and counts the rows that it adds.
If a single group with descriptions adds no rows of its own, each new cell of a data row repeats the cell of
that row in the column that its description was matched to, and is empty if there was none.
-/
theorem Worksheet.applyTagging_keeps [PatternSyntax] {finds : Pattern → String → Bool} {sheet : Worksheet}
    {groups : List TaggingGroup} {log : Diagnostics} {summary : TaggingSummary}
    (h : (sheet.applyTagging finds groups log).result = .ok summary) :
    Grown summary.rows sheet.rows (sheet.applyTagging finds groups log).sheet.rows ∧
      ∀ g, groups = [g] → g.descriptions ≠ [] → g.insert = [] →
        Tagging.Fills finds g sheet (sheet.applyTagging finds groups log).sheet := by
  unfold applyTagging at h ⊢
  cases hrun : Tagging.applyGroups finds 0 groups ⟨sheet, log, {}⟩ with
  | error e s =>
    rw [hrun] at h
    cases h
  | ok _ s =>
    rw [hrun] at h
    cases h
    constructor
    · obtain ⟨n, hn, hrows⟩ := Tagging.grows_applyGroups hrun
      rw [Nat.zero_add] at hn
      rw [hn]
      exact hrows
    · rintro g rfl hg hinsert
      unfold Tagging.applyGroups at hrun
      obtain ⟨_, s₁, hgroup, hend⟩ := bind_eq_ok hrun
      cases hend
      exact Tagging.fills_applyGroup hg hinsert hgroup

/-- A block with a short row and a row to skip below a block that is tagged already. -/
def stackedSheet : Worksheet := ⟨"raw.csv", "raw", [
  ["Sample", "Organ"], ["#ignore", "", "id"], ["#tags", "", "#sample.id"], ["S1", "liver", "S1"], [""],
  ["note", "Organ", "Sample"], ["x", "kidney", "S2"], ["#ignore", "checked"], ["y", "lung"]]⟩

theorem Worksheet.applyTagging_keeps_stacked :
    let g : TaggingGroup := { descriptions := [⟨"organ", "#sample.organ", true⟩, ⟨"Age", "#sample.age", false⟩] }
    let outcome := stackedSheet.applyTagging (fun _ _ => false) [g] {}
    outcome.result = .ok ⟨2, 2, 2⟩ ∧
      outcome.sheet.rows = [["Sample", "Organ"], ["#ignore", "", "id", "organ", ""],
        ["#tags", "", "#sample.id", "#sample.organ", ""], ["S1", "liver", "S1", "liver", ""], [""],
        ["note", "Organ", "Sample"], ["#ignore", "", "", "organ", ""], ["#tags", "", "", "#sample.organ", ""],
        ["x", "kidney", "S2", "kidney", ""], ["#ignore", "checked"], ["y", "lung", "", "lung", ""]] ∧
      Grown 2 stackedSheet.rows outcome.sheet.rows ∧
      Tagging.Fills (fun _ _ => false) g stackedSheet outcome.sheet := by
  intro g outcome
  have hresult : outcome.result = .ok ⟨2, 2, 2⟩ := by decide +kernel
  have hkeeps := applyTagging_keeps hresult
  exact ⟨hresult, by decide +kernel, hkeeps.1, hkeeps.2 g rfl (by decide) rfl⟩

end TagHarvest
