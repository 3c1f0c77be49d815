/-
The blocks of a worksheet. They stand one below the other inside the grid, and the sources of each follow
the descriptions one by one, none of which is missing if it is required.
-/
import TagHarvest.Tagging.Block
import Mathlib.Data.List.Forall2

namespace TagHarvest

theorem Description.header_of_compile [PatternSyntax] {d : HeaderDescription} {t : Description}
    (h : compile d = .ok t) : t.header = d := by
  unfold compile at h
  cases hread : HeaderTest.ofText d.header with
  | error e =>
    rw [hread] at h
    cases h
  | ok test =>
    rw [hread] at h
    cases h
    rfl

/-- Only a description that is not required may be without a source. -/
theorem Description.forall₂_of_matchHeader? {finds : Pattern → String → Bool} {ds : List Description}
    {row : Row} {sources : List (Option ValueSource)} (h : matchHeader? finds ds row = some sources) :
    List.Forall₂ (fun d source => source = none → d.header.required = false) ds sources := by
  have hsources : ∀ (taken : List Nat) (ds : List Description) (sources : List (Option ValueSource)),
      sources? finds taken ds row = some sources →
        List.Forall₂ (fun d source => source = none → d.header.required = false) ds sources := by
    intro taken ds
    induction ds generalizing taken with
    | nil =>
      intro sources h
      cases h
      exact .nil
    | cons d ds ih =>
      intro sources h
      unfold sources? at h
      dsimp only at h
      split at h
      · cases h
      · rename_i hneeded
        obtain ⟨rest, hrest, rfl⟩ := Option.map_eq_some_iff.1 h
        refine .cons (fun hnone => ?_) (ih _ _ hrest)
        rw [hnone] at hneeded
        simpa using hneeded
  unfold matchHeader? at h
  split at h
  · rename_i found hfound
    split at h
    · cases h
      exact hsources [] ds sources hfound
    · cases h
  · cases h

namespace Block

theorem header_lt_start (b : Block) : b.header < b.start := by
  unfold start
  split <;> omega

/-- The rows that labels take up if the header has none yet. -/
def added (b : Block) : Nat := if b.tagged then 0 else 2

theorem start_add_added (b : Block) : b.start + b.added = b.header + 3 := by
  unfold start added
  split <;> rfl

/-- Blocks one below the other, from an index on and up to a limit. -/
def Stacked (limit : Nat) : (index : Nat) → List Block → Prop
  | _, [] => True
  | index, b :: bs => index ≤ b.header ∧ b.stop ≤ limit ∧ Stacked limit b.stop bs

theorem Stacked.mono {limit limit' index index' : Nat} {bs : List Block} (h : Stacked limit index bs)
    (hindex : index' ≤ index) (hlimit : limit ≤ limit') : Stacked limit' index' bs := by
  induction bs generalizing index index' with
  | nil => trivial
  | cons b bs ih =>
    obtain ⟨hheader, hstop, h⟩ := h
    exact ⟨Nat.le_trans hindex hheader, Nat.le_trans hstop hlimit, ih h (Nat.le_refl _)⟩

theorem Stacked.le_header {limit index : Nat} {bs : List Block} (h : Stacked limit index bs) :
    ∀ b ∈ bs, index ≤ b.header := by
  induction bs generalizing index with
  | nil => nofun
  | cons b bs ih =>
    intro b' hb'
    obtain ⟨hheader, -, h⟩ := h
    rcases List.mem_cons.1 hb' with rfl | hb'
    · exact hheader
    · have hbelow : b.stop ≤ b'.header := ih h b' hb'
      have hstart := b.header_lt_start
      have hstop : b.stop = b.start + b.length := rfl
      omega

/-! ## The rows of a block -/

/-- A block among the rows from an index on: those above it, its labels, if it has any, and its data rows. -/
structure Stands (b : Block) (index : Nat) (above labels data : List Row) : Prop where
  header_eq : index + above.length = b.header
  start_eq : b.start = b.header + 1 + labels.length
  length_eq : b.length = data.length

namespace Stands

variable {b : Block} {index : Nat} {above labels data : List Row} (h : b.Stands index above labels data)

include h

theorem stop_eq : b.stop = index + (above.length + 1 + labels.length + data.length) := by
  have hheader := h.header_eq
  have hstart := h.start_eq
  have hlength := h.length_eq
  unfold stop
  omega

theorem length_labels : labels.length = if b.tagged then 2 else 0 := by
  have hstart := h.start_eq
  unfold start at hstart
  cases htagged : b.tagged with
  | false =>
    rw [htagged, if_neg Bool.false_ne_true] at hstart
    rw [if_neg Bool.false_ne_true]
    omega
  | true =>
    rw [htagged, if_pos rfl] at hstart
    rw [if_pos rfl]
    omega

theorem labels_of_tagged (htagged : b.tagged = true) : ∃ label tags, labels = [label, tags] := by
  have hlength := h.length_labels
  rw [if_pos htagged] at hlength
  exact List.length_eq_two.1 hlength

theorem labels_of_untagged (htagged : b.tagged = false) : labels = [] := by
  have hlength := h.length_labels
  rw [if_neg (by rw [htagged]; exact Bool.false_ne_true)] at hlength
  exact List.length_eq_zero_iff.1 hlength

end Stands

/-- A block is cut out of the rows that it lies within. -/
theorem exists_stands {b : Block} {index : Nat} {rows : List Row} (hheader : index ≤ b.header)
    (hstop : b.stop ≤ index + rows.length) :
    ∃ above header labels data below, rows = above ++ header :: (labels ++ data ++ below) ∧
      b.Stands index above labels data := by
  have hlt := b.header_lt_start
  have hstopeq : b.stop = b.start + b.length := rfl
  have hsplit : ∀ (l : List Row) (n : Nat), n ≤ l.length → ∃ l₁ l₂, l = l₁ ++ l₂ ∧ l₁.length = n :=
    fun l n hn => ⟨l.take n, l.drop n, (List.take_append_drop n l).symm, List.length_take_of_le hn⟩
  obtain ⟨above, rows₁, rfl, habove⟩ := hsplit rows (b.header - index) (by omega)
  rw [List.length_append] at hstop
  cases rows₁ with
  | nil =>
    rw [List.length_nil] at hstop
    omega
  | cons header rows₁ =>
    rw [List.length_cons] at hstop
    obtain ⟨labels, rows₂, rfl, hlabels⟩ := hsplit rows₁ (b.start - (b.header + 1)) (by omega)
    rw [List.length_append] at hstop
    obtain ⟨data, below, rfl, hdata⟩ := hsplit rows₂ b.length (by omega)
    exact ⟨above, header, labels, data, below, by rw [List.append_assoc], by omega, by omega, hdata.symm⟩

/-! ## The search for blocks -/

/-- The data rows begin below the header and the labels that it may have. -/
theorem start_add_length {b : Block} {below : List Row} (h : b.tagged = hasLabels below) :
    b.start + (afterLabels below).length = b.header + 1 + below.length := by
  unfold start afterLabels
  rw [h]
  split
  · rename_i hlabels
    match below, hlabels with
    | _ :: _ :: rest, _ =>
      simp only [List.drop_succ_cons, List.drop_zero, List.length_cons]
      omega
  · rfl

section

variable {finds : Pattern → String → Bool} {ds : List Description} {exclusion : Option HeaderTest}

theorem stacked_find (index : Nat) (inScope : Bool) (rows : List Row) :
    Stacked (index + rows.length) index (find finds ds exclusion index inScope rows) := by
  induction index, inScope, rows using find.induct finds ds exclusion with
  | case1 index inScope =>
    rw [find]
    trivial
  | case2 index inScope row below htags ih =>
    rw [find, if_pos htags]
    exact ih.mono (Nat.le_succ index) (by rw [List.length_cons]; omega)
  | case3 index inScope row below htags hblank ih =>
    rw [find, if_neg htags, if_pos hblank]
    exact ih.mono (Nat.le_succ index) (by rw [List.length_cons]; omega)
  | case4 index inScope row below htags hblank hnone ih =>
    rw [dite_eq_ite] at hnone
    rw [find, if_neg htags, if_neg hblank, hnone]
    exact ih.mono (Nat.le_succ index) (by rw [List.length_cons]; omega)
  | case5 index inScope row below htags hblank sources hsome under b ih =>
    rw [dite_eq_ite] at hsome
    rw [find, if_neg htags, if_neg hblank, hsome]
    have hlength : b.start + under.length = index + 1 + below.length := start_add_length rfl
    have hdata : b.length ≤ under.length := length_dataRows under
    have hstop : b.stop = b.start + b.length := rfl
    show Stacked (index + (row :: below).length) index (b :: find finds ds exclusion b.stop false _)
    refine ⟨Nat.le_refl index, ?_, ih.mono (Nat.le_refl _) ?_⟩
    · rw [List.length_cons]
      omega
    · rw [List.length_drop, List.length_cons]
      omega

/-- The sources of a block are those of its header row. -/
theorem candidate?_of_mem_find {index : Nat} {inScope : Bool} {rows : List Row} {b : Block}
    (hb : b ∈ find finds ds exclusion index inScope rows) :
    ∃ row ∈ rows, candidate? finds ds exclusion row = some b.sources := by
  induction index, inScope, rows using find.induct finds ds exclusion with
  | case1 index inScope =>
    rw [find] at hb
    cases hb
  | case2 index inScope row below htags ih =>
    rw [find, if_pos htags] at hb
    obtain ⟨row, hrow, h⟩ := ih hb
    exact ⟨row, List.mem_cons_of_mem _ hrow, h⟩
  | case3 index inScope row below htags hblank ih =>
    rw [find, if_neg htags, if_pos hblank] at hb
    obtain ⟨row, hrow, h⟩ := ih hb
    exact ⟨row, List.mem_cons_of_mem _ hrow, h⟩
  | case4 index inScope row below htags hblank hnone ih =>
    rw [dite_eq_ite] at hnone
    rw [find, if_neg htags, if_neg hblank, hnone] at hb
    obtain ⟨row, hrow, h⟩ := ih hb
    exact ⟨row, List.mem_cons_of_mem _ hrow, h⟩
  | case5 index inScope row below htags hblank sources hsome under b' ih =>
    rw [dite_eq_ite] at hsome
    rw [find, if_neg htags, if_neg hblank, hsome] at hb
    rcases List.mem_cons.1 hb with rfl | hb
    · rw [Option.ite_none_left_eq_some] at hsome
      exact ⟨row, List.mem_cons_self, hsome.2⟩
    · obtain ⟨row', hrow, h⟩ := ih hb
      have hunder : under ⊆ below := by
        show afterLabels below ⊆ below
        unfold afterLabels
        split
        · exact List.drop_subset 2 below
        · exact List.Subset.refl below
      exact ⟨row', List.mem_cons_of_mem _ (hunder (List.drop_subset _ _ hrow)), h⟩

end

end Block
end TagHarvest
