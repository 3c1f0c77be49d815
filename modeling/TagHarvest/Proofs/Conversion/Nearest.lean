/-
Keys and candidates by distance. The closest value of a candidate is one of its values, and no other is
nearer; a strict minimum is less than all numbers in other places. So no two mutual matches have a key or a
value in common: a key that is nearest to one candidate by a value is as near to each other candidate with
this value, and then neither of the two is nearer than the other.
-/
import TagHarvest.Conversion.Matching
import Mathlib.Data.List.NodupEquivFin
import Mathlib.Data.List.Sigma

namespace TagHarvest

/-! ## Strict minima -/

/-- A number that is counted once stands in one place. -/
theorem eq_of_count_eq_one {l : List Nat} {a i j : Nat} (h : l.count a = 1) (hi : l[i]? = some a)
    (hj : l[j]? = some a) : i = j := by
  obtain ⟨hi, hia⟩ := List.getElem?_eq_some_iff.1 hi
  obtain ⟨hj, hja⟩ := List.getElem?_eq_some_iff.1 hj
  by_contra hne
  have hdup : List.Duplicate a l := by
    rw [List.duplicate_iff_exists_distinct_get]
    rcases Nat.lt_or_gt_of_ne hne with hlt | hlt
    · exact ⟨⟨i, hi⟩, ⟨j, hj⟩, hlt, hia.symm, hja.symm⟩
    · exact ⟨⟨j, hj⟩, ⟨i, hi⟩, hlt, hja.symm, hia.symm⟩
  have := List.duplicate_iff_two_le_count.1 hdup
  omega

/-- A strict minimum is found where a number is less than those in all other places. -/
theorem strictMin?_eq_some_iff {ds : List Nat} {i : Nat} :
    strictMin? ds = some i ↔ ∃ d, ds[i]? = some d ∧ ∀ j e, ds[j]? = some e → j ≠ i → d < e := by
  unfold strictMin?
  constructor
  · intro h
    cases hm : ds.min? with
    | none => simp [hm] at h
    | some d =>
      simp only [hm, Option.ite_none_right_eq_some] at h
      obtain ⟨hcount, hidx⟩ := h
      obtain ⟨hi, hget, -⟩ := List.idxOf?_eq_some_iff.1 hidx
      have hd : ds[i]? = some d := by rw [List.getElem?_eq_getElem hi, hget]
      refine ⟨d, hd, fun j e hj hne => ?_⟩
      have hle : d ≤ e := (List.min?_eq_some_iff.1 hm).2 e (List.mem_of_getElem? hj)
      refine Nat.lt_of_le_of_ne hle fun hde => hne ?_
      exact eq_of_count_eq_one hcount (hde ▸ hj) hd
  · rintro ⟨d, hd, hless⟩
    have hmem : d ∈ ds := List.mem_of_getElem? hd
    have hmin : ds.min? = some d := by
      refine List.min?_eq_some_iff.2 ⟨hmem, fun e he => ?_⟩
      obtain ⟨j, hj⟩ := List.getElem?_of_mem he
      by_cases hji : j = i
      · rw [hji, hd] at hj
        exact (Option.some.inj hj).le
      · exact (hless j e hj hji).le
    -- no other place holds the minimum, so it is counted once and found first where it stands
    have hplace : ∀ j, ds[j]? = some d → j = i := fun j hj => by
      by_contra hji
      exact Nat.lt_irrefl d (hless j d hj hji)
    have hcount : ds.count d = 1 := by
      have hpos : 0 < ds.count d := List.count_pos_iff.2 hmem
      by_contra hne
      have hdup : List.Duplicate d ds := List.duplicate_iff_two_le_count.2 (by omega)
      obtain ⟨a, b, hab, ha, hb⟩ := List.duplicate_iff_exists_distinct_get.1 hdup
      have h₁ := hplace a (List.getElem?_eq_some_iff.2 ⟨a.2, ha.symm⟩)
      have h₂ := hplace b (List.getElem?_eq_some_iff.2 ⟨b.2, hb.symm⟩)
      exact absurd (Fin.ext (h₁.trans h₂.symm)) (ne_of_lt hab)
    obtain ⟨hi, hget⟩ := List.getElem?_eq_some_iff.1 hd
    have hidx : ds.idxOf? d = some i := by
      refine List.idxOf?_eq_some_iff.2 ⟨hi, hget, fun j hj hjd => ?_⟩
      exact Nat.ne_of_lt hj (hplace j (List.getElem?_eq_some_iff.2 ⟨hj.trans hi, hjd⟩))
    simp [hmin, hcount, hidx]

/-! ## Closest values -/

namespace Candidate

variable (distance : String → String → Nat) (key : String) (c : Candidate)

theorem nearer_eq_or (a b : Nat × String) : nearer a b = a ∨ nearer a b = b := by
  unfold nearer
  split
  · exact .inr rfl
  · exact .inl rfl

theorem nearer_le (a b : Nat × String) : (nearer a b).1 ≤ a.1 ∧ (nearer a b).1 ≤ b.1 := by
  unfold nearer
  split <;> omega

/-- The nearest of some values is one of them, and no other is nearer. -/
theorem foldl_nearer (a : Nat × String) (l : List (Nat × String)) :
    l.foldl nearer a ∈ a :: l ∧ ∀ b ∈ a :: l, (l.foldl nearer a).1 ≤ b.1 := by
  induction l generalizing a with
  | nil => simp
  | cons b l ih =>
    obtain ⟨hmem, hle⟩ := ih (nearer a b)
    rw [List.foldl_cons]
    constructor
    · rcases List.mem_cons.1 hmem with h | h
      · rw [h]
        rcases nearer_eq_or a b with h' | h' <;> simp [h']
      · exact List.mem_cons_of_mem _ (List.mem_cons_of_mem _ h)
    · have hhead := hle _ List.mem_cons_self
      obtain ⟨ha, hb⟩ := nearer_le a b
      simp only [List.forall_mem_cons]
      exact ⟨hhead.trans ha, hhead.trans hb, fun d hd => hle d (List.mem_cons_of_mem _ hd)⟩

/-- The closest value is one of the candidate's, at the distance that comes with it. -/
theorem closest_mem : (c.closest distance key).2 ∈ c.values ∧
    (c.closest distance key).1 = distance key (c.closest distance key).2 := by
  have h := (foldl_nearer (distance key (c.values.head c.values_ne_nil), c.values.head c.values_ne_nil)
    (c.values.tail.map fun v => (distance key v, v))).1
  rw [← List.map_cons (f := fun v => (distance key v, v)), List.cons_head_tail, List.mem_map] at h
  obtain ⟨v, hv, heq⟩ := h
  have hclosest : c.closest distance key = (distance key v, v) := heq.symm
  rw [hclosest]
  exact ⟨hv, rfl⟩

theorem closest_le {v : String} (hv : v ∈ c.values) : (c.closest distance key).1 ≤ distance key v := by
  refine (foldl_nearer (distance key (c.values.head c.values_ne_nil), c.values.head c.values_ne_nil)
    (c.values.tail.map fun v => (distance key v, v))).2 (distance key v, v) ?_
  rw [← List.map_cons (f := fun v => (distance key v, v)), List.cons_head_tail]
  exact List.mem_map_of_mem hv

end Candidate

/-! ## Mutual matches -/

section Nearest

variable {distance : String → String → Nat} {keys : List String} {cs : List Candidate}

/-- The best candidate of a key is nearer to it than every other. -/
theorem bestCandidate?_eq_some_iff {key : String} {a : Nat} :
    bestCandidate? distance cs key = some a ↔ ∃ c, cs[a]? = some c ∧
      ∀ b c', cs[b]? = some c' → b ≠ a → (c.closest distance key).1 < (c'.closest distance key).1 := by
  unfold bestCandidate?
  rw [strictMin?_eq_some_iff]
  simp only [List.getElem?_map, Option.map_eq_some_iff]
  constructor
  · rintro ⟨d, ⟨c, hc, rfl⟩, hless⟩
    exact ⟨c, hc, fun b c' hc' hne => hless b _ ⟨c', hc', rfl⟩ hne⟩
  · rintro ⟨c, hc, hless⟩
    refine ⟨_, ⟨c, hc, rfl⟩, ?_⟩
    rintro b _ ⟨c', hc', rfl⟩ hne
    exact hless b c' hc' hne

/-- What a mutual match is: a key and a candidate that are best for each other. -/
theorem mutualMatch_eq_some {key : String} {i : Nat} {pair : Nat × RecordMatch}
    (h : (do
      let c ← cs[← bestCandidate? distance cs key]?
      if bestKey? distance keys c = some i then some (i, c.matchOf distance key) else none) = some pair) :
    ∃ a c, bestCandidate? distance cs key = some a ∧ cs[a]? = some c ∧
      bestKey? distance keys c = some i ∧ pair = (i, c.matchOf distance key) := by
  simp only [bind, Option.bind_eq_some_iff, Option.ite_none_right_eq_some, Option.some.injEq] at h
  obtain ⟨a, ha, c, hc, hbest, rfl⟩ := h
  exact ⟨a, c, ha, hc, hbest, rfl⟩

/-- Mutual matches are of different keys, and by different values. -/
theorem pairwise_mutualMatches (distance : String → String → Nat) (keys : List String)
    (cs : List Candidate) :
    (mutualMatches distance keys cs).Pairwise fun a b => a.1 ≠ b.1 ∧ a.2.value ≠ b.2.value := by
  unfold mutualMatches
  rw [List.pairwise_filterMap]
  have hplaces : keys.zipIdx.Pairwise fun a b => a.2 ≠ b.2 :=
    List.pairwise_map.1 (List.nodup_zipIdx_map_snd keys)
  refine hplaces.imp ?_
  rintro ⟨key, i⟩ ⟨key', j⟩ hij p hp q hq
  obtain ⟨a, c, ha, hc, hi, rfl⟩ := mutualMatch_eq_some hp
  obtain ⟨b, c', hb, hc', hj, rfl⟩ := mutualMatch_eq_some hq
  refine ⟨hij, fun hvalue => ?_⟩
  -- one candidate has one best key, so the candidates are two
  have hba : b ≠ a := by
    rintro rfl
    rw [hc] at hc'
    cases hc'
    rw [hi] at hj
    exact hij (Option.some.inj hj)
  obtain ⟨d, hd, hless⟩ := bestCandidate?_eq_some_iff.1 ha
  rw [hc] at hd
  cases hd
  have hlt := hless b c' hc' hba
  -- the value of the second is also in reach of the first key, at the distance of the first candidate
  have hmem : (c.closest distance key).2 ∈ c'.values := by
    have : (c.closest distance key).2 = (c'.closest distance key').2 := hvalue
    rw [this]
    exact (c'.closest_mem distance key').1
  have hle := c'.closest_le distance key hmem
  rw [(c.closest_mem distance key).2] at hlt
  omega

end Nearest
end TagHarvest
