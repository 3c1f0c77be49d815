/-
Which keys and candidates are paired by distance. The distance of a key to a candidate is the least one to
any of its values, and the match of the two reports the first value at this distance. Each candidate is
listed with the key that is nearer to it than the keys in all other places, if there is such a key; each
key with the candidate that it is nearest to in this sense, if that candidate is nearer to it than the
candidates in all other places. Every pair of such places is listed, none is listed twice, and no other is
listed; ties, among keys or among candidates, leave them out.
-/
import TagHarvest.Proofs.Conversion.Nearest

namespace TagHarvest

/-! ## Distances of candidates -/

namespace Candidate

/-- The least distance of a key to a value of the candidate. -/
def distanceTo (distance : String → String → Nat) (key : String) (c : Candidate) : Nat :=
  (c.values.map (distance key)).min (by simpa using c.values_ne_nil)

variable (distance : String → String → Nat) (key : String) (c : Candidate)

theorem closest_fst : (c.closest distance key).1 = c.distanceTo distance key := by
  obtain ⟨hmem, hdist⟩ := c.closest_mem distance key
  refine ((List.min_eq_iff _).2 ⟨?_, ?_⟩).symm
  · rw [hdist]
    exact List.mem_map_of_mem hmem
  · intro n hn
    obtain ⟨v, hv, rfl⟩ := List.mem_map.1 hn
    exact c.closest_le distance key hv

/-- Of values that are as near, the nearest in the sense of `nearer` is the first. -/
theorem find?_foldl_nearer (a : Nat × String) (l : List (Nat × String)) :
    (a :: l).find? (fun b => b.1 == (l.foldl nearer a).1) = some (l.foldl nearer a) := by
  induction l generalizing a with
  | nil => simp
  | cons b l ih =>
    rw [List.foldl_cons]
    by_cases hlt : b.1 < a.1
    · -- `b` is nearer than `a`, so `a` is not at the least distance
      have hb : nearer a b = b := if_pos hlt
      have hle := (foldl_nearer b l).2 b List.mem_cons_self
      rw [hb, List.find?_cons_of_neg (by simp; omega)]
      exact ih b
    · have ha : nearer a b = a := if_neg hlt
      have hfirst := ih a
      have hle := (foldl_nearer a l).2 a List.mem_cons_self
      rw [ha]
      by_cases heq : a.1 = (l.foldl nearer a).1
      · rw [List.find?_cons_of_pos (by simpa using heq)] at hfirst ⊢
        exact hfirst
      · rw [List.find?_cons_of_neg (by simpa using heq)] at hfirst ⊢
        rw [List.find?_cons_of_neg (by simp; omega)]
        exact hfirst

/-- The closest value is the first at the distance of the candidate. -/
theorem find?_closest :
    c.values.find? (fun v => distance key v == c.distanceTo distance key) =
      some (c.closest distance key).2 := by
  have h := find?_foldl_nearer (distance key (c.values.head c.values_ne_nil), c.values.head c.values_ne_nil)
    (c.values.tail.map fun v => (distance key v, v))
  rw [← List.map_cons (f := fun v => (distance key v, v)), List.cons_head_tail, List.find?_map,
    Option.map_eq_some_iff] at h
  obtain ⟨v, hfind, hv⟩ := h
  have hclosest : c.closest distance key = (distance key v, v) := hv.symm
  rw [← closest_fst, hclosest]
  rw [show (c.values.tail.map fun v => (distance key v, v)).foldl nearer _ = c.closest distance key from rfl,
    hclosest] at hfind
  exact hfind

end Candidate

/-! ## Pairs of places -/

section Places

variable (distance : String → String → Nat) (keys : List String) (cs : List Candidate)

/-- The key in the place `i` is nearer to the candidate in the place `a` than all other keys. -/
def NearestPair (i a : Nat) : Prop :=
  ∃ key c, keys[i]? = some key ∧ cs[a]? = some c ∧
    ∀ j key', keys[j]? = some key' → j ≠ i → c.distanceTo distance key < c.distanceTo distance key'

/-- And the candidate is nearer to the key than all other candidates. -/
def MutualPair (i a : Nat) : Prop :=
  NearestPair distance keys cs i a ∧ ∃ key c, keys[i]? = some key ∧ cs[a]? = some c ∧
    ∀ b c', cs[b]? = some c' → b ≠ a → c.distanceTo distance key < c'.distanceTo distance key

/-- How a key and a candidate are listed: by the place of the key and the first value at the distance. -/
def ListedPair (place : Nat × Nat) (pair : Nat × RecordMatch) : Prop :=
  ∃ key c, keys[place.1]? = some key ∧ cs[place.2]? = some c ∧ pair.1 = place.1 ∧ pair.2.id = c.id ∧
    c.values.find? (fun v => distance key v == c.distanceTo distance key) = some pair.2.value

/-- What is listed are all pairs of places that are related by `R`, in an order. -/
def ListsAll (R : Nat → Nat → Prop) (before : Nat × Nat → Nat × Nat → Prop)
    (pairs : List (Nat × RecordMatch)) : Prop :=
  ∃ places, (∀ i a, (i, a) ∈ places ↔ R i a) ∧ places.Pairwise before ∧
    List.Forall₂ (ListedPair distance keys cs) places pairs

end Places

section Exact

variable {distance : String → String → Nat} {keys : List String} {cs : List Candidate} {key : String}
  {c : Candidate} {i a : Nat}

theorem NearestPair.unique {j : Nat} (h : NearestPair distance keys cs i a) (h' : NearestPair distance keys cs j a) :
    i = j := by
  obtain ⟨key, c, hi, hc, hless⟩ := h
  obtain ⟨key', c', hj, hc', hless'⟩ := h'
  rw [hc] at hc'
  cases hc'
  by_contra hne
  exact Nat.lt_asymm (hless j key' hj (Ne.symm hne)) (hless' i key hi hne)

/-- The best key of a candidate is the one that is nearer to it than all others. -/
theorem bestKey?_eq_some_iff (hc : cs[a]? = some c) :
    bestKey? distance keys c = some i ↔ NearestPair distance keys cs i a := by
  unfold bestKey? NearestPair
  rw [strictMin?_eq_some_iff]
  simp only [List.getElem?_map, Option.map_eq_some_iff, Candidate.closest_fst, hc, Option.some.injEq]
  constructor
  · rintro ⟨d, ⟨key, hkey, rfl⟩, hless⟩
    exact ⟨key, c, hkey, rfl, fun j key' hj hne => hless j _ ⟨key', hj, rfl⟩ hne⟩
  · rintro ⟨key, _, hkey, rfl, hless⟩
    refine ⟨_, ⟨key, hkey, rfl⟩, ?_⟩
    rintro j _ ⟨key', hj, rfl⟩ hne
    exact hless j key' hj hne

theorem listed_matchOf (hkey : keys[i]? = some key) (hc : cs[a]? = some c) :
    ListedPair distance keys cs (i, a) (i, c.matchOf distance key) :=
  ⟨key, c, hkey, hc, rfl, rfl, c.find?_closest distance key⟩

/-- Lists that are picked from one list by related functions are related. -/
theorem forall₂_filterMap {α β γ : Type} {R : β → γ → Prop} {f : α → Option β} {g : α → Option γ} {l : List α}
    (h : ∀ x ∈ l, Option.Rel R (f x) (g x)) : List.Forall₂ R (l.filterMap f) (l.filterMap g) := by
  refine List.rel_filterMap (R := fun x y => x ∈ l ∧ x = y) ?_ (List.forall₂_same.2 fun x hx => ⟨hx, rfl⟩)
  rintro x _ ⟨hx, rfl⟩
  exact h x hx

theorem pairwise_zipIdx {α : Type} (l : List α) : l.zipIdx.Pairwise fun x y => x.2 < y.2 := by
  have h : (l.zipIdx.map Prod.snd).Pairwise (· < ·) := by
    rw [List.zipIdx_map_snd]
    exact List.pairwise_lt_range'
  exact List.pairwise_map.1 h

/-- Each candidate is listed with the key nearest to it. -/
theorem listsAll_nearestMatches (distance : String → String → Nat) (keys : List String) (cs : List Candidate) :
    ListsAll distance keys cs (NearestPair distance keys cs) (fun p q => p.2 < q.2)
      (nearestMatches distance keys cs) := by
  refine ⟨cs.zipIdx.filterMap fun x => (bestKey? distance keys x.1).map (·, x.2), fun i a => ?_, ?_, ?_⟩
  · rw [List.mem_filterMap]
    constructor
    · rintro ⟨⟨c, b⟩, hmem, h⟩
      obtain ⟨j, hbest, he⟩ := Option.map_eq_some_iff.1 h
      cases he
      exact (bestKey?_eq_some_iff (List.mem_zipIdx_iff_getElem?.1 hmem)).1 hbest
    · intro h
      obtain ⟨key, c, -, hc, -⟩ := id h
      refine ⟨(c, a), List.mem_zipIdx_iff_getElem?.2 hc, ?_⟩
      rw [(bestKey?_eq_some_iff hc).2 h]
      rfl
  · rw [List.pairwise_filterMap]
    refine (pairwise_zipIdx cs).imp fun {x y} hlt p hp q hq => ?_
    obtain ⟨i, -, rfl⟩ := Option.map_eq_some_iff.1 hp
    obtain ⟨j, -, rfl⟩ := Option.map_eq_some_iff.1 hq
    exact hlt
  · unfold nearestMatches
    conv_rhs => rw [← List.zipIdx_map_fst 0 cs]
    rw [List.filterMap_map]
    refine forall₂_filterMap fun x hx => ?_
    have hc := List.mem_zipIdx_iff_getElem?.1 hx
    simp only [Function.comp_apply, bind, pure]
    cases hbest : bestKey? distance keys x.1 with
    | none => exact .none
    | some i =>
      obtain ⟨key, _, hkey, -, -⟩ := (bestKey?_eq_some_iff hc).1 hbest
      simp only [Option.bind_some, hkey]
      exact .some (listed_matchOf hkey hc)

/-- A key and a candidate are best for each other exactly if they are a mutual pair. -/
theorem mutualPair_iff (hkey : keys[i]? = some key) (hc : cs[a]? = some c) :
    MutualPair distance keys cs i a ↔
      bestCandidate? distance cs key = some a ∧ bestKey? distance keys c = some i := by
  unfold MutualPair
  rw [bestKey?_eq_some_iff hc, bestCandidate?_eq_some_iff, and_comm]
  refine and_congr_left fun _ => ?_
  simp only [Candidate.closest_fst, hkey, hc, Option.some.injEq, exists_and_left, exists_eq_left']

/-- The place of a key with that of the candidate it is listed with. -/
def mutualPlace? (distance : String → String → Nat) (keys : List String) (cs : List Candidate)
    (x : String × Nat) : Option (Nat × Nat) := do
  let a ← bestCandidate? distance cs x.1
  let c ← cs[a]?
  if bestKey? distance keys c = some x.2 then some (x.2, a) else none

theorem mutualPlace?_eq_some_iff {x : String × Nat} {p : Nat × Nat} :
    mutualPlace? distance keys cs x = some p ↔
      ∃ c, bestCandidate? distance cs x.1 = some p.2 ∧ cs[p.2]? = some c ∧
        bestKey? distance keys c = some p.1 ∧ p.1 = x.2 := by
  obtain ⟨i, a⟩ := p
  simp only [mutualPlace?, bind, Option.bind_eq_some_iff, Option.ite_none_right_eq_some, Option.some.injEq,
    Prod.mk.injEq]
  constructor
  · rintro ⟨_, ha, c, hc, hbest, rfl, rfl⟩
    exact ⟨c, ha, hc, hbest, rfl⟩
  · rintro ⟨c, ha, hc, hbest, rfl⟩
    exact ⟨a, ha, c, hc, hbest, rfl, rfl⟩

theorem fst_of_mutualPlace? {x : String × Nat} {p : Nat × Nat} (h : mutualPlace? distance keys cs x = some p) :
    p.1 = x.2 := by
  obtain ⟨_, -, -, -, hp⟩ := mutualPlace?_eq_some_iff.1 h
  exact hp

theorem mem_mutualPlaces_iff (i a : Nat) :
    (i, a) ∈ keys.zipIdx.filterMap (mutualPlace? distance keys cs) ↔ MutualPair distance keys cs i a := by
  simp only [List.mem_filterMap, mutualPlace?_eq_some_iff]
  constructor
  · rintro ⟨x, hmem, c, ha, hc, hbest, rfl⟩
    exact (mutualPair_iff (List.mem_zipIdx_iff_getElem?.1 hmem) hc).2 ⟨ha, hbest⟩
  · intro h
    obtain ⟨key, c, hkey, hc, -⟩ := h.2
    obtain ⟨ha, hbest⟩ := (mutualPair_iff hkey hc).1 h
    exact ⟨(key, i), List.mem_zipIdx_iff_getElem?.2 hkey, c, ha, hc, hbest, rfl⟩

/-- Each key is listed with the candidate nearest to it, if it is nearest to that candidate too. -/
theorem listsAll_mutualMatches (distance : String → String → Nat) (keys : List String) (cs : List Candidate) :
    ListsAll distance keys cs (MutualPair distance keys cs) (fun p q => p.1 < q.1 ∧ p.2 ≠ q.2)
      (mutualMatches distance keys cs) := by
  refine ⟨keys.zipIdx.filterMap (mutualPlace? distance keys cs), mem_mutualPlaces_iff, ?_, ?_⟩
  · have hkeys : (keys.zipIdx.filterMap (mutualPlace? distance keys cs)).Pairwise fun p q => p.1 < q.1 := by
      rw [List.pairwise_filterMap]
      refine (pairwise_zipIdx keys).imp fun {x y} hlt p hp q hq => ?_
      rwa [fst_of_mutualPlace? hp, fst_of_mutualPlace? hq]
    refine hkeys.imp_of_mem fun {p q} hp hq hlt => ⟨hlt, fun heq => ?_⟩
    -- one candidate has one nearest key
    have hi := ((mem_mutualPlaces_iff p.1 p.2).1 hp).1
    have hj := ((mem_mutualPlaces_iff q.1 q.2).1 hq).1
    rw [heq] at hi
    exact Nat.ne_of_lt hlt (hi.unique hj)
  · unfold mutualMatches
    refine forall₂_filterMap fun x hx => ?_
    have hkey := List.mem_zipIdx_iff_getElem?.1 hx
    simp only [mutualPlace?, bind]
    cases hb : bestCandidate? distance cs x.1 with
    | none => exact .none
    | some b =>
      simp only [Option.bind_some]
      cases hc : cs[b]? with
      | none => exact .none
      | some c =>
        simp only [Option.bind_some]
        split
        · exact .some (listed_matchOf hkey hc)
        · exact .none

theorem mem_nearestMatches_of_mem_mutualMatches {pair : Nat × RecordMatch}
    (h : pair ∈ mutualMatches distance keys cs) : pair ∈ nearestMatches distance keys cs := by
  unfold mutualMatches at h
  obtain ⟨⟨key, i⟩, hmem, h⟩ := List.mem_filterMap.1 h
  have hkey := List.mem_zipIdx_iff_getElem?.1 hmem
  obtain ⟨a, c, -, hc, hbest, rfl⟩ := mutualMatch_eq_some h
  refine List.mem_filterMap.2 ⟨c, List.mem_of_getElem? hc, ?_⟩
  simp only [bind, pure, hbest, hkey, Option.bind_some]

/--
Matching by distance lists the keys and candidates that belong together, each pair by the first value at the
distance: in the order of the candidates those where no other key is as near to the candidate, and in the
order of the keys those where no other candidate is as near to the key either.
-/
theorem matches_by_distance_exact (distance : String → String → Nat) (keys : List String) (cs : List Candidate) :
    ListsAll distance keys cs (NearestPair distance keys cs) (fun p q => p.2 < q.2)
        (nearestMatches distance keys cs) ∧
      ListsAll distance keys cs (MutualPair distance keys cs) (fun p q => p.1 < q.1 ∧ p.2 ≠ q.2)
        (mutualMatches distance keys cs) ∧
      ∀ pair ∈ mutualMatches distance keys cs, pair ∈ nearestMatches distance keys cs :=
  ⟨listsAll_nearestMatches distance keys cs, listsAll_mutualMatches distance keys cs,
    fun _ => mem_nearestMatches_of_mem_mutualMatches⟩

end Exact
end TagHarvest
