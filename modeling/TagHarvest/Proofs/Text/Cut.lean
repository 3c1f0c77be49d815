/-
Laws of cutting and trimming. A text is cut at a character where it was put together with it, and trimming
leaves exactly the texts that neither start nor end with a blank.
-/
import TagHarvest.Text.Cut
import TagHarvest.Text.Blank
import Mathlib.Data.List.Nodup

namespace TagHarvest.Text

/-! ## Cutting -/

theorem beforeEnding?_eq_some_iff {ending s a : String} :
    beforeEnding? ending s = some a ↔ s = a ++ ending := by
  unfold beforeEnding?
  rw [Option.map_eq_some_iff]
  constructor
  · rintro ⟨cs, h, rfl⟩
    rw [List.isSuffixOf?_eq_some_iff_append_eq] at h
    rw [← String.toList_inj, String.toList_append, String.toList_ofList, h]
  · rintro rfl
    exact ⟨a.toList, by simp, by simp⟩

theorem afterStart?_eq_some_iff {start s a : String} : afterStart? start s = some a ↔ s = start ++ a := by
  unfold afterStart?
  rw [Option.map_eq_some_iff]
  constructor
  · rintro ⟨cs, h, rfl⟩
    rw [List.isPrefixOf?_eq_some_iff_append_eq] at h
    rw [← String.toList_inj, String.toList_append, String.toList_ofList, h]
  · rintro rfl
    exact ⟨a.toList, by simp, by simp⟩

theorem afterStart?_append (start s : String) : afterStart? start (start ++ s) = some s :=
  afterStart?_eq_some_iff.2 rfl

/-- What is taken from a text ends where its characters cease to be of the kind. -/
theorem takeWhile_append_of_head {p : Char → Bool} {a b : List Char} (ha : ∀ c ∈ a, p c = true)
    (hb : ∀ c ∈ b.head?, p c = false) :
    (a ++ b).takeWhile p = a ∧ (a ++ b).dropWhile p = b := by
  rw [List.takeWhile_append_of_pos ha, List.dropWhile_append_of_pos ha]
  cases b with
  | nil => simp
  | cons c b =>
    have hc := hb c rfl
    simp [hc]

theorem cutAt?_append {d : Char} {a b : List Char} (h : d ∉ a) : cutAt? d (a ++ d :: b) = some (a, b) := by
  induction a with
  | nil => simp [cutAt?]
  | cons c a ih =>
    rw [List.mem_cons, not_or] at h
    rw [List.cons_append, cutAt?, if_neg (Ne.symm h.1), ih h.2]
    rfl

theorem eq_of_cutAtLast? {d : Char} {cs a b : List Char} (h : cutAtLast? d cs = some (a, b)) :
    cs = a ++ d :: b := by
  induction cs generalizing a b with
  | nil => cases h
  | cons c cs ih =>
    unfold cutAtLast? at h
    split at h
    · rename_i a' b' hcut
      cases h
      rw [ih hcut, List.cons_append]
    · split at h
      · rename_i hc
        cases h
        rw [hc, List.nil_append]
      · cases h

/-- The first piece ends where the character first stands. -/
theorem pieces_append {d : Char} {a : List Char} (h : d ∉ a) (b : List Char) :
    pieces d (a ++ d :: b) = a :: pieces d b :=
  List.splitOnP_append_cons_of_forall_mem (fun _ hc => beq_eq_false_iff_ne.2 (ne_of_mem_of_not_mem hc h)) d
    (beq_self_eq_true d) b

/-- Pieces that are each followed by the character come back, with an empty one after the last. -/
theorem pieces_flatMap {d : Char} {ps : List (List Char)} (h : ∀ p ∈ ps, d ∉ p) :
    pieces d (ps.flatMap (· ++ [d])) = ps ++ [[]] := by
  have hjoin : ps.flatMap (· ++ [d]) = [d].intercalate (ps ++ [[]]) := by
    induction ps with
    | nil => rfl
    | cons p ps ih =>
      have hne : ps ++ [[]] ≠ [] := List.append_ne_nil_of_right_ne_nil ps (List.cons_ne_nil [] [])
      rw [List.flatMap_cons, ih fun q hq => h q (List.mem_cons_of_mem p hq), List.cons_append,
        List.intercalate_cons_of_ne_nil hne]
  unfold pieces
  rw [hjoin, List.splitOn_intercalate d _ (List.append_ne_nil_of_right_ne_nil ps (List.cons_ne_nil [] []))]
  intro p hp
  rcases List.mem_append.1 hp with hp | hp
  · exact h p hp
  · rw [List.mem_singleton.1 hp]
    exact List.not_mem_nil

/-! ## Trimming -/

theorem dropBlanks_eq_self_iff {cs : List Char} :
    dropBlanks cs = cs ↔ ∀ c ∈ cs.head?, isBlank c = false := by
  cases cs with
  | nil => simp
  | cons c cs =>
    cases hc : isBlank c with
    | false => simp [dropBlanks, hc]
    | true =>
      have hlt : (dropBlanks cs).length < (c :: cs).length :=
        Nat.lt_succ_of_le (List.dropWhile_sublist isBlank).length_le
      have hdrop : dropBlanks (c :: cs) = dropBlanks cs := by simp [dropBlanks, hc]
      rw [hdrop]
      constructor
      · intro h
        rw [h] at hlt
        exact absurd hlt (Nat.lt_irrefl _)
      · intro h
        have := h c rfl
        rw [hc] at this
        cases this

/-- Trimming leaves what neither starts nor ends with a blank. -/
theorem trimChars_eq_self_iff {cs : List Char} :
    trimChars cs = cs ↔
      (∀ c ∈ cs.head?, isBlank c = false) ∧ ∀ c ∈ cs.getLast?, isBlank c = false := by
  rw [← dropBlanks_eq_self_iff, ← List.head?_reverse, ← dropBlanks_eq_self_iff]
  unfold trimChars
  constructor
  · intro h
    -- if nothing is lost in all, nothing is lost in front
    have hfront : dropBlanks cs = cs := by
      have hlength := congrArg List.length h
      rw [List.length_reverse] at hlength
      have hback : (dropBlanks (dropBlanks cs).reverse).length ≤ (dropBlanks cs).length := by
        rw [← @List.length_reverse _ (dropBlanks cs)]
        exact (List.dropWhile_sublist isBlank).length_le
      have hsub : (dropBlanks cs).Sublist cs := List.dropWhile_sublist isBlank
      exact hsub.eq_of_length_le (hlength ▸ hback)
    rw [hfront] at h
    exact ⟨hfront, List.reverse_eq_iff.1 h⟩
  · rintro ⟨hfront, hback⟩
    rw [hfront, hback, List.reverse_reverse]

theorem trim_eq_self_iff {s : String} :
    trim s = s ↔
      (∀ c ∈ s.toList.head?, isBlank c = false) ∧ ∀ c ∈ s.toList.getLast?, isBlank c = false := by
  rw [← trimChars_eq_self_iff]
  unfold trim
  rw [← String.toList_inj, String.toList_ofList]

/-- A text that is not empty and of which trimming takes nothing. -/
def Trimmed (s : String) : Prop := s ≠ "" ∧ trim s = s

instance (s : String) : Decidable (Trimmed s) := inferInstanceAs (Decidable (_ ∧ _))

theorem Trimmed.isBlankText {s : String} (h : Trimmed s) : isBlankText s = false := by
  unfold Text.isBlankText
  cases hs : s.toList with
  | nil => exact absurd (String.toList_eq_nil_iff.1 hs) h.1
  | cons c cs =>
    have hc : isBlank c = false := (trim_eq_self_iff.1 h.2).1 c (by rw [hs]; rfl)
    rw [List.all_cons, hc, Bool.false_and]

end TagHarvest.Text
