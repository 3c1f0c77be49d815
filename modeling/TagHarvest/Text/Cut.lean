/-
Cutting a text at a character, and taking a known beginning or end off it. A cut loses the character
it is made at and nothing else.
-/

namespace TagHarvest.Text

/-- The characters before and after the first `d`. -/
def cutAt? (d : Char) : List Char → Option (List Char × List Char)
  | [] => none
  | c :: cs => if c = d then some ([], cs) else (cutAt? d cs).map fun (a, b) => (c :: a, b)

/-- The characters before and after the last `d`. -/
def cutAtLast? (d : Char) : List Char → Option (List Char × List Char)
  | [] => none
  | c :: cs =>
    match cutAtLast? d cs with
    | some (a, b) => some (c :: a, b)
    | none => if c = d then some ([], cs) else none

/-- What follows the beginning `start` of `s`, if `s` begins so. -/
def afterStart? (start s : String) : Option String :=
  (start.toList.isPrefixOf? s.toList).map String.ofList

/-- What precedes the ending `ending` of `s`, if `s` ends so. -/
def beforeEnding? (ending s : String) : Option String :=
  (ending.toList.isSuffixOf? s.toList).map String.ofList

/-- The pieces of a text between the characters `d`: one more than there are such characters. -/
def pieces (d : Char) (cs : List Char) : List (List Char) :=
  cs.splitOn d

/-- True if `part` stands somewhere in a text. -/
def occursIn (part : List Char) : List Char → Bool
  | [] => part.isEmpty
  | c :: cs => part.isPrefixOf (c :: cs) || occursIn part cs

theorem cutAt?_eq_some {d : Char} {cs a b : List Char} (h : cutAt? d cs = some (a, b)) :
    cs = a ++ d :: b ∧ d ∉ a := by
  induction cs generalizing a with
  | nil => simp [cutAt?] at h
  | cons c cs ih =>
    by_cases hc : c = d
    · simp [cutAt?, hc] at h
      obtain ⟨rfl, rfl⟩ := h
      simp [hc]
    · simp only [cutAt?, hc, if_false, Option.map_eq_some_iff, Prod.exists, Prod.mk.injEq] at h
      obtain ⟨a', b', h', rfl, rfl⟩ := h
      obtain ⟨rfl, hd⟩ := ih h'
      exact ⟨rfl, by simp [hd, Ne.symm hc]⟩

theorem cutAt?_eq_none_iff {d : Char} {cs : List Char} : cutAt? d cs = none ↔ d ∉ cs := by
  induction cs with
  | nil => simp [cutAt?]
  | cons c cs ih =>
    by_cases hc : c = d
    · simp [cutAt?, hc]
    · simp [cutAt?, hc, ih, Ne.symm hc]

end TagHarvest.Text
