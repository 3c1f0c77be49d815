/-
White space and trimming. `isBlank` is the Unicode property White_Space, all 25 code points of it;
`trim` drops the blanks at both ends of a text and nothing else.
-/

namespace TagHarvest.Text

/-- The code points of White_Space. -/
def isBlank (c : Char) : Bool :=
  let n := c.toNat
  (0x09 ≤ n && n ≤ 0x0D) || n == 0x20 || n == 0x85 || n == 0xA0 || n == 0x1680 ||
    (0x2000 ≤ n && n ≤ 0x200A) || n == 0x2028 || n == 0x2029 || n == 0x202F || n == 0x205F ||
    n == 0x3000

/-- The characters after the leading blanks. -/
def dropBlanks (cs : List Char) : List Char :=
  cs.dropWhile isBlank

/-- The characters between the leading and the trailing blanks. -/
def trimChars (cs : List Char) : List Char :=
  (dropBlanks (dropBlanks cs).reverse).reverse

def trim (s : String) : String :=
  String.ofList (trimChars s.toList)

/-- True of a text that holds blanks only, the empty text included. -/
def isBlankText (s : String) : Bool :=
  s.toList.all isBlank

@[simp] theorem dropBlanks_nil : dropBlanks [] = [] := rfl

/-- Nothing but blanks is dropped in front. -/
theorem dropBlanks_eq_nil_iff {cs : List Char} : dropBlanks cs = [] ↔ ∀ c ∈ cs, isBlank c := by
  induction cs with
  | nil => simp
  | cons c cs ih =>
    by_cases h : isBlank c
    · rw [dropBlanks, List.dropWhile_cons_of_pos h, List.forall_mem_cons]
      exact ⟨fun hnil => ⟨h, ih.1 hnil⟩, fun hall => ih.2 hall.2⟩
    · simp [dropBlanks, h]

end TagHarvest.Text
