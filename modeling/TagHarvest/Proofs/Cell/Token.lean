/-
Tokens of cells. Only blanks, double quotes and operators end a bare text, so a tag whose body has none of
them comes back as it is written, and a star in front is a token of its own. In any cell a tag has its
number sign, and a word is not empty.
-/
import TagHarvest.Cell.Token
import Mathlib.Data.List.TakeWhile

namespace TagHarvest.Token

theorem isSome_operator?_iff {c : Char} : (operator? c).isSome ↔ c ∈ ['=', '+', '*', ';', ','] := by
  unfold operator?
  split <;> simp_all

/-- What ends a bare text: blanks, the double quote and the operators. -/
theorem endsBare_eq_false_iff {c : Char} :
    endsBare c = false ↔ Text.isBlank c = false ∧ c ∉ ['"', '=', '+', '*', ';', ','] := by
  have hoperator : (operator? c).isSome = false ↔ c ∉ ['=', '+', '*', ';', ','] := by
    rw [← Bool.not_eq_true, isSome_operator?_iff]
  unfold endsBare
  rw [Bool.or_eq_false_iff, Bool.or_eq_false_iff, hoperator, beq_eq_false_iff_ne, and_assoc,
    ← not_or, ← List.mem_cons]

/-! ## How a text may start -/

/-- What the text `c :: cs` starts with, and where it does. -/
inductive Starts (c : Char) (cs : List Char) : Start → Prop
  | blank (hc : Text.isBlank c = true) : Starts c cs .blank
  | operator {op : Token} (hop : operator? c = some op) : Starts c cs (.token op cs)
  | literal {text rest : List Char} (hc : c = '"') (h : readQuoted cs = some (text, rest)) :
    Starts c cs (.token (.literal (String.ofList text)) rest)
  | unclosedLiteral (hc : c = '"') (h : readQuoted cs = none) : Starts c cs .unclosedLiteral
  | pattern {quote : Char} {body text rest : List Char} (hc : c = 'r') (hquote : quote ∈ ['"', '\''])
    (hcs : cs = quote :: body) (h : readRaw quote body = some (text, rest)) :
    Starts c cs (.token (.pattern (String.ofList text)) rest)
  | unclosedPattern {quote : Char} {body : List Char} (hc : c = 'r') (hquote : quote ∈ ['"', '\''])
    (hcs : cs = quote :: body) (h : readRaw quote body = none) : Starts c cs .unclosedPattern
  | bare (hc : endsBare c = false) (hraw : c = 'r' → ∀ quote ∈ cs.head?, quote ∉ ['"', '\'']) :
    Starts c cs (.token (ofBare (c :: cs.takeWhile (!endsBare ·))) (cs.dropWhile (!endsBare ·)))

theorem starts_start (c : Char) (cs : List Char) : Starts c cs (start c cs) := by
  unfold start
  split
  · rename_i hc
    exact .blank hc
  rename_i hblank
  split
  · rename_i hop
    exact .operator hop
  rename_i hop
  split
  · rename_i hc
    split
    · rename_i h
      exact .literal hc h
    · rename_i h
      exact .unclosedLiteral hc h
  rename_i hquote
  split
  · rename_i body
    cases h : readRaw '"' body with
    | none => exact .unclosedPattern rfl List.mem_cons_self rfl h
    | some r => exact .pattern rfl List.mem_cons_self rfl h
  · rename_i body
    cases h : readRaw '\'' body with
    | none => exact .unclosedPattern rfl (by decide) rfl h
    | some r => exact .pattern rfl (by decide) rfl h
  · rename_i hdouble hsingle
    refine .bare ?_ ?_
    · unfold endsBare
      simp [hblank, hop, hquote]
    · rintro rfl quote hhead hmem
      obtain ⟨body, rfl⟩ := List.head?_eq_some_iff.1 hhead
      rcases List.mem_cons.1 hmem with rfl | hmem
      · exact hdouble body rfl rfl
      · cases List.mem_singleton.1 hmem
        exact hsingle body rfl rfl

/-! ## The tokens of a text -/

theorem scan_nil (size : Nat) : scan size [] = ([], none) := by rw [scan.eq_def]

theorem scan_cons (size : Nat) (c : Char) (cs : List Char) :
    scan size (c :: cs) = match start c cs with
      | .blank => scan size cs
      | .token t rest => (t :: (scan size rest).1, (scan size rest).2)
      | .unclosedLiteral => ([], some (.literal (size - (cs.length + 1))))
      | .unclosedPattern => ([], some (.pattern (size - (cs.length + 1)))) := by
  rw [scan.eq_def]
  dsimp only
  split <;> rename_i h <;> rw [h]

/-- A token that starts a text comes before those of the rest. -/
theorem scan_of_start {size : Nat} {c : Char} {cs rest : List Char} {t : Token}
    (h : start c cs = .token t rest) :
    scan size (c :: cs) = (t :: (scan size rest).1, (scan size rest).2) := by
  rw [scan_cons, h]

/-- What holds of every token that a text can start with holds of all tokens of a text. -/
theorem of_mem_scan {P : Token → Prop} (hP : ∀ {c cs t rest}, start c cs = .token t rest → P t) {size : Nat}
    {cs : List Char} {t : Token} (h : t ∈ (scan size cs).1) : P t := by
  induction cs using scan.induct size with
  | case1 => simp [scan_nil] at h
  | case2 c cs hstart ih =>
    rw [scan_cons, hstart] at h
    exact ih h
  | case3 c cs t' rest hstart _ _ _ _ ih =>
    rw [scan_of_start hstart] at h
    rcases List.mem_cons.1 h with rfl | h
    · exact hP hstart
    · exact ih h
  | case4 c cs hstart =>
    rw [scan_cons, hstart] at h
    cases h
  | case5 c cs hstart =>
    rw [scan_cons, hstart] at h
    cases h

/-- The tokens of a cell are those that its scan finds, and the scan finds no literal that is not closed. -/
theorem tokenize_eq_ok_iff {cell : String} {ts : List Token} :
    tokenize cell = .ok ts ↔ scan cell.toList.length cell.toList = (ts, none) := by
  unfold tokenize scanCell
  split
  · rename_i hscan
    rw [hscan, Except.ok.injEq, Prod.mk.injEq, and_iff_left rfl]
  · rename_i hscan
    rw [hscan]
    constructor <;> intro h <;> cases h

/-- A tag without a character that ends it is a token up to the end of the cell. -/
theorem scan_tag {body : List Char} (h : ∀ c ∈ body, endsBare c = false) (size : Nat) :
    scan size ('#' :: body) = ([.tag (String.ofList ('#' :: body))], none) := by
  have hkeep : ∀ c ∈ body, (!endsBare c) = true := fun c hc => by rw [h c hc]; rfl
  have hstart : start '#' body = .token (.tag (String.ofList ('#' :: body))) [] :=
    calc start '#' body
        = .token (ofBare ('#' :: body.takeWhile (!endsBare ·))) (body.dropWhile (!endsBare ·)) := rfl
      _ = _ := by rw [List.takeWhile_eq_self_iff.2 hkeep, List.dropWhile_eq_nil_iff.2 hkeep]; rfl
  rw [scan_of_start hstart, scan_nil]

theorem tokenize_tag (body : String) (h : ∀ c ∈ body.toList, endsBare c = false) :
    tokenize ("#" ++ body) = .ok [.tag ("#" ++ body)] := by
  have htext : ("#" ++ body).toList = '#' :: body.toList := String.toList_append
  unfold tokenize scanCell
  rw [htext, scan_tag h, ← htext, String.ofList_toList]

theorem tokenize_star_tag (body : String) (h : ∀ c ∈ body.toList, endsBare c = false) :
    tokenize ("*#" ++ body) = .ok [.star, .tag ("#" ++ body)] := by
  have htext : ("*#" ++ body).toList = '*' :: '#' :: body.toList := String.toList_append
  have htag : ("#" ++ body).toList = '#' :: body.toList := String.toList_append
  have hstar : start '*' ('#' :: body.toList) = .token .star ('#' :: body.toList) := rfl
  unfold tokenize scanCell
  rw [htext, scan_of_start hstar, scan_tag h, ← htag, String.ofList_toList]

/-- A token as a cell can hold it: a tag has its number sign, and a word is not empty. -/
def Proper : Token → Prop
  | tag text => ∃ body, text = "#" ++ body
  | word text => text ≠ ""
  | _ => True

theorem proper_operator? {c : Char} {op : Token} (h : operator? c = some op) : op.Proper := by
  unfold operator? at h
  split at h <;> cases h <;> trivial

theorem proper_ofBare (c : Char) (cs : List Char) : (ofBare (c :: cs)).Proper := by
  unfold ofBare
  split
  · rename_i body h
    refine ⟨String.ofList body, ?_⟩
    rw [← String.toList_inj]
    simp
  · intro h
    have := congrArg String.toList h
    simp at this

theorem proper_of_start {c : Char} {cs rest : List Char} {t : Token} (h : start c cs = .token t rest) :
    t.Proper := by
  have hstarts := starts_start c cs
  rw [h] at hstarts
  cases hstarts with
  | operator hop => exact proper_operator? hop
  | literal => trivial
  | pattern => trivial
  | bare => exact proper_ofBare _ _

/-- All that a cell is read as are proper tokens. -/
theorem proper_of_tokenize {cell : String} {ts : List Token} (h : tokenize cell = .ok ts) :
    ∀ t ∈ ts, t.Proper := by
  intro t ht
  have hscan := tokenize_eq_ok_iff.1 h
  exact of_mem_scan proper_of_start (by rw [hscan]; exact ht)

end TagHarvest.Token
