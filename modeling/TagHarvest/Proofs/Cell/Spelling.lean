/-
How tokens are spelled. Spellings with spaces between them are read as their tokens, and only tokens that
have a spelling are ever read. A cell that cannot be read has a literal that is never closed: what stands
before it can be read by itself, and every quote in what follows is escaped or of the other kind.
-/
import TagHarvest.Proofs.Cell.Token
import TagHarvest.Proofs.Text.Cut
import Mathlib.Data.List.Forall2

namespace TagHarvest.Token

/-! ## Tokens that can be spelled -/

/-- A text without blanks, double quotes and operators. -/
def Unbroken (text : String) : Prop :=
  ∀ c ∈ text.toList, Text.isBlank c = false ∧ c ∉ ['"', '=', '+', '*', ';', ',']

instance (text : String) : Decidable (Unbroken text) :=
  List.decidableBAll (fun c => Text.isBlank c = false ∧ c ∉ ['"', '=', '+', '*', ';', ',']) text.toList

/-- A token that some text is read as. -/
def Readable : Token → Prop
  | tag text => ['#'] <+: text.toList ∧ Unbroken text
  | word text => text ≠ "" ∧ ¬ ['#'] <+: text.toList ∧ ¬ ['r', '\''] <+: text.toList ∧ Unbroken text
  | pattern text => '"' ∉ text.toList ∨ '\'' ∉ text.toList
  | _ => True

instance : DecidablePred Readable
  | tag text => inferInstanceAs (Decidable (['#'] <+: text.toList ∧ Unbroken text))
  | word text => inferInstanceAs
    (Decidable (text ≠ "" ∧ ¬ ['#'] <+: text.toList ∧ ¬ ['r', '\''] <+: text.toList ∧ Unbroken text))
  | pattern text => inferInstanceAs (Decidable ('"' ∉ text.toList ∨ '\'' ∉ text.toList))
  | literal _ | equals | plus | star | semicolon | comma => isTrue trivial

/-- A character in a literal in double quotes. -/
def escapeQuoted (c : Char) : List Char := if c = '"' ∨ c = '\\' then ['\\', c] else [c]

/-- The texts that are written for a token; a raw literal may have either quote that its text lacks. -/
inductive Spells : Token → List Char → Prop
  | tag (text : String) : Spells (.tag text) text.toList
  | word (text : String) : Spells (.word text) text.toList
  | literal (text : String) : Spells (.literal text) ('"' :: (text.toList.flatMap escapeQuoted ++ ['"']))
  | pattern {text : String} {quote : Char} (hquote : quote ∈ ['"', '\'']) (h : quote ∉ text.toList) :
    Spells (.pattern text) ('r' :: quote :: (text.toList ++ [quote]))
  | operator {c : Char} {op : Token} (hop : operator? c = some op) : Spells op [c]

/-- Spellings with a space between each two. -/
def spaced (spellings : List (List Char)) : List Char := [' '].intercalate spellings

theorem Readable.exists_spells {t : Token} (h : t.Readable) : ∃ w, Spells t w := by
  cases t with
  | tag text => exact ⟨_, .tag text⟩
  | word text => exact ⟨_, .word text⟩
  | literal text => exact ⟨_, .literal text⟩
  | pattern text =>
    rcases h with h | h
    · exact ⟨_, .pattern List.mem_cons_self h⟩
    · exact ⟨_, .pattern (by decide) h⟩
  | equals => exact ⟨_, .operator (c := '=') rfl⟩
  | plus => exact ⟨_, .operator (c := '+') rfl⟩
  | star => exact ⟨_, .operator (c := '*') rfl⟩
  | semicolon => exact ⟨_, .operator (c := ';') rfl⟩
  | comma => exact ⟨_, .operator (c := ',') rfl⟩

/-! ## Literals -/

theorem readQuoted_plain {c : Char} {cs : List Char} (hquote : c ≠ '"')
    (hescape : c = '\\' → ∀ x ∈ cs.head?, x ≠ '"' ∧ x ≠ '\\') :
    readQuoted (c :: cs) = (readQuoted cs).map fun (t, r) => (c :: t, r) := by
  rw [readQuoted]
  · rintro cs rfl rfl
    exact (hescape rfl _ rfl).1 rfl
  · rintro cs rfl rfl
    exact (hescape rfl _ rfl).2 rfl
  · exact hquote

/-- Reading undoes the escapes of a literal. -/
theorem readQuoted_escaped (text rest : List Char) :
    readQuoted (text.flatMap escapeQuoted ++ '"' :: rest) = some (text, rest) := by
  induction text with
  | nil => rfl
  | cons c text ih =>
    rw [List.flatMap_cons, List.append_assoc]
    unfold escapeQuoted
    split
    · rename_i hc
      rcases hc with rfl | rfl
      · show (readQuoted (text.flatMap escapeQuoted ++ '"' :: rest)).map _ = _
        rw [ih]
        rfl
      · show (readQuoted (text.flatMap escapeQuoted ++ '"' :: rest)).map _ = _
        rw [ih]
        rfl
    · rename_i hc
      rw [not_or] at hc
      rw [List.singleton_append, readQuoted_plain hc.1 (fun h => absurd h hc.2)]
      change Option.map _ (readQuoted (text.flatMap escapeQuoted ++ '"' :: rest)) = _
      rw [ih]
      rfl

/-- A literal is read up to a quote, whatever follows it. -/
theorem readQuoted_local {cs text rest : List Char} (h : readQuoted cs = some (text, rest)) :
    ∃ w, cs = w ++ '"' :: rest ∧ ∀ rest', readQuoted (w ++ '"' :: rest') = some (text, rest') := by
  induction cs using readQuoted.induct generalizing text with
  | case1 => cases h
  | case2 cs ih =>
    obtain ⟨⟨t, r⟩, h, heq⟩ := Option.map_eq_some_iff.1 h
    cases heq
    obtain ⟨w, rfl, hw⟩ := ih h
    refine ⟨'\\' :: '"' :: w, rfl, fun rest' => ?_⟩
    show (readQuoted (w ++ '"' :: rest')).map _ = _
    rw [hw]
    rfl
  | case3 cs ih =>
    obtain ⟨⟨t, r⟩, h, heq⟩ := Option.map_eq_some_iff.1 h
    cases heq
    obtain ⟨w, rfl, hw⟩ := ih h
    refine ⟨'\\' :: '\\' :: w, rfl, fun rest' => ?_⟩
    show (readQuoted (w ++ '"' :: rest')).map _ = _
    rw [hw]
    rfl
  | case4 cs =>
    cases h
    exact ⟨[], rfl, fun _ => rfl⟩
  | case5 c cs hdouble hbackslash hquote ih =>
    have hescape : c = '\\' → ∀ x ∈ cs.head?, x ≠ '"' ∧ x ≠ '\\' := by
      rintro rfl x hx
      obtain ⟨tail, rfl⟩ := List.head?_eq_some_iff.1 hx
      exact ⟨fun hx => hdouble tail rfl (hx ▸ rfl), fun hx => hbackslash tail rfl (hx ▸ rfl)⟩
    rw [readQuoted_plain hquote hescape] at h
    obtain ⟨⟨t, r⟩, h, heq⟩ := Option.map_eq_some_iff.1 h
    cases heq
    obtain ⟨w, rfl, hw⟩ := ih h
    refine ⟨c :: w, rfl, fun rest' => ?_⟩
    have hhead : c = '\\' → ∀ x ∈ (w ++ '"' :: rest').head?, x ≠ '"' ∧ x ≠ '\\' := by
      intro hc x hx
      refine hescape hc x ?_
      cases w with
      | nil => exact hx
      | cons y w => exact hx
    rw [List.cons_append, readQuoted_plain hquote hhead, hw]
    rfl

/-- How many backslashes a text ends with. -/
def backslashes (cs : List Char) : Nat := (cs.reverse.takeWhile (· == '\\')).length

theorem backslashes_cons (c : Char) (cs : List Char) :
    backslashes (c :: cs) = if backslashes cs = cs.length ∧ c = '\\' then cs.length + 1 else backslashes cs := by
  unfold backslashes
  rw [List.reverse_cons, List.takeWhile_append, List.length_reverse]
  by_cases hall : (cs.reverse.takeWhile (· == '\\')).length = cs.length
  · by_cases hc : c = '\\'
    · simp [hall, hc]
    · simp [hall, hc]
  · rw [if_neg hall, if_neg fun h => hall h.1]

theorem backslashes_le (cs : List Char) : backslashes cs ≤ cs.length := by
  unfold backslashes
  rw [← @List.length_reverse _ cs]
  exact (List.takeWhile_sublist _).length_le

/-- No quote closes the literal: an odd number of backslashes stands before each of them. -/
def Escaped (body : List Char) : Prop := ∀ a b, body = a ++ '"' :: b → backslashes a % 2 = 1

theorem backslashes_cons_of_ne {c : Char} (hc : c ≠ '\\') (cs : List Char) :
    backslashes (c :: cs) = backslashes cs := by
  rw [backslashes_cons, if_neg fun h => hc h.2]

/-- Two backslashes more do not change what stands after them. -/
theorem backslashes_pair (cs : List Char) : backslashes ('\\' :: '\\' :: cs) % 2 = backslashes cs % 2 := by
  have hle := backslashes_le cs
  by_cases hall : backslashes cs = cs.length
  · have hcons : backslashes ('\\' :: cs) = cs.length + 1 := by rw [backslashes_cons, if_pos ⟨hall, rfl⟩]
    rw [backslashes_cons, if_pos ⟨hcons, rfl⟩, List.length_cons]
    omega
  · have hcons : backslashes ('\\' :: cs) = backslashes cs := by rw [backslashes_cons, if_neg fun h => hall h.1]
    rw [backslashes_cons, hcons, List.length_cons, if_neg (by omega)]

theorem escaped_of_readQuoted {body : List Char} (h : readQuoted body = none) : Escaped body := by
  induction body using readQuoted.induct with
  | case1 =>
    intro a b hab
    cases a <;> cases hab
  | case2 cs ih =>
    have ih := ih (Option.map_eq_none_iff.1 h)
    intro a b hab
    rcases List.cons_eq_append_iff.1 hab with ⟨-, hb⟩ | ⟨a₁, rfl, h₁⟩
    · cases hb
    rcases List.cons_eq_append_iff.1 h₁ with ⟨rfl, -⟩ | ⟨a₂, rfl, h₂⟩
    · rfl
    have hodd := ih a₂ b h₂
    have hle := backslashes_le a₂
    rw [backslashes_cons, backslashes_cons_of_ne (by decide), List.length_cons, if_neg (by omega)]
    exact hodd
  | case3 cs ih =>
    have ih := ih (Option.map_eq_none_iff.1 h)
    intro a b hab
    rcases List.cons_eq_append_iff.1 hab with ⟨-, hb⟩ | ⟨a₁, rfl, h₁⟩
    · cases hb
    rcases List.cons_eq_append_iff.1 h₁ with ⟨-, hb⟩ | ⟨a₂, rfl, h₂⟩
    · cases hb
    rw [backslashes_pair]
    exact ih a₂ b h₂
  | case4 cs => cases h
  | case5 c cs hdouble hbackslash hquote ih =>
    rw [readQuoted] at h
    · have ih := ih (Option.map_eq_none_iff.1 h)
      intro a b hab
      rcases List.cons_eq_append_iff.1 hab with ⟨-, hb⟩ | ⟨a₁, rfl, h₁⟩
      · cases hb
        exact absurd rfl hquote
      have hodd := ih a₁ b h₁
      by_cases hc : c = '\\'
      · -- what follows a backslash that stands for itself is neither a quote nor a backslash
        cases a₁ with
        | nil => exact absurd h₁ (hdouble b hc)
        | cons x a₂ =>
          have hx : x ≠ '\\' := by
            rintro rfl
            exact hbackslash _ hc h₁
          have hle := backslashes_le a₂
          rw [backslashes_cons_of_ne hx] at hodd
          rw [backslashes_cons, backslashes_cons_of_ne hx, List.length_cons, if_neg (by omega)]
          exact hodd
      · rw [backslashes_cons_of_ne hc]
        exact hodd
    · exact hdouble
    · exact hbackslash
    · exact hquote

theorem readRaw_eq_cutAt? (quote : Char) (cs : List Char) : readRaw quote cs = Text.cutAt? quote cs := by
  induction cs with
  | nil => rfl
  | cons c cs ih => rw [readRaw, Text.cutAt?, ih]

/-! ## Single tokens -/

theorem isBlank_of_operator? {c : Char} {op : Token} (h : operator? c = some op) : Text.isBlank c = false := by
  have hmem := isSome_operator?_iff.1 (Option.isSome_of_eq_some h)
  simp only [List.mem_cons, List.not_mem_nil, or_false] at hmem
  rcases hmem with rfl | rfl | rfl | rfl | rfl <;> decide

theorem start_operator {c : Char} {op : Token} (h : operator? c = some op) (cs : List Char) :
    start c cs = .token op cs := by
  unfold start
  rw [isBlank_of_operator? h, h]
  rfl

theorem start_quoted {cs text rest : List Char} (h : readQuoted cs = some (text, rest)) :
    start '"' cs = .token (.literal (String.ofList text)) rest := by
  unfold start
  rw [h]
  rfl

theorem start_raw {quote : Char} (hquote : quote ∈ ['"', '\'']) {text : List Char} (h : quote ∉ text)
    (rest : List Char) :
    start 'r' (quote :: (text ++ quote :: rest)) = .token (.pattern (String.ofList text)) rest := by
  have hread : readRaw quote (text ++ quote :: rest) = some (text, rest) := by
    rw [readRaw_eq_cutAt?, Text.cutAt?_append h]
  rcases List.mem_cons.1 hquote with rfl | hquote
  · exact congrArg start.raw hread
  · cases List.mem_singleton.1 hquote
    exact congrArg start.raw hread

/-- Where no other token can start, a bare text does. -/
theorem start_of_not_endsBare {c : Char} {cs : List Char} (hc : endsBare c = false)
    (hraw : c = 'r' → ∀ quote ∈ cs.head?, quote ∉ ['"', '\'']) :
    start c cs = .token (ofBare (c :: cs.takeWhile (!endsBare ·))) (cs.dropWhile (!endsBare ·)) := by
  obtain ⟨hblank, hmem⟩ := endsBare_eq_false_iff.1 hc
  have hop : operator? c = none := by
    rw [Option.eq_none_iff_forall_ne_some]
    intro op h
    exact hmem (List.mem_cons_of_mem _ (isSome_operator?_iff.1 (Option.isSome_of_eq_some h)))
  have hquote : c ≠ '"' := fun h => hmem (h ▸ List.mem_cons_self)
  unfold start
  rw [hblank, hop]
  dsimp only
  rw [if_neg Bool.false_ne_true, if_neg hquote]
  split
  · exact absurd List.mem_cons_self (hraw rfl _ rfl)
  · exact absurd (by decide) (hraw rfl _ rfl)
  · rfl

/-- A bare text goes up to the first character that ends it. -/
theorem start_bare {c : Char} {w rest : List Char} (hc : endsBare c = false)
    (hw : ∀ x ∈ w, endsBare x = false) (hrest : ∀ x ∈ rest.head?, endsBare x = true)
    (hraw : c = 'r' → ∀ quote ∈ (w ++ rest).head?, quote ∉ ['"', '\'']) :
    start c (w ++ rest) = .token (ofBare (c :: w)) rest := by
  have hkeep : ∀ x ∈ w, (!endsBare x) = true := fun x hx => by rw [hw x hx]; rfl
  have hends : rest.takeWhile (!endsBare ·) = [] ∧ rest.dropWhile (!endsBare ·) = rest := by
    cases rest with
    | nil => exact ⟨rfl, rfl⟩
    | cons x rest =>
      have hx : ¬ (!endsBare x) = true := by rw [hrest x rfl]; decide
      exact ⟨List.takeWhile_cons_of_neg hx, List.dropWhile_cons_of_neg hx⟩
  rw [start_of_not_endsBare hc hraw, List.takeWhile_append_of_pos hkeep, List.dropWhile_append_of_pos hkeep,
    hends.1, hends.2, List.append_nil]

/-- A token is read in the same way before another text that begins with the same character, or before none. -/
theorem start_before {c : Char} {cs rest : List Char} {t : Token} (h : start c cs = .token t rest) :
    ∃ w, cs = w ++ rest ∧
      ∀ rest' : List Char, (∀ x ∈ rest'.head?, rest.head? = some x) → start c (w ++ rest') = .token t rest' := by
  have hstarts := starts_start c cs
  rw [h] at hstarts
  cases hstarts with
  | operator hop => exact ⟨[], rfl, fun rest' _ => start_operator hop rest'⟩
  | literal hc h =>
    obtain ⟨w, rfl, hw⟩ := readQuoted_local h
    refine ⟨w ++ ['"'], by simp, fun rest' _ => ?_⟩
    rw [hc, List.append_assoc]
    exact start_quoted (hw rest')
  | @pattern quote body text _ hc hquote hcs h =>
    rw [readRaw_eq_cutAt?] at h
    obtain ⟨rfl, hlacks⟩ := Text.cutAt?_eq_some h
    refine ⟨quote :: (text ++ [quote]), by simp [hcs], fun rest' _ => ?_⟩
    rw [hc, List.cons_append, List.append_assoc]
    exact start_raw hquote hlacks rest'
  | bare hc hraw =>
    refine ⟨cs.takeWhile (!endsBare ·), List.takeWhile_append_dropWhile.symm, fun rest' hhead => ?_⟩
    refine start_bare hc ?_ ?_ ?_
    · intro x hx
      simpa using List.mem_takeWhile_imp hx
    · intro x hx
      have hends := List.head?_dropWhile_not (!endsBare ·) cs
      rw [hhead x hx] at hends
      simpa using hends
    · intro hr quote hquote
      refine hraw hr quote ?_
      rw [← List.takeWhile_append_dropWhile (p := (!endsBare ·)) (l := cs)]
      cases hw : cs.takeWhile (!endsBare ·) with
      | nil =>
        rw [hw] at hquote
        exact hhead quote hquote
      | cons x w =>
        rw [hw] at hquote
        exact hquote

/-- Where a token ends does not depend on how the text goes on after it. -/
theorem start_local {c : Char} {cs pre post : List Char} {t : Token} (h : start c cs = .token t (pre ++ post)) :
    ∃ w, cs = w ++ (pre ++ post) ∧ start c (w ++ pre) = .token t pre := by
  obtain ⟨w, hcs, hw⟩ := start_before h
  refine ⟨w, hcs, hw pre fun x hx => ?_⟩
  obtain ⟨tail, rfl⟩ := List.head?_eq_some_iff.1 hx
  rfl

theorem readable_operator? {c : Char} {op : Token} (h : operator? c = some op) : op.Readable := by
  unfold operator? at h
  split at h <;> cases h <;> trivial

/-- A token with which a text starts has a spelling. -/
theorem readable_of_start {c : Char} {cs rest : List Char} {t : Token} (h : start c cs = .token t rest) :
    t.Readable := by
  have hstarts := starts_start c cs
  rw [h] at hstarts
  cases hstarts with
  | operator hop => exact readable_operator? hop
  | literal => trivial
  | @pattern quote body text _ hc hquote hcs h =>
    rw [readRaw_eq_cutAt?] at h
    have hlacks : quote ∉ text := (Text.cutAt?_eq_some h).2
    show '"' ∉ (String.ofList text).toList ∨ '\'' ∉ (String.ofList text).toList
    rw [String.toList_ofList]
    rcases List.mem_cons.1 hquote with rfl | hquote
    · exact .inl hlacks
    · cases List.mem_singleton.1 hquote
      exact .inr hlacks
  | bare hc hraw =>
    have hunbroken : Unbroken (String.ofList (c :: cs.takeWhile (!endsBare ·))) := by
      intro x hx
      rw [String.toList_ofList] at hx
      rw [← endsBare_eq_false_iff]
      rcases List.mem_cons.1 hx with rfl | hx
      · exact hc
      · simpa using List.mem_takeWhile_imp hx
    unfold ofBare
    split
    · rename_i w hw
      obtain ⟨rfl, rfl⟩ := List.cons.inj hw
      refine ⟨?_, hunbroken⟩
      rw [String.toList_ofList]
      exact ⟨_, rfl⟩
    · rename_i hne
      refine ⟨?_, ?_, ?_, hunbroken⟩
      · intro hempty
        have := congrArg String.toList hempty
        simp at this
      · rw [String.toList_ofList]
        rintro ⟨w, hw⟩
        exact hne w hw.symm
      · rw [String.toList_ofList]
        rintro ⟨w, hw⟩
        obtain ⟨hr, hw⟩ := List.cons.inj hw
        refine hraw hr.symm '\'' ?_ (by decide)
        rw [← List.takeWhile_append_dropWhile (p := (!endsBare ·)) (l := cs), ← hw]
        rfl

theorem Unbroken.not_endsBare {text : String} (h : Unbroken text) : ∀ c ∈ text.toList, endsBare c = false :=
  fun c hc => endsBare_eq_false_iff.2 (h c hc)

theorem ofBare_of_ne {c : Char} (hc : c ≠ '#') (cs : List Char) :
    ofBare (c :: cs) = .word (String.ofList (c :: cs)) := by
  unfold ofBare
  split
  · rename_i h
    exact absurd (List.cons.inj h).1 hc
  · rfl

/-- A spelling is read up to the next space. -/
theorem start_spells {t : Token} {w rest : List Char} (ht : t.Readable) (hw : Spells t w)
    (hrest : ∀ x ∈ rest.head?, x = ' ') : ∃ c cs, w = c :: cs ∧ start c (cs ++ rest) = .token t rest := by
  have hspace : ∀ x ∈ rest.head?, endsBare x = true := by
    intro x hx
    rw [hrest x hx]
    rfl
  cases hw with
  | tag text =>
    obtain ⟨⟨body, hbody⟩, hunbroken⟩ := ht
    rw [List.singleton_append] at hbody
    have hends := hunbroken.not_endsBare
    rw [← hbody] at hends
    refine ⟨'#', body, hbody.symm, ?_⟩
    rw [start_bare rfl (fun x hx => hends x (List.mem_cons_of_mem _ hx)) hspace (fun h => by cases h)]
    show Start.token (.tag (String.ofList ('#' :: body))) rest = _
    rw [hbody, String.ofList_toList]
  | word text =>
    obtain ⟨hne, htag, hraw, hunbroken⟩ := ht
    have hends := hunbroken.not_endsBare
    cases htext : text.toList with
    | nil => exact absurd (String.toList_eq_nil_iff.1 htext) hne
    | cons c body =>
      rw [htext] at htag hraw hends
      have hc : c ≠ '#' := by
        rintro rfl
        exact htag ⟨body, rfl⟩
      refine ⟨c, body, rfl, ?_⟩
      rw [start_bare (hends c List.mem_cons_self) (fun x hx => hends x (List.mem_cons_of_mem _ hx)) hspace ?_,
        ofBare_of_ne hc, ← htext, String.ofList_toList]
      rintro rfl quote hquote hmem
      cases body with
      | nil =>
        cases hrest quote hquote
        revert hmem
        decide
      | cons x body =>
        cases hquote
        rcases List.mem_cons.1 hmem with rfl | hmem
        · cases hends '"' (by simp)
        · cases List.mem_singleton.1 hmem
          exact hraw ⟨body, rfl⟩
  | literal text =>
    refine ⟨'"', _, rfl, ?_⟩
    rw [List.append_assoc]
    have hread := start_quoted (readQuoted_escaped text.toList rest)
    rw [String.ofList_toList] at hread
    exact hread
  | @pattern text quote hquote h =>
    refine ⟨'r', _, rfl, ?_⟩
    have hread := start_raw hquote h rest
    rw [String.ofList_toList] at hread
    simpa using hread
  | operator hop => exact ⟨_, [], rfl, start_operator hop rest⟩

/-! ## Whole cells -/

/-- Spellings with spaces between them are read as their tokens. -/
theorem scan_spaced {ts : List Token} {ws : List (List Char)} (hts : ∀ t ∈ ts, t.Readable)
    (hws : List.Forall₂ Spells ts ws) (size : Nat) : scan size (spaced ws) = (ts, none) := by
  induction hws with
  | nil => exact scan_nil size
  | @cons t w ts ws hw hws ih =>
    have ht := hts t List.mem_cons_self
    have ih := ih fun t' ht' => hts t' (List.mem_cons_of_mem _ ht')
    -- what follows the first spelling: nothing, or a space that is passed over
    obtain ⟨rest, hspaced, hrest, hscan⟩ : ∃ rest, spaced (w :: ws) = w ++ rest ∧ (∀ x ∈ rest.head?, x = ' ') ∧
        scan size rest = (ts, none) := by
      cases ws with
      | nil =>
        cases hws
        exact ⟨[], by simp [spaced], nofun, scan_nil size⟩
      | cons w' ws =>
        refine ⟨' ' :: spaced (w' :: ws), ?_, ?_, ?_⟩
        · unfold spaced
          rw [List.intercalate_cons_of_ne_nil (List.cons_ne_nil _ _), List.append_assoc]
          rfl
        · rintro x ⟨⟩
          rfl
        · rw [scan_cons]
          exact ih
    obtain ⟨c, cs, rfl, hstart⟩ := start_spells ht hw hrest
    rw [hspaced, List.cons_append, scan_of_start hstart, hscan]

/-- What is wrong where reading fails: a literal begins there that no quote closes. -/
def Unclosed : LexError → List Char → Prop
  | .literal _, post => ∃ body, post = '"' :: body ∧ Escaped body
  | .pattern _, post => ∃ quote ∈ ['"', '\''], ∃ body, post = 'r' :: quote :: body ∧ quote ∉ body

/-- A scan that fails has read all tokens of what stands before the place of the failure. -/
theorem scan_failure {size : Nat} {cs : List Char} {ts : List Token} {e : LexError}
    (h : scan size cs = (ts, some e)) :
    ∃ pre post, cs = pre ++ post ∧ e.offset = size - post.length ∧ Unclosed e post ∧
      ∀ n, scan n pre = (ts, none) := by
  induction cs using scan.induct size generalizing ts with
  | case1 =>
    rw [scan_nil] at h
    cases h
  | case2 c cs hstart ih =>
    rw [scan_cons, hstart] at h
    obtain ⟨pre, post, rfl, hoffset, hunclosed, hpre⟩ := ih h
    have hstarts := starts_start c (pre ++ post)
    rw [hstart] at hstarts
    cases hstarts with
    | blank hc =>
      refine ⟨c :: pre, post, rfl, hoffset, hunclosed, fun n => ?_⟩
      have hblank : start c pre = .blank := by rw [start.eq_def, hc]; rfl
      rw [scan_cons, hblank]
      exact hpre n
  | case3 c cs t rest hstart _ _ _ _ ih =>
    rw [scan_of_start hstart] at h
    obtain ⟨rfl, herror⟩ := Prod.mk.inj h
    obtain ⟨pre, post, rfl, hoffset, hunclosed, hpre⟩ := ih (Prod.ext rfl herror)
    obtain ⟨w, rfl, hw⟩ := start_local hstart
    refine ⟨c :: (w ++ pre), post, by simp, hoffset, hunclosed, fun n => ?_⟩
    rw [scan_of_start hw, hpre]
  | case4 c cs hstart =>
    have hstarts := starts_start c cs
    rw [hstart] at hstarts
    rw [scan_cons, hstart] at h
    cases h
    cases hstarts with
    | unclosedLiteral hc h =>
      exact ⟨[], c :: cs, rfl, rfl, ⟨cs, by rw [hc], escaped_of_readQuoted h⟩, fun n => scan_nil n⟩
  | case5 c cs hstart =>
    have hstarts := starts_start c cs
    rw [hstart] at hstarts
    rw [scan_cons, hstart] at h
    cases h
    cases hstarts with
    | @unclosedPattern quote body hc hquote hcs h =>
      rw [readRaw_eq_cutAt?, Text.cutAt?_eq_none_iff] at h
      exact ⟨[], c :: cs, rfl, rfl, ⟨quote, hquote, body, by rw [hc, hcs], h⟩, fun n => scan_nil n⟩

/-- All tokens of a cell can be spelled. -/
theorem readable_of_tokenize {cell : String} {ts : List Token} (h : tokenize cell = .ok ts) :
    ∀ t ∈ ts, t.Readable := by
  intro t ht
  have hscan := tokenize_eq_ok_iff.1 h
  exact of_mem_scan readable_of_start (by rw [hscan]; exact ht)

/--
Tokens that can be spelled are read from any of their spellings with spaces between them, and no others are
ever read. Where a cell cannot be read a literal begins that is never closed, and what stands before it is
read by itself.
-/
theorem tokenize_spellings :
    (∀ ts : List Token, (∀ t ∈ ts, t.Readable) → (∃ ws, List.Forall₂ Spells ts ws) ∧
      ∀ ws, List.Forall₂ Spells ts ws → tokenize (String.ofList (spaced ws)) = .ok ts) ∧
    (∀ cell ts, tokenize cell = .ok ts → ∀ t ∈ ts, t.Readable) ∧
    ∀ cell e, tokenize cell = .error e → ∃ pre post, cell.toList = pre ++ post ∧ pre.length = e.offset ∧
      tokenize (String.ofList pre) = .ok (scanCell cell).1 ∧ Unclosed e post := by
  refine ⟨fun ts hts => ⟨?_, fun ws hws => ?_⟩, fun cell ts h t ht => ?_, fun cell e h => ?_⟩
  · -- each token has a spelling
    induction ts with
    | nil => exact ⟨[], .nil⟩
    | cons t ts ih =>
      obtain ⟨w, hw⟩ := (hts t List.mem_cons_self).exists_spells
      obtain ⟨ws, hws⟩ := ih fun t' ht' => hts t' (List.mem_cons_of_mem _ ht')
      exact ⟨w :: ws, .cons hw hws⟩
  · rw [tokenize_eq_ok_iff, String.toList_ofList]
    exact scan_spaced hts hws _
  · exact readable_of_tokenize h t ht
  · obtain ⟨ts, hscan⟩ : ∃ ts, scanCell cell = (ts, some e) := by
      unfold tokenize at h
      split at h
      · cases h
      · rename_i ts e' hscan
        cases h
        exact ⟨ts, hscan⟩
    obtain ⟨pre, post, hcell, hoffset, hunclosed, hpre⟩ := scan_failure hscan
    refine ⟨pre, post, hcell, ?_, ?_, hunclosed⟩
    · rw [hoffset, hcell, List.length_append, Nat.add_sub_cancel]
    · rw [tokenize_eq_ok_iff, String.toList_ofList, hscan]
      exact hpre _

/-- A word next to a literal, both kinds of raw literals, and a cell whose second literal is not closed. -/
theorem tokenize_spellings_mixed :
    let ts : List Token := [.tag "#a.b", .equals, .word "r", .literal "x \"y\\", .pattern "a\"b", .pattern "'"]
    (∀ t ∈ ts, t.Readable) ∧
      tokenize "#a.b = r \"x \\\"y\\\\\" r'a\"b' r\"'\"" = .ok ts ∧
      tokenize "bar\"\\\"\"r'open\"" = .error (.pattern 7) ∧
      ∃ pre post, "bar\"\\\"\"r'open\"".toList = pre ++ post ∧ pre.length = 7 ∧
        tokenize (String.ofList pre) = .ok [.word "bar", .literal "\""] ∧ Unclosed (.pattern 7) post := by
  intro ts
  have hts : ∀ t ∈ ts, t.Readable := by decide
  have hws : List.Forall₂ Spells ts ["#a.b".toList, ['='], "r".toList, "\"x \\\"y\\\\\"".toList,
      "r'a\"b'".toList, "r\"'\"".toList] :=
    .cons (.tag _) (.cons (.operator rfl) (.cons (.word _) (.cons (.literal _)
      (.cons (.pattern (.tail _ (.head _)) (by decide))
        (.cons (.pattern (.head _) (by decide)) .nil)))))
  have herror : tokenize "bar\"\\\"\"r'open\"" = .error (.pattern 7) := by decide +kernel
  have hread := (tokenize_spellings.1 ts hts).2 _ hws
  have htokens : (scanCell "bar\"\\\"\"r'open\"").1 = [.word "bar", .literal "\""] := by decide +kernel
  obtain ⟨pre, post, hcell, hlength, hpre, hunclosed⟩ := tokenize_spellings.2.2 _ _ herror
  exact ⟨hts, hread, herror, pre, post, hcell, hlength, htokens ▸ hpre, hunclosed⟩

end TagHarvest.Token
