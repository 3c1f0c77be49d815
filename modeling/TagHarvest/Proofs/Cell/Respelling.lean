/-
A cell with other tags in the place of its own. Blanks, literals, words and operators stand as they are
written, so the cell is read as the tokens it had, with the new tags among them: a tag begins with a number
sign whatever it names, and what ends the old tag ends the new one.
-/
import TagHarvest.Proofs.Cell.Spelling

namespace TagHarvest.Token

/-- The text of a token: a tag is written anew, all else stands as it was. -/
def written (old : List Char) : Token → List Char
  | tag text => text.toList
  | _ => old

/-- A text with these tokens in the place of its own, one for one. -/
def respell : List Char → List Token → List Char
  | [], _ => []
  | c :: cs, ts =>
    match h : start c cs with
    | .blank => c :: respell cs ts
    | .token _ rest =>
      have := length_of_start h
      match ts with
      | [] => c :: cs
      | t :: ts => written (c :: cs.take (cs.length - rest.length)) t ++ respell rest ts
    | _ => c :: cs
termination_by cs => cs.length
decreasing_by all_goals simp only [List.length_cons] at *; omega

/-- A token that may take the place of another: itself, or for a tag a tag that can be spelled. -/
inductive Retags : Token → Token → Prop
  | same (t : Token) : Retags t t
  | tag (old : String) {new : String} (h : Readable (.tag new)) : Retags (.tag old) (.tag new)

variable {c : Char} {cs rest : List Char} {t t' : Token} {ts ts' : List Token}

theorem respell_nil (ts : List Token) : respell [] ts = [] := by rw [respell.eq_def]

theorem respell_of_blank (h : start c cs = .blank) (ts : List Token) :
    respell (c :: cs) ts = c :: respell cs ts := by
  rw [respell.eq_def]
  dsimp only
  split <;> rename_i h' <;> simp_all

theorem respell_of_token (h : start c cs = .token t rest) (t' : Token) (ts : List Token) :
    respell (c :: cs) (t' :: ts) =
      written (c :: cs.take (cs.length - rest.length)) t' ++ respell rest ts := by
  rw [respell.eq_def]
  dsimp only
  split <;> rename_i h' <;> simp_all

/-- A tag begins with a number sign and goes up to a character that ends it. -/
theorem head_of_start_tag {old : String} (h : start c cs = .token (.tag old) rest) :
    c = '#' ∧ ∀ x ∈ rest.head?, endsBare x = true := by
  have hstarts := starts_start c cs
  rw [h] at hstarts
  generalize htag : Token.tag old = t at hstarts
  cases hstarts with
  | operator hop =>
    unfold operator? at hop
    subst htag
    split at hop <;> cases hop
  | literal => cases htag
  | pattern => cases htag
  | bare hc hraw =>
    refine ⟨?_, fun x hx => ?_⟩
    · by_contra hne
      rw [ofBare_of_ne hne] at htag
      cases htag
    · have hends := List.head?_dropWhile_not (!endsBare ·) cs
      rw [hx] at hends
      simpa using hends

/-- A tag that can be spelled is read where another tag was. -/
theorem start_newTag {old new : String} (h : start c cs = .token (.tag old) rest) (hnew : Readable (.tag new)) :
    ∃ w, new.toList = c :: w ∧
      ∀ rest' : List Char, (∀ x ∈ rest'.head?, rest.head? = some x) →
        start c (w ++ rest') = .token (.tag new) rest' := by
  obtain ⟨rfl, hends⟩ := head_of_start_tag h
  obtain ⟨⟨w, hw⟩, hunbroken⟩ := hnew
  rw [List.singleton_append] at hw
  have hbody := hunbroken.not_endsBare
  rw [← hw] at hbody
  refine ⟨w, hw.symm, fun rest' hhead => ?_⟩
  rw [start_bare rfl (fun x hx => hbody x (List.mem_cons_of_mem _ hx))
    (fun x hx => hends x (hhead x hx)) (fun h => by cases h)]
  show Start.token (.tag (String.ofList ('#' :: w))) rest' = _
  rw [hw, String.ofList_toList]

/-- What is written for a token begins as the old text does and is read as the new token. -/
theorem start_written (h : start c cs = .token t rest) (ht : Retags t t') :
    ∃ w, written (c :: cs.take (cs.length - rest.length)) t' = c :: w ∧
      ∀ rest' : List Char, (∀ x ∈ rest'.head?, rest.head? = some x) →
        start c (w ++ rest') = .token t' rest' := by
  cases ht with
  | tag old hnew => exact start_newTag h hnew
  | same =>
    cases t with
    | tag text => exact start_newTag h (readable_of_start h)
    | literal | pattern | word | equals | plus | star | semicolon | comma =>
      obtain ⟨w, rfl, hw⟩ := start_before h
      have htake : (w ++ rest).take ((w ++ rest).length - rest.length) = w :=
        List.take_left' (by rw [List.length_append, Nat.add_sub_cancel])
      exact ⟨w, congrArg (c :: ·) htake, hw⟩

theorem head?_respell {size : Nat} (hts : List.Forall₂ Retags (scan size cs).1 ts') :
    (respell cs ts').head? = cs.head? := by
  cases cs with
  | nil => rw [respell_nil]
  | cons c cs =>
    cases hstart : start c cs with
    | blank =>
      rw [respell_of_blank hstart]
      rfl
    | token t rest =>
      rw [scan_of_start hstart] at hts
      cases hts with
      | cons ht _ =>
        obtain ⟨w, hw, -⟩ := start_written hstart ht
        rw [respell_of_token hstart, hw]
        rfl
    | unclosedLiteral | unclosedPattern =>
      rw [respell.eq_def]
      dsimp only
      split <;> rename_i h' <;> simp_all

theorem scan_respell {size size' : Nat} (h : scan size cs = (ts, none)) (hts : List.Forall₂ Retags ts ts') :
    scan size' (respell cs ts') = (ts', none) := by
  induction cs using scan.induct size generalizing ts ts' with
  | case1 =>
    rw [scan_nil] at h
    cases h
    cases hts
    rw [respell_nil, scan_nil]
  | case2 c cs hstart ih =>
    rw [scan_cons, hstart] at h
    rw [respell_of_blank hstart, scan_cons]
    have hstarts := starts_start c cs
    rw [hstart] at hstarts
    cases hstarts with
    | blank hc =>
      have hblank : start c (respell cs ts') = .blank := by rw [start.eq_def, hc]; rfl
      rw [hblank]
      exact ih h hts
  | case3 c cs t rest hstart _ _ _ _ ih =>
    rw [scan_of_start hstart] at h
    obtain ⟨rfl, herror⟩ := Prod.mk.inj h
    cases hts with
    | cons ht hts =>
      have hrest := ih (Prod.ext rfl herror) hts
      obtain ⟨w, hw, hread⟩ := start_written hstart ht
      have hhead := head?_respell hts
      rw [respell_of_token hstart, hw, List.cons_append,
        scan_of_start (hread _ fun x hx => hhead ▸ hx), hrest]
  | case4 c cs hstart =>
    rw [scan_cons, hstart] at h
    cases h
  | case5 c cs hstart =>
    rw [scan_cons, hstart] at h
    cases h

/-- A cell with other tags is read as the tokens it had with these tags among them. -/
theorem tokenize_respell {cell : String} (h : tokenize cell = .ok ts) (hts : List.Forall₂ Retags ts ts') :
    tokenize (String.ofList (respell cell.toList ts')) = .ok ts' := by
  rw [tokenize_eq_ok_iff] at h ⊢
  rw [String.toList_ofList]
  exact scan_respell h hts

/-- Only the tags of a cell are written anew. -/
example : String.ofList (respell "*#a =\"#b\"+ x;#c".toList
    [.star, .tag "#t.a", .equals, .literal "#b", .plus, .word "x", .semicolon, .tag "#t.c"]) =
    "*#t.a =\"#b\"+ x;#t.c" := by decide +kernel

end TagHarvest.Token
