/-
Markers of rows. The kind of a row is told by the bare text that its first cell starts with, and a header
cell is read token by token. Both see the same: a cell's leading bare text is a tag exactly when the tokens
that it gives begin with that tag, also where a later literal of the cell is never closed. So the compilation
of a header row's first cell does not miss the marker, and that of any other first cell gets no further than
to miss it.
-/
import TagHarvest.Proofs.Header.Acceptance

namespace TagHarvest

/-! ## The tag that a cell starts with -/

namespace Token

/-- A text that starts with a number sign starts with a tag. -/
theorem start_sign (cs : List Char) :
    start '#' cs =
      .token (.tag (String.ofList (('#' :: cs).takeWhile (!endsBare ·)))) (cs.dropWhile (!endsBare ·)) := rfl

/-- A tag at the start of a text is its leading bare text. -/
theorem takeWhile_of_start_tag {c : Char} {cs rest : List Char} {text : String}
    (h : start c cs = .token (.tag text) rest) :
    Text.isBlank c = false ∧ String.ofList ((c :: cs).takeWhile (!endsBare ·)) = text := by
  have hstarts := starts_start c cs
  rw [h] at hstarts
  generalize htag : Token.tag text = t at hstarts
  cases hstarts with
  | operator hop =>
    subst htag
    unfold operator? at hop
    split at hop <;> cases hop
  | literal => cases htag
  | pattern => cases htag
  | bare hc =>
    refine ⟨(endsBare_eq_false_iff.1 hc).1, ?_⟩
    rw [List.takeWhile_cons_of_pos (by rw [hc]; rfl)]
    unfold ofBare at htag
    split at htag
    · rename_i hbare
      rw [hbare]
      exact (Token.tag.inj htag).symm
    · cases htag

/-- The tokens of a text begin with a tag exactly when its leading bare text is that tag. -/
theorem head?_scan_eq_tag_iff (size : Nat) (cs : List Char) (body : String) :
    (scan size cs).1.head? = some (.tag ("#" ++ body)) ↔
      String.ofList ((Text.dropBlanks cs).takeWhile (!endsBare ·)) = "#" ++ body := by
  have hempty : String.ofList [] ≠ "#" ++ body := fun h => by simpa using congrArg String.toList h
  induction cs with
  | nil =>
    rw [scan_nil]
    exact ⟨nofun, fun h => absurd h hempty⟩
  | cons c cs ih =>
    cases hblank : Text.isBlank c with
    | true =>
      have hstart : start c cs = .blank := if_pos hblank
      rw [scan_cons, hstart, show Text.dropBlanks (c :: cs) = Text.dropBlanks cs from
        List.dropWhile_cons_of_pos hblank]
      exact ih
    | false =>
      rw [show Text.dropBlanks (c :: cs) = c :: cs from
        List.dropWhile_cons_of_neg (by rw [hblank]; exact Bool.false_ne_true)]
      constructor
      · intro h
        rw [scan_cons] at h
        have hstarts := starts_start c cs
        generalize hstart : start c cs = first at h hstarts
        cases first with
        | token t rest =>
          cases Option.some.inj h
          exact (takeWhile_of_start_tag hstart).2
        | blank =>
          cases hstarts with
          | blank hc => exact absurd (hblank.symm.trans hc) Bool.false_ne_true
        | unclosedLiteral => cases h
        | unclosedPattern => cases h
      · intro h
        obtain rfl : c = '#' := by
          have hc := congrArg (·.toList.head?) h
          rw [String.toList_ofList, String.toList_append, List.takeWhile_cons] at hc
          split at hc
          · exact Option.some.inj hc
          · cases hc
        rw [scan_of_start (start_sign cs), h]
        rfl

end Token

/-- A row is marked with a tag exactly when the tokens of its first cell begin with it. -/
theorem Row.isMarked_iff (body cell : String) (rest : Row) :
    Row.isMarked ("#" ++ body) (cell :: rest) = true ↔
      (Token.scanCell cell).1.head? = some (.tag ("#" ++ body)) := by
  unfold Token.scanCell
  rw [Token.head?_scan_eq_tag_iff]
  exact beq_iff_eq

/-! ## No clause misses the marker -/

/-- No text of a tag is refused as a missing marker. -/
theorem Tag.ofText_ne_missingMarker (tag : String) : Tag.ofText tag ≠ .error .missingMarker := by
  intro h
  unfold ofText at h
  dsimp only at h
  split at h
  · cases h
  · cases h
  · cases h
  · split_ifs at h
    rcases except_bind_eq_error h with hpath | ⟨⟨owner, path, child⟩, -, h⟩
    · unfold splitPath at hpath
      split at hpath
      · split at hpath <;> cases hpath
      · split at hpath <;> cases hpath
    rcases except_bind_eq_error h with hattr | ⟨⟨base, name⟩, -, h⟩
    · unfold splitAttribute at hattr
      split at hattr <;> cases hattr
    dsimp only at h
    split at h <;> cases h

namespace Clause

theorem operand_ne_missingMarker (t : Token) : operand t ≠ .error .missingMarker := by
  intro h
  cases t with
  | tag text =>
    rcases except_bind_eq_error h with htext | ⟨tag, -, h⟩
    · exact Tag.ofText_ne_missingMarker text htext
    · cases tag with
      | field f =>
        dsimp only at h
        split at h <;> cases h
      | tags | ignore | table | attr => cases h
  | literal | word | pattern | equals | plus | star | semicolon | comma => cases h

theorem readOperands_ne_missingMarker (ts : List Token) : (readOperands ts).2.1 ≠ some .missingMarker := by
  induction ts using readOperands.induct with
  | case1 => rintro ⟨⟩
  | case2 t ts f hf =>
    rw [readOperands, hf]
    rintro ⟨⟩
    exact operand_ne_missingMarker t hf
  | case3 t part hpart rest ih =>
    rw [readOperands, hpart]
    exact ih
  | case4 t part hpart | case5 t part hpart | case6 t part hpart | case7 t part hpart | case8 t part hpart =>
    rw [readOperands, hpart]
    rintro ⟨⟩
  | case9 t part hpart other rest hplus =>
    rw [readOperands, hpart]
    cases other with
    | plus => exact (hplus rfl).elim
    | _ => rintro ⟨⟩

theorem readAssignment_ne_missingMarker (ts : List Token) :
    (readAssignment ts).1.fault? ≠ some .missingMarker := by
  unfold readAssignment
  split
  · exact readOperands_ne_missingMarker _
  · nofun
  · nofun
  · nofun
  · split <;> nofun

theorem readTable_ne_missingMarker (ts : List Token) : (readTable ts).1.fault? ≠ some .missingMarker := by
  unfold readTable
  split
  · split
    · split <;> nofun
    · split <;> nofun
    · dsimp only [fault?]
      split <;> nofun
  · nofun
  · nofun

theorem readTag_ne_missingMarker (list : Bool) (tag : String) (ts : List Token) :
    (readTag list tag ts).1.fault? ≠ some .missingMarker := by
  unfold readTag
  split
  · rename_i f hf
    rintro ⟨⟩
    exact Tag.ofText_ne_missingMarker tag hf
  · nofun
  · nofun
  · split
    · nofun
    · exact readTable_ne_missingMarker ts
  · exact readAssignment_ne_missingMarker ts
  · exact readAssignment_ne_missingMarker ts

/-- No clause of a cell is refused as a missing marker. -/
theorem ofTokens_ne_missingMarker (ts : List Token) : ∀ c ∈ ofTokens ts, c.fault? ≠ some .missingMarker :=
  forall_ofTokens readTag_ne_missingMarker (fun _ hf h => hf (Option.some.inj h)) ts

end Clause

namespace HeaderState

/-- An error that does not say that the marker is missing. -/
def AfterMarker (e : TagError) : Prop := ∀ l, e ≠ .grammar l .missingMarker

variable {here : Location}

theorem afterMarker_grammar {f : GrammarFault} (hf : f ≠ .missingMarker) : AfterMarker (.grammar here f) := by
  rintro l ⟨⟩
  exact hf rfl

theorem afterMarker_clause {c : Clause} (hc : c.fault? ≠ some .missingMarker) :
    FailsWith AfterMarker (clause here c) := by
  refine failsWith_clause (fun _ _ => nofun) (fun _ _ => afterMarker_grammar) (fun f hf => ?_)
    (afterMarker_grammar nofun)
  exact afterMarker_grammar fun hmissing => hc (hmissing ▸ hf)

/-- A first cell with the marker gives tokens, or has a literal that is not closed. -/
theorem afterMarker_of_clauseTokens {text : String} {e : TagError}
    (hmarker : (Token.scanCell text).1.head? = some (.tag "#tags")) (h : clauseTokens here text = .error e) :
    AfterMarker e := by
  unfold clauseTokens Token.tokenize at h
  generalize Token.scanCell text = outcome at hmarker h
  obtain ⟨ts, fault⟩ := outcome
  obtain ⟨rest, rfl⟩ := List.head?_eq_some_iff.1 hmarker
  cases fault with
  | some lexical =>
    cases h
    exact nofun
  | none =>
    dsimp only at h
    split at h <;> cases h

/-- A first cell without the marker gives no tokens. -/
theorem clauseTokens_of_no_marker (hcolumn : here.column = 0) {text : String}
    (hmarker : (Token.scanCell text).1.head? ≠ some (.tag "#tags")) :
    clauseTokens here text = .error (.grammar here .missingMarker) ∨
      ∃ e, Token.tokenize text = .error e ∧ clauseTokens here text = .error (.grammar here (.lexical e)) := by
  unfold clauseTokens Token.tokenize
  generalize Token.scanCell text = outcome at hmarker
  obtain ⟨ts, fault⟩ := outcome
  cases fault with
  | some lexical => exact .inr ⟨lexical, rfl, rfl⟩
  | none =>
    dsimp only
    rw [if_pos hcolumn]
    split
    · exact absurd rfl hmarker
    · exact .inl rfl

/-- A cell of which no tokens are taken changes nothing. -/
theorem cell_of_error {text : String} {e : TagError} (h : clauseTokens here text = .error e) (s : HeaderState) :
    cell here text s = .error e s := by
  unfold cell look
  rw [h]
  rfl

/--
A row that is not empty is a header row exactly when the tokens of its first cell, up to the end of the cell
or the first literal that is not closed, begin with `#tags`, and a row to skip exactly when they begin with
`#ignore`. From every state, the compilation of the first cell of a header row does not fail for want of the
marker, and that of any other first cell fails for want of it or for a literal that is not closed.
-/
theorem firstCell_marker (sheet : Worksheet) (i : Nat) (s : HeaderState) (text : String) (rest : Row) :
    (Row.isTags (text :: rest) = true ↔ (Token.scanCell text).1.head? = some (.tag "#tags")) ∧
      (Row.isIgnore (text :: rest) = true ↔ (Token.scanCell text).1.head? = some (.tag "#ignore")) ∧
      (Row.isTags (text :: rest) = true →
        ∀ l s', cell (sheet.location i 0) text s ≠ .error (.grammar l .missingMarker) s') ∧
      (Row.isTags (text :: rest) = false →
        cell (sheet.location i 0) text s = .error (.grammar (sheet.location i 0) .missingMarker) s ∨
          ∃ e, Token.tokenize text = .error e ∧
            cell (sheet.location i 0) text s = .error (.grammar (sheet.location i 0) (.lexical e)) s) := by
  have htags : Row.isTags (text :: rest) = true ↔ (Token.scanCell text).1.head? = some (.tag "#tags") :=
    Row.isMarked_iff "tags" text rest
  refine ⟨htags, Row.isMarked_iff "ignore" text rest, fun hrow l s' h => ?_, fun hrow => ?_⟩
  · have htokens : FailsWith AfterMarker (look fun _ => clauseTokens (sheet.location i 0) text) :=
      failsWith_look fun _ _ => afterMarker_of_clauseTokens (htags.1 hrow)
    have hcell : FailsWith AfterMarker (cell (sheet.location i 0) text) :=
      htokens.bind fun ts _ => Meets.forM _ fun c hc =>
        afterMarker_clause (Clause.ofTokens_ne_missingMarker ts c hc)
    exact (hcell.error h).2 l rfl
  · have hmarker := mt htags.2 (by rw [hrow]; exact Bool.false_ne_true)
    have hcolumn : (sheet.location i 0).column = 0 := rfl
    rcases clauseTokens_of_no_marker hcolumn hmarker with h | ⟨e, he, h⟩
    · exact .inl (cell_of_error h s)
    · exact .inr ⟨e, he, cell_of_error h s⟩

/-- A header row whose first cell has a literal that is not closed, and a row with a longer tag. -/
theorem firstCell_marker_unclosed :
    let sheet : Worksheet := ⟨"a.csv", "a", [[" #tags;#site=\"x", "#.id"], ["#tags2"]]⟩
    Row.isTags (sheet.row 0) = true ∧ Row.isTags (sheet.row 1) = false ∧
      (Token.scanCell " #tags;#site=\"x").1.head? = some (.tag "#tags") ∧
      (∀ l s', cell (sheet.location 0 0) " #tags;#site=\"x" .start ≠ .error (.grammar l .missingMarker) s') ∧
      cell (sheet.location 1 0) "#tags2" .start = .error (.grammar (sheet.location 1 0) .missingMarker) .start := by
  intro sheet
  have htags : Row.isTags (sheet.row 0) = true := by decide +kernel
  have hother : Row.isTags (sheet.row 1) = false := by decide +kernel
  obtain ⟨hiff, -, hmarker, -⟩ := firstCell_marker sheet 0 .start " #tags;#site=\"x" ["#.id"]
  obtain ⟨-, -, -, hmissing⟩ := firstCell_marker sheet 1 .start "#tags2" []
  refine ⟨htags, hother, hiff.1 htags, hmarker htags, ?_⟩
  rcases hmissing hother with h | ⟨e, he, -⟩
  · exact h
  · rw [show Token.tokenize "#tags2" = .ok [.tag "#tags2"] by decide +kernel] at he
    cases he

end HeaderState
end TagHarvest
