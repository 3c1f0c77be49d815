/-
Slices against rows. Slicing and reading stand in the same place after every character as long as no
carriage return stands outside quotes; then every slice that is not blank is one row, and a parsed text has
a row for each slice, with all the rows of the reader in their order. A return outside quotes ends a row and
no slice: the slice it stands in is more than one row, and the last rows are lost.
-/
import TagHarvest.Delimited.Detect
import TagHarvest.Delimited.Document
import TagHarvest.Proofs.Delimited.Reader
import TagHarvest.Proofs.Delimited.Slice

namespace TagHarvest

/-- The place of the reader where slicing stands in the same row. -/
def Slice.Place.reader : Slice.Place → Delimited.Place
  | cellStart => .cellStart
  | cell => .cell
  | quoted => .quoted
  | quoteInQuoted => .quoteInQuoted

namespace Delimited

/-- The slices of a text that are not blank. -/
def filledSlices (d : Char) (text : String) : List Slice :=
  (Slice.all d text.toList).filter fun s => !s.isBlank

/-- What the reader gets of a text. -/
def body (d : Char) (text : String) : List Char :=
  ['\n'].intercalate ((filledSlices d text).map (·.text))

/-- The rows that stand for slices which are not blank. -/
def filledRows (slices : List Slice) (table : List Row) : List Row :=
  ((slices.zip table).filter fun e => !e.1.isBlank).map Prod.snd

/-- The slice is one row for the reader, and this is it. -/
def IsRowOf (d : Char) (s : Slice) (row : Row) : Prop :=
  rows (characterMarks d) s.text = [row.map String.toList]

/-- No byte order mark is dropped from a text, and no carriage return stands outside its quotes. -/
structure InStep (d : Char) (text : String) : Prop where
  mark : (body d text).head? ≠ some Text.byteOrderMark
  returns : ∀ s ∈ filledSlices d text, Slice.hasReturn d .cellStart s.text = false

variable {d : Char}

theorem distinct_characterMarks (hd : d ∈ separators) : (characterMarks d).Distinct := by
  simp only [separators, List.mem_cons, List.not_mem_nil, or_false] at hd
  rcases hd with rfl | rfl | rfl | rfl <;> constructor <;> decide

theorem toNat_of_mem_separators (hd : d ∈ separators) : d.toNat < 0x80 := by
  simp only [separators, List.mem_cons, List.not_mem_nil, or_false] at hd
  rcases hd with rfl | rfl | rfl | rfl <;> decide

/-! ## Slicing and reading in step -/

theorem isBetween_reader (p : Slice.Place) : p.reader.isBetween = false := by
  cases p <;> rfl

theorem reader_ne_quoted {p : Slice.Place} (h : p ≠ .quoted) : p.reader ≠ .quoted := by
  cases p with
  | quoted => exact absurd rfl h
  | cellStart => decide
  | cell => decide
  | quoteInQuoted => decide

theorem inCell_of_ne {c : Char} (hfeed : c ≠ '\n') (hreturn : c ≠ '\r') :
    inCell (characterMarks d) c = if c = d then (.cellStart, .endCell) else (.cell, .keep) := by
  simp [inCell, characterMarks, hfeed, hreturn]

/-- A character that neither ends the slice nor is a return outside quotes leaves both in one place. -/
theorem next_reader (hm : (characterMarks d).Distinct) {p q : Slice.Place} {c : Char}
    (h : p.next? d c = some q) (hc : c = '\r' → p = .quoted) :
    ∃ e, p.reader.next (characterMarks d) c = (q.reader, e) ∧ e ≠ .endRow := by
  by_cases hquote : c = '"'
  · subst hquote
    have hd : '"' ≠ d := hm.delimiter_ne_quote.symm
    cases p with
    | quoted => cases h; exact ⟨.skip, rfl, by decide⟩
    | quoteInQuoted => cases h; exact ⟨.keep, rfl, by decide⟩
    | cellStart => cases h; exact ⟨.skip, rfl, by decide⟩
    | cell =>
      have hq : q = .cell := by
        have hcell : some (if '"' = d then Slice.Place.cellStart else .cell) = some q := h
        rw [if_neg hd] at hcell
        exact (Option.some.inj hcell).symm
      subst hq
      refine ⟨.keep, ?_, by decide⟩
      show inCell (characterMarks d) '"' = _
      rw [inCell_of_ne (by decide) (by decide), if_neg hd]
      rfl
  · by_cases hp : p = .quoted
    · subst hp
      rw [Slice.next?_quoted hquote] at h
      cases h
      refine ⟨.keep, ?_, by decide⟩
      simp [Slice.Place.reader, Place.next, characterMarks, hquote]
    · have hfeed : c ≠ '\n' := fun hfeed => by
        rw [Slice.next?_eq_none_iff.2 ⟨hfeed, hp⟩] at h
        cases h
      rw [Slice.next?_of_ne hp hquote hfeed] at h
      cases h
      rw [next_of_ne_quote (isBetween_reader p) (reader_ne_quoted hp) hquote,
        inCell_of_ne hfeed fun hreturn => hp (hc hreturn)]
      by_cases hcd : c = d
      · simp only [hcd, if_true]
        exact ⟨.endCell, rfl, by decide⟩
      · simp only [hcd, if_false]
        exact ⟨.keep, rfl, by decide⟩

theorem through_reader (hm : (characterMarks d).Distinct) {p q : Slice.Place} {cs : List Char}
    (h : p.through? d cs = some q) (hreturn : Slice.hasReturn d p cs = false) :
    p.reader.through? (characterMarks d) cs = some q.reader := by
  induction cs generalizing p with
  | nil =>
    cases h
    rfl
  | cons c cs ih =>
    rw [Slice.Place.through?, Option.bind_eq_some_iff] at h
    obtain ⟨p', hp', h⟩ := h
    rw [Slice.hasReturn, hp', Option.any_some, Bool.or_eq_false_iff] at hreturn
    obtain ⟨e, he, hne⟩ := next_reader hm hp' fun hc => by simpa [hc] using hreturn.1
    rw [Place.through?, he]
    cases e with
    | endRow => exact absurd rfl hne
    | skip => exact ih h hreturn.2
    | keep => exact ih h hreturn.2
    | endCell => exact ih h hreturn.2

/-- At the start of a row the reader does what it does at the start of a cell, line breaks apart. -/
theorem through_rowStart {m : Marks Char} {c : Char} (hfeed : c ≠ m.lineFeed) (hreturn : c ≠ m.carriageReturn)
    (cs : List Char) : Place.rowStart.through? m (c :: cs) = Place.cellStart.through? m (c :: cs) := by
  have hstart : Place.rowStart.next m c = Place.cellStart.next m c := by
    show atRowStart m c = atCellStart m c
    rw [atRowStart, if_neg (not_or.2 ⟨hfeed, hreturn⟩)]
  rw [Place.through?, Place.through?, hstart]

/-- The reader goes through a text as slicing does, in a row. -/
theorem through_slice (hm : (characterMarks d).Distinct) {q : Slice.Place} {cs : List Char} (hne : cs ≠ [])
    (h : Slice.Place.cellStart.through? d cs = some q) (hreturn : Slice.hasReturn d .cellStart cs = false) :
    Place.rowStart.through? (characterMarks d) cs = some q.reader := by
  cases cs with
  | nil => exact absurd rfl hne
  | cons c cs =>
    have hfeed : c ≠ '\n' := by
      rintro rfl
      have hends : Slice.Place.cellStart.next? d '\n' = none := rfl
      rw [Slice.Place.through?, hends] at h
      cases h
    have hc : c ≠ '\r' := by
      rintro rfl
      simp [Slice.hasReturn] at hreturn
    rw [through_rowStart hfeed hc]
    exact through_reader hm h hreturn

theorem isRow_of_unbroken (hm : (characterMarks d).Distinct) {cs : List Char} (hne : cs ≠ [])
    (h : Slice.Unbroken d cs) (hreturn : Slice.hasReturn d .cellStart cs = false) :
    IsRow (characterMarks d) cs :=
  let ⟨p, hp⟩ := h
  ⟨p.reader, through_slice hm hne hp hreturn, isBetween_reader p⟩

theorem isClosedRow_of_closed (hm : (characterMarks d).Distinct) {cs : List Char} (hne : cs ≠ [])
    (h : Slice.Closed d cs) (hreturn : Slice.hasReturn d .cellStart cs = false) :
    IsClosedRow (characterMarks d) cs :=
  let ⟨p, hp, hquoted⟩ := h
  ⟨p.reader, through_slice hm hne hp hreturn, isBetween_reader p, reader_ne_quoted hquoted⟩

/-! ## Out of step -/

/-- The first return outside quotes, up to which slicing and reading are in step. -/
theorem exists_return {p : Slice.Place} {cs : List Char} (h : Slice.hasReturn d p cs = true) :
    ∃ before after q, cs = before ++ '\r' :: after ∧ p.through? d before = some q ∧ q ≠ .quoted ∧
      Slice.hasReturn d p before = false := by
  induction cs generalizing p with
  | nil => cases h
  | cons c cs ih =>
    by_cases hc : c = '\r' ∧ p ≠ .quoted
    · obtain ⟨rfl, hp⟩ := hc
      exact ⟨[], cs, p, rfl, rfl, hp, rfl⟩
    · have hhead : (c == '\r' && p != .quoted) = false := by simpa using hc
      rw [Slice.hasReturn, hhead, Bool.false_or] at h
      cases hnext : p.next? d c with
      | none =>
        rw [hnext] at h
        cases h
      | some p' =>
        rw [hnext, Option.any_some] at h
        obtain ⟨before, after, q, rfl, hq, hquoted, hnone⟩ := ih h
        refine ⟨c :: before, after, q, rfl, ?_, hquoted, ?_⟩
        · rw [Slice.Place.through?, hnext]
          exact hq
        · rw [Slice.hasReturn, hhead, hnext]
          exact hnone

/-- A part of a slice from outside quotes on, if it does not end in a return, is not all line breaks. -/
theorem exists_ne_of_through {p q : Slice.Place} {cs : List Char} (hp : p ≠ .quoted)
    (h : p.through? d cs = some q) (hne : cs ≠ []) (hlast : cs.getLast? ≠ some '\r') :
    ∃ c ∈ cs, c ≠ '\n' ∧ c ≠ '\r' := by
  induction cs generalizing p with
  | nil => exact absurd rfl hne
  | cons c cs ih =>
    rw [Slice.Place.through?, Option.bind_eq_some_iff] at h
    obtain ⟨p', hp', h⟩ := h
    have hfeed : c ≠ '\n' := fun hc => by
      rw [Slice.next?_eq_none_iff.2 ⟨hc, hp⟩] at hp'
      cases hp'
    by_cases hc : c = '\r'
    · subst hc
      have hp'' : p' ≠ .quoted := by
        rw [Slice.next?_of_ne hp (by decide) (by decide)] at hp'
        split_ifs at hp' <;> cases hp' <;> decide
      have hcs : cs ≠ [] := by
        rintro rfl
        exact hlast rfl
      rw [List.getLast?_cons_of_ne_nil hcs] at hlast
      obtain ⟨c, hc, hbreak⟩ := ih hp'' h hcs hlast
      exact ⟨c, List.mem_cons_of_mem _ hc, hbreak⟩
    · exact ⟨c, List.mem_cons_self, hfeed, hc⟩

/-- A slice with a return outside quotes that does not begin with it is more than one row. -/
theorem two_le_length_rows (hd : d ∈ separators) {cs : List Char} (h : Slice.Unbroken d cs)
    (hlast : cs.getLast? ≠ some '\r') (hhead : cs.head? ≠ some '\r')
    (hreturn : Slice.hasReturn d .cellStart cs = true) : 2 ≤ (rows (characterMarks d) cs).length := by
  have hm := distinct_characterMarks hd
  obtain ⟨before, after, q, rfl, hq, hquoted, hnone⟩ := exists_return hreturn
  have hne : before ≠ [] := by
    rintro rfl
    exact hhead rfl
  obtain ⟨current, cells, hread⟩ := rowsFrom_through (through_slice hm hne hq hnone) [] []
  have hrows : rows (characterMarks d) (before ++ '\r' :: after) =
      (current.reverse :: cells).reverse :: rowsFrom (characterMarks d) .afterReturn [] [] after :=
    (hread _).trans (rowsFrom_carriageReturn hm (isBetween_reader q) (reader_ne_quoted hquoted) _ _ after)
  -- what follows the return is more than line breaks, since the slice ends in none
  obtain ⟨p, hp⟩ := h
  rw [Slice.through?_append, hq, Option.bind_some] at hp
  have hlast' : ('\r' :: after).getLast? ≠ some '\r' := by
    rwa [List.getLast?_append_of_ne_nil _ (List.cons_ne_nil _ _)] at hlast
  obtain ⟨c, hc, hbreak⟩ := exists_ne_of_through hquoted hp (List.cons_ne_nil _ _) hlast'
  have hafter : c ∈ after := (List.mem_cons.1 hc).resolve_left hbreak.2
  have hmore := rowsFrom_ne_nil (m := characterMarks d) (p := .afterReturn) [] [] (.inr ⟨c, hafter, hbreak⟩)
  rw [hrows, List.length_cons]
  have := List.length_pos_iff.2 hmore
  omega

/-! ## Parsing -/

theorem readRows_eq (hd : d ∈ separators) {cs : List Char} (h : cs.head? ≠ some Text.byteOrderMark) :
    readRows d cs = (rows (characterMarks d) cs).map fun cells => some (cells.map String.ofList) := by
  have hmark : Text.dropMark cs = cs := by
    cases cs with
    | nil => rfl
    | cons c cs =>
      rw [Text.dropMark, if_neg]
      rintro rfl
      exact h rfl
  unfold readRows
  rw [hmark]
  exact if_pos (toNat_of_mem_separators hd)

/-- Rows that can all be read are no fault. -/
theorem readable_map_some (slices : List Slice) (table : List Row) :
    readable slices (table.map some) = .ok table := by
  induction table generalizing slices with
  | nil => rfl
  | cons row table ih =>
    rw [List.map_cons, readable, ih]
    rfl

theorem exists_readRows (hd : d ∈ separators) (cs : List Char) :
    ∃ table : List Row, readRows d cs = table.map some := by
  refine ⟨(rows (characterMarks d) (Text.dropMark cs)).map fun cells => cells.map String.ofList, ?_⟩
  unfold readRows
  dsimp only
  rw [if_pos (toNat_of_mem_separators hd), List.map_map]
  rfl

/-- For an ASCII delimiter parsing places the rows of the reader. -/
theorem parse_eq_ok (hd : d ∈ separators) {text : String} {table : List Row}
    (h : readRows d (body d text) = table.map some) :
    parse d text = .ok (place (Slice.all d text.toList) table) := by
  have hd' : d.toNat ≤ 0xFF := (toNat_of_mem_separators hd).le.trans (by decide)
  unfold parse
  rw [if_pos hd']
  show (readable (filledSlices d text) (readRows d (body d text))).map _ = _
  rw [h, readable_map_some]
  rfl

/-- Blank slices have empty rows. -/
theorem forall₂_place (slices : List Slice) (table : List Row) :
    List.Forall₂ (fun s row => s.isBlank = true → row = []) slices (place slices table) := by
  induction slices generalizing table with
  | nil => exact .nil
  | cons s slices ih =>
    rw [place]
    cases hblank : s.isBlank with
    | true => exact .cons (fun _ => rfl) (ih table)
    | false => exact .cons (fun h => absurd (hblank.symm.trans h) Bool.noConfusion) (ih table.tail)

/-- As many rows as there are slices that are not blank stand for these slices in turn. -/
theorem forall₂_place_filled {slices : List Slice} {table : List Row}
    (h : List.Forall₂ (IsRowOf d) (slices.filter fun s => !s.isBlank) table) :
    List.Forall₂ (fun s row => s.isBlank = false → IsRowOf d s row) slices (place slices table) ∧
      filledRows slices (place slices table) = table := by
  induction slices generalizing table with
  | nil =>
    cases h
    exact ⟨.nil, rfl⟩
  | cons s slices ih =>
    cases hblank : s.isBlank with
    | true =>
      rw [List.filter_cons_of_neg (by simp [hblank])] at h
      obtain ⟨hrows, hfilled⟩ := ih h
      rw [place, if_pos hblank]
      refine ⟨.cons (fun hf => absurd (hblank.symm.trans hf) Bool.noConfusion) hrows, ?_⟩
      simpa [filledRows, hblank] using hfilled
    | false =>
      rw [List.filter_cons_of_pos (by simp [hblank])] at h
      cases h with
      | cons hrow h =>
        obtain ⟨hrows, hfilled⟩ := ih h
        rw [place, if_neg (by simp [hblank])]
        refine ⟨.cons (fun _ => hrow) hrows, ?_⟩
        simpa [filledRows, hblank] using hfilled

/-- In step the rows of the reader are those of the slices that are not blank. -/
theorem rows_body (hd : d ∈ separators) {text : String} (h : InStep d text) :
    ∃ table : List Row, readRows d (body d text) = table.map some ∧
      List.Forall₂ (IsRowOf d) (filledSlices d text) table := by
  have hm := distinct_characterMarks hd
  have hne : ∀ s ∈ filledSlices d text, s.text ≠ [] := by
    intro s hs hnil
    have hblank := (List.mem_filter.1 hs).2
    rw [Slice.isBlank, hnil] at hblank
    cases hblank
  have hunbroken : ∀ s ∈ filledSlices d text, Slice.Unbroken d s.text :=
    fun s hs => Slice.unbroken_of_mem_all (List.mem_filter.1 hs).1
  have hclosed : ((filledSlices d text).map (·.text)).Pairwise
      fun t _ => IsClosedRow (characterMarks d) t := by
    have hslices := List.pairwise_map.1 (Slice.pairwise_closed_all d text.toList)
    refine List.pairwise_map.2 ((hslices.sublist List.filter_sublist).imp_of_mem fun {s _} hs _ hc => ?_)
    exact isClosedRow_of_closed hm (hne s hs) hc (h.returns s hs)
  have hread := rows_intercalate hm (List.forall_mem_map.2 fun s hs =>
    isRow_of_unbroken hm (hne s hs) (hunbroken s hs) (h.returns s hs)) hclosed
  refine ⟨(rows (characterMarks d) (body d text)).map fun cells => cells.map String.ofList, ?_, ?_⟩
  · rw [readRows_eq hd h.mark, List.map_map]
    rfl
  · rw [List.forall₂_map_right_iff]
    refine (List.forall₂_map_left_iff.1 hread).imp fun s r hr => ?_
    unfold IsRowOf
    rw [hr, List.map_map]
    simp [Function.comp_def]

/--
A text is parsed into one row for each slice, the blank slices giving empty rows. If no byte order mark is
dropped and no carriage return stands outside quotes, every other slice is one row for the reader, which
stands for it, and these are all the rows of the reader in their order. A slice with a return outside quotes
that does not begin with it is more than one row, so the reader has then a row too many.
-/
theorem parse_slicewise (d : Char) (text : String) (hd : d ∈ separators) :
    ∃ table, parse d text = .ok table ∧
      List.Forall₂ (fun s row => s.isBlank = true → row = []) (Slice.all d text.toList) table ∧
      (InStep d text →
        List.Forall₂ (fun s row => s.isBlank = false → IsRowOf d s row) (Slice.all d text.toList) table ∧
        readRows d (body d text) = (filledRows (Slice.all d text.toList) table).map some) ∧
      ∀ s ∈ filledSlices d text, s.text.head? ≠ some '\r' → Slice.hasReturn d .cellStart s.text = true →
        2 ≤ (rows (characterMarks d) s.text).length := by
  obtain ⟨table, htable⟩ := exists_readRows hd (body d text)
  refine ⟨_, parse_eq_ok hd htable, forall₂_place _ table, fun h => ?_, fun s hs hhead hreturn => ?_⟩
  · obtain ⟨table', htable', hrows⟩ := rows_body hd h
    have heq : table = table' := by
      rw [htable'] at htable
      exact (List.map_injective_iff.2 (fun _ _ => Option.some.inj) htable).symm
    subst heq
    obtain ⟨hplaced, hfilled⟩ := forall₂_place_filled hrows
    exact ⟨hplaced, by rw [hfilled]; exact htable⟩
  · have hmem := (List.mem_filter.1 hs).1
    exact two_le_length_rows hd (Slice.unbroken_of_mem_all hmem) (Slice.getLast?_of_mem_all hmem) hhead hreturn

/-- A line break within quotes, both styles of line ends, and a blank row. -/
theorem parse_slicewise_quoted :
    ';' ∈ separators ∧ InStep ';' "#tags;\"a\r\nb\"\r\n\r\n;x" ∧
      parse ';' "#tags;\"a\r\nb\"\r\n\r\n;x" = .ok [["#tags", "a\r\nb"], [], ["", "x"]] ∧
      readRows ';' (body ';' "#tags;\"a\r\nb\"\r\n\r\n;x") =
        [some ["#tags", "a\r\nb"], some ["", "x"]] := by
  have hd : ';' ∈ separators := by decide
  have h : InStep ';' "#tags;\"a\r\nb\"\r\n\r\n;x" := ⟨by decide, by decide⟩
  obtain ⟨table, htable, -, hstep, -⟩ := parse_slicewise ';' "#tags;\"a\r\nb\"\r\n\r\n;x" hd
  have heq : parse ';' "#tags;\"a\r\nb\"\r\n\r\n;x" = .ok [["#tags", "a\r\nb"], [], ["", "x"]] := by
    decide
  rw [heq] at htable
  cases htable
  exact ⟨hd, h, heq, (hstep h).2⟩

/-- A carriage return by itself ends a row of the reader but no slice, and the last row is lost. -/
example : (filledSlices ',' "a\rb\nc").map (·.text) = [['a', '\r', 'b'], ['c']] ∧
    readRows ',' (body ',' "a\rb\nc") = [some ["a"], some ["b"], some ["c"]] ∧
    parse ',' "a\rb\nc" = .ok [["a"], ["b"]] := by
  decide

end Delimited
end TagHarvest
