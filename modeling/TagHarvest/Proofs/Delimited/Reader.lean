/-
Laws of the reader of delimited rows, on any alphabet. Characters that end no row only add to the row at
hand, so a text through which no row ends is one row; and such texts, joined by line feeds, are read as one
row each, provided that only the last leaves a quote open.
-/
import TagHarvest.Delimited.Reader
import Mathlib.Data.List.Forall2

namespace TagHarvest.Delimited

variable {α : Type} [DecidableEq α] {m : Marks α}

/-- Marks that can be told apart. -/
structure Marks.Distinct (m : Marks α) : Prop where
  delimiter_ne_lineFeed : m.delimiter ≠ m.lineFeed
  delimiter_ne_carriageReturn : m.delimiter ≠ m.carriageReturn
  delimiter_ne_quote : m.delimiter ≠ m.quote
  quote_ne_lineFeed : m.quote ≠ m.lineFeed
  quote_ne_carriageReturn : m.quote ≠ m.carriageReturn
  lineFeed_ne_carriageReturn : m.lineFeed ≠ m.carriageReturn

/-- The place after characters none of which ends a row. -/
def Place.through? (m : Marks α) : Place → List α → Option Place
  | p, [] => some p
  | p, c :: cs =>
    match p.next m c with
    | (_, .endRow) => none
    | (p, _) => p.through? m cs

/-- A text that is one row: it has a character of the row, and no row ends in it. -/
def IsRow (m : Marks α) (cs : List α) : Prop :=
  ∃ p, Place.rowStart.through? m cs = some p ∧ p.isBetween = false

/-- A row that leaves no quote open. -/
def IsClosedRow (m : Marks α) (cs : List α) : Prop :=
  ∃ p, Place.rowStart.through? m cs = some p ∧ p.isBetween = false ∧ p ≠ .quoted

/-! ## Inside a row -/

/-- What is read without the end of a row is kept for the row at hand. -/
theorem rowsFrom_through {p q : Place} {cs : List α} (h : p.through? m cs = some q) (current : List α)
    (before : List (List α)) :
    ∃ current' before', ∀ rest,
      rowsFrom m p current before (cs ++ rest) = rowsFrom m q current' before' rest := by
  induction cs generalizing p current before with
  | nil =>
    cases h
    exact ⟨current, before, fun _ => rfl⟩
  | cons c cs ih =>
    rw [Place.through?] at h
    simp only [List.cons_append, rowsFrom]
    -- one case for each effect, of which only the end of a row is excluded
    cases hnext : p.next m c with
    | mk p' effect =>
      rw [hnext] at h
      cases effect with
      | skip => exact ih h current before
      | keep => exact ih h (c :: current) before
      | endCell => exact ih h [] (current.reverse :: before)
      | endRow => cases h

theorem rowsFrom_nil {p : Place} (h : p.isBetween = false) (current : List α) (before : List (List α)) :
    rowsFrom m p current before [] = [(current.reverse :: before).reverse] := by
  simp [rowsFrom, h]

/-- In a row and outside quotes all characters but the quote are read as in a cell without quotes. -/
theorem next_of_ne_quote {p : Place} (h : p.isBetween = false) (hq : p ≠ .quoted) {c : α}
    (hc : c ≠ m.quote) : p.next m c = inCell m c := by
  cases p with
  | rowStart => cases h
  | afterReturn => cases h
  | quoted => exact absurd rfl hq
  | cellStart => simp [Place.next, atCellStart, hc]
  | cell => rfl
  | quoteInQuoted => simp [Place.next, hc]

/-- A line feed ends the row that is at hand outside quotes. -/
theorem rowsFrom_lineFeed (hm : m.Distinct) {p : Place} (h : p.isBetween = false) (hq : p ≠ .quoted)
    (current : List α) (before : List (List α)) (rest : List α) :
    rowsFrom m p current before (m.lineFeed :: rest) =
      (current.reverse :: before).reverse :: rows m rest := by
  have hcell : inCell m m.lineFeed = (.rowStart, .endRow) := by
    simp [inCell, hm.delimiter_ne_lineFeed.symm]
  rw [rowsFrom, next_of_ne_quote h hq hm.quote_ne_lineFeed.symm, hcell]
  rfl

/-- So does a carriage return. -/
theorem rowsFrom_carriageReturn (hm : m.Distinct) {p : Place} (h : p.isBetween = false)
    (hq : p ≠ .quoted) (current : List α) (before : List (List α)) (rest : List α) :
    rowsFrom m p current before (m.carriageReturn :: rest) =
      (current.reverse :: before).reverse :: rowsFrom m .afterReturn [] [] rest := by
  have hcell : inCell m m.carriageReturn = (.afterReturn, .endRow) := by
    simp [inCell, hm.delimiter_ne_carriageReturn.symm, hm.lineFeed_ne_carriageReturn.symm]
  rw [rowsFrom, next_of_ne_quote h hq hm.quote_ne_carriageReturn.symm, hcell]

theorem rows_of_isRow {cs : List α} (h : IsRow m cs) : ∃ r, rows m cs = [r] := by
  obtain ⟨p, hp, hbetween⟩ := h
  obtain ⟨current, before, hread⟩ := rowsFrom_through hp [] []
  refine ⟨(current.reverse :: before).reverse, ?_⟩
  have hend := hread []
  rw [List.append_nil, rowsFrom_nil hbetween] at hend
  exact hend

/-- A row without an open quote that a line feed follows is read before the rest. -/
theorem rows_append_lineFeed (hm : m.Distinct) {cs : List α} (h : IsClosedRow m cs) (rest : List α) :
    rows m (cs ++ m.lineFeed :: rest) = rows m cs ++ rows m rest := by
  obtain ⟨p, hp, hbetween, hquoted⟩ := h
  obtain ⟨current, before, hread⟩ := rowsFrom_through hp [] []
  have hend : rows m cs = [(current.reverse :: before).reverse] := by
    have := hread []
    rw [List.append_nil, rowsFrom_nil hbetween] at this
    exact this
  rw [hend]
  exact (hread (m.lineFeed :: rest)).trans (rowsFrom_lineFeed hm hbetween hquoted current before rest)

/-! ## Rows after one another -/

/-- Texts of one row each, joined by line feeds, are read as these rows. -/
theorem rows_intercalate (hm : m.Distinct) {ts : List (List α)} (h : ∀ t ∈ ts, IsRow m t)
    (hclosed : ts.Pairwise fun t _ => IsClosedRow m t) :
    List.Forall₂ (fun t r => rows m t = [r]) ts (rows m ([m.lineFeed].intercalate ts)) := by
  induction ts with
  | nil => exact .nil
  | cons t ts ih =>
    obtain ⟨hfirst, hclosed⟩ := List.pairwise_cons.1 hclosed
    obtain ⟨r, hr⟩ := rows_of_isRow (h t List.mem_cons_self)
    cases ts with
    | nil =>
      rw [List.intercalate_singleton, hr]
      exact .cons hr .nil
    | cons t' ts =>
      have hrest := ih (fun t ht => h t (List.mem_cons_of_mem _ ht)) hclosed
      have hjoin : [m.lineFeed].intercalate (t :: t' :: ts) =
          t ++ m.lineFeed :: [m.lineFeed].intercalate (t' :: ts) := by
        rw [List.intercalate_cons_of_ne_nil (List.cons_ne_nil t' ts), List.append_assoc]
        rfl
      rw [hjoin, rows_append_lineFeed hm (hfirst t' List.mem_cons_self), hr]
      exact .cons hr hrest

/-! ## Between rows -/

theorem isBetween_inCell {c : α} (h : (inCell m c).1.isBetween = true) : (inCell m c).2 = .endRow := by
  unfold inCell at h ⊢
  split_ifs at h ⊢ <;> first | rfl | cases h

theorem isBetween_atCellStart {c : α} (h : (atCellStart m c).1.isBetween = true) :
    (atCellStart m c).2 = .endRow := by
  unfold atCellStart at h ⊢
  split_ifs at h ⊢
  · cases h
  · exact isBetween_inCell h

theorem isBetween_atRowStart {c : α} (h : (atRowStart m c).1.isBetween = true) :
    (atRowStart m c).2 = .endRow ∨ c = m.lineFeed ∨ c = m.carriageReturn := by
  unfold atRowStart at h ⊢
  split_ifs at h ⊢ with hc
  · exact .inr hc
  · exact .inl (isBetween_atCellStart h)

/-- The reader stands between rows only after the end of a row, or after a line break where it stood so. -/
theorem isBetween_next {p : Place} {c : α} (h : (p.next m c).1.isBetween = true) :
    (p.next m c).2 = .endRow ∨ p.isBetween = true ∧ (c = m.lineFeed ∨ c = m.carriageReturn) := by
  cases p with
  | rowStart => exact (isBetween_atRowStart h).imp_right (⟨rfl, ·⟩)
  | afterReturn =>
    simp only [Place.next] at h ⊢
    split_ifs at h ⊢ with hc
    · exact .inr ⟨rfl, .inl hc⟩
    · exact (isBetween_atRowStart h).imp_right (⟨rfl, ·⟩)
  | cellStart => exact .inl (isBetween_atCellStart h)
  | cell => exact .inl (isBetween_inCell h)
  | quoted =>
    simp only [Place.next] at h
    split_ifs at h <;> cases h
  | quoteInQuoted =>
    simp only [Place.next] at h ⊢
    split_ifs at h ⊢
    · cases h
    · exact .inl (isBetween_inCell h)

/-- Only line breaks are passed over without a row. -/
theorem rowsFrom_ne_nil {p : Place} {cs : List α} (current : List α) (before : List (List α))
    (h : p.isBetween = false ∨ ∃ c ∈ cs, c ≠ m.lineFeed ∧ c ≠ m.carriageReturn) :
    rowsFrom m p current before cs ≠ [] := by
  induction cs generalizing p current before with
  | nil =>
    rcases h with h | ⟨c, hc, -⟩
    · rw [rowsFrom_nil h]
      exact List.cons_ne_nil _ _
    · cases hc
  | cons c cs ih =>
    rw [rowsFrom]
    cases hnext : p.next m c with
    | mk q effect =>
      have hq : effect = .endRow ∨ q.isBetween = false ∨
          ∃ c ∈ cs, c ≠ m.lineFeed ∧ c ≠ m.carriageReturn := by
        cases hbetween : q.isBetween with
        | false => exact .inr (.inl rfl)
        | true =>
          have hstep := isBetween_next (m := m) (p := p) (c := c) (by rw [hnext]; exact hbetween)
          rw [hnext] at hstep
          rcases hstep with hend | ⟨hp, hc⟩
          · exact .inl hend
          · rcases h with h | ⟨c', hc', hne⟩
            · exact absurd (hp.symm.trans h) Bool.noConfusion
            · rcases List.mem_cons.1 hc' with rfl | hc'
              · exact absurd hc (not_or.2 hne)
              · exact .inr (.inr ⟨c', hc', hne⟩)
      cases effect with
      | skip => exact ih current before (hq.resolve_left nofun)
      | keep => exact ih (c :: current) before (hq.resolve_left nofun)
      | endCell => exact ih [] (current.reverse :: before) (hq.resolve_left nofun)
      | endRow => exact List.cons_ne_nil _ _

end TagHarvest.Delimited
