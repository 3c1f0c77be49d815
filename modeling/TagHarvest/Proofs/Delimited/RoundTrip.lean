/-
Grids written as delimited texts. Every cell is written in quotes, with its own quotes doubled, so that
delimiters, line breaks and blanks in it stand inside quotes; parsing gives back the grid, empty rows
included, and counting outside quotes finds the delimiter of a row of two or more cells.
-/
import TagHarvest.Delimited.Detect
import TagHarvest.Proofs.Delimited.Boundary
import TagHarvest.Proofs.Text.Cut

namespace TagHarvest.Delimited

/-- Characters as they are written in quotes. -/
def doubleQuotes (cs : List Char) : List Char := cs.flatMap fun c => if c = '"' then ['"', '"'] else [c]

/-- A cell in quotes. -/
def quoteCell (cell : String) : List Char := '"' :: doubleQuotes cell.toList ++ ['"']

/-- A row of cells in quotes. -/
def writeRow (d : Char) (row : Row) : List Char := [d].intercalate (row.map quoteCell)

/-- A grid with each row on a line of its own. -/
def write (d : Char) (grid : List Row) : String :=
  String.ofList (grid.flatMap fun row => writeRow d row ++ ['\n'])

variable {d : Char}

theorem writeRow_singleton (d : Char) (cell : String) : writeRow d [cell] = quoteCell cell :=
  List.intercalate_singleton

theorem writeRow_cons_cons (d : Char) (cell next : String) (row : Row) :
    writeRow d (cell :: next :: row) = quoteCell cell ++ d :: writeRow d (next :: row) := by
  unfold writeRow
  rw [List.map_cons, List.intercalate_cons_of_ne_nil (by simp), List.append_assoc]
  rfl

theorem head?_writeRow (d : Char) (cell : String) (row : Row) :
    (writeRow d (cell :: row)).head? = some '"' := by
  cases row with
  | nil => rw [writeRow_singleton]; rfl
  | cons next row => rw [writeRow_cons_cons]; rfl

theorem getLast?_writeRow (d : Char) (cell : String) (row : Row) :
    (writeRow d (cell :: row)).getLast? = some '"' := by
  induction row generalizing cell with
  | nil => rw [writeRow_singleton, quoteCell, List.getLast?_concat]
  | cons next row ih =>
    have hne : writeRow d (next :: row) ≠ [] := fun h => by
      have hhead := head?_writeRow d next row
      rw [h] at hhead
      cases hhead
    rw [writeRow_cons_cons, List.getLast?_append_of_ne_nil _ (List.cons_ne_nil _ _),
      List.getLast?_cons_of_ne_nil hne, ih next]

/-- A function that passes over two quotes and over all other characters passes over a cell in quotes. -/
theorem apply_doubleQuotes {β : Type} {f : List Char → β} (hquotes : ∀ cs, f ('"' :: '"' :: cs) = f cs)
    (hother : ∀ c cs, c ≠ '"' → f (c :: cs) = f cs) (cs rest : List Char) :
    f (doubleQuotes cs ++ rest) = f rest := by
  unfold doubleQuotes
  induction cs with
  | nil => rfl
  | cons c cs ih =>
    rw [List.flatMap_cons, List.append_assoc]
    by_cases hc : c = '"'
    · rw [if_pos hc]
      exact (hquotes _).trans ih
    · rw [if_neg hc]
      exact (hother c _ hc).trans ih

theorem quoteCell_append (cell : String) (rest : List Char) :
    quoteCell cell ++ rest = '"' :: (doubleQuotes cell.toList ++ '"' :: rest) := by
  unfold quoteCell
  rw [List.cons_append, List.cons_append, List.append_assoc]
  rfl

/-! ## Slicing what is written -/

/-- Slicing goes through a cell in quotes. -/
theorem through?_quoteCell (d : Char) (cell : String) (rest : List Char) :
    Slice.Place.cellStart.through? d (quoteCell cell ++ rest) = Slice.Place.quoteInQuoted.through? d rest := by
  rw [quoteCell_append]
  refine apply_doubleQuotes (f := Slice.Place.quoted.through? d) (fun _ => rfl) (fun c cs hc => ?_) _ _
  rw [Slice.Place.through?, Slice.next?_quoted hc, Option.bind_some]

/-- No return of a cell stands outside quotes. -/
theorem hasReturn_quoteCell (d : Char) (cell : String) (rest : List Char) :
    Slice.hasReturn d .cellStart (quoteCell cell ++ rest) = Slice.hasReturn d .quoteInQuoted rest := by
  rw [quoteCell_append]
  refine apply_doubleQuotes (f := Slice.hasReturn d .quoted) (fun _ => rfl) (fun c cs hc => ?_) _ _
  rw [Slice.hasReturn, Slice.next?_quoted hc, Option.any_some, bne_self_eq_false, Bool.and_false, Bool.false_or]

/-- Outside quotes the delimiter begins the next cell. -/
theorem next?_delimiter (hm : (characterMarks d).Distinct) :
    Slice.Place.quoteInQuoted.next? d d = some .cellStart := by
  have hquote : d ≠ '"' := hm.delimiter_ne_quote
  have hfeed : d ≠ '\n' := hm.delimiter_ne_lineFeed
  rw [Slice.next?_of_ne Slice.Place.noConfusion hquote hfeed, if_pos rfl]

theorem through?_writeRow (hm : (characterMarks d).Distinct) (cell : String) (row : Row) :
    Slice.Place.cellStart.through? d (writeRow d (cell :: row)) = some .quoteInQuoted := by
  induction row generalizing cell with
  | nil =>
    rw [writeRow_singleton, ← List.append_nil (quoteCell cell), through?_quoteCell]
    rfl
  | cons next row ih =>
    rw [writeRow_cons_cons, through?_quoteCell, Slice.Place.through?, next?_delimiter hm]
    exact ih next

theorem hasReturn_writeRow (hm : (characterMarks d).Distinct) (row : Row) :
    Slice.hasReturn d .cellStart (writeRow d row) = false := by
  cases row with
  | nil => rfl
  | cons cell row =>
    induction row generalizing cell with
    | nil =>
      rw [writeRow_singleton, ← List.append_nil (quoteCell cell), hasReturn_quoteCell]
      rfl
    | cons next row ih =>
      have hne : (d == '\r') = false := beq_eq_false_iff_ne.2 hm.delimiter_ne_carriageReturn
      rw [writeRow_cons_cons, hasReturn_quoteCell, Slice.hasReturn, next?_delimiter hm, hne,
        Bool.false_and, Bool.false_or]
      exact ih next

theorem closed_writeRow (hm : (characterMarks d).Distinct) (row : Row) :
    Slice.Closed d (writeRow d row) := by
  cases row with
  | nil => exact ⟨.cellStart, rfl, nofun⟩
  | cons cell row => exact ⟨.quoteInQuoted, through?_writeRow hm cell row, nofun⟩

theorem trimReturns_writeRow (d : Char) (row : Row) : Slice.trimReturns (writeRow d row) = writeRow d row := by
  apply Slice.trimReturns_of_getLast?
  cases row with
  | nil => exact nofun
  | cons cell row =>
    rw [getLast?_writeRow]
    decide

/-- Only an empty row is written as a blank slice. -/
theorem all_isBlank_writeRow (d : Char) (row : Row) : (writeRow d row).all Text.isBlank = true ↔ row = [] := by
  cases row with
  | nil => exact iff_of_true rfl rfl
  | cons cell row =>
    refine iff_of_false (fun h => ?_) (List.cons_ne_nil _ _)
    have hquote := List.all_eq_true.1 h '"' (List.mem_of_mem_head? (head?_writeRow d cell row))
    exact absurd hquote (by decide)

/-- The slices are the rows as they are written. -/
theorem map_text_write (hm : (characterMarks d).Distinct) (grid : List Row) :
    (Slice.all d (write d grid).toList).map (·.text) = grid.map (writeRow d) := by
  have hcut : ∀ rows : List Row, Slice.cut d .cellStart []
      (rows.flatMap fun row => writeRow d row ++ ['\n']) = rows.map (writeRow d) := by
    intro rows
    induction rows with
    | nil => rfl
    | cons row rows ih =>
      rw [List.flatMap_cons, List.append_assoc, List.singleton_append,
        Slice.cut_append_lineFeed (closed_writeRow hm row), ih, List.map_cons]
  rw [Slice.map_text_all, write, String.toList_ofList, hcut, List.map_map]
  exact List.map_congr_left fun row _ => trimReturns_writeRow d row

/-- A slice of what is written is one of its rows. -/
theorem exists_row_of_mem_all (hm : (characterMarks d).Distinct) {grid : List Row} {s : Slice}
    (h : s ∈ Slice.all d (write d grid).toList) : ∃ row ∈ grid, writeRow d row = s.text := by
  have hmem : s.text ∈ (Slice.all d (write d grid).toList).map (·.text) := List.mem_map_of_mem h
  rw [map_text_write hm] at hmem
  exact List.mem_map.1 hmem

/-! ## Reading what is written -/

/-- A cell in quotes is read as it was. -/
theorem rowsFrom_quoteCell {p : Place} (hp : p = .rowStart ∨ p = .cellStart)
    (cell : String) (before : List (List Char)) (rest : List Char) :
    rowsFrom (characterMarks d) p [] before (quoteCell cell ++ rest) =
      rowsFrom (characterMarks d) .quoteInQuoted cell.toList.reverse before rest := by
  have hinner : ∀ cs current, rowsFrom (characterMarks d) .quoted current before
      (doubleQuotes cs ++ '"' :: rest) =
        rowsFrom (characterMarks d) .quoteInQuoted (cs.reverse ++ current) before rest := by
    intro cs
    unfold doubleQuotes
    induction cs with
    | nil => exact fun _ => rfl
    | cons c cs ih =>
      intro current
      rw [List.flatMap_cons, List.append_assoc, List.reverse_cons, List.append_assoc]
      by_cases hc : c = '"'
      · subst hc
        exact ih ('"' :: current)
      · rw [if_neg hc, List.singleton_append, rowsFrom]
        have hkeep : Place.quoted.next (characterMarks d) c = (.quoted, .keep) := if_neg hc
        rw [hkeep]
        exact ih (c :: current)
  have hopen : p.next (characterMarks d) '"' = (.quoted, .skip) := by
    rcases hp with rfl | rfl <;> rfl
  rw [quoteCell_append, rowsFrom, hopen]
  refine (hinner cell.toList []).trans ?_
  rw [List.append_nil]

theorem rowsFrom_writeRow (hm : (characterMarks d).Distinct) {p : Place} (hp : p = .rowStart ∨ p = .cellStart)
    (cell : String) (row : Row) (before : List (List Char)) :
    rowsFrom (characterMarks d) p [] before (writeRow d (cell :: row)) =
      [before.reverse ++ (cell :: row).map String.toList] := by
  induction row generalizing p cell before with
  | nil =>
    rw [writeRow_singleton, ← List.append_nil (quoteCell cell), rowsFrom_quoteCell hp, rowsFrom_nil rfl]
    simp
  | cons next row ih =>
    have hend : Place.quoteInQuoted.next (characterMarks d) d = (.cellStart, .endCell) := by
      have hquote : d ≠ (characterMarks d).quote := hm.delimiter_ne_quote
      rw [next_of_ne_quote rfl Place.noConfusion hquote]
      exact if_pos rfl
    rw [writeRow_cons_cons, rowsFrom_quoteCell hp, rowsFrom, hend]
    refine (ih (.inr rfl) next _).trans ?_
    simp

theorem rows_writeRow (hm : (characterMarks d).Distinct) {row : Row} (hne : row ≠ []) :
    rows (characterMarks d) (writeRow d row) = [row.map String.toList] := by
  cases row with
  | nil => exact absurd rfl hne
  | cons cell row => exact rowsFrom_writeRow hm (.inl rfl) cell row []

/-- A slice that is not blank begins with the quote of its first cell. -/
theorem head?_of_mem_filledSlices (hm : (characterMarks d).Distinct) {grid : List Row} {s : Slice}
    (h : s ∈ filledSlices d (write d grid)) : s.text.head? = some '"' := by
  obtain ⟨hmem, hfilled⟩ := List.mem_filter.1 h
  obtain ⟨row, -, hrow⟩ := exists_row_of_mem_all hm hmem
  rw [Slice.isBlank] at hfilled
  rw [← hrow] at hfilled ⊢
  cases row with
  | nil => cases hfilled
  | cons cell row => exact head?_writeRow d cell row

/-- What is written is sliced and read in step. -/
theorem inStep_write (hm : (characterMarks d).Distinct) (grid : List Row) : InStep d (write d grid) where
  mark := by
    have hhead : ∀ s ∈ filledSlices d (write d grid), s.text.head? = some '"' :=
      fun _ hs => head?_of_mem_filledSlices hm hs
    unfold body
    cases hslices : filledSlices d (write d grid) with
    | nil => exact nofun
    | cons s slices =>
      rw [hslices] at hhead
      have hs := hhead s List.mem_cons_self
      -- one slice is the text to be read itself, and of more of them the first stands in front
      cases slices with
      | nil =>
        rw [List.map_singleton, List.intercalate_singleton, hs]
        decide
      | cons _ _ =>
        rw [List.map_cons, List.intercalate_cons_of_ne_nil (by simp), List.append_assoc, List.head?_append, hs,
          Option.some_or]
        decide
  returns s hs := by
    obtain ⟨row, -, hrow⟩ := exists_row_of_mem_all hm (List.mem_filter.1 hs).1
    rw [← hrow]
    exact hasReturn_writeRow hm row

/-- A row that stands for the slice of a written row is this row. -/
theorem eq_of_isRowOf (hm : (characterMarks d).Distinct) {s : Slice} {written row : Row}
    (hwritten : writeRow d written = s.text) (hblank : s.isBlank = true → row = [])
    (hfilled : s.isBlank = false → IsRowOf d s row) : written = row := by
  rw [Slice.isBlank, ← hwritten] at hblank hfilled
  by_cases hnil : written = []
  · rw [hnil, hblank ((all_isBlank_writeRow d written).2 hnil)]
  · have hrow := hfilled (Bool.eq_false_iff.2 fun h => hnil ((all_isBlank_writeRow d written).1 h))
    rw [IsRowOf, ← hwritten, rows_writeRow hm hnil] at hrow
    exact List.map_injective_iff.2 (fun _ _ => String.toList_inj.1) (List.cons.inj hrow).1

theorem parse_write (hd : d ∈ separators) (grid : List Row) : parse d (write d grid) = .ok grid := by
  have hm := distinct_characterMarks hd
  obtain ⟨table, htable, hrows⟩ := rows_body hd (inStep_write hm grid)
  rw [parse_eq_ok hd htable]
  have hblank := forall₂_place (Slice.all d (write d grid).toList) table
  have hfilled := (forall₂_place_filled hrows).1
  have hplaced : List.Forall₂ (fun s row => ∀ written, writeRow d written = s.text → written = row)
      (Slice.all d (write d grid).toList) (place (Slice.all d (write d grid).toList) table) := by
    rw [List.forall₂_iff_zip] at hblank hfilled ⊢
    exact ⟨hblank.1, fun hmem _ hwritten => eq_of_isRowOf hm hwritten (hblank.2 hmem) (hfilled.2 hmem)⟩
  -- the slices are the rows of the grid as they are written
  rw [← List.forall₂_map_left_iff (f := fun s : Slice => s.text)
    (R := fun t row => ∀ written, writeRow d written = t → written = row), map_text_write hm grid,
    List.forall₂_map_left_iff] at hplaced
  have heq : List.Forall₂ Eq grid _ := hplaced.imp fun written _ h => h written rfl
  rw [List.forall₂_eq_eq_eq] at heq
  rw [← heq]

/-! ## Detecting the delimiter -/

/-- Nothing of a cell in quotes stands outside them. -/
theorem outsideQuotes_quoteCell (cell : String) (rest : List Char) :
    outsideQuotes false (quoteCell cell ++ rest) = outsideQuotes false rest := by
  rw [quoteCell_append]
  refine apply_doubleQuotes (f := outsideQuotes true) (fun _ => rfl) (fun c cs hc => ?_) _ _
  rw [outsideQuotes, if_neg hc, if_pos rfl]

/-- What stands outside quotes in a row is the delimiters between its cells. -/
theorem outsideQuotes_writeRow (hm : (characterMarks d).Distinct) (cell : String) (row : Row) :
    outsideQuotes false (writeRow d (cell :: row)) = List.replicate row.length d := by
  induction row generalizing cell with
  | nil =>
    rw [writeRow_singleton, ← List.append_nil (quoteCell cell), outsideQuotes_quoteCell]
    rfl
  | cons next row ih =>
    have hquote : d ≠ '"' := hm.delimiter_ne_quote
    rw [writeRow_cons_cons, outsideQuotes_quoteCell, outsideQuotes, if_neg hquote, ih next]
    rfl

theorem mostFrequent_replicate (hd : d ∈ separators) {n : Nat} (hn : 0 < n) :
    mostFrequent (List.replicate n d) ',' separators = d := by
  simp only [separators, List.mem_cons, List.not_mem_nil, or_false] at hd
  rcases hd with rfl | rfl | rfl | rfl <;> simp [mostFrequent, separators, List.count_replicate, hn]

theorem lineFeed_not_mem_writeRow (hm : (characterMarks d).Distinct) {row : Row}
    (h : ∀ cell ∈ row, '\n' ∉ cell.toList) : '\n' ∉ writeRow d row := by
  have hcell : ∀ cell : String, '\n' ∉ cell.toList → '\n' ∉ quoteCell cell := by
    intro cell hcell
    simp only [quoteCell, doubleQuotes, List.cons_append, List.mem_cons, List.mem_append,
      List.mem_flatMap, not_or, not_exists, not_and]
    refine ⟨by decide, fun c hc => ?_, by decide⟩
    split
    · decide
    · exact fun hmem => hcell (List.mem_singleton.1 hmem ▸ hc)
  cases row with
  | nil => exact List.not_mem_nil
  | cons cell row =>
    induction row generalizing cell with
    | nil =>
      rw [writeRow_singleton]
      exact hcell cell (h cell List.mem_cons_self)
    | cons next row ih =>
      have hfeed : '\n' ≠ d := hm.delimiter_ne_lineFeed.symm
      rw [writeRow_cons_cons, List.mem_append, List.mem_cons, not_or, not_or]
      exact ⟨hcell cell (h cell List.mem_cons_self), hfeed,
        ih next fun cell hmem => h cell (List.mem_cons_of_mem _ hmem)⟩

/-- The first line that is not blank is the first row that is not empty, if it is one line. -/
theorem firstLine_write (hm : (characterMarks d).Distinct) {grid : List Row} {row : Row}
    (hfirst : grid.find? (fun row => !row.isEmpty) = some row) (h : ∀ cell ∈ row, '\n' ∉ cell.toList) :
    firstLine (write d grid).toList = writeRow d row := by
  unfold firstLine write
  rw [String.toList_ofList]
  induction grid with
  | nil => cases hfirst
  | cons first grid ih =>
    rw [List.flatMap_cons, List.append_assoc, List.singleton_append]
    cases hempty : first.isEmpty with
    | true =>
      rw [List.find?_cons_of_neg (by simp [hempty])] at hfirst
      rw [List.isEmpty_iff.1 hempty]
      have hblank : writeRow d [] = [] := rfl
      rw [hblank, Text.pieces_append List.not_mem_nil, List.find?_cons_of_neg (by decide)]
      exact ih hfirst
    | false =>
      rw [List.find?_cons_of_pos (by simp [hempty])] at hfirst
      cases hfirst
      have hfilled : (writeRow d row).all Text.isBlank = false :=
        Bool.eq_false_iff.2 fun hblank => by
          rw [(all_isBlank_writeRow d row).1 hblank] at hempty
          cases hempty
      rw [Text.pieces_append (lineFeed_not_mem_writeRow hm h), List.find?_cons_of_pos (by rw [hfilled]; rfl)]
      rfl

theorem detect_write (hd : d ∈ separators) {grid : List Row} {row : Row}
    (hfirst : grid.find? (fun row => !row.isEmpty) = some row) (hcells : 2 ≤ row.length)
    (h : ∀ cell ∈ row, '\n' ∉ cell.toList) : detect (write d grid) = d := by
  have hm := distinct_characterMarks hd
  unfold detect
  rw [firstLine_write hm hfirst h]
  cases row with
  | nil => cases hcells
  | cons cell row =>
    rw [outsideQuotes_writeRow hm]
    exact mostFrequent_replicate hd (Nat.le_of_succ_le_succ hcells)

/--
Parsing a written grid gives back the grid. If its first row that is not empty has two or more cells, none
with a line break, the delimiter is detected as well.
-/
theorem parse_write_detect (d : Char) (hd : d ∈ separators) (grid : List Row) :
    parse d (write d grid) = .ok grid ∧
      ∀ row, grid.find? (fun row => !row.isEmpty) = some row → 2 ≤ row.length →
        (∀ cell ∈ row, '\n' ∉ cell.toList) → detect (write d grid) = d :=
  ⟨parse_write hd grid, fun _ hfirst hcells h => detect_write hd hfirst hcells h⟩

/-- Cells with the delimiter, quotes, breaks, blanks and nothing in them, between empty rows. -/
theorem parse_write_detect_mixed :
    ';' ∈ separators ∧
      parse ';' (write ';' [[], ["a;b", "say \"hi\"", ""], [], [" "], ["x\r\ny", "\r"], []]) =
        .ok [[], ["a;b", "say \"hi\"", ""], [], [" "], ["x\r\ny", "\r"], []] ∧
      detect (write ';' [[], ["a;b", "say \"hi\"", ""], [], [" "], ["x\r\ny", "\r"], []]) = ';' := by
  have hd : ';' ∈ separators := by decide
  have h := parse_write_detect ';' hd [[], ["a;b", "say \"hi\"", ""], [], [" "], ["x\r\ny", "\r"], []]
  exact ⟨hd, h.1, h.2 ["a;b", "say \"hi\"", ""] rfl (by decide) (by decide)⟩

end TagHarvest.Delimited
