/-
Which rows become headers. A `#tags` row or a header shuts out all rows below it down to the next blank one,
so whether a row that fits is a header depends on the rows above it only as far as the last blank row. Read
row by row in this way, the search finds the same blocks.
-/
import TagHarvest.Proofs.Tagging.Block
import Mathlib.Data.List.DropRight

namespace TagHarvest

namespace Row

variable {row : Row}

theorem isBlank_of_isMarked {marker : String} (hmarker : marker ≠ "") (h : row.isMarked marker = true) :
    row.isBlank = false := by
  cases row with
  | nil => cases h
  | cons cell row =>
    refine Bool.eq_false_iff.2 fun hblank => hmarker ?_
    have hcell : Text.isBlankText cell = true := List.all_eq_true.1 hblank cell List.mem_cons_self
    have hdrop : Text.dropBlanks cell.toList = [] :=
      Text.dropBlanks_eq_nil_iff.2 (List.all_eq_true.1 hcell)
    have hbare : Token.leadingBare cell = marker := eq_of_beq h
    rw [← hbare]
    unfold Token.leadingBare
    rw [hdrop]
    rfl

theorem isBlank_of_isTags (h : row.isTags = true) : row.isBlank = false :=
  isBlank_of_isMarked (by decide) h

theorem isBlank_of_isIgnore (h : row.isIgnore = true) : row.isBlank = false :=
  isBlank_of_isMarked (by decide) h

theorem isTags_of_isIgnore (h : row.isIgnore = true) : row.isTags = false := by
  cases row with
  | nil => rfl
  | cons cell row =>
    have hbare : Token.leadingBare cell = "#ignore" := eq_of_beq h
    show (Token.leadingBare cell == "#tags") = false
    rw [hbare]
    decide

end Row

namespace Block

/-- The block of a header at an index, with the rows below it. -/
def ofHeader (index : Nat) (sources : List (Option ValueSource)) (below : List Row) : Block :=
  ⟨index, hasLabels below, (dataRows (afterLabels below)).length, sources⟩

/--
A block among the rows from an index on, as the search cuts it out: its labels are marked as such, and its data
rows go down to the end, or to a row that is blank or a `#tags` row.
-/
structure Covers (b : Block) (index : Nat) (above labels data rest : List Row) : Prop
    extends Stands b index above labels data where
  marked : labels = [] ∨ ∃ label tags : Row, labels = [label, tags] ∧ label.isIgnore = true ∧ tags.isTags = true
  unmarked : ∀ row ∈ data, row.isBlank = false ∧ row.isTags = false
  ending : ∀ row ∈ rest.head?, row.isBlank = true ∨ row.isTags = true

theorem Covers.isBlank {b : Block} {index : Nat} {above labels data rest : List Row}
    (h : b.Covers index above labels data rest) : ∀ row ∈ labels ++ data, row.isBlank = false := by
  intro row hrow
  rcases List.mem_append.1 hrow with hrow | hrow
  · rcases h.marked with rfl | ⟨label, tags, rfl, hlabel, htags⟩
    · cases hrow
    · rcases hrow with _ | ⟨_, (_ | ⟨_, ⟨⟩⟩)⟩
      · exact Row.isBlank_of_isIgnore hlabel
      · exact Row.isBlank_of_isTags htags
  · exact (h.unmarked row hrow).1

theorem exists_labels (below : List Row) :
    ∃ labels, below = labels ++ afterLabels below ∧ labels.length = (if hasLabels below then 2 else 0) ∧
      (labels = [] ∨ ∃ label tags : Row, labels = [label, tags] ∧ label.isIgnore = true ∧ tags.isTags = true) := by
  unfold afterLabels
  cases hlabels : hasLabels below with
  | false => exact ⟨[], rfl, rfl, .inl rfl⟩
  | true =>
    match below, hlabels with
    | label :: tags :: rest, hlabels =>
      obtain ⟨hignore, htags⟩ := Bool.and_eq_true_iff.1 hlabels
      exact ⟨[label, tags], rfl, rfl, .inr ⟨label, tags, rfl, hignore, htags⟩⟩

theorem covers_ofHeader (index : Nat) (above : List Row) (sources : List (Option ValueSource)) (below : List Row) :
    let b := ofHeader (index + above.length) sources below
    let rest := (afterLabels below).drop b.length
    ∃ labels data, below = labels ++ data ++ rest ∧ b.Covers index above labels data rest := by
  intro b rest
  have hparts : dataRows (afterLabels below) ++
      (afterLabels below).dropWhile (fun r => !r.isBlank && !r.isTags) = afterLabels below :=
    List.takeWhile_append_dropWhile
  have hrest : rest = (afterLabels below).dropWhile fun r => !r.isBlank && !r.isTags := by
    show (afterLabels below).drop (dataRows (afterLabels below)).length = _
    nth_rewrite 2 [← hparts]
    exact List.drop_left
  have hsplit : dataRows (afterLabels below) ++ rest = afterLabels below := by
    rw [hrest]
    exact hparts
  have hdata : ∀ row ∈ dataRows (afterLabels below), row.isBlank = false ∧ row.isTags = false := by
    intro row hrow
    have hrow := List.mem_takeWhile_imp hrow
    simp only [Bool.and_eq_true, Bool.not_eq_true'] at hrow
    exact hrow
  have hhead : ∀ row ∈ rest.head?, row.isBlank = true ∨ row.isTags = true := by
    intro row hrow
    have hstop := List.head?_dropWhile_not (fun r : Row => !r.isBlank && !r.isTags) (afterLabels below)
    rw [← hrest, Option.mem_def.1 hrow] at hstop
    cases hblank : row.isBlank
    · exact .inr (by simpa [hblank] using hstop)
    · exact .inl rfl
  obtain ⟨labels, hbelow, hlength, hmarked⟩ := exists_labels below
  have hstart : b.start = b.header + 1 + labels.length := by
    rw [hlength]
    show (if hasLabels below then b.header + 3 else b.header + 1) = _
    split <;> rfl
  exact ⟨labels, dataRows (afterLabels below), by rw [List.append_assoc, hsplit]; exact hbelow,
    ⟨rfl, hstart, rfl⟩, hmarked, hdata, hhead⟩

section

variable (finds : Pattern → String → Bool) (ds : List Description) (exclusion : Option HeaderTest)

/-- Whether headers are shut out below a row, from whether they are above it. -/
def shuts (shut : Bool) (row : Row) : Bool :=
  !row.isBlank && (shut || row.isTags || (candidate? finds ds exclusion row).isSome)

/-- The blocks among the rows from an index on, row by row. -/
def scan : (index : Nat) → (shut : Bool) → List Row → List Block
  | _, _, [] => []
  | index, shut, row :: below =>
    let lower := scan (index + 1) (shuts finds ds exclusion shut row) below
    if shut || row.isTags || row.isBlank then lower
    else match candidate? finds ds exclusion row with
    | none => lower
    | some sources => ofHeader index sources below :: lower

/-- A row that has the sources of a header, is no other kind of row and is not shut out from above. -/
structure Heads (shut : Bool) (above : List Row) (row : Row) (sources : List (Option ValueSource)) : Prop where
  unshut : above.foldl (shuts finds ds exclusion) shut = false
  isTags : row.isTags = false
  isBlank : row.isBlank = false
  candidate : candidate? finds ds exclusion row = some sources

end

variable {finds : Pattern → String → Bool} {ds : List Description} {exclusion : Option HeaderTest}

theorem scan_nonblank {covered : List Row} (h : ∀ row ∈ covered, row.isBlank = false) (index : Nat)
    (rest : List Row) :
    scan finds ds exclusion index true (covered ++ rest) =
      scan finds ds exclusion (index + covered.length) true rest := by
  induction covered generalizing index with
  | nil => rfl
  | cons row covered ih =>
    obtain ⟨hrow, hcovered⟩ := List.forall_mem_cons.1 h
    have hshut : shuts finds ds exclusion true row = true := by
      unfold shuts
      rw [hrow]
      rfl
    rw [List.cons_append, scan, hshut, Bool.true_or, Bool.true_or, if_pos rfl, ih hcovered, List.length_cons]
    congr 1
    omega

/-- In front of a blank row, a `#tags` row or the end it does not matter what is shut out. -/
theorem scan_congr {rest : List Row} (h : ∀ row ∈ rest.head?, row.isBlank = true ∨ row.isTags = true)
    (index : Nat) (shut shut' : Bool) :
    scan finds ds exclusion index shut rest = scan finds ds exclusion index shut' rest := by
  cases rest with
  | nil => rfl
  | cons row rest =>
    have hskipped : ∀ shut : Bool, (shut || row.isTags || row.isBlank) = true := by
      intro shut
      rcases h row rfl with hblank | htags
      · rw [hblank, Bool.or_true]
      · rw [htags, Bool.or_true, Bool.true_or]
    have hshuts : shuts finds ds exclusion shut row = shuts finds ds exclusion shut' row := by
      unfold shuts
      rcases h row rfl with hblank | htags
      · rw [hblank]
        rfl
      · rw [htags, Bool.or_true, Bool.or_true]
    rw [scan, scan, hskipped, hskipped, if_pos rfl, if_pos rfl, hshuts]

theorem find_eq_scan (index : Nat) (shut : Bool) (rows : List Row) :
    find finds ds exclusion index shut rows = scan finds ds exclusion index shut rows := by
  induction index, shut, rows using find.induct finds ds exclusion with
  | case1 index shut => rw [find, scan]
  | case2 index shut row below htags ih =>
    have hshuts : shuts finds ds exclusion shut row = true := by
      unfold shuts
      rw [Row.isBlank_of_isTags htags, htags, Bool.or_true]
      rfl
    rw [find, if_pos htags, scan, htags, Bool.or_true, Bool.true_or, if_pos rfl, hshuts, ih]
  | case3 index shut row below htags hblank ih =>
    have hshuts : shuts finds ds exclusion shut row = false := by
      unfold shuts
      rw [hblank]
      rfl
    rw [find, if_neg htags, if_pos hblank, scan, hblank, Bool.or_true, if_pos rfl, hshuts, ih]
  | case4 index shut row below htags hblank hnone ih =>
    rw [dite_eq_ite] at hnone
    rw [find, if_neg htags, if_neg hblank, hnone]
    simp only [Bool.not_eq_true] at htags hblank
    have hshuts : shuts finds ds exclusion shut row = shut := by
      unfold shuts
      rw [hblank, htags, Bool.or_false]
      cases shut
      · rw [if_neg Bool.false_ne_true] at hnone
        rw [hnone]
        rfl
      · rfl
    rw [scan, htags, hblank, hshuts, ih, Bool.or_false, Bool.or_false]
    cases shut
    · rw [if_neg Bool.false_ne_true] at hnone
      rw [if_neg Bool.false_ne_true, hnone]
    · rw [if_pos rfl]
  | case5 index shut row below htags hblank sources hsome under b ih =>
    rw [dite_eq_ite] at hsome
    rw [find, if_neg htags, if_neg hblank, hsome]
    obtain ⟨hshut, hsources⟩ := Option.ite_none_left_eq_some.1 hsome
    simp only [Bool.not_eq_true] at htags hblank hshut
    have hshuts : shuts finds ds exclusion shut row = true := by
      unfold shuts
      rw [hblank, hsources, Option.isSome_some, Bool.or_true]
      rfl
    obtain ⟨labels, data, hbelow, hcovers⟩ :
        ∃ labels data, below = labels ++ data ++ under.drop b.length ∧
          b.Covers index [] labels data (under.drop b.length) := covers_ofHeader index [] sources below
    have hstop : b.stop = index + 1 + (labels ++ data).length := by
      rw [hcovers.stop_eq, List.length_nil, List.length_append]
      omega
    have hlower : scan finds ds exclusion (index + 1) true below =
        scan finds ds exclusion b.stop false (under.drop b.length) := calc
      _ = scan finds ds exclusion (index + 1) true (labels ++ data ++ under.drop b.length) := by
        rw [← hbelow]
      _ = scan finds ds exclusion b.stop true (under.drop b.length) := by
        rw [scan_nonblank hcovers.isBlank, hstop]
      _ = scan finds ds exclusion b.stop false (under.drop b.length) := scan_congr hcovers.ending _ _ _
    rw [scan, hshuts, hshut, htags, hblank, hsources, hlower]
    exact congrArg (b :: ·) ih

theorem heads_nil_iff {shut : Bool} {row : Row} {sources : List (Option ValueSource)} :
    Heads finds ds exclusion shut [] row sources ↔
      shut = false ∧ row.isTags = false ∧ row.isBlank = false ∧
        candidate? finds ds exclusion row = some sources :=
  ⟨fun h => ⟨h.unshut, h.isTags, h.isBlank, h.candidate⟩, fun ⟨hshut, ht, hb, h⟩ => ⟨hshut, ht, hb, h⟩⟩

theorem heads_cons_iff {shut : Bool} {first row : Row} {above : List Row} {sources : List (Option ValueSource)} :
    Heads finds ds exclusion shut (first :: above) row sources ↔
      Heads finds ds exclusion (shuts finds ds exclusion shut first) above row sources :=
  ⟨fun h => ⟨h.unshut, h.isTags, h.isBlank, h.candidate⟩, fun h => ⟨h.unshut, h.isTags, h.isBlank, h.candidate⟩⟩

/-- The blocks are those of the rows that are headers where they stand. -/
theorem mem_find_iff {index : Nat} {shut : Bool} {rows : List Row} {b : Block} :
    b ∈ find finds ds exclusion index shut rows ↔
      ∃ above row below sources, rows = above ++ row :: below ∧
        Heads finds ds exclusion shut above row sources ∧ b = ofHeader (index + above.length) sources below := by
  rw [find_eq_scan]
  induction rows generalizing index shut with
  | nil =>
    refine ⟨nofun, ?_⟩
    rintro ⟨above, row, below, sources, hrows, -⟩
    cases above <;> cases hrows
  | cons row below ih =>
    have hstep : b ∈ scan finds ds exclusion index shut (row :: below) ↔
        (∃ sources, Heads finds ds exclusion shut [] row sources ∧ b = ofHeader index sources below) ∨
          b ∈ scan finds ds exclusion (index + 1) (shuts finds ds exclusion shut row) below := by
      simp only [heads_nil_iff]
      rw [scan]
      cases shut <;> cases row.isTags <;> cases row.isBlank <;>
        cases candidate? finds ds exclusion row <;> simp
    rw [hstep, ih]
    constructor
    · rintro (⟨sources, hheads, rfl⟩ | ⟨above, row', below', sources, rfl, hheads, rfl⟩)
      · exact ⟨[], row, below, sources, rfl, hheads, rfl⟩
      · refine ⟨row :: above, row', below', sources, rfl, heads_cons_iff.2 hheads, ?_⟩
        rw [List.length_cons, Nat.add_right_comm, Nat.add_assoc]
    · rintro ⟨above, row', below', sources, hrows, hheads, rfl⟩
      cases above with
      | nil =>
        cases hrows
        exact .inl ⟨sources, hheads, rfl⟩
      | cons first above =>
        cases hrows
        refine .inr ⟨above, row', below', sources, rfl, heads_cons_iff.1 hheads, ?_⟩
        rw [List.length_cons, Nat.add_right_comm, Nat.add_assoc]

/-! ## What the rows above shut out -/

theorem exists_last_blank (rows : List Row) :
    (∀ row ∈ rows, row.isBlank = false) ∨
      ∃ far blank near, rows = far ++ blank :: near ∧ blank.isBlank = true ∧ ∀ row ∈ near, row.isBlank = false := by
  induction rows with
  | nil => exact .inl nofun
  | cons row rows ih =>
    rcases ih with hnone | ⟨far, blank, near, rfl, hblank, hnear⟩
    · cases hrow : row.isBlank with
      | false => exact .inl (List.forall_mem_cons.2 ⟨hrow, hnone⟩)
      | true => exact .inr ⟨[], row, rows, rfl, hrow, hnone⟩
    · exact .inr ⟨row :: far, blank, near, rfl, hblank, hnear⟩

theorem foldl_shuts_of_blank {blank : Row} (hblank : blank.isBlank = true) (shut : Bool) (far near : List Row) :
    (far ++ blank :: near).foldl (shuts finds ds exclusion) shut = near.foldl (shuts finds ds exclusion) false := by
  rw [List.foldl_append, List.foldl_cons]
  congr 1
  unfold shuts
  rw [hblank]
  rfl

theorem foldl_shuts_of_nonblank {near : List Row} (hnear : ∀ row ∈ near, row.isBlank = false) (shut : Bool) :
    near.foldl (shuts finds ds exclusion) shut = false ↔
      shut = false ∧ ∀ row ∈ near, row.isTags = false ∧ candidate? finds ds exclusion row = none := by
  induction near generalizing shut with
  | nil => exact ⟨fun h => ⟨h, nofun⟩, And.left⟩
  | cons row near ih =>
    obtain ⟨hrow, hnear⟩ := List.forall_mem_cons.1 hnear
    have hshuts : shuts finds ds exclusion shut row = false ↔
        shut = false ∧ row.isTags = false ∧ candidate? finds ds exclusion row = none := by
      unfold shuts
      simp only [hrow, Bool.not_false, Bool.true_and, Bool.or_eq_false_iff, Option.isSome_eq_false_iff,
        Option.isNone_iff_eq_none, and_assoc]
    rw [List.foldl_cons, ih hnear, hshuts, List.forall_mem_cons, and_assoc]

/-- Nothing is shut out if there is neither a `#tags` row nor a header since the last blank row. -/
theorem foldl_shuts_eq_false_iff {rows : List Row} :
    rows.foldl (shuts finds ds exclusion) false = false ↔
      ∀ row ∈ rows.rtakeWhile (!·.isBlank), row.isTags = false ∧ candidate? finds ds exclusion row = none := by
  rcases exists_last_blank rows with hnone | ⟨far, blank, near, rfl, hblank, hnear⟩
  · have hall : rows.rtakeWhile (!·.isBlank) = rows :=
      List.rtakeWhile_eq_self_iff.2 fun row hrow => by rw [hnone row hrow]; rfl
    rw [hall, foldl_shuts_of_nonblank hnone, and_iff_right rfl]
  · have hlast : (far ++ blank :: near).rtakeWhile (!·.isBlank) = near := by
      have hreverse : ∀ row ∈ near.reverse, (!row.isBlank) = true :=
        fun row hrow => by rw [hnear row (List.mem_reverse.1 hrow)]; rfl
      unfold List.rtakeWhile
      rw [List.reverse_append, List.reverse_cons, List.append_assoc, List.takeWhile_append_of_pos hreverse,
        List.singleton_append, List.takeWhile_cons_of_neg (by rw [hblank]; exact Bool.false_ne_true),
        List.append_nil, List.reverse_reverse]
    rw [hlast, foldl_shuts_of_blank hblank, foldl_shuts_of_nonblank hnear, and_iff_right rfl]

/-! ## The rows around a block -/

theorem isIgnore_of_candidate? {row : Row} {sources : List (Option ValueSource)}
    (h : candidate? finds ds exclusion row = some sources) : row.isIgnore = false := by
  unfold candidate? at h
  have hneither := (Option.ite_none_left_eq_some.1 h).1
  simp only [Bool.or_eq_true, not_or, Bool.not_eq_true] at hneither
  exact hneither.1

section

variable {rows : List Row} {b : Block} (hb : b ∈ find finds ds exclusion 0 false rows)

include hb

theorem exists_of_mem_find :
    ∃ above row labels data rest, rows = above ++ row :: (labels ++ data ++ rest) ∧
      Heads finds ds exclusion false above row b.sources ∧ b.Covers 0 above labels data rest := by
  obtain ⟨above, row, below, sources, rfl, hheads, rfl⟩ := mem_find_iff.1 hb
  obtain ⟨labels, data, hbelow, hcovers⟩ := covers_ofHeader 0 above sources below
  exact ⟨above, row, labels, data, _, by rw [← hbelow], hheads, hcovers⟩

theorem heads_of_mem_find {above below : List Row} {row : Row} (hrows : rows = above ++ row :: below)
    (hheader : b.header = above.length) :
    Heads finds ds exclusion false above row b.sources ∧ b = ofHeader above.length b.sources below := by
  obtain ⟨above', row', below', sources, hrows', hheads, rfl⟩ := mem_find_iff.1 hb
  have hlength : above'.length = above.length := (Nat.zero_add _).symm.trans hheader
  obtain ⟨rfl, hbelow⟩ := List.append_inj (hrows'.symm.trans hrows) hlength
  cases hbelow
  exact ⟨hheads, by rw [Nat.zero_add]; rfl⟩

theorem candidate?_header_of_mem_find :
    ∃ row, rows[b.header]? = some row ∧ row.isTags = false ∧ candidate? finds ds exclusion row = some b.sources := by
  obtain ⟨above, row, labels, data, rest, rfl, hheads, hcovers⟩ := exists_of_mem_find hb
  refine ⟨row, ?_, hheads.isTags, hheads.candidate⟩
  rw [← hcovers.header_eq, Nat.zero_add, List.getElem?_append_right (Nat.le_refl _), Nat.sub_self]
  rfl

/-- No block covers a blank row. -/
theorem isBlank_of_mem_find {i : Nat} {row : Row} (hi : b.header ≤ i) (hi' : i < b.stop) (hrow : rows[i]? = some row) :
    row.isBlank = false := by
  obtain ⟨above, header, labels, data, rest, rfl, hheads, hcovers⟩ := exists_of_mem_find hb
  have hheader := hcovers.header_eq
  have hstop := hcovers.stop_eq
  rw [List.getElem?_append_right (by omega), ← List.cons_append,
    List.getElem?_append_left (by rw [List.length_cons, List.length_append]; omega)] at hrow
  rcases List.mem_cons.1 (List.mem_of_getElem? hrow) with rfl | hrow
  · exact hheads.isBlank
  · exact hcovers.isBlank row hrow

/-- No data row is a `#tags` row. -/
theorem isTags_of_mem_find {i : Nat} {row : Row} (hi : b.start ≤ i) (hi' : i < b.stop) (hrow : rows[i]? = some row) :
    row.isTags = false := by
  obtain ⟨above, header, labels, data, rest, rfl, -, hcovers⟩ := exists_of_mem_find hb
  have hheader := hcovers.header_eq
  have hstart := hcovers.start_eq
  have hstop := hcovers.stop_eq
  rw [List.getElem?_append_right (by omega), ← List.cons_append, ← List.cons_append,
    List.getElem?_append_left (by simp only [List.length_cons, List.length_append]; omega),
    List.getElem?_append_right (by rw [List.length_cons]; omega)] at hrow
  exact (hcovers.unmarked row (List.mem_of_getElem? hrow)).2

theorem ending_of_mem_find {row : Row} (hrow : rows[b.stop]? = some row) : row.isBlank = true ∨ row.isTags = true := by
  obtain ⟨above, header, labels, data, rest, rfl, -, hcovers⟩ := exists_of_mem_find hb
  have hlength : b.stop = (above ++ header :: (labels ++ data)).length := by
    rw [hcovers.stop_eq]
    simp only [List.length_append, List.length_cons]
    omega
  rw [← List.cons_append, ← List.append_assoc, hlength, List.getElem?_append_right (Nat.le_refl _), Nat.sub_self,
    ← List.head?_eq_getElem?] at hrow
  exact hcovers.ending row hrow

/-- A row below the header that is not one of the labels comes after them. -/
theorem start_le_of_mem_find {i : Nat} {row : Row} (hi : b.header < i) (hrow : rows[i]? = some row)
    (hignore : row.isIgnore = false) (htags : row.isTags = false) : b.start ≤ i := by
  obtain ⟨above, header, labels, data, rest, rfl, -, hcovers⟩ := exists_of_mem_find hb
  have hheader := hcovers.header_eq
  have hstart := hcovers.start_eq
  rw [Nat.zero_add] at hheader
  rcases hcovers.marked with rfl | ⟨label, tags, rfl, hlabel, hlabels⟩
  · rw [List.length_nil] at hstart
    omega
  · have hne₁ : i ≠ above.length + 1 := by
      rintro rfl
      rw [List.getElem?_append_right (by omega), Nat.add_sub_cancel_left] at hrow
      cases hrow
      exact Bool.noConfusion (hlabel.symm.trans hignore)
    have hne₂ : i ≠ above.length + 2 := by
      rintro rfl
      rw [List.getElem?_append_right (by omega), Nat.add_sub_cancel_left] at hrow
      cases hrow
      exact Bool.noConfusion (hlabels.symm.trans htags)
    have hstart : b.start = b.header + 1 + 2 := hstart
    omega

/-- A block that has the row above two labels among its data rows covers the first of them and ends at the second. -/
theorem stop_eq_of_mem_find {i : Nat} {label tags : Row} (hi : b.start ≤ i) (hi' : i < b.stop)
    (hlabel : rows[i + 1]? = some label) (hlabel' : label.isIgnore = true) (htags : rows[i + 2]? = some tags)
    (htags' : tags.isTags = true) : b.stop = i + 2 := by
  have hle : b.stop ≤ i + 2 := by
    by_contra hlt
    exact Bool.noConfusion (htags'.symm.trans (isTags_of_mem_find hb (by omega) (by omega) htags))
  have hne : b.stop ≠ i + 1 := by
    intro heq
    rcases ending_of_mem_find hb (heq ▸ hlabel) with hblank | htags
    · exact Bool.noConfusion (hblank.symm.trans (Row.isBlank_of_isIgnore hlabel'))
    · exact Bool.noConfusion (htags.symm.trans (Row.isTags_of_isIgnore hlabel'))
  omega

/-- Where nothing is shut out, the blocks above end at the last blank row. -/
theorem stop_le_of_mem_find {far near below : List Row} {blank : Row}
    (hrows : rows = far ++ blank :: (near ++ below)) (hblank : blank.isBlank = true)
    (hnear : ∀ row ∈ near, candidate? finds ds exclusion row = none)
    (hheader : b.header < far.length + 1 + near.length) : b.stop ≤ far.length := by
  by_contra hstop
  have hrow : rows[far.length]? = some blank := by
    rw [hrows, List.getElem?_append_right (Nat.le_refl _), Nat.sub_self]
    rfl
  by_cases hle : b.header ≤ far.length
  · have hcovered := isBlank_of_mem_find hb hle (by omega) hrow
    rw [hblank] at hcovered
    cases hcovered
  · obtain ⟨row, hrow, -, hcandidate⟩ := candidate?_header_of_mem_find hb
    have hindex : b.header = far.length + (b.header - far.length - 1 + 1) := by omega
    rw [hrows, hindex, List.getElem?_append_right (by omega), Nat.add_sub_cancel_left, List.getElem?_cons_succ,
      List.getElem?_append_left (by omega)] at hrow
    rw [hnear row (List.mem_of_getElem? hrow)] at hcandidate
    cases hcandidate

/--
Around a header that is shut out and its labels, a block ends above them, or it covers the header as a data
row and the labels down to the tags, or it comes after them.
-/
theorem around_of_mem_find {up down : List Row} {header label tags : Row}
    (hrows : rows = up ++ header :: label :: tags :: down)
    (hup : up.foldl (shuts finds ds exclusion) false = true) (hignore : header.isIgnore = false)
    (hheader : header.isTags = false) (hlabel : label.isIgnore = true) (htags : tags.isTags = true) :
    b.stop ≤ up.length ∨ (b.start ≤ up.length ∧ b.stop = up.length + 2) ∨ up.length + 2 < b.header := by
  have hrow : ∀ i, rows[up.length + i]? = (header :: label :: tags :: down)[i]? := by
    intro i
    rw [hrows, List.getElem?_append_right (by omega), Nat.add_sub_cancel_left]
  obtain ⟨row, hbheader, hrowTags, hcandidate⟩ := candidate?_header_of_mem_find hb
  have hne₀ : b.header ≠ up.length := by
    intro heq
    exact Bool.noConfusion (hup.symm.trans (heads_of_mem_find hb hrows heq).1.unshut)
  have hne₁ : b.header ≠ up.length + 1 := by
    intro heq
    obtain rfl := Option.some.inj ((heq ▸ hrow 1).symm.trans hbheader)
    exact Bool.noConfusion (hlabel.symm.trans (isIgnore_of_candidate? hcandidate))
  have hne₂ : b.header ≠ up.length + 2 := by
    intro heq
    obtain rfl := Option.some.inj ((heq ▸ hrow 2).symm.trans hbheader)
    exact Bool.noConfusion (htags.symm.trans hrowTags)
  by_cases hbelow : up.length + 2 < b.header
  · exact .inr (.inr hbelow)
  by_cases habove : b.stop ≤ up.length
  · exact .inl habove
  -- the header stands in the block, and not as one of its labels
  have hstart := start_le_of_mem_find hb (by omega) (hrow 0) hignore hheader
  exact .inr (.inl ⟨hstart, stop_eq_of_mem_find hb hstart (by omega) (hrow 1) hlabel (hrow 2) htags⟩)

end

end Block
end TagHarvest
