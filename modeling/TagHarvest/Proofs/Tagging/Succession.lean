/-
Two groups at one header. The second finds the labels that the first has put below it and continues them, so
that one `#tags` row carries the tags of both, unless the rows that the first puts in above the header shut it
out from being a header again.
-/
import TagHarvest.Proofs.Tagging.Columns
import TagHarvest.Proofs.Tagging.Layout
import TagHarvest.Proofs.Tagging.Scope

namespace TagHarvest

theorem Row.isMarked_of_prefix {marker : String} {row image : Row} (h : row <+: image)
    (hmarked : row.isMarked marker = true) : image.isMarked marker = true := by
  obtain ⟨cells, rfl⟩ := h
  cases row with
  | nil => cases hmarked
  | cons cell row => exact hmarked

namespace Block.Stacked

variable {limit index : Nat} {upper lower : List Block} {b : Block}
  (h : Stacked limit index (upper ++ b :: lower))

include h

theorem header_lt_of_upper : ∀ c ∈ upper, c.header < b.header := by
  induction upper generalizing index with
  | nil => nofun
  | cons c upper ih =>
    obtain ⟨-, -, h⟩ := h
    rintro c' (_ | ⟨_, hc'⟩)
    · have hle := h.le_header b (List.mem_append_right _ List.mem_cons_self)
      have hlt := c.header_lt_start
      have hstop : c.stop = c.start + c.length := rfl
      omega
    · exact ih h c' hc'

theorem upper_eq_nil_iff : upper = [] ↔ ∀ c ∈ upper ++ b :: lower, b.header ≤ c.header := by
  constructor
  · rintro rfl c hc
    have hb : Stacked limit b.header (b :: lower) := ⟨Nat.le_refl _, h.2⟩
    exact hb.le_header c hc
  · intro hall
    refine List.eq_nil_iff_forall_not_mem.2 fun c hc => ?_
    have hle := hall c (List.mem_append_left _ hc)
    have hlt := h.header_lt_of_upper c hc
    omega

end Block.Stacked

namespace Tagging

section

variable [PatternSyntax] (finds : Pattern → String → Bool)

/-- The tests that the texts of a group stand for. -/
def Compiles (g : TaggingGroup) (ds : List Description) (exclusion : Option HeaderTest) : Prop :=
  g.descriptions.mapM Description.compile = .ok ds ∧ g.exclusion.mapM HeaderTest.ofText = .ok exclusion

/-- The blocks that a group finds when it is applied to a worksheet, if its texts can be read. -/
def blocks (g : TaggingGroup) (sheet : Worksheet) : List Block :=
  match g.descriptions.mapM Description.compile, g.exclusion.mapM HeaderTest.ofText with
  | .ok ds, .ok exclusion => Block.find finds ds exclusion 0 false sheet.rows
  | _, _ => []

/-- True of a row that a group takes for a header wherever it is not shut out. -/
def fits (g : TaggingGroup) (row : Row) : Bool :=
  match g.descriptions.mapM Description.compile, g.exclusion.mapM HeaderTest.ofText with
  | .ok ds, .ok exclusion => (Block.candidate? finds ds exclusion row).isSome
  | _, _ => false

/--
The rows that one group puts in above a header, if it does so above this one, have after their last blank row
neither a `#tags` row nor one that another group takes for a header.
-/
def LeavesClear (g g' : TaggingGroup) (sheet : Worksheet) (header : Nat) : Prop :=
  (g.insertMultiple = true ∨ ∀ b ∈ blocks finds g sheet, header ≤ b.header) →
    ∀ row ∈ g.insert.rtakeWhile (fun row : Row => !row.isBlank), Row.isTags row = false ∧ fits finds g' row = false

instance instDecidableLeavesClear (g g' : TaggingGroup) (sheet : Worksheet) (header : Nat) :
    Decidable (LeavesClear finds g g' sheet header) :=
  inferInstanceAs (Decidable (_ → _))

end

/-- A `#tags` row carries the tag of each description that has a source, in columns from a width on. -/
def Carries (g : TaggingGroup) (sources : List (Option ValueSource)) (width : Nat) (tags : Row) : Prop :=
  ∀ i d source, g.descriptions[i]? = some d → sources[i]? = some (some source) →
    tags[width + i]? = some d.tag

/-- Rows that others have grown to, with labels below the row that stood at an index. -/
structure Labelled (rows : List Row) (index : Nat) (above : List Row) (image labels tags : Row)
    (below : List Row) : Prop where
  above_grown : ∃ n, Grown n (rows.take index) above
  header_prefix : rows[index]?.getD [] <+: image
  below_grown : ∃ n, Grown n (rows.drop (index + 1)) (labels :: tags :: below)
  isIgnore : labels.isIgnore = true
  isTags : tags.isTags = true

variable {finds : Pattern → String → Bool}

section

variable [PatternSyntax]

theorem exists_compiles_of_mem_blocks {g : TaggingGroup} {sheet : Worksheet} {b : Block}
    (hb : b ∈ blocks finds g sheet) : ∃ ds exclusion, Compiles g ds exclusion := by
  unfold blocks at hb
  split at hb
  · rename_i ds exclusion hds hexclusion
    exact ⟨ds, exclusion, hds, hexclusion⟩
  · cases hb

theorem Compiles.blocks_eq {g : TaggingGroup} {ds : List Description} {exclusion : Option HeaderTest}
    (h : Compiles g ds exclusion) (sheet : Worksheet) :
    blocks finds g sheet = Block.find finds ds exclusion 0 false sheet.rows := by
  unfold blocks
  rw [h.1, h.2]

theorem Compiles.fits_eq {g : TaggingGroup} {ds : List Description} {exclusion : Option HeaderTest}
    (h : Compiles g ds exclusion) (row : Row) :
    fits finds g row = (Block.candidate? finds ds exclusion row).isSome := by
  unfold fits
  rw [h.1, h.2]

end

theorem Labelled.trans {rows rows' : List Row} {index : Nat} {above above' below below' : List Row}
    {image image' labels labels' tags tags' : Row} (h : Labelled rows index above image labels tags below)
    (hrows : rows' = above ++ image :: labels :: tags :: below)
    (h' : Labelled rows' above.length above' image' labels' tags' below') :
    Labelled rows index above' image' labels' tags' below' := by
  obtain ⟨n, habove⟩ := h.above_grown
  obtain ⟨n', habove'⟩ := h'.above_grown
  obtain ⟨m, hbelow⟩ := h.below_grown
  obtain ⟨m', hbelow'⟩ := h'.below_grown
  have himage := h'.header_prefix
  rw [hrows, List.take_left] at habove'
  rw [hrows, List.drop_append, List.drop_eq_nil_of_le (by omega), Nat.add_sub_cancel_left] at hbelow'
  rw [hrows, List.getElem?_append_right (Nat.le_refl _), Nat.sub_self] at himage
  exact ⟨⟨_, habove.trans habove'⟩, h.header_prefix.trans himage, ⟨_, hbelow.trans hbelow'⟩, h'.isIgnore, h'.isTags⟩

/-! ## Tags -/

theorem carries_extendRow [PatternSyntax] {g : TaggingGroup} {ds : List Description}
    (hds : g.descriptions.mapM Description.compile = .ok ds) (sources : List (Option ValueSource)) {width : Nat}
    {row : Row} (hrow : row.length ≤ width) :
    Carries g sources width (extendRow width (labelCells (·.tag) (ds.zip sources)) row) := by
  intro i d source hd hsource
  obtain ⟨test, htest, hcompile⟩ := exists_getElem?_of_forall₂ (mapM_eq_ok hds) hd
  have hpair : (ds.zip sources)[i]? = some (test, some source) :=
    List.getElem?_zip_eq_some.2 ⟨htest, hsource⟩
  rw [getElem?_extendRow hrow]
  unfold labelCells
  rw [List.getElem?_map, hpair, ← Description.header_of_compile hcompile]
  rfl

theorem Carries.mono {g : TaggingGroup} {sources : List (Option ValueSource)} {width : Nat} {tags image : Row}
    (h : Carries g sources width tags) (himage : tags <+: image) : Carries g sources width image := by
  intro i d source hd hsource
  obtain ⟨cells, rfl⟩ := himage
  have htag := h i d source hd hsource
  rw [List.getElem?_append_left (List.getElem?_eq_some_iff.1 htag).1]
  exact htag

/-- A header has a source for a description at least. -/
theorem exists_source [PatternSyntax] {g : TaggingGroup} {ds : List Description} {exclusion : Option HeaderTest}
    {row : Row} {sources : List (Option ValueSource)} (hds : g.descriptions.mapM Description.compile = .ok ds)
    (h : Block.candidate? finds ds exclusion row = some sources) :
    ∃ (i : Nat) (d : HeaderDescription) (source : ValueSource),
      g.descriptions[i]? = some d ∧ sources[i]? = some (some source) := by
  unfold Block.candidate? at h
  have hmatch := (Option.ite_none_left_eq_some.1 h).2
  have hfound : sources.any Option.isSome = true := by
    unfold Description.matchHeader? at hmatch
    split at hmatch
    · split at hmatch
      · cases hmatch
        assumption
      · cases hmatch
    · cases hmatch
  obtain ⟨found, hmem, hsome⟩ := List.any_eq_true.1 hfound
  obtain ⟨source, rfl⟩ := Option.isSome_iff_exists.1 hsome
  obtain ⟨i, hi⟩ := List.getElem?_of_mem hmem
  have hlength : g.descriptions.length = sources.length :=
    (mapM_eq_ok hds).length_eq.trans (Description.forall₂_of_matchHeader? hmatch).length_eq
  have hlt : i < g.descriptions.length := hlength ▸ (List.getElem?_eq_some_iff.1 hi).1
  exact ⟨i, _, source, List.getElem?_eq_getElem hlt, hi⟩

theorem descriptions_ne_nil [PatternSyntax] {g : TaggingGroup} {ds : List Description}
    {exclusion : Option HeaderTest} {row : Row} {sources : List (Option ValueSource)}
    (hds : g.descriptions.mapM Description.compile = .ok ds)
    (h : Block.candidate? finds ds exclusion row = some sources) : g.descriptions ≠ [] := by
  obtain ⟨i, d, source, hd, -⟩ := exists_source hds h
  exact List.ne_nil_of_mem (List.mem_of_getElem? hd)

theorem not_carries_of_length_le [PatternSyntax] {g : TaggingGroup} {ds : List Description}
    {exclusion : Option HeaderTest} {row tags : Row} {sources : List (Option ValueSource)} {width : Nat}
    (hds : g.descriptions.mapM Description.compile = .ok ds)
    (h : Block.candidate? finds ds exclusion row = some sources) (htags : tags.length ≤ width) :
    ¬ Carries g sources width tags := by
  intro hcarries
  obtain ⟨i, d, source, hd, hsource⟩ := exists_source hds h
  have htag := hcarries i d source hd hsource
  rw [List.getElem?_eq_none (by omega)] at htag
  cases htag

theorem length_oldTags_le_width {ds : List Description} {exclusion : Option HeaderTest} {sheet : Worksheet} {b : Block}
    (hb : b ∈ Block.find finds ds exclusion 0 false sheet.rows) :
    (if b.tagged then sheet.rows[b.header + 2]?.getD [] else ["#tags"] : Row).length ≤ sheet.width := by
  split
  · exact length_row_le_width sheet (b.header + 2)
  · obtain ⟨above, row, labels, data, rest, hrows, hheads, -⟩ := Block.exists_of_mem_find hb
    have hmem : row ∈ sheet.rows := by
      rw [hrows]
      exact List.mem_append_right _ List.mem_cons_self
    refine Nat.le_trans (List.length_pos_iff.2 ?_) (length_le_width_of_mem hmem)
    rintro rfl
    exact Bool.noConfusion hheads.isBlank

/-! ## One pass -/

section

variable {g : TaggingGroup} {ds : List Description} {exclusion : Option HeaderTest} {width : Nat}
  {rows rows' : List Row} {b : Block} (hb : b ∈ Block.find finds ds exclusion 0 false rows)

include hb

/-- The labels of a header are those that it had, or new ones; either way they are marked as such. -/
theorem labelled_of_mem_find {zs : List (Description × Option ValueSource)}
    {up up' labels data filled below below' : List Row} {header : Row}
    (hrows : rows = up ++ header :: (labels ++ data ++ below)) (hstands : b.Stands 0 up labels data)
    (hup : ∃ n, Grown n up up') (hfilled : List.Forall₂ (Filled width zs) data filled)
    (hbelow : ∃ n, Grown n below below') :
    Labelled rows b.header up' header
      (extendRow width (labelCells (·.header) zs) (labels[0]?.getD ["#ignore"]))
      (extendRow width (labelCells (·.tag) zs) (labels[1]?.getD ["#tags"])) (filled ++ below') := by
  have hheader : b.header = up.length := hstands.header_eq.symm.trans (Nat.zero_add _)
  have hmarked : (labels[0]?.getD ["#ignore"] : Row).isIgnore = true ∧ (labels[1]?.getD ["#tags"] : Row).isTags = true := by
    cases htagged : b.tagged with
    | false =>
      rw [hstands.labels_of_untagged htagged]
      exact ⟨by decide, by decide⟩
    | true =>
      obtain ⟨label, tags, rfl⟩ := hstands.labels_of_tagged htagged
      rw [(Block.heads_of_mem_find hb hrows hheader).2] at htagged
      exact Bool.and_eq_true_iff.1 htagged
  refine ⟨?_, ?_, ?_, ?_, ?_⟩
  · rw [hrows, hheader, List.take_left]
    exact hup
  · rw [hrows, hheader, List.getElem?_append_right (Nat.le_refl _), Nat.sub_self]
    exact List.prefix_refl header
  · rw [hrows, hheader, List.drop_append, List.drop_eq_nil_of_le (Nat.le_succ _), Nat.add_sub_cancel_left]
    exact Tagged.grown_below (grown_relabelled hstands) hfilled hbelow
  · exact Row.isMarked_of_prefix (prefix_extendRow _ _ _) hmarked.1
  · exact Row.isMarked_of_prefix (prefix_extendRow _ _ _) hmarked.2

/--
A pass over the rows leaves below each header that it finds labels with the tags of its group, and tags the rows
above the header on their own.
-/
theorem exists_pass
    (h : Tagged g ds width true 0 (Block.find finds ds exclusion 0 false rows) rows rows') :
    ∃ upper up up' header down labels tags below,
      tags = extendRow width (labelCells (·.tag) (ds.zip b.sources))
        (if b.tagged then rows[b.header + 2]?.getD [] else ["#tags"]) ∧
      (∀ c ∈ upper, c ∈ Block.find finds ds exclusion 0 false rows ∧ c.header < up.length) ∧
      (upper = [] ↔ ∀ c ∈ Block.find finds ds exclusion 0 false rows, b.header ≤ c.header) ∧
      rows = up ++ header :: down ∧ b.header = up.length ∧ Tagged g ds width true 0 upper up up' ∧
      rows' = (up' ++ g.inserts upper.isEmpty) ++ header :: labels :: tags :: below ∧
      Labelled rows b.header (up' ++ g.inserts upper.isEmpty) header labels tags below := by
  have hstacked : Block.Stacked (0 + rows.length) 0 (Block.find finds ds exclusion 0 false rows) :=
    Block.stacked_find 0 false rows
  obtain ⟨upper, lower, hfind⟩ := List.append_of_mem hb
  rw [hfind] at h hstacked
  obtain ⟨up, up', header, labels, data, filled, below, below', hrows, hrows', hstands, hup, hfilled, hbelow⟩ :=
    h.around
  have hheader : b.header = up.length := hstands.header_eq.symm.trans (Nat.zero_add _)
  have htags : (labels[1]?.getD ["#tags"] : Row) =
      if b.tagged then rows[b.header + 2]?.getD [] else ["#tags"] := by
    cases htagged : b.tagged with
    | false =>
      rw [hstands.labels_of_untagged htagged]
      rfl
    | true =>
      obtain ⟨label, tags, rfl⟩ := hstands.labels_of_tagged htagged
      rw [hrows, hheader, List.getElem?_append_right (by omega), Nat.add_sub_cancel_left]
      rfl
  have hlabelled := labelled_of_mem_find hb hrows hstands
    (Tagged.grown_above g upper.isEmpty hup.grown) hfilled hbelow.grown
  rw [htags] at hlabelled
  refine ⟨upper, up, up', header, labels ++ data ++ below, _, _, filled ++ below', rfl, fun c hc => ?_, ?_, hrows,
    hheader, hup, ?_, hlabelled⟩
  · rw [hfind, ← hheader]
    exact ⟨List.mem_append_left _ hc, hstacked.header_lt_of_upper c hc⟩
  · rw [hfind]
    exact hstacked.upper_eq_nil_iff
  · rw [hrows', ← htags, Bool.true_and]
    rfl

end

variable {g : TaggingGroup} {ds ds' : List Description} {exclusion exclusion' : Option HeaderTest} {width : Nat}
  {rows rows' : List Row}

/-- A pass changes nothing between the last blank row above a header and the header. -/
theorem unshut_of_tagged {upper : List Block} {up up' down : List Row} (hrows : rows = up ++ down)
    (hupper : ∀ c ∈ upper, c ∈ Block.find finds ds exclusion 0 false rows ∧ c.header < up.length)
    (h : Tagged g ds width true 0 upper up up') (hup : up.foldl (Block.shuts finds ds exclusion) false = false)
    (hup' : up.foldl (Block.shuts finds ds' exclusion') false = false) :
    up'.foldl (Block.shuts finds ds' exclusion') false = false := by
  rcases Block.exists_last_blank up with hnone | ⟨far, blank, near, rfl, hblank, hnear⟩
  · have hupperNil : upper = [] := by
      refine List.eq_nil_iff_forall_not_mem.2 fun c hc => ?_
      obtain ⟨hfind, hlt⟩ := hupper c hc
      obtain ⟨row, hrow, -, hcandidate⟩ := Block.candidate?_header_of_mem_find hfind
      rw [hrows, List.getElem?_append_left hlt] at hrow
      have hnotCandidate := (((Block.foldl_shuts_of_nonblank hnone false).1 hup).2 row (List.mem_of_getElem? hrow)).2
      rw [hnotCandidate] at hcandidate
      cases hcandidate
    subst hupperNil
    cases h
    exact hup'
  · rw [Block.foldl_shuts_of_blank hblank] at hup hup'
    have hcandidates := ((Block.foldl_shuts_of_nonblank hnear false).1 hup).2
    have hstops : ∀ c ∈ upper, c.stop ≤ 0 + far.length := by
      intro c hc
      obtain ⟨hfind, hlt⟩ := hupper c hc
      have hcut : rows = far ++ blank :: (near ++ down) := by
        rw [hrows, List.append_assoc, List.cons_append]
      rw [List.length_append, List.length_cons] at hlt
      rw [Nat.zero_add]
      exact Block.stop_le_of_mem_find hfind hcut hblank (fun row hrow => (hcandidates row hrow).2) (by omega)
    obtain ⟨far', rfl, -⟩ := h.frame rfl hstops
    rw [Block.foldl_shuts_of_blank hblank]
    exact hup'

/-- A pass over a header that has labels continues them, or leaves them alone if the header is shut out. -/
theorem exists_pass_over {up down : List Row} {header label tags : Row} {sources : List (Option ValueSource)}
    (hrows : rows = up ++ header :: label :: tags :: down) (hlabel : label.isIgnore = true)
    (htags : tags.isTags = true) (hheader : header.isTags = false) (hblank : header.isBlank = false)
    (hcandidate : Block.candidate? finds ds exclusion header = some sources)
    (h : Tagged g ds width true 0 (Block.find finds ds exclusion 0 false rows) rows rows') :
    ∃ above image label' tags' below, rows' = above ++ image :: label' :: tags' :: below ∧
      Labelled rows up.length above image label' tags' below ∧
      tags' = if up.foldl (Block.shuts finds ds exclusion) false then tags
        else extendRow width (labelCells (·.tag) (ds.zip sources)) tags := by
  cases hup : up.foldl (Block.shuts finds ds exclusion) false with
  | true =>
    have hbetween : ∀ b ∈ Block.find finds ds exclusion 0 false rows, b.stop ≤ 0 + up.length ∨
        (b.start ≤ 0 + up.length ∧ b.stop = 0 + up.length + 2) ∨ 0 + up.length + 2 < b.header := by
      intro b hb
      rw [Nat.zero_add]
      exact Block.around_of_mem_find hb hrows hup (Block.isIgnore_of_candidate? hcandidate) hheader hlabel htags
    obtain ⟨up', image, down', hrows', himage, hupGrown, m, hdown⟩ := h.leftAlone hrows hlabel hbetween
    refine ⟨up', image, label, tags, down', hrows', ⟨?_, ?_, ?_, hlabel, htags⟩, rfl⟩
    · rw [hrows, List.take_left]
      exact hupGrown
    · rw [hrows, List.getElem?_append_right (Nat.le_refl _), Nat.sub_self]
      exact himage
    · rw [hrows, List.drop_append, List.drop_eq_nil_of_le (Nat.le_succ _), Nat.add_sub_cancel_left]
      exact ⟨m, .keep (List.prefix_refl _) (.keep (List.prefix_refl _) hdown)⟩
  | false =>
    have hb : Block.ofHeader up.length sources (label :: tags :: down) ∈ Block.find finds ds exclusion 0 false rows := by
      refine Block.mem_find_iff.2 ⟨up, header, _, sources, hrows, ⟨hup, hheader, hblank, hcandidate⟩, ?_⟩
      rw [Nat.zero_add]
    obtain ⟨_, _, _, _, _, labels, tags', below, htags', -, -, -, -, -, hrows', hlabelled⟩ := exists_pass hb h
    have htagged : (Block.ofHeader up.length sources (label :: tags :: down)).tagged = true :=
      Bool.and_eq_true_iff.2 ⟨hlabel, htags⟩
    have hold : rows[up.length + 2]?.getD [] = tags := by
      rw [hrows, List.getElem?_append_right (by omega), Nat.add_sub_cancel_left]
      rfl
    rw [if_pos htagged] at htags'
    refine ⟨_, _, _, _, _, hrows', hlabelled, htags'.trans ?_⟩
    show extendRow width _ (rows[up.length + 2]?.getD []) = _
    rw [hold]
    rfl

/-! ## Two groups -/

variable [PatternSyntax]

theorem tagged_applyGroup {s s' : TaggingState} {index : Nat} (hg : g.descriptions ≠ [])
    (hcompiles : Compiles g ds exclusion) (h : applyGroup finds index g s = .ok () s') :
    Tagged g ds s.sheet.width true 0 (Block.find finds ds exclusion 0 false s.sheet.rows) s.sheet.rows
      s'.sheet.rows := by
  obtain ⟨ds₁, exclusion₁, hds₁, hexclusion₁, s₁, hsheet, -, hrun⟩ := applyGroup_eq_ok hg h
  obtain rfl := Except.ok.inj (hcompiles.1.symm.trans hds₁)
  obtain rfl := Except.ok.inj (hcompiles.2.symm.trans hexclusion₁)
  have hblocks : Block.Stacked s₁.sheet.rows.length ([] : List Row).length
      (Block.find finds ds exclusion 0 false s.sheet.rows) := by
    rw [hsheet, ← Nat.zero_add s.sheet.rows.length]
    exact Block.stacked_find 0 false s.sheet.rows
  obtain ⟨rows', hrows', htagged⟩ := tagged_tagBlocks [] (List.nil_append _).symm hblocks hrun
  rw [hrows', List.nil_append, ← hsheet]
  rw [hsheet] at htagged ⊢
  exact htagged

theorem leavesClear_iff {g' : TaggingGroup} {sheet : Worksheet} {header : Nat} {first : Bool}
    (hg' : Compiles g' ds' exclusion')
    (hfirst : first = true ↔ ∀ b ∈ blocks finds g sheet, header ≤ b.header) :
    LeavesClear finds g g' sheet header ↔
      (g.inserts first).foldl (Block.shuts finds ds' exclusion') false = false := by
  unfold LeavesClear TaggingGroup.inserts
  rw [← hfirst]
  cases hinsert : first || g.insertMultiple with
  | false =>
    obtain ⟨hfirst, hmultiple⟩ := Bool.or_eq_false_iff.1 hinsert
    rw [hfirst, hmultiple, if_neg Bool.false_ne_true]
    exact ⟨fun _ => rfl, fun _ h => by rcases h with h | h <;> cases h⟩
  | true =>
    have hpremise : g.insertMultiple = true ∨ first = true := (Bool.or_eq_true_iff.1 hinsert).symm
    rw [if_pos rfl, Block.foldl_shuts_eq_false_iff, forall_prop_of_true hpremise]
    refine forall_congr' fun row => forall_congr' fun _ => ?_
    rw [hg'.fits_eq, Option.isSome_eq_false_iff, Option.isNone_iff_eq_none]

theorem applyTagging_pair {sheet : Worksheet} {g g' : TaggingGroup} {log : Diagnostics} {summary : TaggingSummary}
    (h : (sheet.applyTagging finds [g, g'] log).result = .ok summary) :
    ∃ s₁ s₂, applyGroup finds 0 g ⟨sheet, log, {}⟩ = .ok () s₁ ∧ applyGroup finds 1 g' s₁ = .ok () s₂ ∧
      (sheet.applyTagging finds [g] log).sheet = s₁.sheet ∧
      (sheet.applyTagging finds [g, g'] log).sheet = s₂.sheet := by
  unfold Worksheet.applyTagging at h
  split at h
  · rename_i s₂ hrun
    obtain ⟨_, s₁, hfirst, hsecond⟩ := bind_eq_ok hrun
    obtain ⟨_, s₂', hsecond, hend⟩ := bind_eq_ok hsecond
    cases hend
    have hone : applyGroups finds 0 [g] ⟨sheet, log, {}⟩ = .ok () s₁ := bind_apply_of_ok hfirst
    refine ⟨s₁, s₂, hfirst, hsecond, ?_, ?_⟩
    · unfold Worksheet.applyTagging
      rw [hone]
    · unfold Worksheet.applyTagging
      rw [hrun]
  · cases h

end Tagging

/--
Where two groups take one row for a header, the row below the labels of the first carries the tags of both, each
in the columns that its group has added, if and only if the rows that the first puts in above the header leave
it clear to the second.
-/
theorem Worksheet.applyTagging_extends [PatternSyntax] {finds : Pattern → String → Bool} {sheet : Worksheet}
    {g g' : TaggingGroup} {a b : Block} {log : Diagnostics} {summary : TaggingSummary}
    (ha : a ∈ Tagging.blocks finds g sheet) (hb : b ∈ Tagging.blocks finds g' sheet)
    (hheader : a.header = b.header) (h : (sheet.applyTagging finds [g, g'] log).result = .ok summary) :
    ∃ above image labels tags below,
      (sheet.applyTagging finds [g, g'] log).sheet.rows = above ++ image :: labels :: tags :: below ∧
      Tagging.Labelled sheet.rows a.header above image labels tags below ∧
      Tagging.Carries g a.sources sheet.width tags ∧
      (Tagging.Carries g' b.sources (sheet.applyTagging finds [g] log).sheet.width tags ↔
        Tagging.LeavesClear finds g g' sheet a.header) := by
  obtain ⟨ds, exclusion, hg⟩ := Tagging.exists_compiles_of_mem_blocks ha
  obtain ⟨ds', exclusion', hg'⟩ := Tagging.exists_compiles_of_mem_blocks hb
  rw [hg.blocks_eq] at ha
  rw [hg'.blocks_eq] at hb
  obtain ⟨s₁, s₂, hfirst, hsecond, hsheet₁, hsheet₂⟩ := Tagging.applyTagging_pair h
  rw [hsheet₁, hsheet₂]
  obtain ⟨rowA, -, -, haCandidate⟩ := Block.candidate?_header_of_mem_find ha
  obtain ⟨rowB, -, -, hbCandidate⟩ := Block.candidate?_header_of_mem_find hb
  have hdescriptions := Tagging.descriptions_ne_nil hg.1 haCandidate
  have hdescriptions' := Tagging.descriptions_ne_nil hg'.1 hbCandidate
  -- the first group puts its labels below the header, and leaves the rows above it open to the second
  obtain ⟨upper, up, up', header, down, label, tags, below, htags, hupper, hfirstIff, hrows, hindex, hup, hrows₁,
    hlabelled⟩ := Tagging.exists_pass ha (Tagging.tagged_applyGroup hdescriptions hg hfirst)
  obtain ⟨hheads, -⟩ := Block.heads_of_mem_find ha hrows hindex
  obtain ⟨hheads', -⟩ := Block.heads_of_mem_find hb hrows (hheader.symm.trans hindex)
  have hunshut : up'.foldl (Block.shuts finds ds' exclusion') false = false :=
    Tagging.unshut_of_tagged hrows hupper hup hheads.unshut hheads'.unshut
  rw [← hg.blocks_eq] at hfirstIff
  have hclear := Tagging.leavesClear_iff hg' (List.isEmpty_iff.trans hfirstIff)
  have hshut : (up' ++ g.inserts upper.isEmpty).foldl (Block.shuts finds ds' exclusion') false =
      (g.inserts upper.isEmpty).foldl (Block.shuts finds ds' exclusion') false := by
    rw [List.foldl_append, hunshut]
  -- the second finds them there, and continues them or does not
  obtain ⟨above, image, label', tags', below', hrows₂, hlabelled', htags'⟩ :=
    Tagging.exists_pass_over hrows₁ hlabelled.isIgnore hlabelled.isTags hheads'.isTags hheads'.isBlank
      hheads'.candidate (Tagging.tagged_applyGroup hdescriptions' hg' hsecond)
  have hcarries : Tagging.Carries g a.sources sheet.width tags := by
    rw [htags]
    exact Tagging.carries_extendRow hg.1 a.sources (Tagging.length_oldTags_le_width ha)
  have hwidth : tags.length ≤ s₁.sheet.width := by
    refine Tagging.length_le_width_of_mem ?_
    rw [hrows₁]
    exact List.mem_append_right _ (List.mem_cons_of_mem _ (List.mem_cons_of_mem _ List.mem_cons_self))
  rw [hshut] at htags'
  refine ⟨above, image, label', tags', below', hrows₂, hlabelled.trans hrows₁ hlabelled', ?_, ?_⟩
  · rw [htags']
    split
    · exact hcarries
    · exact hcarries.mono (Tagging.prefix_extendRow _ _ _)
  · rw [hclear, htags']
    cases (g.inserts upper.isEmpty).foldl (Block.shuts finds ds' exclusion') false with
    | false => exact iff_of_true (Tagging.carries_extendRow hg'.1 b.sources hwidth) rfl
    | true => exact iff_of_false (Tagging.not_carries_of_length_le hg'.1 hbCandidate hwidth) Bool.noConfusion

/-- A worksheet whose header is one of two groups, the first of which puts a `#tags` row in above it. -/
def sharedSheet : Worksheet := ⟨"raw.csv", "raw", [["Sample", "Protocol"], ["S1", "P1"]]⟩

theorem Worksheet.applyTagging_extends_shut :
    let finds : Pattern → String → Bool := fun _ _ => false
    let g : TaggingGroup := {
      descriptions := [⟨"Sample", "#sample.id", true⟩], insert := [["#tags", "#project.id=\"P1\""]] }
    let g' : TaggingGroup := { descriptions := [⟨"Protocol", "#protocol.id", true⟩] }
    let outcome := sharedSheet.applyTagging finds [g, g'] {}
    ∃ a ∈ Tagging.blocks finds g sharedSheet, ∃ b ∈ Tagging.blocks finds g' sharedSheet,
      a.header = 0 ∧ b.header = 0 ∧ outcome.result = .ok ⟨1, 1, 3⟩ ∧
      outcome.sheet.rows = [["#tags", "#project.id=\"P1\""], ["Sample", "Protocol"], ["#ignore", "", "Sample"],
        ["#tags", "", "#sample.id"], ["S1", "P1", "S1"]] ∧
      ¬ Tagging.LeavesClear finds g g' sharedSheet 0 ∧
      ∃ above image labels tags below,
        outcome.sheet.rows = above ++ image :: labels :: tags :: below ∧
        Tagging.Labelled sharedSheet.rows 0 above image labels tags below ∧
        Tagging.Carries g a.sources 2 tags ∧
        ¬ Tagging.Carries g' b.sources (sharedSheet.applyTagging finds [g] {}).sheet.width tags := by
  intro finds g g' outcome
  have hfirst : ∃ a ∈ Tagging.blocks finds g sharedSheet, a.header = 0 := by decide +kernel
  have hsecond : ∃ b ∈ Tagging.blocks finds g' sharedSheet, b.header = 0 := by decide +kernel
  have hresult : outcome.result = .ok ⟨1, 1, 3⟩ := by decide +kernel
  have hshut : ¬ Tagging.LeavesClear finds g g' sharedSheet 0 := by decide +kernel
  obtain ⟨a, ha, haHeader⟩ := hfirst
  obtain ⟨b, hb, hbHeader⟩ := hsecond
  obtain ⟨above, image, labels, tags, below, hrows, hlabelled, hcarries, hiff⟩ :=
    applyTagging_extends ha hb (haHeader.trans hbHeader.symm) hresult
  rw [haHeader] at hlabelled hiff
  exact ⟨a, ha, b, hb, haHeader, hbHeader, hresult, by decide +kernel, hshut, above, image, labels, tags, below,
    hrows, hlabelled, hcarries, fun h => hshut (hiff.1 h)⟩

end TagHarvest
