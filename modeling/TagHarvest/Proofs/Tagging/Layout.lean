/-
What a group makes of the rows of a worksheet, told from the top down although the blocks are tagged from the
bottom up: the rows between the blocks stay as they are, and each block has its own rows put in above its
header, its labels below it and its data rows filled. From this a change can be traced to the block it is in.
-/
import TagHarvest.Proofs.Tagging.Growth

namespace TagHarvest

theorem exists_of_append_eq_append {α : Type} {a b c d : List α} (h : a ++ b = c ++ d)
    (hle : a.length ≤ c.length) : ∃ m, c = a ++ m ∧ b = m ++ d := by
  rcases List.append_eq_append_iff.1 h with ⟨m, hc, hb⟩ | ⟨m, ha, hd⟩
  · exact ⟨m, hc, hb⟩
  · have hm : m = [] := by
      rw [ha, List.length_append] at hle
      exact List.length_eq_zero_iff.1 (by omega)
    rw [hm, List.append_nil] at ha
    rw [hm, List.nil_append] at hd
    exact ⟨[], by rw [ha, List.append_nil], hd.symm⟩

theorem exists_of_forall₂_append {α β : Type} {R : α → β → Prop} {as as' : List α} {bs : List β}
    (h : List.Forall₂ R (as ++ as') bs) :
    ∃ cs cs', bs = cs ++ cs' ∧ List.Forall₂ R as cs ∧ List.Forall₂ R as' cs' := by
  have hfront := List.forall₂_take as.length h
  have hback := List.forall₂_drop as.length h
  rw [List.take_left] at hfront
  rw [List.drop_left] at hback
  exact ⟨_, _, (List.take_append_drop as.length bs).symm, hfront, hback⟩

/-- The rows that a group puts in above a header. -/
def TaggingGroup.inserts (g : TaggingGroup) (first : Bool) : List Row :=
  if first || g.insertMultiple then g.insert else []

namespace Tagging

/-- The label row and the tag row of a block; those that it has are continued. -/
def relabelled (ds : List (Description × Option ValueSource)) (width : Nat) (labels : List Row) : List Row :=
  [extendRow width (labelCells (·.header) ds) (labels[0]?.getD ["#ignore"]),
    extendRow width (labelCells (·.tag) ds) (labels[1]?.getD ["#tags"])]

/-- The rows from an index on, before and after blocks among them are tagged. -/
inductive Tagged (g : TaggingGroup) (ds : List Description) (width : Nat) :
    (first : Bool) → (index : Nat) → List Block → List Row → List Row → Prop
  | nil {first : Bool} {index : Nat} (rows : List Row) : Tagged g ds width first index [] rows rows
  | block {first : Bool} {index : Nat} {b : Block} {bs : List Block} {above labels data below : List Row}
    {header : Row} {filled below' : List Row} (hb : b.Stands index above labels data)
    (hfilled : List.Forall₂ (Filled width (ds.zip b.sources)) data filled)
    (h : Tagged g ds width false b.stop bs below below') :
    Tagged g ds width first index (b :: bs) (above ++ header :: (labels ++ data ++ below))
      (above ++ g.inserts first ++ header :: (relabelled (ds.zip b.sources) width labels ++ filled ++ below'))

/-! ## The run -/

section

variable {finds : Pattern → String → Bool} {s s' : TaggingState} {g : TaggingGroup} {ds : List Description}
  {width : Nat}

theorem rows_tagBlock {b : Block} {up labels data below : List Row} {header : Row}
    (hrows : s.sheet.rows = up ++ header :: (labels ++ data ++ below)) (hb : b.Stands 0 up labels data)
    (h : tagBlock finds ds width b s = .ok () s') :
    ∃ filled, List.Forall₂ (Filled width (ds.zip b.sources)) data filled ∧
      s'.sheet.rows =
        up ++ header :: (relabelled (ds.zip b.sources) width labels ++ filled ++ below) := by
  obtain ⟨label, tags, filled, hlabel, htags, hfilled, hrows', -⟩ := tagBlock_eq_ok h
  have hheader : b.header = up.length := (Nat.zero_add _).symm.trans hb.header_eq |>.symm
  have hcut : s.sheet.rows = (up ++ [header]) ++ (labels ++ (data ++ below)) := by
    rw [hrows, List.append_assoc, List.append_assoc]
    rfl
  have htake : s.sheet.rows.take (b.header + 1) = up ++ [header] := by
    rw [hcut]
    exact List.take_left' (by rw [List.length_append, hheader]; rfl)
  have hdrop : s.sheet.rows.drop b.start = data ++ below := by
    rw [hcut, ← List.append_assoc]
    refine List.drop_left' ?_
    rw [hb.start_eq, List.length_append, List.length_append, hheader]
    rfl
  have hbelow : s.sheet.rows.drop b.stop = below := by
    unfold Block.stop
    rw [← List.drop_drop, hdrop]
    exact List.drop_left' hb.length_eq.symm
  rw [hdrop, hb.length_eq, List.take_left] at hfilled
  refine ⟨filled, hfilled, ?_⟩
  have hpair : [label, tags] = relabelled (ds.zip b.sources) width labels := by
    rw [hlabel, htags]
    cases htagged : b.tagged with
    | false =>
      rw [hb.labels_of_untagged htagged]
      rfl
    | true =>
      obtain ⟨label₀, tags₀, rfl⟩ := hb.labels_of_tagged htagged
      have hrow₁ : s.sheet.row (b.header + 1) = label₀ := by
        unfold Worksheet.row
        rw [hrows, hheader, List.getElem?_append_right (by omega), Nat.add_sub_cancel_left]
        rfl
      have hrow₂ : s.sheet.row (b.header + 2) = tags₀ := by
        unfold Worksheet.row
        rw [hrows, hheader, List.getElem?_append_right (by omega), Nat.add_sub_cancel_left]
        rfl
      rw [if_pos rfl, if_pos rfl, hrow₁, hrow₂]
      rfl
  rw [hrows', htake, hbelow, hpair]
  simp only [List.append_assoc, List.cons_append, List.nil_append]

theorem rows_splice {up down inserted : List Row} (hrows : s.sheet.rows = up ++ down)
    (h : splice up.length inserted s = .ok () s') : s'.sheet.rows = up ++ inserted ++ down := by
  cases h
  show s.sheet.rows.take up.length ++ inserted ++ s.sheet.rows.drop up.length = _
  rw [hrows, List.take_left, List.drop_left]

theorem tagged_tagBlocks (up : List Row) {first : Bool} {bs : List Block} {rows : List Row}
    (hrows : s.sheet.rows = up ++ rows) (hbs : Block.Stacked s.sheet.rows.length up.length bs)
    (h : tagBlocks finds g ds width first bs s = .ok () s') :
    ∃ rows', s'.sheet.rows = up ++ rows' ∧ Tagged g ds width first up.length bs rows rows' := by
  induction bs generalizing first up rows s' with
  | nil =>
    cases h
    exact ⟨rows, hrows, .nil rows⟩
  | cons b bs ih =>
    obtain ⟨hheader, hstop, hbs⟩ := hbs
    unfold tagBlocks at h
    obtain ⟨_, s₁, hbelow, h⟩ := bind_eq_ok h
    obtain ⟨_, s₂, hblock, h⟩ := bind_eq_ok h
    rw [hrows, List.length_append] at hstop
    obtain ⟨above, header, labels, data, below, rfl, hb⟩ := Block.exists_stands hheader hstop
    have hstopeq := hb.stop_eq
    -- the blocks below stand in the rows that this one ends at
    have hcut : s.sheet.rows = (up ++ above ++ header :: (labels ++ data)) ++ below := by
      rw [hrows]
      simp only [List.append_assoc, List.cons_append]
    have hlength : (up ++ above ++ header :: (labels ++ data)).length = b.stop := by
      simp only [List.length_append, List.length_cons]
      omega
    rw [← hlength] at hbs
    obtain ⟨below', hrows₁, htagged⟩ := ih _ hcut hbs hbelow
    rw [hlength] at htagged
    have hb₀ : b.Stands 0 (up ++ above) labels data := by
      refine ⟨?_, hb.start_eq, hb.length_eq⟩
      rw [Nat.zero_add, List.length_append]
      exact hb.header_eq
    have hrows₁' : s₁.sheet.rows = (up ++ above) ++ header :: (labels ++ data ++ below') := by
      rw [hrows₁]
      simp only [List.append_assoc, List.cons_append]
    obtain ⟨filled, hfilled, hrows₂⟩ := rows_tagBlock hrows₁' hb₀ hblock
    refine ⟨_, ?_, .block hb hfilled htagged⟩
    unfold TaggingGroup.inserts
    split at h
    · rename_i hinsert
      have hindex : b.header = (up ++ above).length := (Nat.zero_add _).symm.trans hb₀.header_eq |>.symm
      rw [hindex] at h
      rw [rows_splice hrows₂ h, if_pos hinsert]
      simp only [List.append_assoc]
    · rename_i hinsert
      cases h
      rw [hrows₂, if_neg hinsert]
      simp only [List.append_assoc, List.nil_append]

end

/-! ## What is kept -/

theorem grown_relabelled {ds : List (Description × Option ValueSource)} {width : Nat} {b : Block}
    {index : Nat} {above labels data : List Row} (hb : b.Stands index above labels data) :
    ∃ n, Grown n labels (relabelled ds width labels) := by
  cases htagged : b.tagged with
  | false =>
    rw [hb.labels_of_untagged htagged]
    exact ⟨_, Grown.inserted _⟩
  | true =>
    obtain ⟨label, tags, rfl⟩ := hb.labels_of_tagged htagged
    exact ⟨0, .keep (prefix_extendRow _ _ _) (.keep (prefix_extendRow _ _ _) .nil)⟩

theorem Filled.of_isIgnore {width : Nat} {ds : List (Description × Option ValueSource)} {row image : Row}
    (hignore : row.isIgnore = true) (h : Filled width ds row image) : image = row := by
  unfold Filled at h
  rw [if_pos hignore] at h
  exact h

namespace Tagged

variable {g : TaggingGroup} {ds : List Description} {width : Nat} {first : Bool} {index : Nat}
  {bs : List Block} {rows rows' : List Row}

theorem grown_below {zs : List (Description × Option ValueSource)} {labels data below filled below' : List Row}
    (hlabels : ∃ n, Grown n labels (relabelled zs width labels)) (hfilled : List.Forall₂ (Filled width zs) data filled)
    (hbelow : ∃ n, Grown n below below') :
    ∃ n, Grown n (labels ++ data ++ below) (relabelled zs width labels ++ filled ++ below') := by
  obtain ⟨m, hbelow⟩ := hbelow
  obtain ⟨k, hlabels⟩ := hlabels
  exact ⟨_, (hlabels.append (.of_forall₂ (hfilled.imp fun _ _ => Filled.prefix))).append hbelow⟩

theorem grown_above (g : TaggingGroup) (first : Bool) {up up' : List Row} (hup : ∃ n, Grown n up up') :
    ∃ n, Grown n up (up' ++ g.inserts first) := by
  obtain ⟨n, hup⟩ := hup
  have habove := hup.append (Grown.inserted (g.inserts first))
  rw [List.append_nil] at habove
  exact ⟨_, habove⟩

theorem grown_block (g : TaggingGroup) (first : Bool) (above : List Row) (header : Row)
    {zs : List (Description × Option ValueSource)} {labels data below filled below' : List Row}
    (hlabels : ∃ n, Grown n labels (relabelled zs width labels)) (hfilled : List.Forall₂ (Filled width zs) data filled)
    (hbelow : ∃ n, Grown n below below') :
    ∃ n, Grown n (above ++ header :: (labels ++ data ++ below))
      (above ++ g.inserts first ++ header :: (relabelled zs width labels ++ filled ++ below')) := by
  obtain ⟨n, habove⟩ := grown_above g first ⟨0, .refl above⟩
  obtain ⟨m, hbelow⟩ := grown_below hlabels hfilled hbelow
  exact ⟨_, habove.append (.keep (List.prefix_refl _) hbelow)⟩

theorem grown (h : Tagged g ds width first index bs rows rows') : ∃ n, Grown n rows rows' := by
  induction h with
  | nil rows => exact ⟨0, .refl rows⟩
  | block hb hfilled _ ih => exact grown_block g _ _ _ (grown_relabelled hb) hfilled ih

theorem le_header (h : Tagged g ds width first index bs rows rows') : ∀ b ∈ bs, index ≤ b.header := by
  induction h with
  | nil rows => nofun
  | block hb _ _ ih =>
    rintro c (_ | ⟨_, hc⟩)
    · have := hb.header_eq
      omega
    · have hstop := hb.stop_eq
      have := ih c hc
      omega

/-- Rows above all blocks stay. -/
theorem above (top : List Row) {rest : List Row} (h : Tagged g ds width first index bs rows rows') (hrows : rows = top ++ rest)
    (hbs : ∀ b ∈ bs, index + top.length ≤ b.header) :
    ∃ rest', rows' = top ++ rest' ∧ Tagged g ds width first (index + top.length) bs rest rest' := by
  cases h with
  | nil => exact ⟨rest, hrows, .nil rest⟩
  | block hb hfilled h =>
    have hheader := hb.header_eq
    have hle := hbs _ List.mem_cons_self
    obtain ⟨m, rfl, rfl⟩ := exists_of_append_eq_append hrows.symm (by omega)
    rw [List.length_append] at hheader
    refine ⟨_, ?_, .block ⟨by omega, hb.start_eq, hb.length_eq⟩ hfilled h⟩
    simp only [List.append_assoc]

/-- Rows below all blocks stay. -/
theorem frame {far rest : List Row} (h : Tagged g ds width first index bs rows rows') (hrows : rows = far ++ rest)
    (hbs : ∀ b ∈ bs, b.stop ≤ index + far.length) :
    ∃ far', rows' = far' ++ rest ∧ Tagged g ds width first index bs far far' := by
  induction h generalizing far with
  | nil => exact ⟨far, hrows, .nil far⟩
  | @block first _ b _ above labels data below header filled below' hb hfilled h ih =>
    obtain ⟨hstop, hbs⟩ := List.forall_mem_cons.1 hbs
    have hstopeq := hb.stop_eq
    have hcut : (above ++ header :: (labels ++ data)) ++ below = far ++ rest := by
      rw [← hrows]
      simp only [List.append_assoc, List.cons_append]
    obtain ⟨m, rfl, rfl⟩ := exists_of_append_eq_append hcut (by
      simp only [List.length_append, List.length_cons]
      omega)
    obtain ⟨m', rfl, hm⟩ := ih rfl fun c hc => by
      have := hbs c hc
      simp only [List.length_append, List.length_cons] at this
      omega
    refine ⟨above ++ g.inserts first ++ header :: (relabelled (ds.zip b.sources) width labels ++ filled ++ m'), ?_, ?_⟩
    · simp only [List.append_assoc, List.cons_append]
    · rw [List.append_assoc above, List.cons_append]
      exact .block hb hfilled hm

/-- Around a block the rows above its header and those below it are tagged each for themselves. -/
theorem around {b : Block} {upper lower : List Block}
    (h : Tagged g ds width first index (upper ++ b :: lower) rows rows') :
    ∃ up up' header labels data filled below below',
      rows = up ++ header :: (labels ++ data ++ below) ∧
      rows' = up' ++ g.inserts (first && upper.isEmpty) ++
        header :: (relabelled (ds.zip b.sources) width labels ++ filled ++ below') ∧
      b.Stands index up labels data ∧ Tagged g ds width first index upper up up' ∧
      List.Forall₂ (Filled width (ds.zip b.sources)) data filled ∧
      Tagged g ds width false b.stop lower below below' := by
  induction upper generalizing first index rows rows' with
  | nil =>
    cases h with
    | @block _ _ _ _ above labels data below header filled below' hb hfilled h =>
      refine ⟨above, above, header, labels, data, filled, below, below', rfl, ?_, hb, .nil above, hfilled, h⟩
      rw [List.isEmpty_nil, Bool.and_true]
  | cons c upper ih =>
    cases h with
    | @block _ _ _ _ above₀ labels₀ data₀ below₀ header₀ filled₀ below₀' hc hfilled₀ h =>
      obtain ⟨up, up', header, labels, data, filled, below, below', rfl, rfl, hb, hup, hfilled, hbelow⟩ := ih h
      have hstop := hc.stop_eq
      have hheader := hb.header_eq
      refine ⟨above₀ ++ header₀ :: (labels₀ ++ data₀ ++ up),
        above₀ ++ g.inserts first ++ header₀ :: (relabelled (ds.zip c.sources) width labels₀ ++ filled₀ ++ up'),
        header, labels, data, filled, below, below', ?_, ?_, ⟨?_, hb.start_eq, hb.length_eq⟩,
        .block hc hfilled₀ hup, hfilled, hbelow⟩
      · simp only [List.append_assoc, List.cons_append]
      · rw [List.isEmpty_cons, Bool.false_and, Bool.and_false]
        simp only [List.append_assoc, List.cons_append]
      · simp only [List.length_append, List.length_cons]
        omega

/-- A label row and a tag row as they were, in rows that have grown around them. -/
def LeftAlone (up : List Row) (header label tags : Row) (down rows' : List Row) : Prop :=
  ∃ up' image down', rows' = up' ++ image :: label :: tags :: down' ∧ header <+: image ∧
    (∃ n, Grown n up up') ∧ ∃ n, Grown n down down'

variable {up down : List Row} {header label tags : Row}

theorem leftAlone_of_below (h : Tagged g ds width first index bs rows rows')
    (hrows : rows = up ++ header :: label :: tags :: down)
    (hbs : ∀ b ∈ bs, index + up.length + 2 < b.header) : LeftAlone up header label tags down rows' := by
  have hcut : rows = (up ++ [header, label, tags]) ++ down := by
    rw [hrows, List.append_assoc]
    rfl
  obtain ⟨down', rfl, hdown⟩ := h.above _ hcut fun b hb => by
    have := hbs b hb
    rw [List.length_append]
    show index + (up.length + 3) ≤ b.header
    omega
  refine ⟨up, header, down', ?_, List.prefix_refl _, ⟨0, .refl up⟩, hdown.grown⟩
  rw [List.append_assoc]
  rfl

/-- A header that another block takes for its last data row but one. -/
theorem leftAlone_of_covered {b : Block} {above labels data below filled below' : List Row} {row : Row}
    (hb : b.Stands index above labels data) (hfilled : List.Forall₂ (Filled width (ds.zip b.sources)) data filled)
    (h : Tagged g ds width false b.stop bs below below')
    (hrows : above ++ row :: (labels ++ data ++ below) = up ++ header :: label :: tags :: down)
    (hlabel : label.isIgnore = true) (hstart : b.start ≤ index + up.length)
    (hstop : b.stop = index + up.length + 2) (hbs : ∀ c ∈ bs, b.stop < c.header) :
    LeftAlone up header label tags down (above ++ g.inserts first ++
      row :: (relabelled (ds.zip b.sources) width labels ++ filled ++ below')) := by
  have hlabels := hb.start_eq
  have hheader := hb.header_eq
  have hstopeq := hb.stop_eq
  have hcut : (above ++ row :: labels) ++ (data ++ below) = up ++ header :: label :: tags :: down := by
    rw [← hrows]
    simp only [List.append_assoc, List.cons_append]
  obtain ⟨upper, rfl, hdata⟩ := exists_of_append_eq_append hcut (by
    simp only [List.length_append, List.length_cons]
    omega)
  simp only [List.length_append, List.length_cons] at hstop
  obtain ⟨rfl, rfl⟩ : data = upper ++ [header, label] ∧ below = tags :: down := by
    have hpair : data ++ below = (upper ++ [header, label]) ++ tags :: down := by
      rw [hdata, List.append_assoc]
      rfl
    refine List.append_inj hpair ?_
    rw [List.length_append]
    show data.length = upper.length + 2
    omega
  obtain ⟨upper', last, rfl, hupper, hlast⟩ := exists_of_forall₂_append hfilled
  obtain ⟨rest', rfl, hdown⟩ := h.above [tags] rfl hbs
  cases hlast with
  | @cons _ image _ _ himage hlast =>
    cases hlast with
    | cons hlabel' hend =>
      cases hend
      obtain rfl := hlabel'.of_isIgnore hlabel
      have hgrown := grown_block g first above row (grown_relabelled hb) hupper ⟨0, .nil⟩
      refine ⟨above ++ g.inserts first ++ row :: (relabelled (ds.zip b.sources) width labels ++ upper'),
        image, rest', ?_, himage.prefix, ?_, hdown.grown⟩
      · simp only [List.append_assoc, List.cons_append, List.nil_append]
      · simpa only [List.append_nil, List.append_assoc, List.cons_append] using hgrown

/--
A header with labels, among blocks of which none begins at one of the three rows: the labels stay as they are,
whether or not the header is taken for a data row.
-/
theorem leftAlone (h : Tagged g ds width first index bs rows rows')
    (hrows : rows = up ++ header :: label :: tags :: down) (hlabel : label.isIgnore = true)
    (hbs : ∀ b ∈ bs, b.stop ≤ index + up.length ∨
      (b.start ≤ index + up.length ∧ b.stop = index + up.length + 2) ∨ index + up.length + 2 < b.header) :
    LeftAlone up header label tags down rows' := by
  induction h generalizing up with
  | nil rows => exact ⟨up, header, down, hrows, List.prefix_refl _, ⟨0, .refl _⟩, 0, .refl _⟩
  | @block first index b bs above labels data below row filled below' hb hfilled h ih =>
    obtain ⟨hbetween, hbs⟩ := List.forall_mem_cons.1 hbs
    have hstop := hb.stop_eq
    have hheader := h.le_header
    rcases hbetween with hover | ⟨hstart, hcovers⟩ | hunder
    · have hcut : (above ++ row :: (labels ++ data)) ++ below = up ++ header :: label :: tags :: down := by
        rw [← hrows]
        simp only [List.append_assoc, List.cons_append]
      obtain ⟨m, rfl, rfl⟩ := exists_of_append_eq_append hcut (by
        simp only [List.length_append, List.length_cons]
        omega)
      have hlength : index + (above ++ row :: (labels ++ data) ++ m).length = b.stop + m.length := by
        simp only [List.length_append, List.length_cons]
        omega
      rw [hlength] at hbs
      obtain ⟨up', image, down', rfl, himage, hup, hdown⟩ := ih rfl hbs
      have hgrown := grown_block g first above row (grown_relabelled hb) hfilled hup
      refine ⟨above ++ g.inserts first ++ row :: (relabelled (ds.zip b.sources) width labels ++ filled ++ up'),
        image, down', ?_, himage, ?_, hdown⟩
      · simp only [List.append_assoc, List.cons_append]
      · simpa only [List.append_assoc, List.cons_append] using hgrown
    · refine leftAlone_of_covered hb hfilled h hrows hlabel hstart hcovers fun c hc => ?_
      have hbetween := hbs c hc
      have hle := hheader c hc
      have hlt := c.header_lt_start
      have hcstop : c.stop = c.start + c.length := rfl
      omega
    · have hblock : Tagged g ds width first index (b :: bs) (above ++ row :: (labels ++ data ++ below)) _ :=
        .block hb hfilled h
      refine hblock.leftAlone_of_below hrows ?_
      rintro c (_ | ⟨_, hc⟩)
      · exact hunder
      · have hle := hheader c hc
        have hbheader := hb.header_eq
        omega

end Tagged
end Tagging
end TagHarvest
