/-
Which rows are headers. Descriptions take their columns in turn, an optional one as well as a required one, so
a row that the required descriptions by themselves find to be a header is none for the whole list if and only
if all columns that fit some required description are taken when its turn comes. Only an optional description
does this to a required one: where no optional description takes a column that a later required one has by
itself, the row is a header, and each required description has the source that it has without the optional
ones.
-/
import TagHarvest.Tagging.Block
import Mathlib.Data.List.Induction

namespace TagHarvest
namespace Description

variable {finds : Pattern → String → Bool} {t : HeaderTest} {taken taken' : List Nat} {row : Row} {c : Nat}

/-! ## Columns that are taken -/

/-- A cell of the row in the column passes the test. -/
def Fits (finds : Pattern → String → Bool) (t : HeaderTest) (row : Row) (c : Nat) : Prop :=
  c < row.length ∧ (t.exact finds (row.cell c) = true ∨ t.loose finds (row.cell c) = true)

theorem column?_eq_none_iff :
    column? finds t taken row = none ↔ ∀ c, Fits finds t row c → c ∈ taken := by
  unfold column? Fits
  simp only [Option.orElse_eq_orElse, Option.orElse_eq_or, Option.or_eq_none_iff, List.find?_eq_none,
    List.mem_filter, List.mem_range, Bool.not_eq_true', List.contains_eq_mem, decide_eq_false_iff_not]
  constructor
  · rintro ⟨hexact, hloose⟩ c ⟨hc, hfits⟩
    by_contra hfree
    rcases hfits with hfits | hfits
    · exact hexact c ⟨hc, hfree⟩ hfits
    · exact hloose c ⟨hc, hfree⟩ hfits
  · intro h
    exact ⟨fun c ⟨hc, hfree⟩ hfits => hfree (h c ⟨hc, .inl hfits⟩),
      fun c ⟨hc, hfree⟩ hfits => hfree (h c ⟨hc, .inr hfits⟩)⟩

/-- What is found first among some items is so among fewer, if it is one of them. -/
theorem find?_filter_of_imp {α : Type} {l : List α} {p p' q : α → Bool} {a : α} (himp : ∀ b, p' b = true → p b = true)
    (ha : p' a = true) (h : (l.filter p).find? q = some a) : (l.filter p').find? q = some a := by
  rw [List.find?_filter, List.find?_eq_some_iff_append] at h ⊢
  obtain ⟨hpa, before, after, hl, hbefore⟩ := h
  rw [decide_eq_true_iff] at hpa
  refine ⟨decide_eq_true ⟨ha, hpa.2⟩, before, after, hl, fun b hb => ?_⟩
  have hnot := hbefore b hb
  rw [Bool.not_eq_true', decide_eq_false_iff_not] at hnot ⊢
  exact fun hb' => hnot ⟨himp b hb'.1, hb'.2⟩

theorem not_mem_of_column? (h : column? finds t taken row = some c) : c ∉ taken := by
  unfold column? at h
  rw [Option.orElse_eq_orElse, Option.orElse_eq_or, Option.or_eq_some_iff] at h
  have hmem : c ∈ (List.range row.length).filter fun c => !taken.contains c := by
    rcases h with h | ⟨-, h⟩ <;> exact List.mem_of_find?_eq_some h
  simpa using (List.mem_filter.1 hmem).2

/-- A column is still the one of a test when more columns are taken, but not this one. -/
theorem column?_of_subset (hsub : taken ⊆ taken') (hc : c ∉ taken') (h : column? finds t taken row = some c) :
    column? finds t taken' row = some c := by
  unfold column? at h ⊢
  rw [Option.orElse_eq_orElse, Option.orElse_eq_or, Option.or_eq_some_iff] at h ⊢
  have himp : ∀ b, (!taken'.contains b) = true → (!taken.contains b) = true := by
    intro b hb
    simp only [Bool.not_eq_true', List.contains_eq_mem, decide_eq_false_iff_not] at hb ⊢
    exact fun hmem => hb (hsub hmem)
  have hfree : (!taken'.contains c) = true := by simpa using hc
  rcases h with h | ⟨hnone, h⟩
  · exact .inl (find?_filter_of_imp himp hfree h)
  · refine .inr ⟨?_, find?_filter_of_imp himp hfree h⟩
    rw [List.find?_eq_none] at hnone ⊢
    intro b hb
    rw [List.mem_filter] at hb
    exact hnone b (List.mem_filter.2 ⟨hb.1, himp b hb.2⟩)

/-! ## Sources after other descriptions -/

/-- The columns that are taken when it comes to what follows some descriptions. -/
def takenBy (finds : Pattern → String → Bool) (taken : List Nat) (ds : List Description) (row : Row) : List Nat :=
  ds.foldl (fun taken d => taking taken (source? finds d.test taken row)) taken

/-- The source of a description that comes after others. -/
def sourceAfter? (finds : Pattern → String → Bool) (before : List Description) (d : Description) (row : Row) :
    Option ValueSource :=
  source? finds d.test (takenBy finds [] before row) row

theorem mem_taking {source : Option ValueSource} :
    c ∈ taking taken source ↔ source = some (.column c) ∨ c ∈ taken := by
  unfold taking
  split
  · rw [List.mem_cons, Option.some.injEq, ValueSource.column.injEq, eq_comm]
  · rename_i hnot
    exact ⟨.inr, fun h => h.resolve_left (hnot c)⟩

theorem mem_takenBy_concat {ds : List Description} {d : Description} :
    c ∈ takenBy finds [] (ds ++ [d]) row ↔
      sourceAfter? finds ds d row = some (.column c) ∨ c ∈ takenBy finds [] ds row := by
  unfold takenBy sourceAfter?
  rw [List.foldl_append]
  exact mem_taking

theorem sources?_concat (taken : List Nat) (ds : List Description) (d : Description) (row : Row) :
    sources? finds taken (ds ++ [d]) row =
      if (source? finds d.test (takenBy finds taken ds row) row).isNone && d.header.required then none
      else (sources? finds taken ds row).map (· ++ [source? finds d.test (takenBy finds taken ds row) row]) := by
  induction ds generalizing taken with
  | nil =>
    simp only [List.nil_append, sources?, takenBy, List.foldl_nil, Option.map_some]
    rfl
  | cons d' ds ih =>
    have hrest : takenBy finds taken (d' :: ds) row =
        takenBy finds (taking taken (source? finds d'.test taken row)) ds row := rfl
    rw [List.cons_append, sources?, sources?, ih, hrest]
    split
    · exact (ite_self none).symm
    · split
      · rfl
      · rw [Option.map_map, Option.map_map]
        rfl

/-! ## Tests and their columns -/

/-- Only what is computed has a source that is no column. -/
theorem computed_or_column (t : HeaderTest) : (∃ e, t = .computed e) ∨
    ∀ finds taken row, source? finds t taken row = (column? finds t taken row).map .column := by
  cases t with
  | literal text => exact .inr fun _ _ _ => rfl
  | pattern p => exact .inr fun _ _ _ => rfl
  | computed e => exact .inl ⟨e, rfl⟩

theorem not_mem_of_source? (h : source? finds t taken row = some (.column c)) : c ∉ taken := by
  rcases computed_or_column t with ⟨e, rfl⟩ | hcolumn
  · unfold source? at h
    dsimp only at h
    split at h <;> cases h
  · rw [hcolumn, Option.map_eq_some_iff] at h
    obtain ⟨_, hc, heq⟩ := h
    cases heq
    exact not_mem_of_column? hc

/-- A source is still the one of a test when more columns are taken, but not its own. -/
theorem source?_of_subset {source : ValueSource} (hsub : taken ⊆ taken')
    (hfree : ∀ c, source = .column c → c ∉ taken') (h : source? finds t taken row = some source) :
    source? finds t taken' row = some source := by
  rcases computed_or_column t with ⟨e, rfl⟩ | hcolumn
  · exact h
  · rw [hcolumn, Option.map_eq_some_iff] at h ⊢
    obtain ⟨c, hc, rfl⟩ := h
    exact ⟨c, column?_of_subset hsub (hfree c rfl) hc, rfl⟩

/-- A test that can have a source has none exactly when it fits columns, but all of them are taken. -/
theorem source?_eq_none_iff {source : ValueSource} (h : source? finds t taken row = some source) :
    source? finds t taken' row = none ↔
      (∃ c, Fits finds t row c) ∧ ∀ c, Fits finds t row c → c ∈ taken' := by
  rcases computed_or_column t with ⟨e, rfl⟩ | hcolumn
  · have hsome : source? finds (.computed e) taken' row = some source := h
    rw [hsome]
    refine iff_of_false nofun ?_
    rintro ⟨⟨c, -, hfits⟩, -⟩
    simp [HeaderTest.loose, HeaderTest.exact] at hfits
  · rw [hcolumn, Option.map_eq_none_iff, column?_eq_none_iff, iff_and_self]
    intro _
    by_contra hnone
    rw [hcolumn, column?_eq_none_iff.2 fun c hc => absurd ⟨c, hc⟩ hnone] at h
    cases h

/-! ## Required and optional descriptions -/

/-- The descriptions that are required, in their order. -/
def requiredOf (ds : List Description) : List Description := ds.filter (·.header.required)

/-- The sources of the descriptions that are required. -/
def requiredSources (ds : List Description) (sources : List (Option ValueSource)) : List (Option ValueSource) :=
  ((ds.zip sources).filter (·.1.header.required)).map Prod.snd

/-- Some description of a list, together with those before it, has a property. -/
def Occurs (P : List Description → Description → Prop) (ds : List Description) : Prop :=
  ∃ before d after, ds = before ++ d :: after ∧ P before d

/-- An optional description takes the column when its turn comes. -/
def OptionalTakes (finds : Pattern → String → Bool) (row : Row) (c : Nat) : List Description → Prop :=
  Occurs fun before o => o.header.required = false ∧ sourceAfter? finds before o row = some (.column c)

/-- Before a required description, an optional one takes the column that is its own without optional ones. -/
def Displaces (finds : Pattern → String → Bool) (row : Row) : List Description → Prop :=
  Occurs fun before d => d.header.required = true ∧
    ∃ c, sourceAfter? finds (requiredOf before) d row = some (.column c) ∧ OptionalTakes finds row c before

/-- When its turn comes, a required description fits columns, but all of them are taken. -/
def Starves (finds : Pattern → String → Bool) (row : Row) : List Description → Prop :=
  Occurs fun before d => d.header.required = true ∧ (∃ c, Fits finds d.test row c) ∧
    ∀ c, Fits finds d.test row c → c ∈ takenBy finds [] before row

theorem not_occurs_nil {P : List Description → Description → Prop} : ¬ Occurs P [] := by
  rintro ⟨before, d, after, h, -⟩
  cases before <;> cases h

theorem occurs_concat {P : List Description → Description → Prop} {ds : List Description} {d : Description} :
    Occurs P (ds ++ [d]) ↔ Occurs P ds ∨ P ds d := by
  constructor
  · rintro ⟨before, e, after, h, hP⟩
    rcases after.eq_nil_or_concat with rfl | ⟨after, e', rfl⟩
    · obtain ⟨rfl, heq⟩ := List.append_inj' h rfl
      cases heq
      exact .inr hP
    · rw [List.concat_eq_append, ← List.cons_append, ← List.append_assoc] at h
      obtain ⟨rfl, -⟩ := List.append_inj' h rfl
      exact .inl ⟨before, e, after, rfl, hP⟩
  · rintro (⟨before, e, after, rfl, hP⟩ | hP)
    · exact ⟨before, e, after ++ [d], by rw [List.append_assoc, List.cons_append], hP⟩
    · exact ⟨ds, d, [], rfl, hP⟩

theorem requiredOf_concat (ds : List Description) (d : Description) :
    requiredOf (ds ++ [d]) = if d.header.required then requiredOf ds ++ [d] else requiredOf ds := by
  unfold requiredOf
  rw [List.filter_append]
  cases hrequired : d.header.required with
  | false => simp [hrequired]
  | true => simp [hrequired]

theorem requiredSources_concat {ds : List Description} {sources : List (Option ValueSource)} {d : Description}
    {source : Option ValueSource} (hlength : ds.length = sources.length) :
    requiredSources (ds ++ [d]) (sources ++ [source]) =
      if d.header.required then requiredSources ds sources ++ [source] else requiredSources ds sources := by
  unfold requiredSources
  rw [List.zip_append hlength, List.filter_append, List.map_append]
  cases hrequired : d.header.required with
  | false => simp [hrequired]
  | true => simp [hrequired]

/-- There are no sources as soon as a required description has none. -/
theorem sources?_eq_none_iff {ds : List Description} :
    sources? finds [] ds row = none ↔
      Occurs (fun before d => d.header.required = true ∧ sourceAfter? finds before d row = none) ds := by
  induction ds using List.reverseRecOn with
  | nil => exact iff_of_false nofun not_occurs_nil
  | append_singleton ds d ih =>
    rw [sources?_concat, occurs_concat, ← ih, ← sourceAfter?]
    split
    · rename_i h
      rw [Bool.and_eq_true, Option.isNone_iff_eq_none] at h
      exact iff_of_true rfl (.inr ⟨h.2, h.1⟩)
    · rename_i h
      rw [Bool.and_eq_true, Option.isNone_iff_eq_none] at h
      rw [Option.map_eq_none_iff, or_iff_left fun h' => h ⟨h'.2, h'.1⟩]

/--
Without a displacement the required descriptions have the sources that they have by themselves, and what is
taken is what they take then and what the optional ones take.
-/
theorem sources?_of_not_displaces {ds : List Description} {rs : List (Option ValueSource)}
    (h : sources? finds [] (requiredOf ds) row = some rs) (hfree : ¬ Displaces finds row ds) :
    (∃ sources, sources? finds [] ds row = some sources ∧ ds.length = sources.length ∧
        requiredSources ds sources = rs) ∧
      ∀ c, c ∈ takenBy finds [] ds row ↔
        c ∈ takenBy finds [] (requiredOf ds) row ∨ OptionalTakes finds row c ds := by
  induction ds using List.reverseRecOn generalizing rs with
  | nil =>
    cases h
    exact ⟨⟨[], rfl, rfl, rfl⟩, fun c => (or_iff_left not_occurs_nil).symm⟩
  | append_singleton ds d ih =>
    unfold Displaces at hfree
    rw [occurs_concat, not_or] at hfree
    obtain ⟨hfree, hd⟩ := hfree
    rw [requiredOf_concat] at h ⊢
    simp only [OptionalTakes, mem_takenBy_concat, occurs_concat]
    cases hrequired : d.header.required with
    | false =>
      rw [hrequired, if_neg Bool.false_ne_true] at h
      obtain ⟨⟨sources, hsources, hlength, hrs⟩, htaken⟩ := ih h hfree
      rw [if_neg Bool.false_ne_true]
      refine ⟨⟨sources ++ [sourceAfter? finds ds d row], ?_, by simp [hlength], ?_⟩, fun c => ?_⟩
      · rw [sources?_concat, hsources, hrequired, Bool.and_false, if_neg Bool.false_ne_true]
        rfl
      · rw [requiredSources_concat hlength, hrequired, if_neg Bool.false_ne_true, hrs]
      · rw [htaken c]
        unfold OptionalTakes
        tauto
    | true =>
      rw [hrequired, if_pos rfl, sources?_concat, ← sourceAfter?, hrequired, Bool.and_true,
        Option.ite_none_left_eq_some, Option.map_eq_some_iff] at h
      obtain ⟨hsome, rs, hrs, rfl⟩ := h
      obtain ⟨source, hsource⟩ : ∃ source, sourceAfter? finds (requiredOf ds) d row = some source :=
        Option.ne_none_iff_exists'.1 (by simpa using hsome)
      obtain ⟨⟨sources, hsources, hlength, hrs'⟩, htaken⟩ := ih hrs hfree
      -- what the description takes by itself is free
      have hsource' : sourceAfter? finds ds d row = some source := by
        refine source?_of_subset (fun c hc => (htaken c).2 (.inl hc)) (fun c heq hc => ?_) hsource
        subst heq
        rcases (htaken c).1 hc with hc | hc
        · exact not_mem_of_source? hsource hc
        · exact hd ⟨hrequired, c, hsource, hc⟩
      rw [if_pos rfl, hsource]
      refine ⟨⟨sources ++ [some source], ?_, by simp [hlength], ?_⟩, fun c => ?_⟩
      · rw [sources?_concat, ← sourceAfter?, hsource', hsources, if_neg (by simp)]
        rfl
      · rw [requiredSources_concat hlength, hrequired, if_pos rfl, hrs']
      · rw [mem_takenBy_concat, hsource, hsource', htaken c]
        unfold OptionalTakes
        simp [or_assoc]

/-! ## Headers -/

/-- Each required description has one of the sources. -/
theorem exists_source_of_mem {ds : List Description} {sources : List (Option ValueSource)}
    (h : sources? finds taken ds row = some sources) {d : Description} (hd : d ∈ ds)
    (hrequired : d.header.required = true) :
    ∃ taken source, source? finds d.test taken row = some source ∧ some source ∈ sources := by
  induction ds generalizing taken sources with
  | nil => cases hd
  | cons e ds ih =>
    rw [sources?, Option.ite_none_left_eq_some, Option.map_eq_some_iff] at h
    obtain ⟨hsome, rest, hrest, rfl⟩ := h
    rcases List.mem_cons.1 hd with rfl | hd
    · rw [hrequired, Bool.and_true, Option.isNone_iff_eq_none] at hsome
      obtain ⟨source, hsource⟩ := Option.ne_none_iff_exists'.1 hsome
      exact ⟨taken, source, hsource, hsource ▸ List.mem_cons_self⟩
    · obtain ⟨taken', source, hsource, hmem⟩ := ih hrest hd
      exact ⟨taken', source, hsource, List.mem_cons_of_mem _ hmem⟩

theorem matchHeader?_eq_some_iff {ds : List Description} {sources : List (Option ValueSource)} :
    matchHeader? finds ds row = some sources ↔
      sources? finds [] ds row = some sources ∧ ∃ source, some source ∈ sources := by
  unfold matchHeader?
  cases sources? finds [] ds row with
  | none => simp
  | some found =>
    dsimp only
    rw [Option.ite_none_right_eq_some, and_comm, List.any_eq_true]
    refine and_congr_right fun heq => ?_
    cases heq
    constructor
    · rintro ⟨_, hmem, hsome⟩
      obtain ⟨source, rfl⟩ := Option.isSome_iff_exists.1 hsome
      exact ⟨source, hmem⟩
    · rintro ⟨source, hmem⟩
      exact ⟨_, hmem, rfl⟩

/-- Where a description is required, sources of all make a header. -/
theorem matchHeader?_eq_some_of_required {ds : List Description} {d : Description} (hd : d ∈ ds)
    (hrequired : d.header.required = true) {sources : List (Option ValueSource)}
    (h : sources? finds [] ds row = some sources) : matchHeader? finds ds row = some sources := by
  obtain ⟨-, source, -, hmem⟩ := exists_source_of_mem h hd hrequired
  exact matchHeader?_eq_some_iff.2 ⟨h, source, hmem⟩

theorem sources?_eq_none_iff_starves {ds : List Description} {rs : List (Option ValueSource)}
    (h : sources? finds [] (requiredOf ds) row = some rs) :
    sources? finds [] ds row = none ↔ Starves finds row ds := by
  rw [sources?_eq_none_iff]
  refine exists_congr fun before => exists_congr fun d => exists_congr fun after => and_congr_right fun hds =>
    and_congr_right fun hrequired => ?_
  have hd : d ∈ ds := by
    rw [hds]
    exact List.mem_append_right _ List.mem_cons_self
  obtain ⟨taken, source, hsource, -⟩ := exists_source_of_mem h (List.mem_filter.2 ⟨hd, hrequired⟩) hrequired
  exact source?_eq_none_iff hsource

/--
A row that is a header of the required descriptions is one of all descriptions unless a required one is
starved. It takes a displacement to starve one: without any, the row is a header, and each required description
has the source that it has by itself.
-/
theorem matchHeader?_of_required {ds : List Description} {rs : List (Option ValueSource)}
    (h : matchHeader? finds (requiredOf ds) row = some rs) :
    (matchHeader? finds ds row = none ↔ Starves finds row ds) ∧
      (¬ Displaces finds row ds → ∃ sources, matchHeader? finds ds row = some sources ∧
        requiredSources ds sources = rs) := by
  obtain ⟨hrs, source, hsource⟩ := matchHeader?_eq_some_iff.1 h
  obtain ⟨d, hd⟩ : ∃ d, d ∈ requiredOf ds := by
    by_contra hnone
    rw [List.eq_nil_iff_forall_not_mem.2 fun d hd => hnone ⟨d, hd⟩] at hrs
    cases hrs
    cases hsource
  rw [requiredOf, List.mem_filter] at hd
  constructor
  · rw [← sources?_eq_none_iff_starves hrs]
    cases hsources : sources? finds [] ds row with
    | none => simp [matchHeader?, hsources]
    | some sources => rw [matchHeader?_eq_some_of_required hd.1 hd.2 hsources]
  · intro hfree
    obtain ⟨⟨sources, hsources, -, heq⟩, -⟩ := sources?_of_not_displaces hrs hfree
    exact ⟨sources, matchHeader?_eq_some_of_required hd.1 hd.2 hsources, heq⟩

/-- A row where an optional description finds the column of a required one first, though another would do. -/
def contestedRow : Row := ["Sample Name", "Full Name"]

def contestingDescriptions : List Description :=
  [⟨⟨"Name", "#sample.alias", false⟩, .literal "name"⟩,
    ⟨⟨"Sample Name", "#sample.id", true⟩, .literal "sample name"⟩]

theorem matchHeader?_of_required_starved :
    let finds : Pattern → String → Bool := fun _ _ => false
    (matchHeader? finds (requiredOf contestingDescriptions) contestedRow).isSome = true ∧
      matchHeader? finds contestingDescriptions contestedRow = none ∧
      Starves finds contestedRow contestingDescriptions ∧ Displaces finds contestedRow contestingDescriptions := by
  intro finds
  have hrequired : (matchHeader? finds (requiredOf contestingDescriptions) contestedRow).isSome = true := by
    decide +kernel
  have hnone : matchHeader? finds contestingDescriptions contestedRow = none :=
    Option.isNone_iff_eq_none.1 (by decide +kernel)
  obtain ⟨rs, hrs⟩ := Option.isSome_iff_exists.1 hrequired
  obtain ⟨hstarves, hkeeps⟩ := matchHeader?_of_required hrs
  refine ⟨hrequired, hnone, hstarves.1 hnone, ?_⟩
  by_contra hfree
  obtain ⟨sources, hsources, -⟩ := hkeeps hfree
  rw [hnone] at hsources
  cases hsources

end Description
end TagHarvest
