/-
What propagation adds to a store. The same worksheets are harvested with and without it, from one state. The
records that are built are the same, and with propagation they are merged with the latest ids beside their
own fields, so the stores differ in the fields for these ids only. And once a row has built a project, every
record of a lower table has the id of a project in the store, its own or the latest.
-/
import TagHarvest.Proofs.Harvest.Again
import TagHarvest.Proofs.Harvest.Sound
import TagHarvest.Proofs.Record.Annotation

namespace TagHarvest.Harvest

variable {rules : HarvestRules} {h : Harvest}

/-! ## Worksheets at once -/

/-- Worksheets are harvested by taking in what their rows say, in order. -/
theorem worksheets_eq (sheets : List Worksheet) :
    h.worksheets rules sheets = (sheets.flatMap yields).foldl (absorb rules) h := by
  unfold worksheets
  induction sheets generalizing h with
  | nil => rfl
  | cons sheet sheets ih =>
    rw [List.foldl_cons, ih, List.flatMap_cons, List.foldl_append, worksheet_eq]

theorem store_worksheets (sheets : List Worksheet) :
    (h.worksheets rules sheets).store = h.store.mergeAll (attached rules h (sheets.flatMap yields)) := by
  rw [worksheets_eq, foldl_absorb]

/-- The records of every row are sound. -/
theorem sound_of_mem_yields {sheet : Worksheet} {built : List (String × Record)} (hb : built ∈ yields sheet) :
    AllSound built := by
  have hrows : ∀ index cells scope count, built ∈ (reading sheet index cells scope count).2 →
      AllSound built := by
    intro index cells scope count hb
    induction cells generalizing index scope count with
    | nil => cases hb
    | cons row rest ih =>
      unfold reading at hb
      split at hb
      · cases hb
      · rcases List.mem_cons.1 hb with rfl | hb
        · unfold yield
          split
          · exact nofun
          · cases scope with
            | none => exact nofun
            | some recipes => exact build_sound recipes row
        · exact ih _ _ _ hb
  exact hrows _ _ _ _ hb

/-! ## Records with the latest ids -/

/-- The fields in which records name the projects and studies above them. -/
def ancestorFields : List String := [projectTable, studyTable].map (· ++ ".id")

/-- A table that is below neither projects nor studies. -/
def Aside (hierarchy : Hierarchy) (table : String) : Prop :=
  ∀ ancestor ∈ [projectTable, studyTable], hierarchy.isBelow table ancestor = false

theorem idField_not_mem : idField ∉ ancestorFields := by decide

theorem without_attach {table ancestor : String} (ha : ancestor ∈ [projectTable, studyTable])
    (last : Option String) (r : Record) :
    (attach rules table ancestor last r).without ancestorFields = r.without ancestorFields := by
  have hmem : ancestor ++ ".id" ∈ ancestorFields := List.mem_map.2 ⟨ancestor, ha, rfl⟩
  unfold attach
  cases last with
  | none => rfl
  | some id =>
    dsimp only
    split
    · exact Record.without_insert_of_mem hmem r _
    · rfl

theorem attach_of_not_below {table ancestor : String} (hb : rules.hierarchy.isBelow table ancestor = false)
    (last : Option String) (r : Record) : attach rules table ancestor last r = r := by
  unfold attach
  rw [hb]
  cases last <;> rfl

theorem without_propagated (table : String) (r : Record) :
    (h.propagated rules table r).without ancestorFields = r.without ancestorFields := by
  unfold propagated
  split
  · rw [without_attach (by simp), without_attach (by simp)]
  · rfl

theorem propagated_of_aside {table : String} (ht : Aside rules.hierarchy table) (r : Record) :
    h.propagated rules table r = r := by
  unfold propagated
  split
  · rw [attach_of_not_below (ht studyTable (by simp)), attach_of_not_below (ht projectTable (by simp))]
  · rfl

theorem propagated_holds (hr : rules.propagate = true) (table : String) (r : Record) :
    (h.propagated rules table r).Holds r :=
  fun f hf => ⟨f.2, OrderedMap.get?_of_mem ((mem_entries_propagated hr).2 (.inl hf)), fun _ hs => hs⟩

/-- Each record comes into the store with the ids that are the latest at its row. -/
theorem forall₂_attached (h : Harvest) (ys : List (List (String × Record))) :
    List.Forall₂ (fun e e' => ∃ now : Harvest, e' = (e.1, now.propagated rules e.1 e.2)) ys.flatten
      (attached rules h ys) := by
  induction ys generalizing h with
  | nil => exact .nil
  | cons built rest ih =>
    unfold attached
    rw [List.flatten_cons]
    refine List.rel_append ?_ (ih _)
    exact List.forall₂_map_right_iff.2 (List.forall₂_same.2 fun e _ => ⟨h.note built, rfl⟩)

/-! ## Late records -/

/-- The record stands in a row in or above which there is a record of the ancestor. -/
def Late (ys : List (List (String × Record))) (ancestor table : String) (r : Record) : Prop :=
  ∃ above built below, ys = above ++ built :: below ∧ (table, r) ∈ built ∧
    ancestor ∈ (above ++ [built]).flatten.map Prod.fst

/-- After a record of the ancestor there is a latest id of it. -/
theorem latest_isSome {table : String} {start : Option String} {built : List (String × Record)}
    (hb : AllSound built) (hsome : start.isSome ∨ table ∈ built.map Prod.fst) :
    (latest table start built).isSome := by
  unfold latest
  induction built generalizing start with
  | nil => exact hsome.resolve_right (List.not_mem_nil)
  | cons e built ih =>
    obtain ⟨⟨id, hid⟩, hb⟩ := List.forall_mem_cons.1 hb
    rw [List.foldl_cons]
    refine ih hb ?_
    by_cases he : e.1 = table
    · rw [if_pos he, hid.hasId.id?]
      exact .inl rfl
    · rw [if_neg he]
      exact hsome.imp_right fun hmem => (List.mem_cons.1 hmem).resolve_left (Ne.symm he)

/-- With propagation, a late record of a lower table names its ancestor. -/
theorem contains_propagated (hr : rules.propagate = true) {ancestor table : String}
    (ha : ancestor ∈ [projectTable, studyTable]) (hb : rules.hierarchy.isBelow table ancestor = true)
    {built : List (String × Record)} (hsound : AllSound built) (hmem : ancestor ∈ built.map Prod.fst)
    (r : Record) :
    ∃ v, (ancestor ++ ".id", v) ∈ ((h.note built).propagated rules table r).entries := by
  cases hv : r.get? (ancestor ++ ".id") with
  | some v => exact ⟨v, (mem_entries_propagated hr).2 (.inl (OrderedMap.get?_eq_some_iff.1 hv))⟩
  | none =>
    have hlatest : (latest ancestor (h.latest? ancestor) built).isSome := latest_isSome hsound (.inr hmem)
    rw [← latest?_note ha] at hlatest
    obtain ⟨id, hid⟩ := Option.isSome_iff_exists.1 hlatest
    exact ⟨.scalar id, (mem_entries_propagated hr).2 (.inr ⟨ancestor, ha, id, hid, hb, hv, rfl⟩)⟩

/-! ## Two runs -/

/--
The same worksheets harvested with and without propagation give stores with the same tables and ids in the same
order, which are equal without the fields for project and study ids. With propagation a store holds whatever it
holds without, and the tables below neither projects nor studies are the same. And with propagation a record of
a table below projects that is built in or after a row with a project has the id of a project in the store; the
same is true of studies.
-/
theorem worksheets_propagate (hierarchy : Hierarchy) (h : Harvest) (sheets : List Worksheet) :
    let on := (h.worksheets { hierarchy, propagate := true } sheets).store
    let off := (h.worksheets { hierarchy, propagate := false } sheets).store
    on.keys = off.keys ∧
      (∀ table, (on.table? table).map OrderedMap.keys = (off.table? table).map OrderedMap.keys) ∧
      on.without ancestorFields = off.without ancestorFields ∧
      (∀ table id r, off.record? table id = some r → ∃ r', on.record? table id = some r' ∧ r'.Holds r) ∧
      (∀ table, Aside hierarchy table → on.table? table = off.table? table) ∧
      ∀ ancestor ∈ [projectTable, studyTable], ∀ table r, Late (sheets.flatMap yields) ancestor table r →
        hierarchy.isBelow table ancestor →
        ∃ id stored, r.id? = some id ∧ on.record? table id = some stored ∧
          stored.contains (ancestor ++ ".id") := by
  intro on off
  let rules : HarvestRules := { hierarchy, propagate := true }
  have hon : on = h.store.mergeAll (attached rules h (sheets.flatMap yields)) := store_worksheets sheets
  have hoff : off = h.store.mergeAll (sheets.flatMap yields).flatten :=
    (store_worksheets sheets).trans (congrArg _ (attached_of_not_propagate rfl _))
  have hannotated : Store.Annotated ancestorFields (Aside hierarchy) off on := by
    rw [hon, hoff]
    refine (Store.Annotated.refl _ _ h.store).mergeAll idField_not_mem ((forall₂_attached h _).imp ?_)
    rintro e _ ⟨now, rfl⟩
    have hspared : Aside hierarchy e.1 → propagated rules now e.1 e.2 = e.2 := fun ht => propagated_of_aside ht _
    exact ⟨rfl, without_propagated _ _, propagated_holds rfl _ _, hspared⟩
  refine ⟨hannotated.keys, hannotated.keys_table?, hannotated.without, hannotated.holds, hannotated.spared, ?_⟩
  rintro ancestor ha table r ⟨above, built, below, hys, hr, hmem⟩ hbelow
  have hsound : AllSound (above ++ [built]).flatten := by
    intro e he
    obtain ⟨row, hrow, he⟩ := List.mem_flatten.1 he
    have hrow' : row ∈ sheets.flatMap yields := by
      rw [hys]
      rcases List.mem_append.1 hrow with hrow | hrow
      · exact List.mem_append_left _ hrow
      · exact List.mem_append_right _ (List.mem_cons.2 (.inl (List.mem_singleton.1 hrow)))
    obtain ⟨sheet, -, hrow'⟩ := List.mem_flatMap.1 hrow'
    exact sound_of_mem_yields hrow' e he
  obtain ⟨id, hid⟩ := hsound (table, r) (by simp [hr])
  let now := h.note (above ++ [built]).flatten
  have hattached : (table, now.propagated rules table r) ∈ attached rules h (sheets.flatMap yields) :=
    mem_attached_iff.2 ⟨above, built, below, r, hys, hr, rfl⟩
  obtain ⟨stored, hstored, hholds⟩ :=
    Store.holds_mergeAll h.store hattached id (id?_propagated.trans hid.hasId.id?)
  obtain ⟨v, hv⟩ : ∃ v, (ancestor ++ ".id", v) ∈ (now.propagated rules table r).entries :=
    contains_propagated rfl ha hbelow hsound hmem r
  obtain ⟨w, hw, -⟩ := hholds _ hv
  refine ⟨id, stored, hid.hasId.id?, by rw [hon]; exact hstored, ?_⟩
  unfold OrderedMap.contains
  rw [hw]
  rfl

/-- A project and a study, and on the next worksheet an entity that at first names neither and then another study. -/
def nested : List Worksheet :=
  [⟨"a.csv", "a", [["#tags", "#project.id", "#study.id"], ["", "P1", "T1"]]⟩,
    ⟨"b.csv", "b", [["#tags", "#entity.id", "#.study.id"], ["", "E1", ""], ["", "E2", "T2"], ["", "E1", "T3"]]⟩]

theorem worksheets_propagate_nested :
    let on := (worksheets { propagate := true } { store := .empty } nested).store
    let off := (worksheets { propagate := false } { store := .empty } nested).store
    let first : Record := .ofList [("id", .scalar "E1")]
    on.without ancestorFields = off.without ancestorFields ∧
      Late (nested.flatMap yields) "study" "entity" first ∧ Hierarchy.standard.isBelow "entity" "study" ∧
      (∃ id stored, first.id? = some id ∧ on.record? "entity" id = some stored ∧ stored.contains "study.id") ∧
      on.record? "entity" "E1" = some (.ofList
        [("id", .scalar "E1"), ("project.id", .scalar "P1"), ("study.id", .list ["T1", "T3"])]) ∧
      off.record? "entity" "E1" = some (.ofList [("id", .scalar "E1"), ("study.id", .scalar "T3")]) := by
  intro on off first
  obtain ⟨-, -, hwithout, -, -, hlate⟩ := worksheets_propagate .standard { store := .empty } nested
  have hfirst : Late (nested.flatMap yields) "study" "entity" first :=
    ⟨(nested.flatMap yields).take 3, [("entity", first)], (nested.flatMap yields).drop 4, by decide +kernel,
      List.mem_singleton_self _, by decide +kernel⟩
  exact ⟨hwithout, hfirst, rfl, hlate "study" (by decide) "entity" first hfirst rfl, by decide +kernel,
    by decide +kernel⟩

end TagHarvest.Harvest
