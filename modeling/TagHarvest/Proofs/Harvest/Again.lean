/-
Harvesting a worksheet twice. Without propagation the second time gives the same outcome and changes
nothing. With propagation the latest project and study ids are carried from the end of the worksheet to its
beginning, so the records of rows above its first project or study get an id the second time that they did
not get the first time: the store stays as it is exactly if these records hold that id already.
-/
import TagHarvest.Proofs.Harvest.Reading

namespace TagHarvest.Harvest

variable {rules : HarvestRules} {h : Harvest}

/-! ## Without propagation -/

theorem note_note (h : Harvest) (built : List (String × Record)) :
    (h.note built).note built = h.note built := by
  rw [note_eq, note_eq]
  dsimp only
  rw [latest_latest, latest_latest]

/-- Without propagation, harvesting a worksheet again gives the same outcome and changes nothing. -/
theorem worksheet_worksheet (hierarchy : Hierarchy) (h : Harvest) (sheet : Worksheet) :
    let rules : HarvestRules := { hierarchy, propagate := false }
    (h.worksheet rules sheet).2.worksheet rules sheet = h.worksheet rules sheet := by
  intro rules
  have hattached : ∀ h, attached rules h (yields sheet) = (yields sheet).flatten :=
    fun h => attached_of_not_propagate rfl _
  rw [worksheet_eq, worksheet_eq, foldl_absorb, foldl_absorb, hattached, hattached, note_withStore]
  dsimp only
  rw [Store.mergeAll_mergeAll, note_note]

/-! ## Attached ids -/

section Attach

variable {table ancestor : String} {last : Option String} {r : Record}

theorem get?_attach_of_ne {field : String} (hf : field ≠ ancestor ++ ".id") :
    (attach rules table ancestor last r).get? field = r.get? field := by
  unfold attach
  cases last with
  | none => rfl
  | some id =>
    dsimp only
    split
    · exact OrderedMap.get?_insert_of_ne r _ (Ne.symm hf)
    · rfl

/-- The id of an ancestor is attached to a record of a table below it that has none. -/
theorem mem_entries_attach {e : String × FieldValue} :
    e ∈ (attach rules table ancestor last r).entries ↔
      e ∈ r.entries ∨ ∃ id, last = some id ∧ rules.hierarchy.isBelow table ancestor ∧
        r.get? (ancestor ++ ".id") = none ∧ e = (ancestor ++ ".id", .scalar id) := by
  unfold attach
  cases last with
  | none => simp
  | some id =>
    dsimp only
    by_cases hnone : r.get? (ancestor ++ ".id") = none
    · have hcontains : OrderedMap.contains r (ancestor ++ ".id") = false := by
        unfold OrderedMap.contains
        rw [hnone]; rfl
      rw [hcontains]
      cases hb : rules.hierarchy.isBelow table ancestor with
      | false => simp
      | true =>
        rw [Bool.not_false, Bool.and_self, if_pos rfl, OrderedMap.entries_insert_of_get? _ hnone,
          List.mem_append, List.mem_singleton]
        simp [hnone]
    · have hcontains : OrderedMap.contains r (ancestor ++ ".id") = true := by
        unfold OrderedMap.contains
        exact Option.isSome_iff_ne_none.2 hnone
      rw [hcontains]
      simp [hnone]

theorem get?_propagated_of_ne {field : String} (hp : field ≠ projectTable ++ ".id")
    (hs : field ≠ studyTable ++ ".id") : (h.propagated rules table r).get? field = r.get? field := by
  unfold propagated
  split
  · rw [get?_attach_of_ne hs, get?_attach_of_ne hp]
  · rfl

theorem id?_propagated : (h.propagated rules table r).id? = r.id? := by
  unfold Record.id?
  rw [get?_propagated_of_ne (idField_ne_append _) (idField_ne_append _)]

/-- The fields of a record with the latest ids attached: its own, and the ids it lacks. -/
theorem mem_entries_propagated (hr : rules.propagate = true) {e : String × FieldValue} :
    e ∈ (h.propagated rules table r).entries ↔
      e ∈ r.entries ∨ ∃ ancestor ∈ [projectTable, studyTable], ∃ id, h.latest? ancestor = some id ∧
        rules.hierarchy.isBelow table ancestor ∧ r.get? (ancestor ++ ".id") = none ∧
        e = (ancestor ++ ".id", .scalar id) := by
  have hne : studyTable ++ ".id" ≠ projectTable ++ ".id" := by decide
  unfold propagated
  rw [if_pos hr, mem_entries_attach, mem_entries_attach, get?_attach_of_ne hne, or_assoc]
  simp only [List.mem_cons, List.not_mem_nil, or_false, exists_eq_or_imp, exists_eq_left]
  exact Iff.rfl

end Attach

/-! ## With propagation -/

theorem latest?_note {ancestor : String} (ha : ancestor ∈ [projectTable, studyTable]) (h : Harvest)
    (built : List (String × Record)) :
    (h.note built).latest? ancestor = latest ancestor (h.latest? ancestor) built := by
  rw [note_eq]
  unfold latest?
  dsimp only
  split
  · rename_i hp
    rw [hp]
  · rename_i hp
    split
    · rename_i hs
      rw [hs]
    · rename_i hs
      exact absurd ha (by simp [hp, hs])

/-- The record stands in a row up to which there is no record of the ancestor. -/
def Early (ys : List (List (String × Record))) (ancestor table : String) (r : Record) : Prop :=
  ∃ above built below, ys = above ++ built :: below ∧ (table, r) ∈ built ∧
    ancestor ∉ (above ++ [built]).flatten.map Prod.fst

/--
With propagation, harvesting a worksheet again leaves the store as it is exactly if every record that stands
above the first project (or study) and lacks the id of one, in a table below, is in the store with the id
that is the latest at the end of the worksheet.
-/
theorem worksheet_again_iff (hierarchy : Hierarchy) (h : Harvest) (sheet : Worksheet) :
    let rules : HarvestRules := { hierarchy, propagate := true }
    let once := (h.worksheet rules sheet).2
    (once.worksheet rules sheet).2.store = once.store ↔
      ∀ ancestor ∈ [projectTable, studyTable], ∀ table r id last,
        Early (yields sheet) ancestor table r → hierarchy.isBelow table ancestor →
        r.get? (ancestor ++ ".id") = none → r.id? = some id → once.latest? ancestor = some last →
          ∃ old v, once.store.record? table id = some old ∧
            old.get? (ancestor ++ ".id") = some v ∧ last ∈ v.texts := by
  intro rules once
  have honce : once = { h.note (yields sheet).flatten with
      store := h.store.mergeAll (attached rules h (yields sheet)) } :=
    (congrArg Prod.snd (worksheet_eq sheet)).trans (foldl_absorb h (yields sheet))
  have htwice : (once.worksheet rules sheet).2.store =
      once.store.mergeAll (attached rules once (yields sheet)) := by
    rw [worksheet_eq, foldl_absorb]
  have hheld : ∀ e ∈ attached rules h (yields sheet), once.store.Holds e := by
    rw [honce]
    exact fun e he => Store.holds_mergeAll h.store he
  rw [htwice, Store.mergeAll_eq_self_iff]
  constructor
  · rintro hall ancestor ha table r id last ⟨above, built, below, hys, hr, hnone⟩ hbelow hfield hid hlast
    let again := once.note (above ++ [built]).flatten
    have hmem : (table, again.propagated rules table r) ∈ attached rules once (yields sheet) :=
      mem_attached_iff.2 ⟨above, built, below, r, hys, hr, rfl⟩
    obtain ⟨old, hold, hholds⟩ := hall _ hmem id (id?_propagated.trans hid)
    -- nothing is noted up to the row, so what it attaches is the latest id of the first time
    have hlast' : again.latest? ancestor = some last := by
      rw [latest?_note ha, latest_of_not_mem hnone, hlast]
    have hattached : (ancestor ++ ".id", .scalar last) ∈ (again.propagated rules table r).entries :=
      (mem_entries_propagated rfl).2 (.inr ⟨ancestor, ha, last, hlast', hbelow, hfield, rfl⟩)
    obtain ⟨v, hv, hlast⟩ := hholds _ hattached
    exact ⟨old, v, hold, hv, hlast (List.mem_singleton_self last)⟩
  · intro hearly e he id hid
    obtain ⟨above, built, below, r, hys, hr, hrecord⟩ := mem_attached_iff.1 he
    rw [hrecord, id?_propagated] at hid
    have hfirst : (e.1, (h.note (above ++ [built]).flatten).propagated rules e.1 r) ∈
        attached rules h (yields sheet) :=
      mem_attached_iff.2 ⟨above, built, below, r, hys, hr, rfl⟩
    obtain ⟨old, hold, hholds⟩ := hheld _ hfirst id (id?_propagated.trans hid)
    refine ⟨old, hold, fun f hf => ?_⟩
    rw [hrecord, mem_entries_propagated rfl] at hf
    rcases hf with hf | ⟨ancestor, ha, last, hlast, hbelow, hfield, rfl⟩
    · exact hholds f ((mem_entries_propagated rfl).2 (.inl hf))
    · by_cases hmem : ancestor ∈ (above ++ [built]).flatten.map Prod.fst
      · -- the id is noted above the row both times
        rw [latest?_note ha, latest_of_mem hmem _ (h.latest? ancestor), ← latest?_note ha] at hlast
        exact hholds _ ((mem_entries_propagated rfl).2
          (.inr ⟨ancestor, ha, last, hlast, hbelow, hfield, rfl⟩))
      · rw [latest?_note ha, latest_of_not_mem hmem] at hlast
        obtain ⟨old', v, hold', hv, hv'⟩ :=
          hearly ancestor ha e.1 r id last ⟨above, built, below, hys, hr, hmem⟩ hbelow hfield hid hlast
        rw [hold] at hold'
        cases hold'
        refine ⟨v, hv, fun s hs => ?_⟩
        rw [List.mem_singleton.1 hs]
        exact hv'

/-- An entity above the first project gets the project at the end of the worksheet beside its own. -/
theorem worksheet_again_promotes :
    let sheet : Worksheet := ⟨"a.csv", "a",
      [["#tags", "#project.id", "#entity.id"], ["", "", "E1"], ["", "P1", "E1"], ["", "P2", "E2"]]⟩
    let once := worksheet {} { store := .empty } sheet
    once.1 = .ok ⟨1, 3, 5⟩ ∧
      (once.2.store.record? "entity" "E1").bind (·.get? "project.id") = some (.scalar "P1") ∧
      ((once.2.worksheet {} sheet).2.store.record? "entity" "E1").bind (·.get? "project.id") =
        some (.list ["P1", "P2"]) := by
  decide +kernel

end TagHarvest.Harvest
