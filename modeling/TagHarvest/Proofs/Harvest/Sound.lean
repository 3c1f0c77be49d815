/-
Harvesting keeps a store sound. Recipes make sound records or none: an empty value is left out, and the id
is a text that is not empty. The latest project and study ids come from such records, so what is attached
to other records is filled too. This holds after every row and every worksheet, also when a header does
not compile and ends its worksheet half-way.
-/
import TagHarvest.Harvest
import TagHarvest.Proofs.Record.Sound

namespace TagHarvest

/-! ## Recipes -/

theorem not_mem_listItems (s : String) : "" ∉ listItems s := by
  intro h
  have := (List.mem_filter.1 h).2
  exact absurd this (by decide)

/-- Recipes give no empty value. -/
theorem FieldRecipe.evaluate_filled {f : FieldRecipe} {row : Row} {v : FieldValue}
    (h : f.evaluate row = some v) : v.Filled := by
  unfold evaluate at h
  obtain ⟨text, -, h⟩ := Option.bind_eq_some_iff.1 h
  dsimp only at h
  cases hl : f.list with
  | true =>
    rw [hl, if_pos rfl] at h
    split at h
    · cases h
    · rename_i hne
      cases h
      exact ⟨fun he => hne (List.isEmpty_iff.2 he), not_mem_listItems text⟩
  | false =>
    rw [hl, if_neg Bool.false_ne_true] at h
    split at h
    · cases h
    · rename_i hne
      cases h
      exact fun he => hne (String.isEmpty_iff.2 he)

namespace RecordRecipe

theorem addValue_sound {row : Row} {record : Record} {f : FieldRecipe} {id : String}
    (h : record.Sound id) (hf : f.name ≠ idField) : (addValue row record f).Sound id := by
  unfold addValue
  cases hv : f.evaluate row with
  | none => exact h
  | some v =>
    have hfilled := FieldRecipe.evaluate_filled hv
    refine h.insert ?_ fun he => absurd he hf
    cases hold : OrderedMap.get? record f.name with
    | none => exact hfilled
    | some old => exact (h.filled_of_get? hold).extend hfilled

/-- The record of a row is sound under an id of its own. -/
theorem build_sound {r : RecordRecipe} {row : Row} {record : Record} (h : r.build row = some record) :
    ∃ id, record.Sound id := by
  unfold build at h
  split at h
  · rename_i id hid
    obtain ⟨f, -, hid⟩ := Option.bind_eq_some_iff.1 hid
    have hne : id ≠ "" := FieldRecipe.evaluate_filled hid
    cases h
    refine ⟨id, ?_⟩
    -- the other declarations never touch the id, which is filtered out of them
    refine List.foldlRecOn (motive := fun record => Record.Sound record id) _ _ (.single hne)
      fun record hr f hf => addValue_sound hr ?_
    simpa using (List.mem_filter.1 hf).2
  · cases h

end RecordRecipe

/-! ## Rows -/

namespace Harvest

/-- The store is sound, and the latest ids are not empty. -/
structure Sound (h : Harvest) : Prop where
  store : h.store.Sound
  project : ∀ id, h.project = some id → id ≠ ""
  study : ∀ id, h.study = some id → id ≠ ""

/-- Records that are each sound under an id of their own. -/
abbrev AllSound (built : List (String × Record)) : Prop := ∀ b ∈ built, ∃ id, Record.Sound b.2 id

variable {rules : HarvestRules} {h : Harvest}

theorem sound_start : Harvest.Sound { store := .empty } := ⟨Store.sound_empty, nofun, nofun⟩

theorem build_sound (recipes : List RecordRecipe) (row : Row) : AllSound (build recipes row) := by
  intro b hb
  obtain ⟨r, -, hr⟩ := List.mem_filterMap.1 hb
  obtain ⟨record, hrecord, rfl⟩ := Option.map_eq_some_iff.1 hr
  exact RecordRecipe.build_sound hrecord

theorem Sound.note (hh : h.Sound) {built : List (String × Record)} (hb : AllSound built) :
    (h.note built).Sound := by
  unfold Harvest.note
  refine List.foldlRecOn (motive := Sound) _ _ hh fun h hh b hmem => ?_
  obtain ⟨id, hid⟩ := hb b hmem
  have hne : ∀ i, Record.id? b.2 = some i → i ≠ "" := by
    rw [hid.hasId.id?]
    rintro _ ⟨⟩
    exact hid.hasId.2
  dsimp only
  split
  · exact ⟨hh.store, hne, hh.study⟩
  · split
    · exact ⟨hh.store, hh.project, hne⟩
    · exact hh

theorem attach_sound {table ancestor id : String} {latest : Option String} {r : Record}
    (hr : r.Sound id) (hl : ∀ i, latest = some i → i ≠ "") :
    (attach rules table ancestor latest r).Sound id := by
  unfold attach
  cases latest with
  | none => exact hr
  | some i =>
    dsimp only
    split
    · exact hr.insert (hl i rfl) fun he => absurd he.symm (idField_ne_append ancestor)
    · exact hr

theorem Sound.propagated (hh : h.Sound) {table id : String} {r : Record} (hr : r.Sound id) :
    (h.propagated rules table r).Sound id := by
  unfold Harvest.propagated
  split
  · exact attach_sound (attach_sound hr hh.project) hh.study
  · exact hr

/-- Sound records may be taken into a sound store. -/
theorem Sound.absorb (hh : h.Sound) {built : List (String × Record)} (hb : AllSound built) :
    (h.absorb rules built).Sound := by
  have hn := hh.note hb
  refine ⟨?_, hn.project, hn.study⟩
  refine List.foldlRecOn (motive := Store.Sound) _ _ hn.store fun s hs b hmem => ?_
  obtain ⟨id, hid⟩ := hb b hmem
  exact hs.mergeRecord (hn.propagated hid)

theorem Sound.row (hh : h.Sound) {compile : Except TagError (List RecordRecipe)} {cells : Row}
    {scope scope' : Option (List RecordRecipe)} {count count' : HarvestCount} {h' : Harvest}
    (hrow : row rules compile cells scope count h = .ok (scope', count', h')) : h'.Sound := by
  unfold Harvest.row at hrow
  split at hrow
  · cases compile with
    | error e => cases hrow
    | ok recipes =>
      cases hrow
      exact hh
  · split at hrow
    · cases hrow
      exact hh
    · split at hrow
      · cases hrow
        exact hh
      · cases scope with
        | none =>
          cases hrow
          exact hh
        | some recipes =>
          cases hrow
          exact hh.absorb (build_sound recipes cells)

/-! ## Worksheets -/

/-- However far the rows of a worksheet are harvested, the state is sound. -/
theorem Sound.rows (hh : h.Sound) (sheet : Worksheet) (index : Nat) (cells : List Row)
    (scope : Option (List RecordRecipe)) (count : HarvestCount) :
    (rows rules sheet index cells scope count h).2.Sound := by
  induction cells generalizing h index scope count with
  | nil => exact hh
  | cons row rest ih =>
    unfold Harvest.rows
    split
    · -- the fault leaves the state of the rows above
      exact hh
    · rename_i hrow
      exact ih (hh.row hrow) _ _ _

theorem Sound.worksheet (hh : h.Sound) (sheet : Worksheet) : (h.worksheet rules sheet).2.Sound :=
  hh.rows sheet 0 sheet.rows none {}

/-- The state after worksheets, each harvested to its end or to the fault that ends it. -/
def worksheets (rules : HarvestRules) (h : Harvest) (sheets : List Worksheet) : Harvest :=
  sheets.foldl (fun h sheet => (h.worksheet rules sheet).2) h

theorem Sound.worksheets (hh : h.Sound) (sheets : List Worksheet) :
    (h.worksheets rules sheets).Sound :=
  List.foldlRecOn (motive := Sound) _ _ hh fun _ hh sheet _ => hh.worksheet sheet

/--
From an empty store on, harvesting leaves a sound store after every worksheet, whatever became of it, and
after every row of the next one.
-/
theorem worksheets_sound (rules : HarvestRules) (sheets : List Worksheet) (sheet : Worksheet) (n k : Nat) :
    let h := Harvest.worksheets rules { store := .empty } (sheets.take n)
    h.store.Sound ∧ (h.rows rules sheet 0 (sheet.rows.take k) none {}).2.store.Sound := by
  have hn : Sound (worksheets rules { store := .empty } (sheets.take n)) := sound_start.worksheets _
  exact ⟨hn.store, (hn.rows sheet 0 (sheet.rows.take k) none {}).store⟩

/-- The last header does not compile, and the records above it stay. -/
example :
    let sheet : Worksheet := ⟨"a.csv", "a",
      [["#tags", "#sample.id", "*#.protocol.id"], ["", "S1", "A,,B"], ["#tags", "#.x"]]⟩
    (worksheet {} { store := .empty } sheet).2.store =
      .ofList [("sample", .ofList [
        ("S1", .ofList [("id", .scalar "S1"), ("protocol.id", .list ["A", "B"])])])] := by
  decide +kernel

end Harvest
end TagHarvest
