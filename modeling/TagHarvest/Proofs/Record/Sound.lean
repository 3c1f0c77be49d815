/-
Sound stores: no table is empty, every record stands under the id it has, and no field holds an empty text
or an empty list. Values stay filled when they are merged or extended, and merging a sound record into a
sound store gives a sound store.
-/
import TagHarvest.Record.Merge
import TagHarvest.Proofs.Record.Identity

namespace TagHarvest

namespace FieldValue

/-- A text that is not empty, or a list that is not empty and has no empty text. -/
def Filled : FieldValue → Prop
  | scalar s => s ≠ ""
  | list l => l ≠ [] ∧ "" ∉ l

end FieldValue

/-- The record has the id `key`, and all of its fields are filled. -/
structure Record.Sound (r : Record) (key : String) : Prop where
  hasId : r.HasId key
  filled : ∀ f ∈ r.entries, FieldValue.Filled f.2

/-- The table has records, and each is sound under its key. -/
structure Table.Sound (t : Table) : Prop where
  nonempty : t.entries ≠ []
  records : ∀ e ∈ t.entries, Record.Sound e.2 e.1

/-- Every table is sound. -/
def Store.Sound (s : Store) : Prop := ∀ e ∈ s.entries, Table.Sound e.2

/-! ## Values -/

namespace FieldValue

variable {v w : FieldValue}

theorem filled_iff : v.Filled ↔ v.texts ≠ [] ∧ "" ∉ v.texts := by
  cases v with
  | scalar s => simp [Filled, texts, eq_comm]
  | list l => rfl

theorem mem_addNew {present incoming : List String} {s : String} :
    s ∈ addNew present incoming ↔ s ∈ present ∨ s ∈ incoming := by
  unfold addNew
  induction incoming generalizing present with
  | nil => simp
  | cons a incoming ih =>
    rw [List.foldl_cons, ih, List.mem_cons]
    by_cases h : a ∈ present
    · rw [if_pos h]
      constructor
      · exact fun hs => hs.imp_right .inr
      · rintro (hs | rfl | hs)
        · exact .inl hs
        · exact .inl h
        · exact .inr hs
    · rw [if_neg h, List.mem_append, List.mem_singleton, or_assoc]

theorem filled_list_addNew (hv : v.Filled) (hw : w.Filled) :
    (list (addNew v.texts w.texts)).Filled := by
  obtain ⟨hne, hv⟩ := filled_iff.1 hv
  constructor
  · obtain ⟨s, hs⟩ := List.exists_mem_of_ne_nil _ hne
    exact List.ne_nil_of_mem (mem_addNew.2 (.inl hs))
  · intro h
    exact (mem_addNew.1 h).elim hv (filled_iff.1 hw).2

theorem Filled.merge (hv : v.Filled) (hw : w.Filled) : (v.merge w).Filled := by
  unfold FieldValue.merge
  split
  · exact hv
  · have h := filled_list_addNew hv hw
    cases v with
    | list l => exact h
    | scalar s =>
      change (list (addNew [s] w.texts)).Filled at h
      dsimp only
      split
      · rename_i t ht
        rw [ht] at h
        exact fun he => h.2 (he ▸ List.mem_singleton_self t)
      · exact h

theorem Filled.extend (hv : v.Filled) (hw : w.Filled) : (v.extend w).Filled := by
  rw [filled_iff, texts_extend]
  obtain ⟨hne, hv⟩ := filled_iff.1 hv
  refine ⟨fun h => hne (List.append_eq_nil_iff.1 h).1, fun h => ?_⟩
  exact (List.mem_append.1 h).elim hv (filled_iff.1 hw).2

end FieldValue

/-! ## Records -/

namespace Record

variable {r : Record} {key : String}

/-- A sound record takes a filled value; its id takes only the value it has. -/
theorem Sound.insert (h : r.Sound key) {field : String} {v : FieldValue} (hv : v.Filled)
    (hid : field = idField → v = .scalar key) : Record.Sound (OrderedMap.insert r field v) key := by
  refine ⟨⟨?_, h.hasId.2⟩, fun f hf => ?_⟩
  · by_cases hf : field = idField
    · rw [hid hf, ← hf]
      exact OrderedMap.get?_insert_self r field _
    · rw [OrderedMap.get?_insert_of_ne r v hf]
      exact h.hasId.1
  · rcases OrderedMap.mem_insert hf with rfl | hf
    · exact hv
    · exact h.filled f hf.1

theorem Sound.filled_of_get? (h : r.Sound key) {field : String} {v : FieldValue}
    (hv : r.get? field = some v) : v.Filled :=
  h.filled (field, v) (OrderedMap.get?_eq_some_iff.1 hv)

theorem Sound.single {id : String} (h : id ≠ "") :
    Record.Sound (OrderedMap.single idField (.scalar id)) id := by
  refine ⟨⟨rfl, h⟩, fun f hf => ?_⟩
  cases List.mem_singleton.1 hf
  exact h

/-- Two sound records with the same id merge to one. -/
theorem Sound.absorb {other : Record} (h : r.Sound key) (ho : other.Sound key) :
    (r.absorb other).Sound key := by
  unfold Record.absorb
  refine List.foldlRecOn (motive := fun r => Record.Sound r key) _ _ h fun r hr e he => ?_
  have hid : e.1 = idField → e.2 = .scalar key := by
    intro hf
    have hget := OrderedMap.get?_of_mem he
    rw [hf, ho.hasId.1] at hget
    exact (Option.some.inj hget).symm
  refine hr.insert ?_ fun hf => ?_
  · cases hv : OrderedMap.get? r e.1 with
    | none => exact ho.filled e he
    | some v => exact (hr.filled_of_get? hv).merge (ho.filled e he)
  · -- both values of the id are its key
    rw [hf, hr.hasId.1, hid hf]
    exact FieldValue.merge_self _

end Record

/-! ## Stores -/

namespace Store

variable {s : Store} {table id : String} {r : Record}

theorem sound_empty : Store.Sound OrderedMap.empty := nofun

theorem Sound.of_table? (h : s.Sound) {t : Table} (ht : s.table? table = some t) : t.Sound :=
  h (table, t) (OrderedMap.get?_eq_some_iff.1 ht)

/-- A sound record may be merged into a sound store. -/
theorem Sound.mergeRecord (h : s.Sound) (hr : r.Sound id) : (s.mergeRecord table r).Sound := by
  unfold Store.mergeRecord
  rw [hr.hasId.id?]
  intro e he
  rcases OrderedMap.mem_insert he with rfl | he
  · -- the table is that of before, if there was one
    have hrecords : ∀ f ∈ (s.tableOrEmpty table).entries, Record.Sound f.2 f.1 := by
      unfold tableOrEmpty
      cases ht : s.table? table with
      | none => exact nofun
      | some t => exact (h.of_table? ht).records
    refine ⟨?_, fun f hf => ?_⟩
    · exact List.ne_nil_of_mem (OrderedMap.get?_eq_some_iff.1 (OrderedMap.get?_insert_self _ id _))
    · rcases OrderedMap.mem_insert hf with rfl | hf
      · dsimp only
        split
        · exact hr
        · rename_i old hold
          exact (hrecords (id, old) (OrderedMap.get?_eq_some_iff.1 hold)).absorb hr
      · exact hrecords f hf.1
  · exact h e he.1

end Store
end TagHarvest
