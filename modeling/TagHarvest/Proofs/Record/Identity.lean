/-
Identity of records. A record has an id if its `id` field is a scalar that is not empty; a table or a store
is keyed by id if every record stands under the id it has. Changing one record of a store keeps the names
of the tables and the keys of the records.
-/
import TagHarvest.Record.Store
import TagHarvest.Conversion.Rename
import TagHarvest.Proofs.OrderedMap
import Mathlib.Data.List.Forall2

namespace TagHarvest

/-- The record's `id` is the scalar `id`, which is not empty. -/
def Record.HasId (r : Record) (id : String) : Prop :=
  r.get? idField = some (.scalar id) ∧ id ≠ ""

/-- Every record stands under the id it has. -/
def Table.KeyedById (t : Table) : Prop := ∀ e ∈ t.entries, Record.HasId e.2 e.1

/-- Every record of every table stands under the id it has. -/
def Store.KeyedById (s : Store) : Prop := ∀ e ∈ s.entries, Table.KeyedById e.2

instance (r : Record) (id : String) : Decidable (r.HasId id) :=
  inferInstanceAs (Decidable (_ ∧ _))

instance (t : Table) : Decidable t.KeyedById :=
  inferInstanceAs (Decidable (∀ _ ∈ _, _))

instance (s : Store) : Decidable s.KeyedById :=
  inferInstanceAs (Decidable (∀ _ ∈ _, _))

/-! ## Ids of records -/

/-- The id is no reference to a record of a table. -/
theorem idField_ne_append (table : String) : idField ≠ table ++ ".id" := by
  intro h
  have hl := congrArg String.length h
  rw [String.length_append] at hl
  have hid : idField.length = 2 := by decide
  have hending : ".id".length = 3 := by decide
  omega

namespace Record

variable {r : Record} {id key : String}

theorem id?_eq_some_iff : r.id? = some id ↔ r.get? idField = some (.scalar id) := by
  unfold id?
  cases r.get? idField with
  | none => simp
  | some v => cases v <;> simp [FieldValue.asScalar?]

theorem HasId.id? (h : r.HasId id) : r.id? = some id := id?_eq_some_iff.2 h.1

theorem usableId?_eq_some_iff : r.usableId? = some id ↔ r.HasId id := by
  unfold usableId? HasId
  rw [Option.filter_eq_some_iff, id?_eq_some_iff]
  simp

theorem usableId?_eq_none_iff : r.usableId? = none ↔ ∀ id, ¬ r.HasId id := by
  rw [Option.eq_none_iff_forall_ne_some]
  simp only [ne_eq, usableId?_eq_some_iff]

theorem isNone_usableId?_eq_false_iff : r.usableId?.isNone = false ↔ ∃ id, r.HasId id := by
  rw [← Bool.not_eq_true, Option.isNone_iff_eq_none, usableId?_eq_none_iff]
  push Not
  exact Iff.rfl

/-- A record has one id. -/
theorem HasId.unique (h : r.HasId id) (h' : r.HasId key) : id = key := by
  have := h.id?.symm.trans h'.id?
  exact Option.some.inj this

end Record

/-! ## Changing one record -/

namespace Store

variable {s : Store} {table key name : String}

theorem record?_eq_some_iff {r : Record} :
    s.record? table key = some r ↔ ∃ t, s.table? table = some t ∧ t.get? key = some r := by
  unfold record?
  exact Option.bind_eq_some_iff

theorem keys_updateRecord (f : Record → Record) : (s.updateRecord table key f).keys = s.keys :=
  OrderedMap.keys_modify s table _

theorem table?_updateRecord_of_ne (f : Record → Record) (h : table ≠ name) :
    (s.updateRecord table key f).table? name = s.table? name :=
  OrderedMap.get?_modify_of_ne s _ h

theorem table?_updateRecord_self (f : Record → Record) :
    (s.updateRecord table key f).table? table = (s.table? table).map (·.modify key f) := by
  unfold updateRecord table?
  rw [OrderedMap.get?_modify, if_pos rfl]

theorem record?_updateRecord (f : Record → Record) (k : String) :
    (s.updateRecord table key f).record? name k =
      if table = name ∧ key = k then (s.record? name k).map f else s.record? name k := by
  by_cases hn : table = name
  · subst hn
    unfold record?
    rw [table?_updateRecord_self]
    cases s.table? table with
    | none => simp
    | some t =>
      show (t.modify key f).get? k = _
      rw [OrderedMap.get?_modify]
      simp
  · rw [if_neg fun h => hn h.1]
    unfold record?
    rw [table?_updateRecord_of_ne f hn]

/-- In a store that is keyed by id, every record has its key as its id. -/
theorem KeyedById.hasId (h : s.KeyedById) {r : Record} (hr : s.record? table key = some r) :
    r.HasId key := by
  obtain ⟨t, ht, hr⟩ := record?_eq_some_iff.1 hr
  exact h (table, t) (OrderedMap.get?_eq_some_iff.1 ht) (key, r) (OrderedMap.get?_eq_some_iff.1 hr)

end Store
end TagHarvest
