/-
Two stores into which the same records are merged, in one of them with some more fields. Merging goes field by
field, so the added fields disturb nothing: without them the two stores stay the same, with the same tables,
ids and fields in the same order. What the first store holds the second holds too, and a table whose records
come without additions is the same in both.
-/
import TagHarvest.Proofs.Record.Gathering

namespace TagHarvest

/-! ## Records without some fields -/

namespace Record

/-- The record without the named fields. -/
def without (fields : List String) (r : Record) : Record := r.filter fun name _ => name ∉ fields

section Without

variable {fields : List String}

theorem without_insert_of_mem {field : String} (hf : field ∈ fields) (r : Record) (v : FieldValue) :
    without fields (r.insert field v) = r.without fields :=
  (OrderedMap.filter_insert (· ∉ fields) r field v).trans (if_neg (by simpa using hf))

theorem get?_without_of_not_mem {field : String} (hf : field ∉ fields) (r : Record) :
    (r.without fields).get? field = r.get? field :=
  (OrderedMap.get?_filter (· ∉ fields) r field).trans (if_pos (by simpa using hf))

theorem id?_without (hid : idField ∉ fields) (r : Record) : (r.without fields).id? = r.id? := by
  unfold id?
  rw [get?_without_of_not_mem hid]

/-- The fields that are absorbed beside the named ones do not depend on them. -/
theorem without_absorb (r other : Record) :
    (r.absorb other).without fields = (r.without fields).absorb (other.without fields) := by
  rw [absorb_eq_alterAll, absorb_eq_alterAll]
  obtain ⟨es, hes⟩ := other
  show without fields (r.alterAll mergeField es) =
    OrderedMap.alterAll mergeField (r.without fields) (es.filter fun e => e.1 ∉ fields)
  clear hes
  unfold OrderedMap.alterAll
  induction es generalizing r with
  | nil => rfl
  | cons e es ih =>
    have hstep := OrderedMap.filter_alter (· ∉ fields) r e.1 (mergeField · e.2)
    rw [List.foldl_cons, ih]
    by_cases he : e.1 ∈ fields
    · rw [List.filter_cons_of_neg (by simpa using he)]
      rw [if_neg (by simpa using he)] at hstep
      exact congrArg (fun r => List.foldl _ r _) hstep
    · rw [List.filter_cons_of_pos (by simpa using he), List.foldl_cons]
      rw [if_pos (by simpa using he)] at hstep
      exact congrArg (fun r => List.foldl _ r _) hstep

end Without

/-! ## Records that hold others -/

theorem Holds.field {r other : Record} (h : r.Holds other) {field : String} {v : FieldValue}
    (hv : other.get? field = some v) : r.HoldsField (field, v) :=
  h (field, v) (OrderedMap.get?_eq_some_iff.1 hv)

theorem Holds.trans {r other more : Record} (h : r.Holds other) (h' : other.Holds more) : r.Holds more := by
  intro f hf
  obtain ⟨v, hv, hsub⟩ := h' f hf
  obtain ⟨u, hu, hsub'⟩ := h.field hv
  exact ⟨u, hu, fun _ htext => hsub' (hsub htext)⟩

theorem get?_absorb (r other : Record) (field : String) :
    (r.absorb other).get? field =
      match other.get? field with
      | none => r.get? field
      | some w => some (mergeField (r.get? field) w) := by
  rw [absorb_eq_alterAll, OrderedMap.get?_alterAll, OrderedMap.given_entries]
  cases other.get? field <;> rfl

/-- Whoever holds both parts of a merge holds the merge. -/
theorem holds_absorb_of_holds {r other held : Record} (h : held.Holds r) (h' : held.Holds other) :
    held.Holds (r.absorb other) := by
  rintro ⟨field, u⟩ hu
  replace hu := OrderedMap.get?_of_mem hu
  rw [get?_absorb] at hu
  cases hw : other.get? field with
  | none =>
    rw [hw] at hu
    exact h.field hu
  | some w =>
    rw [hw] at hu
    cases hv : r.get? field with
    | none =>
      rw [hv] at hu
      cases hu
      exact h'.field hw
    | some v =>
      rw [hv] at hu
      cases hu
      obtain ⟨u, hu, hsub⟩ := h.field hv
      obtain ⟨u', hu', hsub'⟩ := h'.field hw
      rw [hu] at hu'
      cases hu'
      refine ⟨u, hu, fun s hs => ?_⟩
      change s ∈ (v.merge w).texts at hs
      rw [FieldValue.texts_merge, FieldValue.mem_addNew] at hs
      exact hs.elim (hsub ·) (hsub' ·)

theorem Holds.absorb {r r' other other' : Record} (h : r'.Holds r) (h' : other'.Holds other) :
    (r'.absorb other').Holds (r.absorb other) :=
  holds_absorb_of_holds (absorbing_absorb.keeps r' other' r h)
    (.trans (absorbing_absorb.gains r' other') h')

end Record

/-! ## Stores without some fields -/

namespace Store

/-- The store without the named fields in its records. -/
def without (fields : List String) (s : Store) : Store :=
  s.mapValues fun _ t => t.mapValues fun _ r => r.without fields

variable {fields : List String} {s s' : Store} {table : String} {r r' : Record}

theorem keys_without (fields : List String) (s : Store) : (s.without fields).keys = s.keys :=
  OrderedMap.keys_mapValues _ s

theorem table?_without (fields : List String) (s : Store) (table : String) :
    (s.without fields).table? table =
      (s.table? table).map fun t => t.mapValues fun _ r => r.without fields :=
  OrderedMap.get?_mapValues _ s table

theorem without_mergeRecord (hid : idField ∉ fields) (s : Store) (table : String) (r : Record) :
    (s.mergeRecord table r).without fields = (s.without fields).mergeRecord table (r.without fields) := by
  have htable : (s.without fields).tableOrEmpty table =
      (s.tableOrEmpty table).mapValues fun _ r => r.without fields := by
    unfold tableOrEmpty
    rw [table?_without]
    cases s.table? table <;> rfl
  unfold mergeRecord
  rw [Record.id?_without hid]
  cases hr : r.id? with
  | none => rfl
  | some id =>
    refine (OrderedMap.mapValues_insert _ s table _).trans (congrArg (OrderedMap.insert (s.without fields) table) ?_)
    rw [htable]
    refine (OrderedMap.mapValues_insert _ _ id _).trans (congrArg (OrderedMap.insert _ id) ?_)
    rw [OrderedMap.get?_mapValues]
    cases (s.tableOrEmpty table).get? id with
    | none => rfl
    | some old => exact Record.without_absorb old r

/-- A table depends only on the records that are merged into it. -/
theorem table?_mergeRecord_congr {name : String} (h : s'.table? name = s.table? name) (hid : r'.id? = r.id?)
    (hr : table = name → r' = r) :
    (s'.mergeRecord table r').table? name = (s.mergeRecord table r).table? name := by
  unfold mergeRecord
  rw [hid]
  cases r.id? with
  | none => exact h
  | some id =>
    dsimp only
    rw [table?_updateTable, table?_updateTable]
    by_cases hn : table = name
    · subst hn
      unfold tableOrEmpty
      rw [h, hr rfl]
    · rw [if_neg hn, if_neg hn, h]

/-! ## Stores with more fields -/

/--
A store that differs from another by some fields: without them they are the same, it holds what the other has,
and the spared tables are the same.
-/
structure Annotated (fields : List String) (spared : String → Prop) (s s' : Store) : Prop where
  without : s'.without fields = s.without fields
  holds : ∀ table id r, s.record? table id = some r → ∃ r', s'.record? table id = some r' ∧ r'.Holds r
  spared : ∀ table, spared table → s'.table? table = s.table? table

namespace Annotated

variable {spared : String → Prop}

theorem refl (fields : List String) (spared : String → Prop) (s : Store) : Annotated fields spared s s :=
  ⟨rfl, fun _ _ r hr => ⟨r, hr, r.holds_refl⟩, fun _ _ => rfl⟩

/-- A record may be merged into both, into the second with more fields unless its table is spared. -/
theorem mergeRecord (h : Annotated fields spared s s') (hid : idField ∉ fields)
    (hwithout : r'.without fields = r.without fields) (hholds : r'.Holds r) (hspared : spared table → r' = r) :
    Annotated fields spared (s.mergeRecord table r) (s'.mergeRecord table r') := by
  have hsame : r'.id? = r.id? := by
    rw [← Record.id?_without hid r', hwithout, Record.id?_without hid]
  refine ⟨?_, fun name key old hold => ?_, fun name hname => ?_⟩
  · rw [without_mergeRecord hid, without_mergeRecord hid, h.without, hwithout]
  · cases hr : r.id? with
    | none =>
      rw [mergeRecord_of_none hr] at hold
      rw [mergeRecord_of_none (hsame.trans hr)]
      exact h.holds name key old hold
    | some id =>
      rw [record?_mergeRecord hr] at hold
      rw [record?_mergeRecord (hsame.trans hr)]
      by_cases hk : table = name ∧ id = key
      · rw [if_pos hk] at hold ⊢
        refine ⟨_, rfl, ?_⟩
        cases hbefore : s.record? table id with
        | none =>
          rw [hbefore] at hold
          cases hold
          cases s'.record? table id with
          | none => exact hholds
          | some old' => exact .trans (Record.absorbing_absorb.gains old' r') hholds
        | some before =>
          rw [hbefore] at hold
          cases hold
          obtain ⟨before', hbefore', hheld⟩ := h.holds table id before hbefore
          rw [hbefore']
          exact hheld.absorb hholds
      · rw [if_neg hk] at hold ⊢
        exact h.holds name key old hold
  · refine table?_mergeRecord_congr (h.spared name hname) hsame ?_
    rintro rfl
    exact hspared hname

/-- Records may be merged one after the other into both. -/
theorem mergeAll (h : Annotated fields spared s s') (hid : idField ∉ fields) {es es' : List (String × Record)}
    (hes : List.Forall₂ (fun e e' => e'.1 = e.1 ∧ e'.2.without fields = e.2.without fields ∧ e'.2.Holds e.2 ∧
      (spared e.1 → e'.2 = e.2)) es es') :
    Annotated fields spared (s.mergeAll es) (s'.mergeAll es') := by
  unfold Store.mergeAll
  induction hes generalizing s s' with
  | nil => exact h
  | cons he _ ih =>
    obtain ⟨htable, hwithout, hholds, hspared⟩ := he
    rw [List.foldl_cons, List.foldl_cons, htable]
    exact ih (h.mergeRecord hid hwithout hholds hspared)

/-- The stores have the same tables and the same ids, in the same order. -/
theorem keys (h : Annotated fields spared s s') : s'.keys = s.keys := by
  rw [← keys_without fields s', h.without, keys_without]

theorem keys_table? (h : Annotated fields spared s s') (table : String) :
    (s'.table? table).map OrderedMap.keys = (s.table? table).map OrderedMap.keys := by
  have hkeys : ∀ s : Store, (s.table? table).map OrderedMap.keys =
      ((s.without fields).table? table).map OrderedMap.keys := by
    intro s
    rw [table?_without, Option.map_map]
    exact congrArg (Option.map · _) (funext fun t => (OrderedMap.keys_mapValues _ t).symm)
  rw [hkeys, h.without, ← hkeys]

end Annotated
end Store
end TagHarvest
