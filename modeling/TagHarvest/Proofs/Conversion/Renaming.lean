/-
Renaming of records. Keying a store by id succeeds exactly when every record has an id and no two records
of one table share theirs. The result is keyed by id; tables, records and fields keep their number and
their order; every reference names the same record as before, by its new key; and no other value changes.
Each record whose key was not its id is reported once, and a second run finds nothing to do.

Renewing a text goes through the id of the record that stood under it in the store at the start
(`keyAfter`), never through a text that has been renewed already, so exchanged and chained ids come out
right.
-/
import TagHarvest.Proofs.Record.Identity
import TagHarvest.Proofs.Text.Cut

namespace TagHarvest

/-! ## References -/

namespace Rename

/-- The field of a record of `table` holds keys of records of `target`. -/
def Refers (target table field : String) : Prop :=
  field = target ++ ".id" ∨ field = parentField ∧ table = target

theorem parentField_ne (target : String) : parentField ≠ target ++ ".id" := by
  intro h
  have : Text.beforeEnding? ".id" parentField = none := by decide
  rw [Text.beforeEnding?_eq_some_iff.2 h] at this
  cases this

theorem referenced?_eq_some_iff {target table field : String} :
    referenced? table field = some target ↔ Refers target table field := by
  unfold referenced? Refers
  by_cases h : field = parentField
  · rw [if_pos h, Option.some.injEq]
    constructor
    · exact fun ht => .inr ⟨h, ht⟩
    · rintro (h' | ⟨-, ht⟩)
      · exact absurd (h.symm.trans h') (parentField_ne target)
      · exact ht
  · rw [if_neg h, Text.beforeEnding?_eq_some_iff]
    simp [h]

/-- An id is no reference. -/
theorem not_refers_idField (target table : String) : ¬ Refers target table idField := by
  rintro (h | ⟨h, -⟩)
  · exact idField_ne_append target h
  · exact absurd h (by decide)

end Rename

/-! ## Keying one table -/

namespace Table

/-- Every record has an id, and no two records have the same. -/
structure Keyable (t : Table) : Prop where
  hasId : ∀ e ∈ t.entries, ∃ id, Record.HasId e.2 id
  distinct : t.entries.Pairwise fun a b => ∀ id, Record.HasId a.2 id → ¬ Record.HasId b.2 id

/-- The key that an entry has in a table that is keyed by id. -/
def idOf (e : String × Record) : String := (Record.id? e.2).getD e.1

theorem hasId_idOf {e : String × Record} (h : ∃ id, Record.HasId e.2 id) : Record.HasId e.2 (idOf e) := by
  obtain ⟨id, h⟩ := h
  have : idOf e = id := by unfold idOf; rw [h.id?]; rfl
  exact this ▸ h

theorem nodup_idOf_iff {t : Table} (h : ∀ e ∈ t.entries, ∃ id, Record.HasId e.2 id) :
    (t.entries.map idOf).Nodup ↔ t.Keyable := by
  have hd : (t.entries.map idOf).Nodup ↔
      t.entries.Pairwise fun a b => ∀ id, Record.HasId a.2 id → ¬ Record.HasId b.2 id := by
    unfold List.Nodup
    rw [List.pairwise_map]
    refine List.Pairwise.iff_of_mem fun {a b} ha hb => ?_
    constructor
    · intro hne id hia hib
      exact hne ((hasId_idOf (h a ha)).unique hia |>.trans (hib.unique (hasId_idOf (h b hb))))
    · intro hno he
      exact hno _ (hasId_idOf (h a ha)) (he ▸ hasId_idOf (h b hb))
  exact ⟨fun hn => ⟨h, hd.1 hn⟩, fun hk => hd.2 hk.distinct⟩

theorem Keyable.nodup {t : Table} (h : t.Keyable) : (t.entries.map idOf).Nodup :=
  (nodup_idOf_iff h.hasId).2 h

theorem entries_keyedById {t : Table} (h : t.Keyable) :
    t.keyedById.entries = t.entries.map fun e => (idOf e, e.2) := by
  refine OrderedMap.entries_ofList ?_
  rw [List.map_map]
  exact h.nodup

theorem invalidId?_eq_none_iff {t : Table} :
    t.invalidId? = none ↔ ∀ e ∈ t.entries, ∃ id, Record.HasId e.2 id := by
  unfold invalidId?
  rw [Option.map_eq_none_iff, List.find?_eq_none]
  refine forall₂_congr fun e _ => ?_
  rw [Bool.not_eq_true, Record.isNone_usableId?_eq_false_iff]

theorem collision?_eq_none_iff {seen : List String} {es : List (String × Record)} :
    collision? seen es = none ↔ (es.map idOf).Nodup ∧ ∀ id ∈ es.map idOf, id ∉ seen := by
  induction es generalizing seen with
  | nil => simp [collision?]
  | cons e es ih =>
    obtain ⟨key, r⟩ := e
    rw [collision?, List.map_cons, List.nodup_cons, List.forall_mem_cons]
    show (if idOf (key, r) ∈ seen then _ else collision? (idOf (key, r) :: seen) es) = none ↔ _
    by_cases h : idOf (key, r) ∈ seen
    · simp [h]
    · rw [if_neg h, ih]
      simp only [List.mem_cons, not_or, forall_and]
      constructor
      · rintro ⟨hn, hne, hs⟩
        exact ⟨⟨fun hm => hne _ hm rfl, hn⟩, h, hs⟩
      · rintro ⟨⟨hm, hn⟩, -, hs⟩
        exact ⟨hn, fun id hid he => hm (he ▸ hid), hs⟩

/-- The renames are of the records whose key is not their id. -/
theorem mem_renames_iff {name : String} {t : Table} {r : Rename} :
    r ∈ t.renames name ↔ r.table = name ∧
      ∃ rec, t.get? r.old = some rec ∧ Record.id? rec = some r.new ∧ r.new ≠ r.old := by
  unfold renames
  rw [List.mem_filterMap]
  constructor
  · rintro ⟨⟨key, rec⟩, he, h⟩
    dsimp only at h
    split at h
    · rename_i id hid
      split at h
      · cases h
      · rename_i hne
        cases h
        exact ⟨rfl, rec, OrderedMap.get?_eq_some_iff.2 he, hid, hne⟩
    · cases h
  · obtain ⟨table, old, new⟩ := r
    rintro ⟨rfl, rec, he, hid, hne⟩
    dsimp only at he hid hne
    refine ⟨(old, rec), OrderedMap.get?_eq_some_iff.1 he, ?_⟩
    dsimp only
    rw [hid]
    dsimp only
    rw [if_neg hne]

theorem renames_eq_nil_iff {name : String} {t : Table}
    (h : ∀ e ∈ t.entries, ∃ id, Record.HasId e.2 id) : t.renames name = [] ↔ t.KeyedById := by
  rw [List.eq_nil_iff_forall_not_mem]
  constructor
  · intro hr e he
    obtain ⟨id, hid⟩ := h e he
    by_contra hne
    have hne' : id ≠ e.1 := fun h => hne (h ▸ hid)
    exact hr ⟨name, e.1, id⟩ (mem_renames_iff.2 ⟨rfl, e.2, OrderedMap.get?_of_mem he, hid.id?, hne'⟩)
  · intro hk r hr
    obtain ⟨-, rec, he, hid, hne⟩ := mem_renames_iff.1 hr
    have := (hk (r.old, rec) (OrderedMap.get?_eq_some_iff.1 he)).id?
    rw [hid] at this
    exact hne (Option.some.inj this)

theorem KeyedById.idOf {t : Table} (h : t.KeyedById) {e : String × Record} (he : e ∈ t.entries) :
    Table.idOf e = e.1 := by
  unfold Table.idOf
  rw [(h e he).id?]
  rfl

theorem KeyedById.keyable {t : Table} (h : t.KeyedById) : t.Keyable := by
  refine (nodup_idOf_iff fun e he => ⟨e.1, h e he⟩).1 ?_
  rw [List.map_congr_left fun e he => h.idOf he]
  exact t.nodup

theorem KeyedById.keyedById_eq {t : Table} (h : t.KeyedById) : t.keyedById = t := by
  refine OrderedMap.ext ?_
  rw [entries_keyedById h.keyable]
  conv_rhs => rw [← List.map_id t.entries]
  exact List.map_congr_left fun e he => Prod.ext (h.idOf he) rfl

/-- A table is keyed anew exactly if its records have ids of their own. -/
theorem rekey_eq_ok_iff {name : String} {t t' : Table} {rs : List Rename} :
    t.rekey name = .ok (t', rs) ↔ t.Keyable ∧ t' = t.keyedById ∧ rs = t.renames name := by
  unfold rekey
  cases hi : t.invalidId? with
  | some key =>
    refine ⟨nofun, fun h => ?_⟩
    rw [invalidId?_eq_none_iff.2 h.1.hasId] at hi
    cases hi
  | none =>
    have hid := invalidId?_eq_none_iff.1 hi
    dsimp only
    split
    · -- without renames the ids are the keys, which are distinct
      rename_i hr
      have hk := (renames_eq_nil_iff hid).1 hr
      rw [hr, hk.keyedById_eq]
      simp only [Except.ok.injEq, Prod.mk.injEq, hk.keyable, true_and]
      exact and_congr eq_comm eq_comm
    · have hc : collision? [] t.entries = none ↔ t.Keyable := by
        rw [collision?_eq_none_iff, ← nodup_idOf_iff hid]
        simp
      split
      · rename_i hs
        refine ⟨nofun, fun h => ?_⟩
        rw [hc.2 h.1] at hs
        cases hs
      · rename_i hs
        simp only [Except.ok.injEq, Prod.mk.injEq, hc.1 hs, true_and]
        exact and_congr eq_comm eq_comm

end Table

/-! ## Keying all tables -/

namespace Store

/-- Every table can be keyed anew. -/
def Keyable (s : Store) : Prop := ∀ e ∈ s.entries, Table.Keyable e.2

/-- The store with every table keyed by id, before the references are renewed. -/
def keyedById (s : Store) : Store := s.mapValues fun _ t => Table.keyedById t

/-- The renames of all tables, in the order of tables and records. -/
def renames (s : Store) : List Rename := s.entries.flatMap fun e => Table.renames e.1 e.2

theorem rekeyTables_eq_ok_iff {ts : List (String × Table)} {s s' : Store} {rs : List Rename} :
    rekeyTables ts s = (s', .ok rs) ↔
      (∀ e ∈ ts, Table.Keyable e.2) ∧
        s' = s.insertAll (ts.map fun e => (e.1, Table.keyedById e.2)) ∧
        rs = ts.flatMap fun e => Table.renames e.1 e.2 := by
  induction ts generalizing s s' rs with
  | nil =>
    simp only [rekeyTables, Prod.mk.injEq, Except.ok.injEq, List.not_mem_nil, false_imp_iff,
      implies_true, true_and]
    exact and_congr eq_comm eq_comm
  | cons e ts ih =>
    obtain ⟨name, t⟩ := e
    rw [rekeyTables]
    cases hr : Table.rekey name t with
    | error err =>
      refine ⟨nofun, fun h => ?_⟩
      rw [Table.rekey_eq_ok_iff.2 ⟨h.1 (name, t) List.mem_cons_self, rfl, rfl⟩] at hr
      cases hr
    | ok p =>
      obtain ⟨t', here⟩ := p
      obtain ⟨hk, rfl, rfl⟩ := Table.rekey_eq_ok_iff.1 hr
      dsimp only
      rw [List.forall_mem_cons, List.map_cons, List.flatMap_cons]
      cases hrest : rekeyTables ts (s.insert name t.keyedById) with
      | mk s₁ r =>
        cases r with
        | error err =>
          refine ⟨nofun, fun h => ?_⟩
          rw [ih.2 ⟨h.1.2, h.2.1, rfl⟩] at hrest
          cases hrest
        | ok rest =>
          obtain ⟨hts, rfl, rfl⟩ := ih.1 hrest
          simp only [Except.map, Prod.mk.injEq, Except.ok.injEq, hk, true_and]
          exact ⟨fun h => ⟨hts, h.1.symm, h.2.symm⟩, fun h => ⟨h.2.1.symm, h.2.2.symm⟩⟩

/-- Renames are carried through exactly if every table can be keyed anew. -/
theorem propagateRenames_eq_ok_iff {s s' : Store} {rs : List Rename} :
    s.propagateRenames = (s', .ok rs) ↔
      s.Keyable ∧ rs = s.renames ∧ s' = s.keyedById.renewReferences rs := by
  unfold propagateRenames
  cases h : rekeyTables s.entries s with
  | mk s₁ r =>
    cases r with
    | error e =>
      refine ⟨nofun, fun hk => ?_⟩
      rw [rekeyTables_eq_ok_iff.2 ⟨hk.1, rfl, rfl⟩] at h
      cases h
    | ok here =>
      obtain ⟨hk, rfl, rfl⟩ := rekeyTables_eq_ok_iff.1 h
      have hs : s.insertAll (s.entries.map fun e => (e.1, Table.keyedById e.2)) = s.keyedById :=
        OrderedMap.insertAll_eq_mapValues s fun _ t => Table.keyedById t
      dsimp only
      rw [hs]
      simp only [Prod.mk.injEq, Except.ok.injEq]
      constructor
      · rintro ⟨rfl, rfl⟩
        exact ⟨hk, rfl, rfl⟩
      · rintro ⟨-, rfl, rfl⟩
        exact ⟨rfl, rfl⟩

/-- The renames are of the records whose key is not their id, in whichever table. -/
theorem mem_renames_iff {s : Store} {r : Rename} :
    r ∈ s.renames ↔
      ∃ rec, s.record? r.table r.old = some rec ∧ Record.id? rec = some r.new ∧ r.new ≠ r.old := by
  unfold renames
  rw [List.mem_flatMap]
  constructor
  · rintro ⟨e, he, hr⟩
    obtain ⟨ht, rec, hrec, hid, hne⟩ := Table.mem_renames_iff.1 hr
    exact ⟨rec, record?_eq_some_iff.2 ⟨e.2, ht ▸ OrderedMap.get?_of_mem he, hrec⟩, hid, hne⟩
  · rintro ⟨rec, hrec, hid, hne⟩
    obtain ⟨t, ht, hrec⟩ := record?_eq_some_iff.1 hrec
    exact ⟨(r.table, t), OrderedMap.get?_eq_some_iff.1 ht,
      Table.mem_renames_iff.2 ⟨rfl, rec, hrec, hid, hne⟩⟩

end Store

namespace Table

/-- The renames of a table have the old keys in the order of the table. -/
theorem map_renames_sublist (name : String) (t : Table) :
    ((t.renames name).map fun r => (r.table, r.old)).Sublist (t.keys.map fun k => (name, k)) := by
  unfold renames OrderedMap.keys
  rw [List.map_filterMap, List.map_map]
  induction t.entries with
  | nil => exact List.Sublist.slnil
  | cons e es ih =>
    rw [List.filterMap_cons, List.map_cons]
    split
    · exact ih.cons _
    · rename_i p hp
      have : p = (name, e.1) := by
        rw [Option.map_eq_some_iff] at hp
        obtain ⟨r, hr, rfl⟩ := hp
        dsimp only at hr
        split at hr
        · split at hr
          · cases hr
          · cases hr; rfl
        · cases hr
      rw [this]
      exact ih.cons_cons _

end Table

/-- A record is reported at most once. -/
theorem Store.nodup_renames (s : Store) : (s.renames.map fun r => (r.table, r.old)).Nodup := by
  unfold Store.renames
  rw [List.map_flatMap]
  refine List.nodup_flatMap.2 ⟨fun e _ => ?_, ?_⟩
  · refine (List.Nodup.map ?_ e.2.nodup).sublist (Table.map_renames_sublist e.1 e.2)
    exact fun a b h => (Prod.mk.inj h).2
  · -- renames of two tables differ in the table
    have hn : s.entries.Pairwise fun a b => a.1 ≠ b.1 := List.pairwise_map.1 s.nodup
    refine hn.imp fun {a b} hne => List.disjoint_left.2 fun p hpa hpb => hne ?_
    obtain ⟨ra, hra, rfl⟩ := List.mem_map.1 hpa
    obtain ⟨rb, hrb, he⟩ := List.mem_map.1 hpb
    rw [← (Table.mem_renames_iff.1 hra).1, ← (Table.mem_renames_iff.1 hrb).1]
    exact (Prod.mk.inj he).1.symm

/-! ## Renewing references -/

namespace Store

/--
The key that the record under `key` has once its table is keyed by id; a text that is no key stays as
it is.
-/
def keyAfter (s : Store) (table key : String) : String :=
  match s.record? table key with
  | some r => r.id?.getD key
  | none => key

theorem keyAfter_of_id? {s : Store} {table key id : String} {r : Record}
    (hr : s.record? table key = some r) (hid : r.id? = some id) : s.keyAfter table key = id := by
  simp only [keyAfter, hr, hid, Option.getD_some]

theorem newKey_renames (s : Store) (table key : String) :
    Rename.newKey s.renames table key = s.keyAfter table key := by
  unfold Rename.newKey
  cases hf : s.renames.find? fun r => r.table == table && r.old == key with
  | some r =>
    obtain ⟨rec, hrec, hid, -⟩ := mem_renames_iff.1 (List.mem_of_find?_eq_some hf)
    have hp := List.find?_some hf
    simp only [Bool.and_eq_true, beq_iff_eq] at hp
    rw [hp.1, hp.2] at hrec
    exact (keyAfter_of_id? hrec hid).symm
  | none =>
    cases hrec : s.record? table key with
    | none => simp only [keyAfter, hrec, Option.map_none, Option.getD_none]
    | some rec =>
      cases hid : Record.id? rec with
      | none => simp only [keyAfter, hrec, hid, Option.map_none, Option.getD_none]
      | some id =>
        rw [keyAfter_of_id? hrec hid]
        -- a record with another id than its key would have been found among the renames
        by_contra hne
        have hmem : ⟨table, key, id⟩ ∈ s.renames := mem_renames_iff.2 ⟨rec, hrec, hid, Ne.symm hne⟩
        have := List.find?_eq_none.1 hf _ hmem
        simp at this

end Store

/--
The value `v` of a field of `table`, renewed to `w`: each text of a reference becomes the key after, and
any other value stays.
-/
structure ValueRenewed (keyAfter : String → String → String) (table field : String)
    (v w : FieldValue) : Prop where
  refers : ∀ target, Rename.Refers target table field → w = v.mapTexts (keyAfter target)
  other : (∀ target, ¬ Rename.Refers target table field) → w = v

/-- The same fields in the same order, with their references renewed. -/
def RecordRenewed (keyAfter : String → String → String) (table : String) (r r' : Record) : Prop :=
  List.Forall₂ (fun e e' => e'.1 = e.1 ∧ ValueRenewed keyAfter table e.1 e.2 e'.2) r.entries r'.entries

/-- The same records in the same order, each under its own id and with its references renewed. -/
def TableRenewed (keyAfter : String → String → String) (table : String) (t t' : Table) : Prop :=
  List.Forall₂ (fun e e' => Record.HasId e.2 e'.1 ∧ RecordRenewed keyAfter table e.2 e'.2)
    t.entries t'.entries

/-- The same tables in the same order, with their records keyed by id and their references renewed. -/
def StoreRenewed (s s' : Store) : Prop :=
  List.Forall₂ (fun e e' => e'.1 = e.1 ∧ TableRenewed s.keyAfter e.1 e.2 e'.2) s.entries s'.entries

theorem renewValue_renewed (s : Store) (table field : String) (v : FieldValue) :
    ValueRenewed s.keyAfter table field v (Rename.renewValue s.renames table field v) := by
  have hkey : ∀ target, Rename.newKey s.renames target = s.keyAfter target :=
    fun target => funext (s.newKey_renames target)
  unfold Rename.renewValue
  cases h : Rename.referenced? table field with
  | some target =>
    refine ⟨fun target' h' => ?_, fun hno => absurd (Rename.referenced?_eq_some_iff.1 h) (hno target)⟩
    rw [Rename.referenced?_eq_some_iff.2 h'] at h
    dsimp only
    rw [hkey, Option.some.inj h]
  | none =>
    refine ⟨fun target h' => ?_, fun _ => rfl⟩
    rw [Rename.referenced?_eq_some_iff.2 h'] at h
    cases h

theorem forall₂_map_right {α β : Type} {R : α → β → Prop} {f : α → β} {l : List α}
    (h : ∀ a ∈ l, R a (f a)) : List.Forall₂ R l (l.map f) := by
  rw [List.forall₂_map_right_iff, List.forall₂_same]
  exact h

namespace Store

theorem renewReferences_renewed {s : Store} (hk : s.Keyable) :
    StoreRenewed s (s.keyedById.renewReferences s.renames) := by
  unfold StoreRenewed renewReferences keyedById OrderedMap.mapValues
  dsimp only
  rw [List.map_map]
  refine forall₂_map_right fun e he => ⟨rfl, ?_⟩
  unfold TableRenewed
  dsimp only [Function.comp]
  rw [Table.entries_keyedById (hk e he), List.map_map]
  refine forall₂_map_right fun f hf => ⟨Table.hasId_idOf ((hk e he).hasId f hf), ?_⟩
  exact forall₂_map_right fun g _ => ⟨rfl, renewValue_renewed s e.1 g.1 g.2⟩

/-- Renewing references changes no id. -/
theorem get?_idField_renewed (renames : List Rename) (table : String) (r : Record) :
    (r.mapValues fun field v => Rename.renewValue renames table field v).get? idField =
      r.get? idField := by
  have hid : ∀ v, Rename.renewValue renames table idField v = v := by
    intro v
    unfold Rename.renewValue
    cases h : Rename.referenced? table idField with
    | none => rfl
    | some target =>
      exact absurd (Rename.referenced?_eq_some_iff.1 h) (Rename.not_refers_idField target table)
  rw [OrderedMap.get?_mapValues]
  cases r.get? idField with
  | none => rfl
  | some v => exact congrArg some (hid v)

theorem keyedById_renewReferences {s : Store} (hk : s.Keyable) (renames : List Rename) :
    (s.keyedById.renewReferences renames).KeyedById := by
  intro e he f hf
  -- back from the table of the result to that of the store, then likewise for the record
  obtain ⟨e₁, he₁, rfl⟩ := List.mem_map.1 he
  obtain ⟨e₀, he₀, rfl⟩ := List.mem_map.1 he₁
  obtain ⟨f₁, hf₁, rfl⟩ := List.mem_map.1 hf
  dsimp only at hf₁ ⊢
  rw [Table.entries_keyedById (hk e₀ he₀)] at hf₁
  obtain ⟨f₀, hf₀, rfl⟩ := List.mem_map.1 hf₁
  have := Table.hasId_idOf ((hk e₀ he₀).hasId f₀ hf₀)
  exact ⟨(get?_idField_renewed renames e₀.1 f₀.2).trans this.1, this.2⟩

theorem KeyedById.keyable {s : Store} (h : s.KeyedById) : s.Keyable :=
  fun e he => (h e he).keyable

theorem KeyedById.renames_eq {s : Store} (h : s.KeyedById) : s.renames = [] := by
  rw [renames, List.flatMap_eq_nil_iff]
  intro e he
  exact (Table.renames_eq_nil_iff fun f hf => ⟨f.1, h e he f hf⟩).2 (h e he)

theorem renewReferences_nil (s : Store) : s.renewReferences [] = s := by
  have hmap : ∀ v : FieldValue, ∀ target, v.mapTexts (Rename.newKey [] target) = v := by
    intro v target
    have : Rename.newKey [] target = id := rfl
    rw [this]
    cases v <;> simp [FieldValue.mapTexts]
  have hvalue : ∀ table field v, Rename.renewValue [] table field v = v := by
    intro table field v
    unfold Rename.renewValue
    split
    · exact hmap v _
    · rfl
  exact OrderedMap.mapValues_eq_self fun e _ => OrderedMap.mapValues_eq_self fun f _ =>
    OrderedMap.mapValues_eq_self fun g _ => hvalue e.1 g.1 g.2

/-- A store that is keyed by id has nothing to rename. -/
theorem KeyedById.propagateRenames_eq {s : Store} (h : s.KeyedById) :
    s.propagateRenames = (s, .ok []) := by
  have hkeyed : s.keyedById = s := OrderedMap.mapValues_eq_self fun e he => (h e he).keyedById_eq
  refine propagateRenames_eq_ok_iff.2 ⟨h.keyable, h.renames_eq.symm, ?_⟩
  rw [hkeyed, renewReferences_nil]

/-- The reported renames: one for each record whose key is not its id. -/
structure RenamesOf (s : Store) (rs : List Rename) : Prop where
  exact : ∀ r, r ∈ rs ↔
    ∃ rec, s.record? r.table r.old = some rec ∧ rec.HasId r.new ∧ r.new ≠ r.old
  once : (rs.map fun r => (r.table, r.old)).Nodup

theorem renames_of_keyable {s : Store} (hk : s.Keyable) : s.RenamesOf s.renames := by
  refine ⟨fun r => ?_, s.nodup_renames⟩
  rw [mem_renames_iff]
  refine exists_congr fun rec => and_congr_right fun hrec => and_congr_left fun _ => ?_
  obtain ⟨t, ht, hrec⟩ := record?_eq_some_iff.1 hrec
  obtain ⟨id, hid⟩ := (hk (r.table, t) (OrderedMap.get?_eq_some_iff.1 ht)).hasId (r.old, rec)
    (OrderedMap.get?_eq_some_iff.1 hrec)
  constructor
  · intro h
    have : id = r.new := Option.some.inj (hid.id?.symm.trans h)
    exact this ▸ hid
  · exact Record.HasId.id?

/--
Carrying renames through succeeds exactly on stores in which every record has an id and no two records
of a table the same; then the store is keyed by id, nothing but the references to renamed records has
changed, the renames are reported once each, and carrying them through again does nothing.
-/
theorem propagateRenames_renews (s : Store) :
    ((∃ s' rs, s.propagateRenames = (s', .ok rs)) ↔ s.Keyable) ∧
      ∀ s' rs, s.propagateRenames = (s', .ok rs) →
        s'.KeyedById ∧ StoreRenewed s s' ∧ s.RenamesOf rs ∧ s'.propagateRenames = (s', .ok []) := by
  constructor
  · constructor
    · rintro ⟨s', rs, h⟩
      exact (propagateRenames_eq_ok_iff.1 h).1
    · exact fun hk => ⟨_, _, propagateRenames_eq_ok_iff.2 ⟨hk, rfl, rfl⟩⟩
  · intro s' rs h
    obtain ⟨hk, rfl, rfl⟩ := propagateRenames_eq_ok_iff.1 h
    have hkeyed := keyedById_renewReferences hk s.renames
    exact ⟨hkeyed, renewReferences_renewed hk, renames_of_keyable hk, hkeyed.propagateRenames_eq⟩

/-- Two protocols that exchange their ids, one of which is within the other, and a sample of both. -/
def exchanged : Store :=
  .ofList [
    ("protocol", .ofList [
      ("A", .ofList [("id", .scalar "B")]),
      ("B", .ofList [("id", .scalar "A"), ("parentID", .scalar "A")])]),
    ("sample", .ofList [("S", .ofList [("id", .scalar "S"), ("protocol.id", .list ["A", "B", "C"])])])]

def exchangedAfter : Store :=
  .ofList [
    ("protocol", .ofList [
      ("B", .ofList [("id", .scalar "B")]),
      ("A", .ofList [("id", .scalar "A"), ("parentID", .scalar "B")])]),
    ("sample", .ofList [("S", .ofList [("id", .scalar "S"), ("protocol.id", .list ["B", "A", "C"])])])]

theorem propagateRenames_exchanged :
    exchanged.propagateRenames =
        (exchangedAfter, .ok [⟨"protocol", "A", "B"⟩, ⟨"protocol", "B", "A"⟩]) ∧
      exchanged.Keyable ∧ exchangedAfter.KeyedById ∧ StoreRenewed exchanged exchangedAfter ∧
      exchangedAfter.propagateRenames = (exchangedAfter, .ok []) := by
  have h : exchanged.propagateRenames =
      (exchangedAfter, .ok [⟨"protocol", "A", "B"⟩, ⟨"protocol", "B", "A"⟩]) := by
    decide
  obtain ⟨hiff, hrenews⟩ := propagateRenames_renews exchanged
  obtain ⟨hkeyed, hrenewed, -, hagain⟩ := hrenews _ _ h
  exact ⟨h, hiff.1 ⟨_, _, h⟩, hkeyed, hrenewed, hagain⟩

end Store
end TagHarvest
