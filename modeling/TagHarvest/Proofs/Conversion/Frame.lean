/-
What a conversion leaves alone. While the groups run, tables keep their names and records their keys, and
tables that no group names keep all they hold. A conversion that succeeds leaves a store that is keyed by
id with the same tables and records in their order, each under its key of before or the one reported for
it; in tables that no group names nothing changes but references to tables with renamed records.
-/
import TagHarvest.Proofs.Conversion.Commits
import TagHarvest.Proofs.Conversion.Renaming

namespace TagHarvest

/-! ## Commits -/

section Commits

variable {m : Matchers} {p : ConversionProgram} {s s' : Store}

theorem Commits.keys (h : Commits m p s s') : s'.keys = s.keys := by
  induction h with
  | refl => rfl
  | tail _ step ih =>
    cases step
    rw [Store.keys_updateRecord, ih]

theorem Commits.keys_table? (h : Commits m p s s') (name : String) :
    (s'.table? name).map OrderedMap.keys = (s.table? name).map OrderedMap.keys := by
  induction h with
  | refl => rfl
  | @tail s₁ s₂ _ step ih =>
    cases step with
    | @edit g d key r r' hg hd hr he =>
      rw [← ih]
      by_cases hn : g.table = name
      · rw [← hn, Store.table?_updateRecord_self]
        cases s₁.table? g.table with
        | none => rfl
        | some t => exact congrArg some (OrderedMap.keys_modify t key _)
      · rw [Store.table?_updateRecord_of_ne _ hn]

/-- A table that no group names is as before. -/
theorem Commits.table?_of_unnamed (h : Commits m p s s') {name : String}
    (hn : ∀ g ∈ p.groups, g.table ≠ name) : s'.table? name = s.table? name := by
  induction h with
  | refl => rfl
  | tail _ step ih =>
    cases step with
    | edit hg _ _ _ => rw [Store.table?_updateRecord_of_ne _ (hn _ hg), ih]

end Commits

/-! ## Renewed references -/

/-- A key stays if no record of its table is renamed. -/
theorem Rename.newKey_eq_self {renames : List Rename} {table : String}
    (h : ∀ r ∈ renames, r.table ≠ table) (key : String) : newKey renames table key = key := by
  unfold newKey
  rw [List.find?_eq_none.2 fun r hr => by simp [h r hr]]
  rfl

/-- A value changes only if it belongs to a reference to a table with a renamed record. -/
theorem Rename.renewValue_eq_or {renames : List Rename} {table : String}
    (h : ∀ r ∈ renames, r.table ≠ table) (field : String) (v : FieldValue) :
    renewValue renames table field v = v ∨ ∃ r ∈ renames, field = r.table ++ ".id" := by
  unfold renewValue
  cases href : referenced? table field with
  | none => exact .inl rfl
  | some target =>
    by_cases hr : ∃ r ∈ renames, r.table = target
    · obtain ⟨r, hr, rfl⟩ := hr
      rcases referenced?_eq_some_iff.1 href with hf | ⟨-, ht⟩
      · exact .inr ⟨r, hr, hf⟩
      · exact absurd ht.symm (h r hr)
    · have hid : newKey renames target = id :=
        funext (newKey_eq_self fun r hr' ht => hr ⟨r, hr', ht⟩)
      dsimp only
      rw [hid]
      exact .inl (by cases v <;> simp [FieldValue.mapTexts])

/-- The tables and records are those of before, each record under its key or the one reported for it. -/
structure SameRecords (renames : List Rename) (s s' : Store) : Prop where
  tables : s'.keys = s.keys
  records : ∀ name t, s.table? name = some t →
    ∃ t', s'.table? name = some t' ∧ t'.keys = t.keys.map (Rename.newKey renames name)

/-- The same fields in the same order; their values too, but for references to tables with renames. -/
def RecordKept (renames : List Rename) (r r' : Record) : Prop :=
  List.Forall₂
    (fun f f' => f'.1 = f.1 ∧ (f'.2 = f.2 ∨ ∃ rename ∈ renames, f.1 = rename.table ++ ".id"))
    r.entries r'.entries

/-- The same records under the same keys in the same order, kept but for renewed references. -/
def TableKept (renames : List Rename) (t t' : Table) : Prop :=
  List.Forall₂ (fun e e' => e'.1 = e.1 ∧ RecordKept renames e.2 e'.2) t.entries t'.entries

namespace Store

variable {s : Store}

theorem table?_renewReferences (renames : List Rename) (name : String) :
    (s.renewReferences renames).table? name = (s.table? name).map fun t =>
      t.mapValues fun _ r => r.mapValues fun field v => Rename.renewValue renames name field v :=
  OrderedMap.get?_mapValues _ s name

theorem table?_keyedById (name : String) :
    s.keyedById.table? name = (s.table? name).map Table.keyedById :=
  OrderedMap.get?_mapValues _ s name

/-- Keying by id puts every record under the new key that is reported for it. -/
theorem sameRecords_propagated (hk : s.Keyable) :
    SameRecords s.renames s (s.keyedById.renewReferences s.renames) := by
  refine ⟨?_, fun name t ht => ?_⟩
  · unfold renewReferences keyedById
    rw [OrderedMap.keys_mapValues, OrderedMap.keys_mapValues]
  · rw [table?_renewReferences, table?_keyedById, ht]
    refine ⟨_, rfl, ?_⟩
    rw [OrderedMap.keys_mapValues]
    have hmem : (name, t) ∈ s.entries := OrderedMap.get?_eq_some_iff.1 ht
    unfold OrderedMap.keys
    rw [Table.entries_keyedById (hk _ hmem), List.map_map, List.map_map]
    refine List.map_congr_left fun e he => ?_
    have hrec : s.record? name e.1 = some e.2 :=
      record?_eq_some_iff.2 ⟨t, ht, OrderedMap.get?_of_mem he⟩
    have hid := (Table.hasId_idOf ((hk _ hmem).hasId e he)).id?
    exact (keyAfter_of_id? hrec hid).symm.trans (newKey_renames s name e.1).symm

/-- A table that is keyed by id already is kept, but for references to renamed records. -/
theorem tableKept_propagated {name : String} {t : Table} (ht : s.table? name = some t)
    (hk : t.KeyedById) : ∃ t', (s.keyedById.renewReferences s.renames).table? name = some t' ∧
      TableKept s.renames t t' := by
  -- no record of such a table is renamed, since each has its key as its id
  have hno : ∀ r ∈ s.renames, r.table ≠ name := by
    rintro r hr rfl
    obtain ⟨rec, hrec, hid, hne⟩ := mem_renames_iff.1 hr
    obtain ⟨t₁, ht₁, hrec⟩ := record?_eq_some_iff.1 hrec
    rw [ht] at ht₁
    cases ht₁
    have := (hk (r.old, rec) (OrderedMap.get?_eq_some_iff.1 hrec)).id?
    rw [hid] at this
    exact hne (Option.some.inj this)
  rw [table?_renewReferences, table?_keyedById, ht, Option.map_some, hk.keyedById_eq]
  refine ⟨_, rfl, ?_⟩
  refine forall₂_map_right fun e _ => ⟨rfl, ?_⟩
  exact forall₂_map_right fun f _ => ⟨rfl, Rename.renewValue_eq_or hno f.1 f.2⟩

/--
A conversion of a store that is keyed by id, when it succeeds, leaves a store that is keyed by id. It adds,
loses and moves no table and no record: commits give records new fields in their places, and then they are
keyed anew. A table that no group names keeps its records with all their fields, but for the values of
references to tables in which a rename is reported.
-/
theorem convert_frame (m : Matchers) (s : Store) (p : ConversionProgram) (diagnostics : Diagnostics)
    (report : ConversionReport) (hs : s.KeyedById)
    (h : (s.convert m p diagnostics).result = .ok report) :
    let s' := (s.convert m p diagnostics).store
    s'.KeyedById ∧ SameRecords report.renames s s' ∧
      (∃ s₁, Commits m p s s₁ ∧ s₁.RenamesOf report.renames ∧ StoreRenewed s₁ s') ∧
      ∀ name t, (∀ g ∈ p.groups, g.table ≠ name) → s.table? name = some t →
        ∃ t', s'.table? name = some t' ∧ TableKept report.renames t t' := by
  intro s'
  cases hg : Run.groups m p { store := s, diagnostics } with
  | error e σ =>
    rw [convert_of_error hg] at h
    cases h
  | ok unused σ =>
    obtain ⟨hresult, hstore⟩ := convert_of_ok hg
    have hc : Commits m p s σ.store := (Run.committing_groups.ok hg).1
    rw [hresult] at h
    cases hp : σ.store.propagateRenames with
    | mk s₁ r =>
      rw [hp] at h hstore
      cases r with
      | error e => cases h
      | ok renames =>
        cases h
        obtain ⟨hk, rfl, rfl⟩ := propagateRenames_eq_ok_iff.1 hp
        -- what the groups have left in `σ.store` is keyed anew
        have hs' : s' = σ.store.keyedById.renewReferences σ.store.renames := hstore
        dsimp only
        rw [hs']
        refine ⟨keyedById_renewReferences hk _, ?_,
          ⟨σ.store, hc, renames_of_keyable hk, renewReferences_renewed hk⟩, fun name t hn ht => ?_⟩
        · have hsame := sameRecords_propagated hk
          refine ⟨hsame.tables.trans hc.keys, fun name t ht => ?_⟩
          have hkeys := hc.keys_table? name
          rw [ht, Option.map_some, Option.map_eq_some_iff] at hkeys
          obtain ⟨t₁, ht₁, hkeys⟩ := hkeys
          rw [← hkeys]
          exact hsame.records name t₁ ht₁
        · have ht₁ : σ.store.table? name = some t := (hc.table?_of_unnamed hn).trans ht
          exact tableKept_propagated ht₁ (hs (name, t) (OrderedMap.get?_eq_some_iff.1 ht))

/-- A protocol and a sample that refers to it, and to one that the store does not have. -/
def washed : Store :=
  .ofList [
    ("protocol", .ofList [
      ("P1", .ofList [("id", .scalar "P1"), ("name", .scalar "wash")]),
      ("P3", .ofList [("id", .scalar "P3"), ("parentID", .scalar "P1")])]),
    ("sample", .ofList [
      ("S1", .ofList [("id", .scalar "S1"), ("protocol.id", .list ["P0", "P1"])])])]

/-- Gives the protocol `P1` the id `P2`. -/
def renumber : ConversionProgram :=
  ⟨[⟨"protocol", "id",
    [⟨⟨.exact, true⟩, "P1", [.assign "id" (.expression ⟨"P2", [.literal "P2"]⟩)], false⟩]⟩], .empty⟩

theorem convert_frame_renumber :
    washed.KeyedById ∧
      (washed.convert .standard renumber {}).result = .ok ⟨1, [⟨"protocol", "P1", "P2"⟩], []⟩ ∧
      (washed.convert .standard renumber {}).store.KeyedById ∧
      ∃ t', (washed.convert .standard renumber {}).store.table? "sample" = some t' ∧
        TableKept [⟨"protocol", "P1", "P2"⟩]
          (.ofList [("S1", .ofList [("id", .scalar "S1"), ("protocol.id", .list ["P0", "P1"])])]) t' := by
  have hs : washed.KeyedById := by decide
  have h : (washed.convert .standard renumber {}).result = .ok ⟨1, [⟨"protocol", "P1", "P2"⟩], []⟩ := by
    rfl
  have hframe := convert_frame .standard washed renumber {} _ hs h
  exact ⟨hs, h, hframe.1, hframe.2.2.2 "sample" _ (by decide) rfl⟩

end Store
end TagHarvest
