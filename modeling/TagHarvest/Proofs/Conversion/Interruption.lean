/-
What renaming leaves behind when it fails. Tables are keyed anew one after the other, and references are
renewed only after the last of them; so a table that cannot be keyed ends the run in the midst. The tables
before it have their records under new keys by then, while every field of every record, references among
them, still is what it was. The store is as before exactly if the tables before the one that fails had
nothing to rename.
-/
import TagHarvest.Proofs.Conversion.Failure

namespace TagHarvest

namespace Table

variable {t t' : Table}

/-- The same records in the same order, none of them changed, each under its own id. -/
def Rekeyed (t t' : Table) : Prop :=
  List.Forall₂ (fun e e' => Record.HasId e.2 e'.1 ∧ e'.2 = e.2) t.entries t'.entries

theorem Keyable.rekeyed (h : t.Keyable) : t.Rekeyed t.keyedById := by
  unfold Rekeyed
  rw [entries_keyedById h]
  exact forall₂_map_right fun e he => ⟨hasId_idOf (h.hasId e he), rfl⟩

/-- Keying by id does nothing to a table that is keyed by id, and to no other. -/
theorem Keyable.keyedById_eq_self_iff (h : t.Keyable) : t.keyedById = t ↔ t.KeyedById := by
  refine ⟨fun he e hm => ?_, KeyedById.keyedById_eq⟩
  have hmap : t.entries.map (fun e => (idOf e, e.2)) = t.entries.map id := by
    rw [← entries_keyedById h, he, List.map_id]
  have hkey : (idOf e, e.2) = e := List.map_inj_left.1 hmap e hm
  have hid : idOf e = e.1 := congrArg Prod.fst hkey
  exact hid ▸ hasId_idOf (h.hasId e hm)

end Table

namespace Store

variable {s s' : Store} {e : DirectiveError}

/-- A failing run has keyed the tables before the one that fails, and nothing else. -/
theorem entries_of_propagateRenames_error (h : s.propagateRenames = (s', .error e)) :
    ∃ before name t after, s.entries = before ++ (name, t) :: after ∧ (∀ x ∈ before, Table.Keyable x.2) ∧
      Table.rekey name t = .error e ∧
      s'.entries = before.map (fun x => (x.1, Table.keyedById x.2)) ++ (name, t) :: after := by
  have hrun : rekeyTables s.entries s = (s', .error e) := by
    unfold propagateRenames at h
    split at h
    · cases h
      assumption
    · cases h
  obtain ⟨before, name, t, after, hs, hk, he⟩ := rekeyTables_eq_error hrun
  rw [hs, rekeyTables_of_error hk he, Prod.mk.injEq] at hrun
  refine ⟨before, name, t, after, hs, hk, he, ?_⟩
  rw [← hrun.1]
  exact OrderedMap.entries_insertAll_map (fun x => Table.keyedById x.2) [] hs

/--
A run that fails stops at the first table that cannot be keyed, for a record without an id or an id shared
by two records. That table and those after it are as before; those before it have the same records in the
same order, each under its own id and with all of its fields as they were, so that references still carry
the old keys. Nothing has changed exactly if those tables had no record under another key than its id.
-/
theorem propagateRenames_interrupted (s s' : Store) (e : DirectiveError)
    (h : s.propagateRenames = (s', .error e)) :
    ∃ before before' name t after,
      s.entries = before ++ (name, t) :: after ∧ s'.entries = before' ++ (name, t) :: after ∧
      ((∃ key, Table.FirstWithoutId t key ∧ e = .invalidId name key) ∨
        ∃ key id, Table.Shared t key id ∧ e = .idCollision name key id) ∧
      List.Forall₂ (fun x x' => x'.1 = x.1 ∧ Table.Rekeyed x.2 x'.2) before before' ∧
      (s' = s ↔ ∀ x ∈ before, Table.KeyedById x.2) := by
  obtain ⟨before, name, t, after, hs, hk, he, hs'⟩ := entries_of_propagateRenames_error h
  refine ⟨before, _, name, t, after, hs, hs', Table.rekey_eq_error he,
    forall₂_map_right fun x hx => ⟨rfl, (hk x hx).rekeyed⟩, ?_⟩
  have hsame : s' = s ↔ before.map (fun x => (x.1, Table.keyedById x.2)) = before.map id := by
    rw [← List.append_left_inj ((name, t) :: after), ← hs', List.map_id, ← hs]
    exact ⟨congrArg OrderedMap.entries, OrderedMap.ext⟩
  rw [hsame, List.map_inj_left]
  refine forall₂_congr fun x hx => ?_
  rw [← (hk x hx).keyedById_eq_self_iff]
  exact ⟨congrArg Prod.snd, fun ht => Prod.ext rfl ht⟩

/-- A protocol that has been renamed, a sample that refers to it, and a sample that has lost its id. -/
def halfway : Store :=
  .ofList [
    ("protocol", .ofList [("P1", .ofList [("id", .scalar "P2")])]),
    ("sample", .ofList [
      ("S1", .ofList [("id", .scalar "S1"), ("protocol.id", .scalar "P1")]),
      ("S2", .ofList [("id", .scalar "")])])]

/-- The protocol is under its new key, to which the sample does not refer. -/
def halfwayAfter : Store :=
  .ofList [
    ("protocol", .ofList [("P2", .ofList [("id", .scalar "P2")])]),
    ("sample", .ofList [
      ("S1", .ofList [("id", .scalar "S1"), ("protocol.id", .scalar "P1")]),
      ("S2", .ofList [("id", .scalar "")])])]

theorem propagateRenames_interrupted_halfway :
    halfway.propagateRenames = (halfwayAfter, .error (.invalidId "sample" "S2")) ∧
      halfwayAfter ≠ halfway ∧
      halfwayAfter.record? "protocol" "P1" = none ∧
      (halfwayAfter.record? "sample" "S1").bind (·.get? "protocol.id") = some (.scalar "P1") ∧
      ∃ before before' name t after,
        halfway.entries = before ++ (name, t) :: after ∧ halfwayAfter.entries = before' ++ (name, t) :: after ∧
        ¬ ∀ x ∈ before, Table.KeyedById x.2 := by
  have h : halfway.propagateRenames = (halfwayAfter, .error (.invalidId "sample" "S2")) := by decide
  have hne : halfwayAfter ≠ halfway := by decide
  obtain ⟨before, before', name, t, after, hs, hs', -, -, hiff⟩ := propagateRenames_interrupted _ _ _ h
  exact ⟨h, hne, by decide, by decide, before, before', name, t, after, hs, hs', fun hk => hne (hiff.2 hk)⟩

end Store
end TagHarvest
