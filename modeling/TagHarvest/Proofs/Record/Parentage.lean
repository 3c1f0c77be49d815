/-
Who is a parent of whom in a table. A record names its parents in the field `parentID`; read the other way
round, the records that name a parent are listed under it in the order of the table, once for each time they
name it. A root is named as parent and has no such field of its own.
-/
import TagHarvest.Record.Lineage
import TagHarvest.Proofs.Record.Gathering

namespace TagHarvest

theorem OrderedMap.mem_given {α γ : Type} [DecidableEq α] {k : α} {c : γ} {es : List (α × γ)} :
    c ∈ given k es ↔ (k, c) ∈ es := by
  unfold given
  rw [List.mem_filterMap]
  constructor
  · rintro ⟨e, he, hc⟩
    obtain ⟨hk, hc⟩ := Option.ite_none_right_eq_some.1 hc
    rw [← hk, ← Option.some.inj hc]
    exact he
  · intro h
    exact ⟨(k, c), h, if_pos rfl⟩

theorem Record.mem_parents_iff {r : Record} {p : String} :
    p ∈ r.parents ↔ ∃ v, r.get? parentField = some v ∧ p ∈ v.texts := by
  unfold parents
  cases r.get? parentField <;> simp

namespace Table

/-- The record `child` names `parent`. -/
def IsParent (t : Table) (parent child : String) : Prop := ∃ r, t.get? child = some r ∧ parent ∈ r.parents

/-- The links of a table, each with the parent first. -/
def links (t : Table) : List (String × String) := t.entries.flatMap fun e => e.2.parents.map (·, e.1)

/-- The records that name a parent, in the order of the table. -/
def kids (t : Table) (parent : String) : List String := (t.childMap.get? parent).getD []

/-- The identifiers at which trees start, in the order in which they are first named. -/
def roots (t : Table) : List String := t.childMap.keys.filter t.isRoot

variable {t : Table} {p c : String}

theorem mem_links_iff : (p, c) ∈ t.links ↔ t.IsParent p c := by
  unfold links
  rw [List.mem_flatMap]
  constructor
  · rintro ⟨e, he, hlink⟩
    obtain ⟨q, hq, hpair⟩ := List.mem_map.1 hlink
    cases hpair
    exact ⟨e.2, OrderedMap.get?_of_mem he, hq⟩
  · rintro ⟨r, hr, hp⟩
    exact ⟨(c, r), OrderedMap.get?_eq_some_iff.1 hr, List.mem_map_of_mem hp⟩

theorem childMap_eq_alterAll (t : Table) :
    t.childMap = OrderedMap.alterAll (fun kids child => kids.getD [] ++ [child]) .empty t.links := by
  unfold childMap OrderedMap.alterAll links
  rw [List.foldl_flatMap]
  congr
  funext m e
  rw [List.foldl_map]

theorem kids_eq_given (t : Table) (p : String) : t.kids p = OrderedMap.given p t.links := by
  have hfold : ∀ (o : Option (List String)) (cs : List String),
      (cs.foldl (fun o c => some (o.getD [] ++ [c])) o).getD [] = o.getD [] ++ cs := by
    intro o cs
    induction cs generalizing o with
    | nil => exact (List.append_nil _).symm
    | cons c cs ih =>
      rw [List.foldl_cons, ih, Option.getD_some, List.append_assoc]
      rfl
  unfold kids
  rw [childMap_eq_alterAll, OrderedMap.get?_alterAll]
  exact hfold none _

theorem mem_kids_iff : c ∈ t.kids p ↔ t.IsParent p c := by
  rw [kids_eq_given, OrderedMap.mem_given, mem_links_iff]

theorem mem_keys_childMap_iff : p ∈ t.childMap.keys ↔ ∃ c, t.IsParent p c := by
  rw [childMap_eq_alterAll, OrderedMap.keys_alterAll_empty, List.mem_eraseDups, List.mem_map]
  constructor
  · rintro ⟨⟨q, c⟩, hlink, rfl⟩
    exact ⟨c, mem_links_iff.1 hlink⟩
  · rintro ⟨c, hc⟩
    exact ⟨(p, c), mem_links_iff.2 hc, rfl⟩

theorem childMap_isEmpty_iff : t.childMap.isEmpty = true ↔ t.childMap.keys = [] := by
  unfold OrderedMap.isEmpty OrderedMap.keys
  rw [List.isEmpty_iff, List.map_eq_nil_iff]

/-! ## Roots -/

theorem isRoot_iff : t.isRoot p = true ↔ ∀ r, t.get? p = some r → r.get? parentField = none := by
  unfold isRoot
  cases h : t.get? p with
  | none => exact ⟨fun _ _ => nofun, fun _ => rfl⟩
  | some r =>
    simp only [Option.some.injEq, forall_eq', OrderedMap.contains, Bool.not_eq_true']
    exact Option.isSome_eq_false_iff.trans Option.isNone_iff_eq_none

/-- A record that names a parent starts no tree. -/
theorem IsParent.not_isRoot (h : t.IsParent p c) : ¬ t.isRoot c = true := by
  obtain ⟨r, hr, hp⟩ := h
  obtain ⟨v, hv, -⟩ := Record.mem_parents_iff.1 hp
  intro hroot
  rw [isRoot_iff.1 hroot r hr] at hv
  cases hv

theorem mem_roots_iff : p ∈ t.roots ↔ (∃ c, t.IsParent p c) ∧ t.isRoot p = true := by
  unfold roots
  rw [List.mem_filter, mem_keys_childMap_iff]

theorem nodup_roots (t : Table) : t.roots.Nodup := t.childMap.nodup_keys.filter _

/-! ## Who is linked -/

theorem mem_linked_of_mem_keys (h : p ∈ t.childMap.keys) : p ∈ linked t.childMap := by
  obtain ⟨e, he, rfl⟩ := List.mem_map.1 h
  exact List.mem_flatMap.2 ⟨e, he, List.mem_cons_self⟩

theorem mem_linked_of_mem_kids (h : c ∈ t.kids p) : c ∈ linked t.childMap := by
  unfold kids at h
  cases hkids : t.childMap.get? p with
  | none =>
    rw [hkids] at h
    cases h
  | some cs =>
    rw [hkids] at h
    exact List.mem_flatMap.2 ⟨(p, cs), OrderedMap.get?_eq_some_iff.1 hkids, List.mem_cons_of_mem _ h⟩

end Table
end TagHarvest
