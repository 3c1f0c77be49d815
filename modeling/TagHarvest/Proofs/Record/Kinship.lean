/-
Ancestors and siblings against the forest. A climb along first parents ends, whatever the links are, for it
enters no identifier twice. If every record names at most one parent, the climb from a node of the forest
goes through the nodes above it up to the root, and the records that share its parent are the trees beside it.
-/
import TagHarvest.Proofs.Record.Lineage

namespace TagHarvest

namespace Table

open Lineage

variable {t : Table} {ts : List Lineage} {seen chain : List String} {id p c current : String}

/-- The first parent of an identifier. -/
def parent? (t : Table) (id : String) : Option String := (t.get? id).bind Record.parent?

/-! ## The climb -/

/-- A climb from an identifier along first parents, up to one that names none or an identifier seen before. -/
inductive Climb (t : Table) : (seen : List String) → (current : String) → (chain : List String) → Prop
  | top {seen : List String} {current : String} (h : t.parent? current = none) : Climb t seen current []
  | circle {seen : List String} {current p : String} (h : t.parent? current = some p) (hp : p ∈ seen) :
    Climb t seen current []
  | up {seen chain : List String} {current p : String} (h : t.parent? current = some p) (hp : p ∉ seen)
    (hrest : Climb t (p :: seen) p chain) : Climb t seen current (p :: chain)

/-- There is only one climb. -/
theorem Climb.unique (h : t.Climb seen current chain) {chain' : List String} (h' : t.Climb seen current chain') :
    chain = chain' := by
  induction h generalizing chain' with
  | top h =>
    cases h' with
    | top => rfl
    | circle => rfl
    | up h' => cases h.symm.trans h'
  | circle h hp =>
    cases h' with
    | top => rfl
    | circle => rfl
    | up h' hp' => exact absurd (Option.some.inj (h.symm.trans h') ▸ hp) hp'
  | up h hp _ ih =>
    cases h' with
    | top h' => cases h.symm.trans h'
    | circle h' hp' => exact absurd (Option.some.inj (h'.symm.trans h) ▸ hp') hp
    | up h' _ hrest =>
      cases Option.some.inj (h.symm.trans h')
      rw [ih hrest]

/-- Each step up sees one more record, or comes to what is no record and so has no parent. -/
theorem climb_parentChain (fuel : Nat) {seen : List String} {current : String}
    (h : t.get? current = none ∨ (unseen t.keys seen).length < fuel) :
    t.Climb seen current (t.parentChain fuel seen current) := by
  induction fuel generalizing seen current with
  | zero =>
    have hnone := h.resolve_right (Nat.not_lt_zero _)
    exact .top (by unfold parent?; rw [hnone]; rfl)
  | succ fuel ih =>
    unfold parentChain
    cases hparent : (t.get? current).bind Record.parent? with
    | none => exact .top hparent
    | some p =>
      dsimp only
      by_cases hp : p ∈ seen
      · rw [if_pos (List.contains_iff_mem.2 hp)]
        exact .circle hparent hp
      · rw [if_neg fun hc => hp (List.contains_iff_mem.1 hc)]
        refine .up hparent hp (ih ?_)
        cases hrecord : t.get? p with
        | none => exact .inl rfl
        | some r =>
          have hlt := length_unseen_lt (OrderedMap.mem_keys_of_get? hrecord) hp
          have hfuel := h.resolve_left fun hnone => by rw [hnone] at hparent; cases hparent
          exact .inr (by omega)

theorem climb_ancestors (t : Table) (id : String) : t.Climb [id] id (t.ancestors id) := by
  refine climb_parentChain _ (.inr (Nat.lt_succ_of_le ?_))
  rw [← OrderedMap.length_keys]
  exact List.length_filter_le _ _

theorem parent?_of_isRoot (h : t.isRoot id = true) : t.parent? id = none := by
  unfold parent? Record.parent? Record.parents
  cases hrecord : t.get? id with
  | none => rfl
  | some r =>
    rw [Option.bind_some, isRoot_iff.1 h r hrecord]
    rfl

/-! ## One parent each -/

/-- Where there is a field for parents, it holds exactly one text. -/
def OneParent (t : Table) : Prop :=
  ∀ e ∈ t.entries, ∀ v ∈ e.2.get? parentField, v.texts.length = 1

instance : Decidable t.OneParent :=
  inferInstanceAs (Decidable (∀ e ∈ t.entries, ∀ v ∈ e.2.get? parentField, v.texts.length = 1))

theorem OneParent.parent?_eq_some_iff (hone : t.OneParent) : t.parent? c = some p ↔ t.IsParent p c := by
  unfold parent? IsParent Record.parent?
  rw [Option.bind_eq_some_iff]
  refine exists_congr fun r => and_congr_right fun hr => ?_
  rw [List.head?_eq_some_iff, Record.mem_parents_iff]
  unfold Record.parents
  have htexts := hone _ (OrderedMap.get?_eq_some_iff.1 hr)
  cases hv : r.get? parentField with
  | none => simp
  | some v =>
    obtain ⟨q, hq⟩ := List.length_eq_one_iff.1 (htexts v hv)
    simp [hq, eq_comm]

theorem OneParent.length_parents_le (hone : t.OneParent) {e : String × Record} (he : e ∈ t.entries) :
    e.2.parents.length ≤ 1 := by
  unfold Record.parents
  cases hv : e.2.get? parentField with
  | none => exact Nat.zero_le 1
  | some v => exact (hone e he v hv).le

/-- The records that name a parent are those whose first parent it is. -/
theorem OneParent.kids_eq (hone : t.OneParent) (p : String) :
    t.kids p = (t.entries.filter fun e => e.2.parent? == some p).map Prod.fst := by
  have hall : ∀ es : List (String × Record), (∀ e ∈ es, e.2.parents.length ≤ 1) →
      OrderedMap.given p (es.flatMap fun e => e.2.parents.map (·, e.1)) =
        (es.filter fun e => e.2.parent? == some p).map Prod.fst := by
    intro es hes
    induction es with
    | nil => rfl
    | cons e es ih =>
      obtain ⟨he, hes⟩ := List.forall_mem_cons.1 hes
      rw [List.flatMap_cons, OrderedMap.given_append, ih hes, List.filter_cons]
      unfold Record.parent?
      match hparents : e.2.parents, he with
      | [], _ => rfl
      | [q], _ => by_cases hq : q = p <;> simp [OrderedMap.given, hq]
  rw [kids_eq_given]
  exact hall t.entries fun e he => hone.length_parents_le he

theorem OneParent.map_id_children (hone : t.OneParent) (h : t.IsForest ts) {n : Lineage} {path : List Lineage}
    (hn : (n, path) ∈ placesAll [] ts) : n.children.map Lineage.id = t.kids n.id := by
  obtain ⟨seen, hwalk⟩ := h.walk
  have hsublist := ((hwalk ts seen).2 ⟨rfl, rfl⟩).map_id_children_sublist hn
  have hnodup : (t.kids n.id).Nodup := by
    rw [hone.kids_eq]
    exact t.nodup.sublist (List.filter_sublist.map _)
  refine hsublist.eq_of_length_le (List.subperm_of_subset hnodup fun c hc => ?_).length_le
  -- a child stands somewhere in the forest, and only below its one parent
  have hparent := mem_kids_iff.1 hc
  obtain ⟨m, path', hm, rfl⟩ := Lineage.mem_idsAll_iff.1 (h.closed _ _ hparent (id_mem_idsAll hn))
  cases path' with
  | nil => exact absurd (h.isRoot_of_mem (mem_placesAll_nil_iff.1 hm)) hparent.not_isRoot
  | cons q path' =>
    obtain ⟨hq, hm'⟩ := mem_placesAll_cons_iff.1 hm
    have hsame : some n.id = some q.id :=
      (hone.parent?_eq_some_iff.2 hparent).symm.trans (hone.parent?_eq_some_iff.2 (h.link m q path' hm))
    cases place_unique h.nodup hn hq (Option.some.inj hsame)
    exact List.mem_map_of_mem hm'

theorem OneParent.climb_path (hone : t.OneParent) (h : t.IsForest ts) {n : Lineage} {path : List Lineage}
    (hn : (n, path) ∈ placesAll [] ts) {seen : List String} (hseen : ∀ x ∈ path.map Lineage.id, x ∉ seen) :
    t.Climb seen n.id (path.map Lineage.id) := by
  induction path generalizing n seen with
  | nil => exact .top (parent?_of_isRoot (h.isRoot_of_mem (mem_placesAll_nil_iff.1 hn)))
  | cons p path ih =>
    have hnodup := (List.nodup_cons.1 (nodup_path h.nodup hn)).2
    obtain ⟨hfirst, -⟩ := List.nodup_cons.1 hnodup
    obtain ⟨hp, hseen⟩ := List.forall_mem_cons.1 hseen
    refine .up (hone.parent?_eq_some_iff.2 (h.link n p path hn)) hp (ih (mem_placesAll_cons_iff.1 hn).1 ?_)
    intro x hx hmem
    rcases List.mem_cons.1 hmem with rfl | hmem
    · exact hfirst hx
    · exact hseen x hx hmem

theorem OneParent.siblings_eq (hone : t.OneParent) (h : t.IsParent p id) :
    t.siblings id = (t.kids p).filter (· ≠ id) := by
  have hparent : (t.get? id).bind Record.parent? = some p := hone.parent?_eq_some_iff.2 h
  unfold siblings
  rw [hparent, hone.kids_eq, List.filter_map, List.filter_filter]
  dsimp only
  congr 1
  refine List.filter_congr fun e _ => ?_
  simp [bne, Bool.beq_eq_decide_eq]

end Table

namespace Store

/-- The other trees below the nearest of the nodes above an identifier, if there are any above it. -/
def besides (id : String) : (above : List Lineage) → List String
  | [] => []
  | p :: _ => (p.children.map Lineage.id).filter (· ≠ id)

/--
In a table of records with one parent each, an identifier of the forest has one place in it. Its ancestors are
the nodes above it from the nearest to the root, and its siblings are the other children of the nearest one, in
the order of the tree.
-/
theorem kinship_in_forest {s : Store} {name : String} {t : Table} (h : s.table? name = some t) (hone : t.OneParent)
    {id : String} (hid : id ∈ Lineage.idsAll (s.forest name)) :
    ∃ n above, (∀ place, place ∈ Lineage.placesAll [] (s.forest name) ∧ place.1.id = id ↔ place = (n, above)) ∧
      s.ancestors name id = above.map Lineage.id ∧ s.siblings name id = besides id above := by
  have hforest : t.IsForest (s.forest name) := by
    rw [forest_eq h]
    exact t.isForest_forest
  obtain ⟨n, above, hn, rfl⟩ := Lineage.mem_idsAll_iff.1 hid
  refine ⟨n, above, fun place => ⟨fun hplace => ?_, ?_⟩, ?_, ?_⟩
  · exact Lineage.place_unique hforest.nodup hplace.1 hn hplace.2
  · rintro rfl
    exact ⟨hn, rfl⟩
  · have hfirst := (List.nodup_cons.1 (Lineage.nodup_path hforest.nodup hn)).1
    have hpath : t.Climb [n.id] n.id (above.map Lineage.id) := hone.climb_path hforest hn fun x hx hmem =>
      hfirst (List.mem_singleton.1 hmem ▸ hx)
    unfold ancestors
    rw [h]
    exact (t.climb_ancestors n.id).unique hpath
  · unfold siblings
    rw [h]
    show t.siblings n.id = _
    cases above with
    | nil =>
      have hnone : (t.get? n.id).bind Record.parent? = none :=
        Table.parent?_of_isRoot (hforest.isRoot_of_mem (Lineage.mem_placesAll_nil_iff.1 hn))
      unfold Table.siblings
      rw [hnone]
      rfl
    | cons p above =>
      show _ = (p.children.map Lineage.id).filter (· ≠ n.id)
      rw [hone.siblings_eq (hforest.link n p above hn),
        hone.map_id_children hforest (Lineage.mem_placesAll_cons_iff.1 hn).1]

/-- Two generations below a root, a parent that is no record, and a circle beside them. -/
def family : Table := .ofList [
  ("root", .ofList [("id", .scalar "root")]),
  ("a1", .ofList [("id", .scalar "a1"), ("parentID", .scalar "a")]),
  ("a", .ofList [("id", .scalar "a"), ("parentID", .scalar "root")]),
  ("x", .ofList [("id", .scalar "x"), ("parentID", .scalar "y")]),
  ("y", .ofList [("id", .scalar "y"), ("parentID", .scalar "x")]),
  ("a2", .ofList [("id", .scalar "a2"), ("parentID", .list ["a"])]),
  ("orphan", .ofList [("id", .scalar "orphan"), ("parentID", .scalar "missing")])]

theorem kinship_in_forest_family :
    let s : Store := .single "sample" family
    Lineage.idsAll (s.forest "sample") = ["root", "a", "a1", "a2", "missing", "orphan"] ∧
      s.ancestors "sample" "a1" = ["a", "root"] ∧ s.siblings "sample" "a1" = ["a2"] ∧
      ∃ n above, (n, above) ∈ Lineage.placesAll [] (s.forest "sample") ∧ n.id = "a1" ∧
        above.map Lineage.id = ["a", "root"] ∧ besides "a1" above = ["a2"] := by
  intro s
  have htable : s.table? "sample" = some family := rfl
  have hids : Lineage.idsAll (s.forest "sample") = ["root", "a", "a1", "a2", "missing", "orphan"] := by
    show Lineage.idsAll (forest (.single "sample" family) "sample") = _
    cbv
  have hid : "a1" ∈ Lineage.idsAll (s.forest "sample") := hids ▸ by decide
  have hancestors : s.ancestors "sample" "a1" = ["a", "root"] := by decide
  have hsiblings : s.siblings "sample" "a1" = ["a2"] := by decide
  have hone : family.OneParent := by decide
  obtain ⟨n, above, hplace, habove, hbesides⟩ := kinship_in_forest htable hone hid
  obtain ⟨hn, hnid⟩ := (hplace (n, above)).2 rfl
  exact ⟨hids, hancestors, hsiblings, n, above, hn, hnid, habove.symm.trans hancestors, hbesides.symm.trans hsiblings⟩

end Store
end TagHarvest
