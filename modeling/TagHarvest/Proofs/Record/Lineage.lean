/-
The forest of a table. It holds every identifier that some root stands above, and nothing else; each stands
in it once and below a parent that it names. In a table without circles a record that names a parent is left
out only if all its topmost ancestors are records whose list of parents is empty.
-/
import TagHarvest.Proofs.Record.Parentage
import TagHarvest.Proofs.Record.Walk
import Mathlib.Data.List.Permutation
import Mathlib.Order.WellFoundedSet

namespace TagHarvest

open Relation

namespace Table

open Lineage

variable {t : Table} {id : String}

/-- Planting roots in turn is walking over them, as no tree reaches a root that is still to come. -/
theorem foldl_grow {kids : OrderedMap String (List String)} {fuel : Nat} (hlinked : ∀ p, (kids.get? p).getD [] ⊆ linked kids)
    (hfuel : (linked kids).length ≤ fuel) {roots : List String} (hroots : roots ⊆ linked kids) (hnodup : roots.Nodup)
    (hkids : ∀ root ∈ roots, ∀ p, root ∉ (kids.get? p).getD []) {trees : List Lineage} {seen : List String}
    (hseen : ∀ root ∈ roots, root ∉ seen) :
    roots.foldl (fun (trees, seen) root =>
        let (tree, seen) := grow kids fuel seen root
        (trees ++ [tree], seen)) (trees, seen) =
      (trees ++ (growAll kids fuel seen roots).1, (growAll kids fuel seen roots).2) := by
  induction roots generalizing trees seen with
  | nil => rw [growAll_nil, List.append_nil, List.foldl_nil]
  | cons root roots ih =>
    obtain ⟨hroot, hroots⟩ := List.cons_subset.1 hroots
    obtain ⟨hfirst, hnodup⟩ := List.nodup_cons.1 hnodup
    obtain ⟨hrootseen, hseen⟩ := List.forall_mem_cons.1 hseen
    have hkids' : ∀ r ∈ roots, ∀ p, r ∉ (kids.get? p).getD [] := fun r hr => hkids r (List.mem_cons_of_mem _ hr)
    have hunseen : (unseen (linked kids) seen).length ≤ fuel := Nat.le_trans (List.length_filter_le _ _) hfuel
    have hwalk := walk_growAll fuel (List.cons_subset.2 ⟨hroot, List.nil_subset _⟩) hlinked hunseen
    rw [growAll_cons_of_not_mem hrootseen, growAll_nil] at hwalk
    have hlater : ∀ r ∈ roots, r ∉ (grow kids fuel seen root).2 := by
      intro r hr hmem
      rcases hwalk.mem_seen_iff.1 hmem with hmem | hmem
      · exact hseen r hr hmem
      · rcases hwalk.mem_idsAll hmem with hmem | ⟨p, hp⟩
        · exact hfirst (List.mem_singleton.1 hmem ▸ hr)
        · exact hkids' r hr p hp
    rw [List.foldl_cons, growAll_cons_of_not_mem hrootseen]
    show roots.foldl _ (trees ++ [(grow kids fuel seen root).1], (grow kids fuel seen root).2) = _
    rw [ih hroots hnodup hkids' hlater, List.append_assoc]
    rfl

theorem walk_forest (t : Table) : ∃ seen, Walk t.kids [] t.roots t.forest seen := by
  have hlinked : ∀ p, t.kids p ⊆ linked t.childMap := fun p c hc => mem_linked_of_mem_kids hc
  have hroots : t.roots ⊆ linked t.childMap := fun p hp => mem_linked_of_mem_keys (List.mem_filter.1 hp).1
  have hkids : ∀ root ∈ t.roots, ∀ p, root ∉ t.kids p := fun root hroot p hp =>
    (mem_kids_iff.1 hp).not_isRoot (mem_roots_iff.1 hroot).2
  have hforest : t.forest = (growAll t.childMap ((linked t.childMap).length + 1) [] t.roots).1 :=
    congrArg Prod.fst (foldl_grow hlinked (Nat.le_succ _) hroots t.nodup_roots hkids fun _ _ => List.not_mem_nil)
  rw [hforest]
  exact ⟨_, walk_growAll _ hroots hlinked (Nat.le_trans (List.length_filter_le _ _) (Nat.le_succ _))⟩

/-! ## What a forest is -/

/-- The forest of a table, told from its parent links. -/
structure IsForest (t : Table) (ts : List Lineage) : Prop where
  /-- The walk over the roots comes to its end with these trees, and with no others. -/
  walk : ∃ seen, ∀ ts' seen', Walk t.kids [] t.roots ts' seen' ↔ ts' = ts ∧ seen' = seen
  /-- No identifier stands at two places. -/
  nodup : (idsAll ts).Nodup
  /-- What stands below a node names it as parent. -/
  link : ∀ n p path, (n, p :: path) ∈ placesAll [] ts → t.IsParent p.id n.id
  /-- Trees start where something is named as parent that is no record or a record without the field. -/
  root : ∀ id, id ∈ ts.map Lineage.id ↔
    (∃ c, t.IsParent id c) ∧ ∀ r, t.get? id = some r → r.get? parentField = none
  /-- Whatever names a node as parent is itself a node. -/
  closed : ∀ p c, t.IsParent p c → p ∈ idsAll ts → c ∈ idsAll ts

theorem isForest_forest (t : Table) : t.IsForest t.forest := by
  obtain ⟨seen, hwalk⟩ := walk_forest t
  have hseen : ∀ x, x ∈ seen ↔ x ∈ idsAll t.forest := fun x => by
    rw [hwalk.mem_seen_iff]
    exact or_iff_right List.not_mem_nil
  have hnodup := hwalk.nodup.1
  have hroots : t.forest.map Lineage.id ⊆ t.roots := hwalk.map_id_sublist.subset
  have hlink : ∀ n p path, (n, p :: path) ∈ placesAll [] t.forest → t.IsParent p.id n.id := by
    intro n p path hn
    obtain ⟨hp, hn⟩ := mem_placesAll_cons_iff.1 hn
    exact mem_kids_iff.1 ((hwalk.map_id_children_sublist hp).subset (List.mem_map_of_mem hn))
  refine ⟨⟨seen, fun ts' seen' => ⟨fun h => h.unique hwalk, ?_⟩⟩, hnodup, hlink, fun id => ?_, ?_⟩
  · rintro ⟨rfl, rfl⟩
    exact hwalk
  · rw [← isRoot_iff, ← mem_roots_iff]
    refine ⟨fun h => hroots h, fun hroot => ?_⟩
    -- a root is seen, and there is nothing that it could stand below
    obtain ⟨n, path, hn, rfl⟩ := mem_idsAll_iff.1 ((hseen id).1 (hwalk.covers hroot))
    cases path with
    | nil => exact List.mem_map_of_mem (mem_placesAll_nil_iff.1 hn)
    | cons p path => exact absurd (mem_roots_iff.1 hroot).2 (hlink n p path hn).not_isRoot
  · intro p c hpc hp
    exact (hseen c).1 (hwalk.closed p hp (mem_kids_iff.2 hpc))

theorem IsForest.isRoot_of_mem {ts : List Lineage} (h : t.IsForest ts) {n : Lineage} (hn : n ∈ ts) :
    t.isRoot n.id = true :=
  isRoot_iff.2 ((h.root n.id).1 (List.mem_map_of_mem hn)).2

/-! ## Who stands in a forest -/

/-- An identifier is in the forest if the links lead to it from a root. -/
theorem IsForest.mem_idsAll_iff {ts : List Lineage} (h : t.IsForest ts) :
    id ∈ idsAll ts ↔ ∃ root ∈ t.roots, ReflTransGen t.IsParent root id := by
  have hroots : ∀ root, root ∈ ts.map Lineage.id ↔ root ∈ t.roots := fun root => by
    rw [h.root, mem_roots_iff, isRoot_iff]
  constructor
  · intro hid
    obtain ⟨n, path, hn, rfl⟩ := Lineage.mem_idsAll_iff.1 hid
    clear hid
    induction path generalizing n with
    | nil => exact ⟨n.id, (hroots _).1 (List.mem_map_of_mem (mem_placesAll_nil_iff.1 hn)), .refl⟩
    | cons p path ih =>
      obtain ⟨root, hroot, hchain⟩ := ih p (mem_placesAll_cons_iff.1 hn).1
      exact ⟨root, hroot, hchain.tail (h.link n p path hn)⟩
  · rintro ⟨root, hroot, hchain⟩
    induction hchain with
    | refl =>
      obtain ⟨n, hn, hid⟩ := List.mem_map.1 ((hroots root).2 hroot)
      exact Lineage.mem_idsAll_iff.2 ⟨n, [], mem_placesAll_nil_iff.2 hn, hid⟩
    | tail _ hlink ih => exact h.closed _ _ hlink ih

/-- `top` stands above `id` at the end of a chain of links. -/
def IsTop (t : Table) (top id : String) : Prop := TransGen t.IsParent top id ∧ ∀ p, ¬ t.IsParent p top

/-- A record that has the field for its parents, but with no text in it. -/
def EmptyParents (t : Table) (id : String) : Prop :=
  ∃ r, t.get? id = some r ∧ r.get? parentField = some (.list [])

theorem isRoot_iff_of_no_parent (h : ∀ p, ¬ t.IsParent p id) : t.isRoot id = true ↔ ¬ t.EmptyParents id := by
  rw [isRoot_iff]
  constructor
  · rintro hroot ⟨r, hr, hempty⟩
    rw [hroot r hr] at hempty
    cases hempty
  · intro hfull r hr
    cases hv : r.get? parentField with
    | none => rfl
    | some v =>
      have htexts : ∀ p, p ∉ v.texts := fun p hp => h p ⟨r, hr, Record.mem_parents_iff.2 ⟨v, hv, hp⟩⟩
      cases v with
      | scalar s => exact absurd List.mem_cons_self (htexts s)
      | list l =>
        have hnil : l = [] := List.eq_nil_iff_forall_not_mem.2 htexts
        exact absurd ⟨r, hr, hnil ▸ hv⟩ hfull

/-- Links along which a number grows run in no circle. -/
theorem acyclic_of_links (rank : String → Nat) (h : ∀ link ∈ t.links, rank link.1 < rank link.2) (id : String) :
    ¬ TransGen t.IsParent id id := by
  have hrank : ∀ {p c}, TransGen t.IsParent p c → rank p < rank c := by
    intro p c hchain
    induction hchain with
    | single hlink => exact h _ (mem_links_iff.2 hlink)
    | tail _ hlink ih => exact ih.trans (h _ (mem_links_iff.2 hlink))
  exact fun hcircle => Nat.lt_irrefl _ (hrank hcircle)

/-- Without circles every chain of links can be followed up to an end. -/
theorem exists_top (hacyclic : ∀ x, ¬ TransGen t.IsParent x x) (id : String) :
    ∃ top, ReflTransGen t.IsParent top id ∧ ∀ p, ¬ t.IsParent p top := by
  have hirrefl : Std.Irrefl (TransGen t.IsParent) := ⟨hacyclic⟩
  have htrans : IsTrans String (TransGen t.IsParent) := ⟨fun _ _ _ => TransGen.trans⟩
  have horder : IsStrictOrder String (TransGen t.IsParent) := {}
  have hwf : {x | x ∈ t.keys}.WellFoundedOn (TransGen t.IsParent) := t.keys.finite_toSet.wellFoundedOn
  by_cases hid : id ∈ t.keys
  · refine hwf.induction hid (P := fun c => ∃ top, ReflTransGen t.IsParent top c ∧ ∀ p, ¬ t.IsParent p top)
      fun c _ ih => ?_
    by_cases hparent : ∃ p, t.IsParent p c
    · obtain ⟨p, hp⟩ := hparent
      by_cases hkey : p ∈ t.keys
      · obtain ⟨top, hchain, htop⟩ := ih p hkey (.single hp)
        exact ⟨top, hchain.tail hp, htop⟩
      · refine ⟨p, .single hp, ?_⟩
        rintro q ⟨r, hr, -⟩
        exact hkey (OrderedMap.mem_keys_of_get? hr)
    · exact ⟨c, .refl, not_exists.1 hparent⟩
  · refine ⟨id, .refl, ?_⟩
    rintro q ⟨r, hr, -⟩
    exact hid (OrderedMap.mem_keys_of_get? hr)

end Table

namespace Store

/-- The trees of a table; none if no record of it names a parent. -/
def forest (s : Store) (table : String) : List Lineage := (OrderedMap.find table s.lineages).getD []

theorem forest_eq {s : Store} {name : String} {t : Table} (h : s.table? name = some t) : s.forest name = t.forest := by
  have hentry : (name, t) ∈ s.entries := OrderedMap.get?_eq_some_iff.1 h
  unfold forest lineages
  cases hempty : t.childMap.isEmpty with
  | false =>
    have hmem : (name, t) ∈ s.entries.filter fun e => !e.2.childMap.isEmpty :=
      List.mem_filter.2 ⟨hentry, by simp [hempty]⟩
    have hnodup : (((s.entries.filter fun e => !e.2.childMap.isEmpty).map fun e => (e.1, e.2.forest)).map
        Prod.fst).Nodup := by
      rw [List.map_map]
      exact s.nodup.sublist (List.filter_sublist.map _)
    rw [OrderedMap.find_of_mem hnodup (List.mem_map_of_mem hmem), Option.getD_some]
  | true =>
    have hnone : OrderedMap.find name ((s.entries.filter fun e => !e.2.childMap.isEmpty).map fun e => (e.1, e.2.forest)) =
        none := by
      rw [OrderedMap.find_eq_none_iff]
      intro hname
      rw [List.map_map] at hname
      obtain ⟨e, he, rfl⟩ := List.mem_map.1 hname
      obtain ⟨he, hfull⟩ := List.mem_filter.1 he
      have ht : e.2 = t := Option.some.inj ((OrderedMap.get?_of_mem he).symm.trans h)
      rw [ht, hempty] at hfull
      cases hfull
    have hroots : t.roots = [] := by
      unfold Table.roots
      rw [Table.childMap_isEmpty_iff.1 hempty, List.filter_nil]
    obtain ⟨seen, hwalk⟩ := t.walk_forest
    rw [hroots] at hwalk
    rw [hnone, hwalk.unique .nil |>.1, Option.getD_none]

/--
For every table, whatever its links are, the trees come out of a walk that ends; they hold no identifier twice,
follow the links, start at the roots, and leave out no record that names a node as parent.
-/
theorem isForest_lineages {s : Store} {name : String} {t : Table} (h : s.table? name = some t) :
    t.IsForest (s.forest name) := by
  rw [forest_eq h]
  exact t.isForest_forest

/-- Records that name each other in a circle, parents that are no records, several parents and one named twice. -/
def tangled : Store := .single "sample" <| .ofList [
  ("root", .ofList [("id", .scalar "root")]),
  ("a", .ofList [("id", .scalar "a"), ("parentID", .scalar "root")]),
  ("b", .ofList [("id", .scalar "b"), ("parentID", .list ["root", "a", "a"])]),
  ("x", .ofList [("id", .scalar "x"), ("parentID", .scalar "y")]),
  ("y", .ofList [("id", .scalar "y"), ("parentID", .scalar "x")]),
  ("z", .ofList [("id", .scalar "z"), ("parentID", .list ["x", "missing"])])]

theorem isForest_lineages_tangled :
    Lineage.idsAll (tangled.forest "sample") = ["root", "a", "b", "missing", "z"] ∧
      ∃ t, tangled.table? "sample" = some t ∧ t.IsForest (tangled.forest "sample") :=
  ⟨by cbv, _, rfl, isForest_lineages rfl⟩

/--
In a table without circles something stands at the top of each record that names a parent. The record occurs
exactly once in the forest, unless every such top is a record whose list of parents is empty: then it is left
out.
-/
theorem lineages_leave_out {s : Store} {name : String} {t : Table} (h : s.table? name = some t)
    (hacyclic : ∀ x, ¬ TransGen t.IsParent x x) {id : String} (hid : ∃ p, t.IsParent p id) :
    (∃ top, t.IsTop top id) ∧
      ((Lineage.idsAll (s.forest name)).count id = 1 ∧ (∃ top, t.IsTop top id ∧ ¬ t.EmptyParents top) ∨
        (Lineage.idsAll (s.forest name)).count id = 0 ∧ ∀ top, t.IsTop top id → t.EmptyParents top) := by
  have hforest : t.IsForest (s.forest name) := by
    rw [forest_eq h]
    exact t.isForest_forest
  obtain ⟨p, hp⟩ := hid
  have hmem : id ∈ Lineage.idsAll (s.forest name) ↔ ∃ top, t.IsTop top id ∧ ¬ t.EmptyParents top := by
    rw [hforest.mem_idsAll_iff]
    constructor
    · rintro ⟨root, hroot, hchain⟩
      have hroot := (Table.mem_roots_iff.1 hroot).2
      have hnone : ∀ q, ¬ t.IsParent q root := fun q hq => hq.not_isRoot hroot
      refine ⟨root, ⟨?_, hnone⟩, (Table.isRoot_iff_of_no_parent hnone).1 hroot⟩
      rcases reflTransGen_iff_eq_or_transGen.1 hchain with rfl | hchain
      · exact absurd hp (hnone p)
      · exact hchain
    · rintro ⟨top, ⟨hchain, hnone⟩, hfull⟩
      obtain ⟨c, hc, -⟩ := TransGen.head'_iff.1 hchain
      exact ⟨top, Table.mem_roots_iff.2 ⟨⟨c, hc⟩, (Table.isRoot_iff_of_no_parent hnone).2 hfull⟩, hchain.to_reflTransGen⟩
  constructor
  · obtain ⟨top, hchain, hnone⟩ := Table.exists_top hacyclic p
    exact ⟨top, .tail' hchain hp, hnone⟩
  · by_cases hin : id ∈ Lineage.idsAll (s.forest name)
    · exact .inl ⟨List.count_eq_one_of_mem hforest.nodup hin, hmem.1 hin⟩
    · refine .inr ⟨List.count_eq_zero.2 hin, fun top htop => ?_⟩
      by_contra hfull
      exact hin (hmem.2 ⟨top, htop, hfull⟩)

/-- The record `p` has an empty list of parents; `x` names it alone, and `y` names another parent as well. -/
def unrooted : Table := .ofList [
  ("p", .ofList [("id", .scalar "p"), ("parentID", .list [])]),
  ("x", .ofList [("id", .scalar "x"), ("parentID", .scalar "p")]),
  ("y", .ofList [("id", .scalar "y"), ("parentID", .list ["p", "q"])])]

theorem lineages_leave_out_unrooted :
    let s : Store := .single "sample" unrooted
    let ids := Lineage.idsAll (s.forest "sample")
    ids = ["q", "y"] ∧ (ids.count "x" = 0 ∧ ∀ top, unrooted.IsTop top "x" → unrooted.EmptyParents top) ∧
      (ids.count "y" = 1 ∧ ∃ top, unrooted.IsTop top "y" ∧ ¬ unrooted.EmptyParents top) := by
  intro s ids
  have hids : ids = ["q", "y"] := by
    show Lineage.idsAll (forest (.single "sample" unrooted) "sample") = _
    cbv
  have htable : s.table? "sample" = some unrooted := rfl
  have hacyclic := Table.acyclic_of_links (t := unrooted) (fun id => if id ∈ ["x", "y"] then 1 else 0) (by decide)
  have hx : unrooted.IsParent "p" "x" := Table.mem_links_iff.1 (by decide)
  have hy : unrooted.IsParent "p" "y" := Table.mem_links_iff.1 (by decide)
  have hleft := (lineages_leave_out htable hacyclic ⟨"p", hx⟩).2.resolve_left
  have hkept := (lineages_leave_out htable hacyclic ⟨"p", hy⟩).2.resolve_right
  refine ⟨hids, hleft fun h => ?_, hkept fun h => ?_⟩
  · exact absurd (hids ▸ h.1 : ["q", "y"].count "x" = 1) (by decide)
  · exact absurd (hids ▸ h.1 : ["q", "y"].count "y" = 0) (by decide)

end Store
end TagHarvest
