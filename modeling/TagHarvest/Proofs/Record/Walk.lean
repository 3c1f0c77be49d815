/-
The walk that builds trees. It is told here as a relation without any fuel, and `growAll` follows it as soon
as its fuel is not below the number of identifiers that are linked and not yet seen. Whatever the links are,
a walk enters no identifier twice, what it has seen is what its trees hold, and it leaves none of the
children of a node unseen.
-/
import TagHarvest.Record.Lineage
import Mathlib.Data.List.Nodup
import Mathlib.Data.List.Perm.Subperm

namespace TagHarvest

namespace Lineage

/-! ## The nodes of trees -/

mutual
/-- The identifiers of a tree, each before those below it. -/
def ids : Lineage → List String
  | node id cs => id :: idsAll cs

/-- The identifiers of a forest. -/
def idsAll : List Lineage → List String
  | [] => []
  | t :: ts => ids t ++ idsAll ts
end

mutual
/-- The nodes of a tree in the same order, each with the nodes above it, the nearest first. -/
def places (above : List Lineage) : Lineage → List (Lineage × List Lineage)
  | node id cs => (node id cs, above) :: placesAll (node id cs :: above) cs

/-- The nodes of the trees that stand below some nodes. -/
def placesAll (above : List Lineage) : List Lineage → List (Lineage × List Lineage)
  | [] => []
  | t :: ts => places above t ++ placesAll above ts
end

theorem ids_eq (t : Lineage) : ids t = t.id :: idsAll t.children := by
  cases t
  rfl

mutual
theorem map_id_places (above : List Lineage) : ∀ t : Lineage, (places above t).map (·.1.id) = ids t
  | node id cs => by
    rw [places, ids, List.map_cons, map_id_placesAll]
    rfl

theorem map_id_placesAll (above : List Lineage) :
    ∀ ts : List Lineage, (placesAll above ts).map (·.1.id) = idsAll ts
  | [] => rfl
  | t :: ts => by rw [placesAll, idsAll, List.map_append, map_id_places, map_id_placesAll]
end

theorem mem_placesAll_of_mem {above ts : List Lineage} {n : Lineage} (h : n ∈ ts) :
    (n, above) ∈ placesAll above ts := by
  induction ts with
  | nil => cases h
  | cons t ts ih =>
    rw [placesAll, List.mem_append]
    rcases List.mem_cons.1 h with rfl | h
    · cases n
      exact .inl List.mem_cons_self
    · exact .inr (ih h)

mutual
theorem mem_places_child {above path : List Lineage} {p n : Lineage} (hn : n ∈ p.children) :
    ∀ t : Lineage, (p, path) ∈ places above t → (n, p :: path) ∈ places above t
  | node id cs => by
    rw [places, List.mem_cons, List.mem_cons]
    rintro (h | h)
    · cases h
      exact .inr (mem_placesAll_of_mem hn)
    · exact .inr (mem_placesAll_child hn cs h)

theorem mem_placesAll_child {above path : List Lineage} {p n : Lineage} (hn : n ∈ p.children) :
    ∀ ts : List Lineage, (p, path) ∈ placesAll above ts → (n, p :: path) ∈ placesAll above ts
  | [] => nofun
  | t :: ts => by
    rw [placesAll, List.mem_append, List.mem_append]
    exact Or.imp (mem_places_child hn t) (mem_placesAll_child hn ts)
end

mutual
theorem of_mem_places {above path : List Lineage} {n : Lineage} :
    ∀ t : Lineage, (n, path) ∈ places above t →
      (n = t ∧ path = above) ∨ ∃ p rest, path = p :: rest ∧ n ∈ p.children ∧ (p, rest) ∈ places above t
  | node id cs => by
    rw [places, List.mem_cons]
    rintro (h | h)
    · cases h
      exact .inl ⟨rfl, rfl⟩
    · refine .inr ?_
      rcases of_mem_placesAll cs h with ⟨hn, rfl⟩ | ⟨p, rest, rfl, hn, hp⟩
      · exact ⟨node id cs, above, rfl, hn, List.mem_cons_self⟩
      · exact ⟨p, rest, rfl, hn, List.mem_cons_of_mem _ hp⟩

theorem of_mem_placesAll {above path : List Lineage} {n : Lineage} :
    ∀ ts : List Lineage, (n, path) ∈ placesAll above ts →
      (n ∈ ts ∧ path = above) ∨ ∃ p rest, path = p :: rest ∧ n ∈ p.children ∧ (p, rest) ∈ placesAll above ts
  | [] => nofun
  | t :: ts => by
    rw [placesAll, List.mem_append]
    rintro (h | h)
    · rcases of_mem_places t h with ⟨rfl, hpath⟩ | ⟨p, rest, hpath, hn, hp⟩
      · exact .inl ⟨List.mem_cons_self, hpath⟩
      · exact .inr ⟨p, rest, hpath, hn, List.mem_append_left _ hp⟩
    · rcases of_mem_placesAll ts h with ⟨hn, hpath⟩ | ⟨p, rest, hpath, hn, hp⟩
      · exact .inl ⟨List.mem_cons_of_mem _ hn, hpath⟩
      · exact .inr ⟨p, rest, hpath, hn, List.mem_append_right _ hp⟩
end

variable {ts path : List Lineage} {n p : Lineage}

/-- Nothing stands above the roots of a forest. -/
theorem mem_placesAll_nil_iff : (n, []) ∈ placesAll [] ts ↔ n ∈ ts := by
  refine ⟨fun h => ?_, mem_placesAll_of_mem⟩
  rcases of_mem_placesAll ts h with ⟨hn, -⟩ | ⟨p, rest, hpath, -⟩
  · exact hn
  · cases hpath

/-- A child of a node stands below it and what is above it. -/
theorem mem_placesAll_cons_iff :
    (n, p :: path) ∈ placesAll [] ts ↔ (p, path) ∈ placesAll [] ts ∧ n ∈ p.children := by
  refine ⟨fun h => ?_, fun h => mem_placesAll_child h.2 ts h.1⟩
  rcases of_mem_placesAll ts h with ⟨-, hpath⟩ | ⟨q, rest, hpath, hn, hq⟩
  · cases hpath
  · cases hpath
    exact ⟨hq, hn⟩

theorem mem_idsAll_iff {id : String} :
    id ∈ idsAll ts ↔ ∃ n path, (n, path) ∈ placesAll [] ts ∧ n.id = id := by
  rw [← map_id_placesAll [] ts, List.mem_map]
  exact ⟨fun ⟨⟨n, path⟩, h⟩ => ⟨n, path, h⟩, fun ⟨n, path, h⟩ => ⟨(n, path), h⟩⟩

theorem id_mem_idsAll (h : (n, path) ∈ placesAll [] ts) : n.id ∈ idsAll ts :=
  mem_idsAll_iff.2 ⟨n, path, h, rfl⟩

/-- In a forest that repeats no identifier each of them stands at one place. -/
theorem place_unique (hts : (idsAll ts).Nodup) {n' : Lineage} {path' : List Lineage}
    (h : (n, path) ∈ placesAll [] ts) (h' : (n', path') ∈ placesAll [] ts) (hid : n.id = n'.id) :
    (n, path) = (n', path') := by
  rw [← map_id_placesAll [] ts] at hts
  exact List.inj_on_of_nodup_map hts h h' hid

theorem ids_sublist_idsAll {t : Lineage} (h : t ∈ ts) : (ids t).Sublist (idsAll ts) := by
  induction ts with
  | nil => cases h
  | cons t' ts ih =>
    rw [idsAll]
    rcases List.mem_cons.1 h with rfl | h
    · exact List.sublist_append_left _ _
    · exact (ih h).trans (List.sublist_append_right _ _)

/-- The identifiers on the way to a node are listed from the root down, and after them those of its tree. -/
theorem path_sublist_idsAll (h : (n, path) ∈ placesAll [] ts) :
    ((path.map id).reverse ++ ids n).Sublist (idsAll ts) := by
  induction path generalizing n with
  | nil => exact ids_sublist_idsAll (mem_placesAll_nil_iff.1 h)
  | cons p path ih =>
    obtain ⟨hp, hn⟩ := mem_placesAll_cons_iff.1 h
    refine .trans ?_ (ih hp)
    rw [List.map_cons, List.reverse_cons, List.append_assoc, ids_eq p]
    exact .append_left (.cons_cons _ (ids_sublist_idsAll hn)) _

theorem nodup_path (hts : (idsAll ts).Nodup) (h : (n, path) ∈ placesAll [] ts) :
    (n.id :: path.map id).Nodup := by
  have hall := hts.sublist (path_sublist_idsAll h)
  rw [ids_eq, List.nodup_append_comm, List.cons_append, List.nodup_cons] at hall
  rw [List.nodup_cons]
  refine ⟨fun hmem => hall.1 ?_, List.nodup_reverse.1 (List.nodup_append.1 hall.2).2.1⟩
  exact List.mem_append_right _ (List.mem_reverse.2 hmem)

end Lineage

/-! ## The walk -/

/--
A walk over identifiers from left to right, with the identifiers seen before and after it and the trees that
it builds. One that is seen is passed over; below any other one come its children.
-/
inductive Walk (kids : String → List String) :
    (seen ids : List String) → (trees : List Lineage) → (seen' : List String) → Prop
  | nil {seen : List String} : Walk kids seen [] [] seen
  | skip {seen seen' ids : List String} {trees : List Lineage} {id : String} (hid : id ∈ seen)
    (hrest : Walk kids seen ids trees seen') : Walk kids seen (id :: ids) trees seen'
  | enter {seen seen₁ seen₂ ids : List String} {below trees : List Lineage} {id : String} (hid : id ∉ seen)
    (hbelow : Walk kids (id :: seen) (kids id) below seen₁) (hrest : Walk kids seen₁ ids trees seen₂) :
    Walk kids seen (id :: ids) (.node id below :: trees) seen₂

namespace Walk

open Lineage

variable {kids : String → List String} {seen seen' ids : List String} {trees : List Lineage} {x : String}

/-- There is only one walk. -/
theorem unique (h : Walk kids seen ids trees seen') {trees' : List Lineage} {seen'' : List String}
    (h' : Walk kids seen ids trees' seen'') : trees = trees' ∧ seen' = seen'' := by
  induction h generalizing trees' seen'' with
  | nil =>
    cases h'
    exact ⟨rfl, rfl⟩
  | skip hid _ ih =>
    cases h' with
    | skip _ hrest => exact ih hrest
    | enter hid' _ _ => exact absurd hid hid'
  | enter hid _ _ ihbelow ihrest =>
    cases h' with
    | skip hid' _ => exact absurd hid' hid
    | enter _ hbelow hrest =>
      obtain ⟨rfl, rfl⟩ := ihbelow hbelow
      obtain ⟨rfl, rfl⟩ := ihrest hrest
      exact ⟨rfl, rfl⟩

theorem mem_seen_iff (h : Walk kids seen ids trees seen') : x ∈ seen' ↔ x ∈ seen ∨ x ∈ idsAll trees := by
  induction h with
  | nil => simp [idsAll]
  | skip _ _ ih => exact ih
  | enter _ _ _ ihbelow ihrest =>
    rw [ihrest, ihbelow, idsAll, Lineage.ids, List.mem_append, List.mem_cons, List.mem_cons]
    tauto

/-- A walk enters nothing that is seen, and nothing twice. -/
theorem nodup (h : Walk kids seen ids trees seen') :
    (idsAll trees).Nodup ∧ ∀ x ∈ idsAll trees, x ∉ seen := by
  induction h with
  | nil => exact ⟨List.nodup_nil, nofun⟩
  | skip _ _ ih => exact ih
  | @enter seen seen₁ seen₂ ids below trees id hid hbelow hrest ihbelow ihrest =>
    obtain ⟨hnbelow, hdbelow⟩ := ihbelow
    obtain ⟨hnrest, hdrest⟩ := ihrest
    rw [idsAll, Lineage.ids]
    have hfresh : id ∉ idsAll below := fun hm => hdbelow id hm List.mem_cons_self
    -- what the walk below has seen is not entered again to the right
    have hapart : ∀ x ∈ id :: idsAll below, x ∉ idsAll trees := by
      intro x hx hm
      refine hdrest x hm (hbelow.mem_seen_iff.2 ?_)
      rcases List.mem_cons.1 hx with rfl | hx
      · exact .inl List.mem_cons_self
      · exact .inr hx
    constructor
    · refine List.nodup_append.2 ⟨List.nodup_cons.2 ⟨hfresh, hnbelow⟩, hnrest, ?_⟩
      rintro x hx y hy rfl
      exact hapart x hx hy
    · intro x hx hseen
      rcases List.mem_append.1 hx with hx | hx
      · rcases List.mem_cons.1 hx with rfl | hx
        · exact hid hseen
        · exact hdbelow x hx (List.mem_cons_of_mem _ hseen)
      · exact hdrest x hx (hbelow.mem_seen_iff.2 (.inl (List.mem_cons_of_mem _ hseen)))

theorem subset_seen (h : Walk kids seen ids trees seen') : seen ⊆ seen' :=
  fun _ hx => h.mem_seen_iff.2 (.inl hx)

/-- A walk sees all that it is sent to. -/
theorem covers (h : Walk kids seen ids trees seen') : ids ⊆ seen' := by
  induction h with
  | nil => exact List.nil_subset _
  | skip hid hrest ih => exact List.cons_subset.2 ⟨hrest.subset_seen hid, ih⟩
  | enter _ hbelow hrest _ ih =>
    exact List.cons_subset.2 ⟨hrest.subset_seen (hbelow.subset_seen List.mem_cons_self), ih⟩

/-- A walk sees the children of all that it enters. -/
theorem closed (h : Walk kids seen ids trees seen') : ∀ p ∈ idsAll trees, kids p ⊆ seen' := by
  induction h with
  | nil => nofun
  | skip _ _ ih => exact ih
  | enter _ hbelow hrest ihbelow ihrest =>
    intro p hp
    rw [idsAll, Lineage.ids] at hp
    rcases List.mem_append.1 hp with hp | hp
    · refine List.Subset.trans ?_ hrest.subset_seen
      rcases List.mem_cons.1 hp with rfl | hp
      · exact hbelow.covers
      · exact ihbelow p hp
    · exact ihrest p hp

theorem map_id_sublist (h : Walk kids seen ids trees seen') : (trees.map Lineage.id).Sublist ids := by
  induction h with
  | nil => exact .refl _
  | skip _ _ ih => exact ih.cons _
  | enter _ _ _ _ ih => exact ih.cons_cons _

/-- The trees right below a node are those of its children that were not yet seen. -/
theorem map_id_children_sublist (h : Walk kids seen ids trees seen') {above path : List Lineage} {n : Lineage}
    (hn : (n, path) ∈ placesAll above trees) : (n.children.map Lineage.id).Sublist (kids n.id) := by
  induction h generalizing above with
  | nil => cases hn
  | skip _ _ ih => exact ih hn
  | enter _ hbelow _ ihbelow ihrest =>
    rw [placesAll, places, List.mem_append, List.mem_cons] at hn
    rcases hn with (hn | hn) | hn
    · cases hn
      exact hbelow.map_id_sublist
    · exact ihbelow hn
    · exact ihrest hn

/-- What a walk enters it was sent to, or it is a child of something. -/
theorem mem_idsAll (h : Walk kids seen ids trees seen') (hx : x ∈ idsAll trees) :
    x ∈ ids ∨ ∃ p, x ∈ kids p := by
  obtain ⟨n, path, hn, rfl⟩ := mem_idsAll_iff.1 hx
  cases path with
  | nil => exact .inl (h.map_id_sublist.subset (List.mem_map_of_mem (mem_placesAll_nil_iff.1 hn)))
  | cons p path =>
    obtain ⟨hp, hn⟩ := mem_placesAll_cons_iff.1 hn
    exact .inr ⟨p.id, (h.map_id_children_sublist hp).subset (List.mem_map_of_mem hn)⟩

end Walk

/-! ## Fuel -/

namespace Table

/-- The identifiers of a list that are not yet seen. -/
def unseen (linked seen : List String) : List String := linked.filter (· ∉ seen)

theorem length_unseen_le {linked seen seen' : List String} (h : seen ⊆ seen') :
    (unseen linked seen').length ≤ (unseen linked seen).length := by
  refine (List.monotone_filter_right linked fun x hx => ?_).length_le
  rw [decide_eq_true_iff] at hx ⊢
  exact fun hx' => hx (h hx')

theorem length_unseen_lt {linked seen : List String} {x : String} (hx : x ∈ linked) (hseen : x ∉ seen) :
    (unseen linked (x :: seen)).length < (unseen linked seen).length := by
  have hfilter : unseen linked (x :: seen) = (unseen linked seen).filter (· ≠ x) := by
    unfold unseen
    rw [List.filter_filter]
    refine List.filter_congr fun y _ => ?_
    simp only [List.mem_cons, not_or, Bool.decide_and]
  rw [hfilter, List.length_filter_lt_length_iff_exists]
  refine ⟨x, List.mem_filter.2 ⟨hx, by simpa using hseen⟩, ?_⟩
  simp

variable {kids : OrderedMap String (List String)} {fuel : Nat} {seen ids : List String} {id : String}

theorem growAll_nil : growAll kids fuel seen [] = ([], seen) := by
  rw [growAll]

theorem growAll_cons_of_mem (h : id ∈ seen) :
    growAll kids fuel seen (id :: ids) = growAll kids fuel seen ids := by
  rw [growAll, if_pos (List.contains_iff_mem.2 h)]

theorem growAll_cons_of_not_mem (h : id ∉ seen) :
    growAll kids fuel seen (id :: ids) =
      ((grow kids fuel seen id).1 :: (growAll kids fuel (grow kids fuel seen id).2 ids).1,
        (growAll kids fuel (grow kids fuel seen id).2 ids).2) := by
  rw [growAll, if_neg (fun hc => h (List.contains_iff_mem.1 hc))]

theorem grow_succ :
    grow kids (fuel + 1) seen id =
      (.node id (growAll kids fuel (id :: seen) ((kids.get? id).getD [])).1,
        (growAll kids fuel (id :: seen) ((kids.get? id).getD [])).2) := by
  rw [grow]

/-- With enough fuel the trees are those of the walk, which so comes to an end. -/
theorem walk_growAll (fuel : Nat) {seen ids : List String} (hids : ids ⊆ linked kids)
    (hkids : ∀ p, (kids.get? p).getD [] ⊆ linked kids) (hfuel : (unseen (linked kids) seen).length ≤ fuel) :
    Walk (fun p => (kids.get? p).getD []) seen ids (growAll kids fuel seen ids).1
      (growAll kids fuel seen ids).2 := by
  induction fuel using Nat.strongRecOn generalizing seen ids with
  | _ fuel ihfuel =>
    induction ids generalizing seen with
    | nil =>
      rw [growAll_nil]
      exact .nil
    | cons id ids ih =>
      obtain ⟨hid, hids⟩ := List.cons_subset.1 hids
      by_cases hseen : id ∈ seen
      · rw [growAll_cons_of_mem hseen]
        exact .skip hseen (ih hids hfuel)
      · have hlt := length_unseen_lt hid hseen
        obtain ⟨k, rfl⟩ : ∃ k, fuel = k + 1 := ⟨fuel - 1, by omega⟩
        have hsmaller : (unseen (linked kids) (id :: seen)).length ≤ k := by omega
        have hbelow := ihfuel k (Nat.lt_succ_self k) (hkids id) hsmaller
        rw [growAll_cons_of_not_mem hseen, grow_succ]
        refine .enter hseen hbelow (ih hids (Nat.le_trans (length_unseen_le ?_) hfuel))
        exact List.Subset.trans (List.subset_cons_self id seen) hbelow.subset_seen

end Table
end TagHarvest
