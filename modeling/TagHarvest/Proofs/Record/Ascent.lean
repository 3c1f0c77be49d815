/-
Ancestors in any store, whatever its parent links are: cyclic, dangling, to the record itself, or lists. An
ascent goes from each record to the first parent that it names, meets no identifier twice, and ends only where
the next parent is missing or has been met. These three conditions leave one list, which is `ancestors`. It is
no longer than the table, because every identifier but its last has a record; and so the fuel of the walk,
which is one above that, is never what ends it.
-/
import TagHarvest.Proofs.Record.Kinship

namespace TagHarvest

namespace Table

variable {t : Table} {seen chain : List String} {current id p : String}

/-! ## What a climb is -/

theorem parent?_eq_some_iff :
    t.parent? id = some p ↔
      ∃ r v, t.get? id = some r ∧ r.get? parentField = some v ∧ v.texts.head? = some p := by
  unfold parent? Record.parent? Record.parents
  rw [Option.bind_eq_some_iff]
  refine exists_congr fun r => ?_
  cases r.get? parentField <;> simp

/-- A climb comes to no identifier that it has seen, and to none twice. -/
theorem Climb.nodup (h : t.Climb seen current chain) : chain.Nodup ∧ ∀ x ∈ chain, x ∉ seen := by
  induction h with
  | top => exact ⟨List.nodup_nil, nofun⟩
  | circle => exact ⟨List.nodup_nil, nofun⟩
  | up _ hp _ ih =>
    obtain ⟨hnodup, hnew⟩ := ih
    have hnew := fun x hx => not_or.1 (mt List.mem_cons.2 (hnew x hx))
    refine ⟨List.nodup_cons.2 ⟨fun hmem => (hnew _ hmem).1 rfl, hnodup⟩, ?_⟩
    exact List.forall_mem_cons.2 ⟨hp, fun x hx => (hnew x hx).2⟩

/-- Each step of a climb leads to the first parent. -/
theorem Climb.links (h : t.Climb seen current chain) :
    (current :: chain).IsChain fun x y => t.parent? x = some y := by
  induction h with
  | top => exact List.isChain_singleton _
  | circle => exact List.isChain_singleton _
  | up hparent _ _ ih => exact List.isChain_cons_cons.2 ⟨hparent, ih⟩

/-- A climb ends where there is no parent or one that has been seen. -/
theorem Climb.stops (h : t.Climb seen current chain)
    (hp : t.parent? ((current :: chain).getLast (List.cons_ne_nil _ _)) = some p) : p ∈ seen ∨ p ∈ chain := by
  induction h with
  | top hnone => cases hnone.symm.trans hp
  | circle hparent hseen =>
    cases Option.some.inj (hparent.symm.trans hp)
    exact .inl hseen
  | up _ _ _ ih =>
    rw [List.getLast_cons (List.cons_ne_nil _ _)] at hp
    rcases ih hp with hseen | hchain
    · rcases List.mem_cons.1 hseen with rfl | hseen
      · exact .inr List.mem_cons_self
      · exact .inl hseen
    · exact .inr (List.mem_cons_of_mem _ hchain)

/-- A list that goes from parent to parent through new identifiers until it must stop is a climb. -/
theorem climb_of_links (hnodup : chain.Nodup) (hnew : ∀ x ∈ chain, x ∉ seen)
    (hlinks : (current :: chain).IsChain fun x y => t.parent? x = some y)
    (hstops : ∀ p, t.parent? ((current :: chain).getLast (List.cons_ne_nil _ _)) = some p →
      p ∈ seen ∨ p ∈ chain) :
    t.Climb seen current chain := by
  induction chain generalizing seen current with
  | nil =>
    cases hparent : t.parent? current with
    | none => exact .top hparent
    | some p => exact .circle hparent ((hstops p hparent).resolve_right nofun)
  | cons p chain ih =>
    obtain ⟨hp, hnodup⟩ := List.nodup_cons.1 hnodup
    obtain ⟨hpnew, hnew⟩ := List.forall_mem_cons.1 hnew
    obtain ⟨hparent, hlinks⟩ := List.isChain_cons_cons.1 hlinks
    refine .up hparent hpnew (ih hnodup (fun x hx hmem => ?_) hlinks fun q hq => ?_)
    · rcases List.mem_cons.1 hmem with rfl | hmem
      · exact hp hx
      · exact hnew x hx hmem
    · rw [List.getLast_cons (List.cons_ne_nil _ _)] at hstops
      rw [List.mem_cons]
      rcases hstops q hq with hseen | hmem
      · exact .inl (.inr hseen)
      · rcases List.mem_cons.1 hmem with rfl | hmem
        · exact .inl (.inl rfl)
        · exact .inr hmem

/-! ## How long it is -/

/-- Whatever has a parent has a record. -/
theorem mem_keys_of_parent? (h : t.parent? id = some p) : id ∈ t.keys := by
  obtain ⟨r, -, hr, -⟩ := parent?_eq_some_iff.1 h
  exact OrderedMap.mem_keys_of_get? hr

theorem dropLast_subset_of_links (hlinks : (current :: chain).IsChain fun x y => t.parent? x = some y) :
    (current :: chain).dropLast ⊆ t.keys := by
  induction chain generalizing current with
  | nil => exact List.nil_subset _
  | cons p chain ih =>
    obtain ⟨hparent, hlinks⟩ := List.isChain_cons_cons.1 hlinks
    rw [List.dropLast_cons_of_ne_nil (List.cons_ne_nil _ _), List.cons_subset]
    exact ⟨mem_keys_of_parent? hparent, ih hlinks⟩

/-- The identifiers below the last one of a climb are different records. -/
theorem Climb.length_le (h : t.Climb seen current chain) (hcurrent : current ∈ seen) : chain.length ≤ t.size := by
  obtain ⟨hnodup, hnew⟩ := h.nodup
  have hall : (current :: chain).Nodup := List.nodup_cons.2 ⟨fun hmem => hnew current hmem hcurrent, hnodup⟩
  have hsubperm := List.subperm_of_subset (hall.sublist (List.dropLast_sublist _)) (dropLast_subset_of_links h.links)
  have hlength := hsubperm.length_le
  rw [List.length_dropLast, List.length_cons, Nat.add_sub_cancel, OrderedMap.length_keys] at hlength
  exact hlength

/-- More fuel than records changes nothing. -/
theorem parentChain_eq_ancestors {fuel : Nat} (h : t.size < fuel) (id : String) :
    t.parentChain fuel [id] id = t.ancestors id := by
  have hfuel : (unseen t.keys [id]).length < fuel := by
    have hle : (unseen t.keys [id]).length ≤ t.keys.length := List.length_filter_le _ _
    rw [OrderedMap.length_keys] at hle
    omega
  exact (climb_parentChain fuel (.inr hfuel)).unique (t.climb_ancestors id)

end Table

namespace Store

/-- The record of `id` in a table names `p` as its first parent. -/
def FirstParent (s : Store) (table id p : String) : Prop :=
  ∃ r v, s.record? table id = some r ∧ r.get? parentField = some v ∧ v.texts.head? = some p

/-- A list that goes up from an identifier along first parents, until it ends or would come back to itself. -/
structure Ascent (s : Store) (table id : String) (chain : List String) : Prop where
  nodup : (id :: chain).Nodup
  links : (id :: chain).IsChain (s.FirstParent table)
  stops : ∀ p, s.FirstParent table ((id :: chain).getLast (List.cons_ne_nil _ _)) p → p ∈ id :: chain

theorem ancestors_eq (s : Store) (table id : String) :
    s.ancestors table id = (s.tableOrEmpty table).ancestors id := by
  unfold ancestors tableOrEmpty
  cases s.table? table with
  | none => rfl
  | some t => rfl

theorem firstParent_iff {s : Store} {table id p : String} :
    s.FirstParent table id p ↔ (s.tableOrEmpty table).parent? id = some p := by
  rw [Table.parent?_eq_some_iff]
  unfold FirstParent record? tableOrEmpty
  cases s.table? table with
  | none =>
    constructor
    · rintro ⟨r, v, hr, -⟩
      cases hr
    · rintro ⟨r, v, hr, -⟩
      cases hr
  | some t => exact Iff.rfl

theorem ascent_iff_climb {s : Store} {table id : String} {chain : List String} :
    s.Ascent table id chain ↔ (s.tableOrEmpty table).Climb [id] id chain := by
  have hlink : s.FirstParent table = fun x y => (s.tableOrEmpty table).parent? x = some y := by
    funext x y
    exact propext firstParent_iff
  constructor
  · rintro ⟨hnodup, hlinks, hstops⟩
    rw [hlink] at hlinks hstops
    obtain ⟨hid, hnodup⟩ := List.nodup_cons.1 hnodup
    refine Table.climb_of_links hnodup (fun x hx hmem => ?_) hlinks fun p hp => ?_
    · exact hid (List.mem_singleton.1 hmem ▸ hx)
    · rw [List.mem_singleton]
      exact List.mem_cons.1 (hstops p hp)
  · intro h
    obtain ⟨hnodup, hnew⟩ := h.nodup
    have hid : id ∉ chain := fun hmem => hnew id hmem (List.mem_singleton_self id)
    refine ⟨List.nodup_cons.2 ⟨hid, hnodup⟩, ?_, fun p hp => ?_⟩
    · rw [hlink]
      exact h.links
    · have hmem := h.stops (firstParent_iff.1 hp)
      rw [List.mem_singleton] at hmem
      exact List.mem_cons.2 hmem

/--
In every store the ancestors of an identifier are the one list that goes up from it: from each record to the
first parent that it names, without coming to the identifier itself or to any other one twice, and on until
there is no record, no parent or only one that has been met. The list is no longer than the table, and the
walk that finds it ends by itself: any more fuel gives the same list.
-/
theorem ancestors_ascend (s : Store) (table id : String) :
    s.Ascent table id (s.ancestors table id) ∧
      (∀ chain, s.Ascent table id chain → chain = s.ancestors table id) ∧
      (s.ancestors table id).length ≤ (s.tableOrEmpty table).size ∧
      ∀ fuel, (s.tableOrEmpty table).size < fuel →
        (s.tableOrEmpty table).parentChain fuel [id] id = s.ancestors table id := by
  have hclimb := (s.tableOrEmpty table).climb_ancestors id
  rw [ancestors_eq]
  refine ⟨ascent_iff_climb.2 hclimb, fun chain hchain => ?_, ?_, fun fuel hfuel => ?_⟩
  · exact (ascent_iff_climb.1 hchain).unique hclimb
  · exact hclimb.length_le (List.mem_singleton_self id)
  · exact Table.parentChain_eq_ancestors hfuel id

/-- From a list of parents into a circle, around the circle, and up to a parent that is no record. -/
example :
    let s : Store := .single "sample" <| .ofList [("x", .ofList [("parentID", .scalar "y")]),
      ("y", .ofList [("parentID", .scalar "x")]), ("z", .ofList [("parentID", .list ["x", "missing"])]),
      ("orphan", .ofList [("parentID", .scalar "missing")])]
    s.ancestors "sample" "z" = ["x", "y"] ∧ s.ancestors "sample" "x" = ["y"] ∧
      s.ancestors "sample" "orphan" = ["missing"] := by
  decide

end Store
end TagHarvest
