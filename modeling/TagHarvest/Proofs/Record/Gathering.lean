/-
What a store holds after many records were merged into the empty one, told from the records alone. Tables,
ids and fields stand in the order in which they first occur, and a field has the texts of its first value
and after them every other text once, in the order in which these first occur. It stays a scalar as long as
nothing but the text of its first value occurs.
-/
import TagHarvest.Proofs.Record.Absorption

namespace TagHarvest

/-! ## First occurrences -/

section Firsts

variable {α : Type} [DecidableEq α]

theorem eraseDups_of_nodup {l : List α} (h : l.Nodup) : l.eraseDups = l := by
  induction l with
  | nil => rfl
  | cons a l ih =>
    obtain ⟨ha, hl⟩ := List.nodup_cons.1 h
    have hkeep : l.filter (fun b => !b == a) = l :=
      List.filter_eq_self.2 fun b hb => by
        have hne : b ≠ a := fun he => ha (he ▸ hb)
        simpa using hne
    rw [List.eraseDups_cons, hkeep, ih hl]

theorem nodup_eraseDups : ∀ l : List α, l.eraseDups.Nodup
  | [] => List.nodup_nil
  | a :: l => by
    rw [List.eraseDups_cons, List.nodup_cons]
    refine ⟨fun ha => ?_, nodup_eraseDups _⟩
    simpa using List.mem_filter.1 (List.mem_eraseDups.1 ha)
termination_by l => l.length
decreasing_by exact Nat.lt_succ_of_le (List.length_filter_le _ l)

/-- Adding what is new one by one adds the first occurrences of what is new. -/
theorem foldl_new (seen l : List α) :
    l.foldl (fun seen a => if a ∈ seen then seen else seen ++ [a]) seen =
      seen ++ (l.filter (· ∉ seen)).eraseDups := by
  induction l generalizing seen with
  | nil => simp
  | cons a l ih =>
    rw [List.foldl_cons, ih]
    by_cases ha : a ∈ seen
    · rw [if_pos ha, List.filter_cons_of_neg (by simpa using ha)]
    · have hrest : l.filter (· ∉ seen ++ [a]) = (l.filter (· ∉ seen)).filter fun b => !b == a := by
        rw [List.filter_filter]
        refine List.filter_congr fun b _ => ?_
        by_cases hb : b = a <;> simp [hb]
      rw [if_neg ha, List.filter_cons_of_pos (by simpa using ha), List.eraseDups_cons, hrest,
        List.append_assoc, List.singleton_append]

end Firsts

/-! ## Maps -/

namespace OrderedMap

variable {α β γ : Type} [DecidableEq α]

/-- Alters the value at each key in turn, by what comes with the key. -/
def alterAll (g : Option β → γ → β) (m : OrderedMap α β) (es : List (α × γ)) : OrderedMap α β :=
  es.foldl (fun m e => m.alter e.1 (g · e.2)) m

/-- What comes with a key, in order. -/
def given (k : α) (es : List (α × γ)) : List γ :=
  es.filterMap fun e => if e.1 = k then some e.2 else none

theorem given_append (k : α) (es fs : List (α × γ)) : given k (es ++ fs) = given k es ++ given k fs :=
  List.filterMap_append

theorem given_of_nodup {es : List (α × β)} (h : (es.map Prod.fst).Nodup) (k : α) :
    given k es = (find k es).toList := by
  induction es with
  | nil => rfl
  | cons e es ih =>
    rw [List.map_cons, List.nodup_cons] at h
    by_cases hk : e.1 = k
    · have hnone : find k es = none := find_eq_none_iff.2 (hk ▸ h.1)
      have hrest : given k es = [] := by rw [ih h.2, hnone]; rfl
      rw [find, if_pos hk]
      show (e :: es).filterMap _ = _
      rw [List.filterMap_cons_some (b := e.2) (by simp [hk])]
      exact congrArg (e.2 :: ·) hrest
    · rw [find, if_neg hk, ← ih h.2]
      exact List.filterMap_cons_none (by simp [hk])

theorem given_entries (m : OrderedMap α β) (k : α) : given k m.entries = (m.get? k).toList :=
  given_of_nodup m.nodup k

theorem keys_alterAll (g : Option β → γ → β) (m : OrderedMap α β) (es : List (α × γ)) :
    (m.alterAll g es).keys = m.keys ++ ((es.map Prod.fst).filter (· ∉ m.keys)).eraseDups := by
  rw [← foldl_new, List.foldl_map]
  unfold alterAll
  induction es generalizing m with
  | nil => rfl
  | cons e es ih => rw [List.foldl_cons, List.foldl_cons, ih, keys_alter]

theorem get?_alterAll (g : Option β → γ → β) (m : OrderedMap α β) (es : List (α × γ)) (k : α) :
    (m.alterAll g es).get? k = (given k es).foldl (fun o c => some (g o c)) (m.get? k) := by
  unfold alterAll
  induction es generalizing m with
  | nil => rfl
  | cons e es ih =>
    rw [List.foldl_cons, ih, get?_alter]
    by_cases hk : e.1 = k
    · simp [given, hk]
    · simp [given, hk]

theorem keys_alterAll_empty (g : Option β → γ → β) (es : List (α × γ)) :
    (alterAll g empty es).keys = (es.map Prod.fst).eraseDups := by
  rw [keys_alterAll]
  show [] ++ ((es.map Prod.fst).filter (· ∉ ([] : List α))).eraseDups = _
  simp

/-- The entries of a map give the map. -/
theorem alterAll_entries {g : Option β → β → β} (hg : ∀ v, g none v = v) (m : OrderedMap α β) :
    alterAll g empty m.entries = m := by
  refine ext_get? ?_ fun k => ?_
  · rw [keys_alterAll_empty]
    exact eraseDups_of_nodup m.nodup
  · rw [get?_alterAll, given_entries]
    show (m.get? k).toList.foldl _ none = _
    cases m.get? k with
    | none => rfl
    | some v => exact congrArg some (hg v)

theorem given_flatMap_entries (ms : List (OrderedMap α β)) (k : α) :
    given k (ms.flatMap entries) = ms.filterMap (·.get? k) := by
  induction ms with
  | nil => rfl
  | cons m ms ih =>
    rw [List.flatMap_cons, given_append, ih, given_entries, List.filterMap_cons]
    cases m.get? k <;> rfl

/-- A key of the empty map gets its value from the first of what comes with it, and then from the others. -/
theorem get?_alterAll_empty {g : Option β → γ → β} {es : List (α × γ)} {k : α} {v : β}
    (h : (alterAll g empty es).get? k = some v) :
    ∃ c cs, given k es = c :: cs ∧ v = cs.foldl (fun v c => g (some v) c) (g none c) := by
  rw [get?_alterAll] at h
  cases hgiven : given k es with
  | nil =>
    rw [hgiven] at h
    cases h
  | cons c cs =>
    rw [hgiven, List.foldl_cons] at h
    refine ⟨c, cs, rfl, Option.some.inj (h.symm.trans ?_)⟩
    exact List.foldl_hom some fun _ _ => rfl

/-- What comes with one key only is gathered under it. -/
theorem alterAll_empty_map (g : Option β → γ → β) (k : α) (c : γ) (cs : List γ) :
    alterAll g empty ((c :: cs).map (k, ·)) =
      single k (cs.foldl (fun v c => g (some v) c) (g none c)) := by
  have hsingle : ∀ v, (single k v).alterAll g (cs.map (k, ·)) =
      single k (cs.foldl (fun v c => g (some v) c) v) := by
    intro v
    unfold alterAll
    induction cs generalizing v with
    | nil => rfl
    | cons c cs ih => rw [List.map_cons, List.foldl_cons, alter_single, ih, List.foldl_cons]
  exact hsingle (g none c)

end OrderedMap

/-! ## Values -/

/-- What a field holds after its values `first :: later` were merged in this order. -/
structure FieldValue.Gathers (v first : FieldValue) (later : List FieldValue) : Prop where
  /-- The first value as it is, then what is new after it, once and in order. -/
  texts : v.texts = first.texts ++ ((later.flatMap texts).filter (· ∉ first.texts)).eraseDups
  scalar_iff : v.isList = false ↔ first.isList = false ∧ ∀ w ∈ later, w.texts ⊆ first.texts
  /-- No text is lost or invented. -/
  mem_iff : ∀ s, s ∈ v.texts ↔ ∃ w ∈ first :: later, s ∈ w.texts
  /-- No text is added to one that is there already. -/
  count_le : ∀ s, v.texts.count s ≤ max (first.texts.count s) 1

namespace FieldValue

theorem addNew_eq (present incoming : List String) :
    addNew present incoming = present ++ (incoming.filter (· ∉ present)).eraseDups :=
  foldl_new present incoming

theorem addNew_append (present l m : List String) :
    addNew present (l ++ m) = addNew (addNew present l) m :=
  List.foldl_append

theorem texts_foldl_merge (first : FieldValue) (later : List FieldValue) :
    (later.foldl merge first).texts = addNew first.texts (later.flatMap texts) := by
  induction later generalizing first with
  | nil => rfl
  | cons w later ih => rw [List.foldl_cons, ih, texts_merge, List.flatMap_cons, addNew_append]

/-- Only a scalar merged with its own text is a scalar. -/
theorem isList_merge {v w : FieldValue} :
    (v.merge w).isList = false ↔ v.isList = false ∧ w.texts ⊆ v.texts := by
  constructor
  · intro h
    have hw := absorbing_merge.gains v w
    cases v with
    | list l =>
      unfold merge at h
      split at h <;> cases h
    | scalar s =>
      refine ⟨rfl, fun t ht => ?_⟩
      -- a scalar has one text, which is that of before
      have hs : s ∈ ((scalar s).merge w).texts :=
        absorbing_merge.keeps (scalar s) w (scalar s) (fun _ h => h) (List.mem_singleton_self s)
      cases hm : (scalar s).merge w with
      | list l => rw [hm] at h; cases h
      | scalar u =>
        rw [hm] at hs hw
        rw [List.mem_singleton.1 hs]
        exact hw ht
  · rintro ⟨hv, hw⟩
    rw [merge_eq_self_of_holds hw]
    exact hv

theorem isList_foldl_merge (first : FieldValue) (later : List FieldValue) :
    (later.foldl merge first).isList = false ↔
      first.isList = false ∧ ∀ w ∈ later, w.texts ⊆ first.texts := by
  induction later generalizing first with
  | nil => simp
  | cons w later ih =>
    rw [List.foldl_cons, ih, isList_merge, List.forall_mem_cons, and_assoc]
    refine and_congr_right fun _ => and_congr_right fun hw => ?_
    rw [merge_eq_self_of_holds hw]

theorem gathers_foldl_merge (first : FieldValue) (later : List FieldValue) :
    (later.foldl merge first).Gathers first later := by
  have htexts := texts_foldl_merge first later
  refine ⟨htexts.trans (addNew_eq _ _), isList_foldl_merge first later, fun s => ?_, fun s => ?_⟩
  · rw [htexts, mem_addNew, List.mem_flatMap]
    simp
  · rw [htexts, addNew_eq, List.count_append]
    by_cases hs : s ∈ first.texts
    · have hnew : s ∉ ((later.flatMap texts).filter (· ∉ first.texts)).eraseDups := by
        intro h
        simpa [hs] using (List.mem_filter.1 (List.mem_eraseDups.1 h)).2
      rw [List.count_eq_zero.2 hnew]
      exact Nat.le_max_left _ 1
    · rw [List.count_eq_zero.2 hs, Nat.zero_add]
      exact Nat.le_trans (List.nodup_iff_count_le_one.1 (nodup_eraseDups _) s) (Nat.le_max_right 0 1)

end FieldValue

/-! ## Records -/

/-- What a record holds after the records `rs` were merged in this order. -/
structure Record.Gathers (r : Record) (rs : List Record) : Prop where
  keys : r.keys = (rs.flatMap OrderedMap.keys).eraseDups
  values : ∀ field v, r.get? field = some v →
    ∃ first later, rs.filterMap (·.get? field) = first :: later ∧ v.Gathers first later

namespace Record

/-- What a field becomes when another value for it comes. -/
def mergeField : Option FieldValue → FieldValue → FieldValue
  | some v, w => v.merge w
  | none, w => w

theorem absorb_eq_alterAll (r other : Record) : r.absorb other = r.alterAll mergeField other.entries := by
  unfold absorb OrderedMap.alterAll
  congr 1
  funext r e
  congr 1
  funext o
  cases o <;> rfl

/-- Merging records is merging their fields one by one. -/
theorem foldl_absorb (first : Record) (later : List Record) :
    later.foldl absorb first =
      OrderedMap.alterAll mergeField .empty ((first :: later).flatMap OrderedMap.entries) := by
  have hstep : absorb = fun r other => r.alterAll mergeField other.entries :=
    funext fun r => funext (absorb_eq_alterAll r)
  calc later.foldl absorb first
      = (OrderedMap.alterAll mergeField .empty first.entries).alterAll mergeField
          (later.flatMap OrderedMap.entries) := by
        rw [OrderedMap.alterAll_entries fun _ => rfl, hstep]
        exact List.foldl_flatMap.symm
    _ = _ := by
        rw [List.flatMap_cons]
        exact List.foldl_append.symm

theorem gathers_foldl_absorb (first : Record) (later : List Record) :
    (later.foldl absorb first).Gathers (first :: later) := by
  rw [foldl_absorb]
  refine ⟨?_, fun field v hv => ?_⟩
  · rw [OrderedMap.keys_alterAll_empty, List.map_flatMap]
    rfl
  · obtain ⟨w, ws, hgiven, rfl⟩ := OrderedMap.get?_alterAll_empty hv
    rw [OrderedMap.given_flatMap_entries] at hgiven
    exact ⟨w, ws, hgiven, FieldValue.gathers_foldl_merge w ws⟩

end Record

/-! ## Tables and stores -/

/-- What a table holds after the records `rs` were merged into it in this order. -/
structure Table.Gathers (t : Table) (rs : List Record) : Prop where
  keys : t.keys = (rs.filterMap Record.id?).eraseDups
  records : ∀ id r, t.get? id = some r → r.Gathers (rs.filter (·.id? = some id))

/-- What a store holds after records with their tables were merged into it in this order. -/
structure Store.Gathers (s : Store) (es : List (String × Record)) : Prop where
  keys : s.keys = (es.map Prod.fst).eraseDups
  tables : ∀ name t, s.table? name = some t → t.Gathers (OrderedMap.given name es)

namespace Table

/-- What stands under an id when another record with it comes. -/
def mergeUnder : Option Record → Record → Record
  | some old, r => old.absorb r
  | none, r => r

/-- The table that takes a record to which it adds what stands under its id. -/
def take (t : Option Table) (r : Record) : Table :=
  (t.getD .empty).alter (r.id?.getD "") (mergeUnder · r)

variable {rs : List Record}

theorem take_foldl_take (first : Record) (later : List Record) :
    later.foldl (fun t r => take (some t) r) (take none first) =
      OrderedMap.alterAll mergeUnder .empty ((first :: later).map fun r => (r.id?.getD "", r)) := by
  unfold OrderedMap.alterAll
  rw [List.foldl_map]
  rfl

theorem filterMap_id? (h : ∀ r ∈ rs, r.id?.isSome) :
    rs.filterMap Record.id? = rs.map fun r => r.id?.getD "" := by
  rw [← List.filterMap_eq_map]
  refine List.filterMap_congr fun r hr => ?_
  obtain ⟨id, hid⟩ := Option.isSome_iff_exists.1 (h r hr)
  rw [Function.comp_apply, hid]
  rfl

theorem given_id? (h : ∀ r ∈ rs, r.id?.isSome) (id : String) :
    OrderedMap.given id (rs.map fun r => (r.id?.getD "", r)) = rs.filter (·.id? = some id) := by
  unfold OrderedMap.given
  rw [List.filterMap_map, ← List.filterMap_eq_filter]
  refine List.filterMap_congr fun r hr => ?_
  obtain ⟨key, hkey⟩ := Option.isSome_iff_exists.1 (h r hr)
  simp [Option.guard, hkey]

/-- Records merged into the empty table one by one are gathered by their ids. -/
theorem gathers_foldl_take {first : Record} {later : List Record}
    (h : ∀ r ∈ first :: later, r.id?.isSome) :
    (later.foldl (fun t r => take (some t) r) (take none first)).Gathers (first :: later) := by
  rw [take_foldl_take]
  refine ⟨?_, fun id r hr => ?_⟩
  · rw [OrderedMap.keys_alterAll_empty, filterMap_id? h, List.map_map]
    rfl
  · obtain ⟨head, tail, hgiven, rfl⟩ := OrderedMap.get?_alterAll_empty hr
    rw [given_id? h] at hgiven
    rw [hgiven]
    exact Record.gathers_foldl_absorb head tail

end Table

namespace Store

theorem mergeRecord_eq_alter {s : Store} {table : String} {r : Record} (h : r.id?.isSome) :
    s.mergeRecord table r = s.alter table (Table.take · r) := by
  obtain ⟨id, hid⟩ := Option.isSome_iff_exists.1 h
  unfold mergeRecord
  rw [hid]
  show s.insert table (OrderedMap.alter (s.tableOrEmpty table) id _) =
    s.insert table (Table.take (s.table? table) r)
  unfold Table.take
  rw [hid]
  refine congrArg (s.insert table) (congrArg (OrderedMap.alter (s.tableOrEmpty table) id) ?_)
  funext old
  cases old <;> rfl

theorem mergeAll_eq_alterAll {s : Store} {es : List (String × Record)} (h : ∀ e ∈ es, e.2.id?.isSome) :
    s.mergeAll es = s.alterAll Table.take es := by
  unfold mergeAll OrderedMap.alterAll
  induction es generalizing s with
  | nil => rfl
  | cons e es ih =>
    obtain ⟨he, hes⟩ := List.forall_mem_cons.1 h
    rw [List.foldl_cons, List.foldl_cons, mergeRecord_eq_alter he, ih hes]

/-- Records of one table with different ids stand in it as they are, in their order. -/
theorem mergeAll_distinct {rs : List Record} (table : String) (h : ∀ r ∈ rs, r.id?.isSome)
    (hd : (rs.map Record.id?).Nodup) :
    ∃ t : Table, mergeAll .empty (rs.map (table, ·)) = (if rs = [] then .empty else .single table t) ∧
      t.entries = rs.map fun r => (r.id?.getD "", r) := by
  let es := rs.map fun r => (r.id?.getD "", r)
  have hids : rs.map Record.id? = (es.map Prod.fst).map some := by
    rw [List.map_map, List.map_map]
    refine List.map_congr_left fun r hr => ?_
    obtain ⟨id, hid⟩ := Option.isSome_iff_exists.1 (h r hr)
    simp [hid]
  have hentries : (OrderedMap.ofList es).entries = es :=
    OrderedMap.entries_ofList (List.Nodup.of_map some (hids ▸ hd))
  refine ⟨.ofList es, ?_, hentries⟩
  rw [mergeAll_eq_alterAll (by simpa using h)]
  cases rs with
  | nil => rfl
  | cons first later =>
    have htable : OrderedMap.alterAll Table.mergeUnder .empty es = .ofList es := by
      conv_lhs => rw [← hentries]
      exact OrderedMap.alterAll_entries (fun _ => rfl) _
    rw [OrderedMap.alterAll_empty_map, Table.take_foldl_take, if_neg (List.cons_ne_nil first later)]
    exact congrArg (OrderedMap.single table) htable

/--
Records with ids, merged one after the other into the empty store, are gathered in it: tables, ids and
fields in order of first occurrence, and each value as `FieldValue.Gathers` tells it from the values given.
-/
theorem mergeAll_gathers (es : List (String × Record)) (h : ∀ e ∈ es, e.2.id?.isSome) :
    (mergeAll .empty es).Gathers es := by
  rw [mergeAll_eq_alterAll h]
  refine ⟨OrderedMap.keys_alterAll_empty _ es, fun name t ht => ?_⟩
  obtain ⟨first, later, hgiven, rfl⟩ := OrderedMap.get?_alterAll_empty ht
  rw [hgiven]
  refine Table.gathers_foldl_take fun r hr => ?_
  rw [← hgiven] at hr
  obtain ⟨e, he, hr⟩ := List.mem_filterMap.1 hr
  split at hr
  · cases hr
    exact h e he
  · cases hr

/-- A list that repeats itself, a scalar that meets a list of its own text, and one that is promoted. -/
theorem mergeAll_gathers_promoted :
    let es : List (String × Record) :=
      [("sample", .ofList [("id", .scalar "S1"), ("x", .scalar "a"), ("y", .list ["p", "p"])]),
       ("subject", .ofList [("id", .scalar "S1"), ("x", .scalar "a")]),
       ("sample", .ofList [("z", .scalar "q"), ("y", .list ["q", "p", "q"]), ("id", .scalar "S1"),
         ("x", .list ["a"])]),
       ("subject", .ofList [("id", .scalar "S1"), ("x", .list ["b", "a", "b"])])]
    (∀ e ∈ es, e.2.id?.isSome) ∧ (mergeAll .empty es).Gathers es ∧
      mergeAll .empty es = .ofList
        [("sample", .ofList [("S1", .ofList [("id", .scalar "S1"), ("x", .scalar "a"),
           ("y", .list ["p", "p", "q"]), ("z", .scalar "q")])]),
         ("subject", .ofList [("S1", .ofList [("id", .scalar "S1"), ("x", .list ["a", "b"])])])] :=
  ⟨by decide, mergeAll_gathers _ (by decide), by decide⟩

end Store
end TagHarvest
