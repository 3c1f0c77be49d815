/-
Laws of ordered maps. `get?` reads the entries; `insert` and `modify` change what stands at one key and
keep the other keys with their order; a map is determined by its keys and by what stands at them; and
inserting new values for all keys in turn, or entries with distinct keys into the empty map, lists
exactly these entries. Two maps whose entries are related one by one stay so when both change at a key.
-/
import TagHarvest.OrderedMap
import Mathlib.Data.List.Nodup
import Mathlib.Data.List.Perm.Basic

namespace TagHarvest.OrderedMap

variable {α β γ : Type}

/-! ## Mapped values -/

theorem keys_mapValues (f : α → β → γ) (m : OrderedMap α β) : (m.mapValues f).keys = m.keys := by
  simp [keys, mapValues, List.map_map, Function.comp_def]

theorem keys_filter (p : α → Bool) (m : OrderedMap α β) : (m.filter fun k _ => p k).keys = m.keys.filter p :=
  List.filter_map.symm

theorem mapValues_eq_self {f : α → β → β} {m : OrderedMap α β} (h : ∀ e ∈ m.entries, f e.1 e.2 = e.2) :
    m.mapValues f = m := by
  refine ext ?_
  calc m.entries.map (fun e => (e.1, f e.1 e.2))
      = m.entries.map id := List.map_congr_left fun e he => Prod.ext rfl (h e he)
    _ = m.entries := List.map_id _

theorem nodup_keys (m : OrderedMap α β) : m.keys.Nodup := m.nodup

theorem length_keys (m : OrderedMap α β) : m.keys.length = m.size := List.length_map _

/-- Members that come from different keys are different. -/
theorem nodup_flatMap_entries {δ : Type} {m : OrderedMap α β} {f : α × β → List γ} {g : γ → δ} (key : δ → α)
    (hkey : ∀ e ∈ m.entries, ∀ c ∈ f e, key (g c) = e.1) (hf : ∀ e ∈ m.entries, ((f e).map g).Nodup) :
    ((m.entries.flatMap f).map g).Nodup := by
  rw [List.map_flatMap, List.nodup_flatMap]
  refine ⟨hf, (List.pairwise_map.1 m.nodup).imp_of_mem ?_⟩
  intro a b ha hb hne x hxa hxb
  obtain ⟨c, hc, rfl⟩ := List.mem_map.1 hxa
  obtain ⟨c', hc', heq⟩ := List.mem_map.1 hxb
  exact hne ((hkey a ha c hc).symm.trans ((congrArg key heq.symm).trans (hkey b hb c' hc')))

/-- Every value has a property. -/
def All (P : β → Prop) (m : OrderedMap α β) : Prop := ∀ e ∈ m.entries, P e.2

variable [DecidableEq α]

/-! ## Reading -/

theorem mem_of_find {k : α} {v : β} {es : List (α × β)} (h : find k es = some v) : (k, v) ∈ es := by
  induction es with
  | nil => cases h
  | cons e es ih =>
    unfold find at h
    split at h
    · rename_i he
      cases h; subst he
      exact List.mem_cons_self
    · exact List.mem_cons_of_mem _ (ih h)

theorem find_of_mem {k : α} {v : β} {es : List (α × β)} (hn : (es.map Prod.fst).Nodup)
    (h : (k, v) ∈ es) : find k es = some v := by
  induction es with
  | nil => cases h
  | cons e es ih =>
    rw [List.map_cons, List.nodup_cons] at hn
    rcases List.mem_cons.1 h with rfl | h
    · simp [find]
    · have hne : e.1 ≠ k := fun he => hn.1 (he ▸ List.mem_map_of_mem (f := Prod.fst) h)
      rw [find, if_neg hne]
      exact ih hn.2 h

theorem find_eq_none_iff {k : α} {es : List (α × β)} : find k es = none ↔ k ∉ es.map Prod.fst := by
  induction es with
  | nil => simp [find]
  | cons e es ih =>
    by_cases he : e.1 = k
    · simp [find, he]
    · simp [find, he, ih, Ne.symm he]

/-- `get?` reads the entry of a key. -/
theorem get?_eq_some_iff {m : OrderedMap α β} {k : α} {v : β} : m.get? k = some v ↔ (k, v) ∈ m.entries :=
  ⟨mem_of_find, find_of_mem m.nodup⟩

theorem get?_eq_none_iff {m : OrderedMap α β} {k : α} : m.get? k = none ↔ k ∉ m.keys :=
  find_eq_none_iff

theorem get?_of_mem {m : OrderedMap α β} {e : α × β} (h : e ∈ m.entries) : m.get? e.1 = some e.2 :=
  get?_eq_some_iff.2 h

theorem mem_keys_of_get? {m : OrderedMap α β} {k : α} {v : β} (h : m.get? k = some v) : k ∈ m.keys :=
  List.mem_map_of_mem (f := Prod.fst) (get?_eq_some_iff.1 h)

theorem contains_eq_true_iff {m : OrderedMap α β} {k : α} : m.contains k = true ↔ k ∈ m.keys := by
  unfold contains
  rw [← not_iff_not, ← get?_eq_none_iff]
  cases m.get? k <;> simp

/-- A map is its keys with what stands at them. -/
theorem entries_eq (m : OrderedMap α β) : m.entries = m.keys.filterMap fun k => (m.get? k).map (k, ·) := by
  have hsome : ∀ e ∈ m.entries, (m.get? e.1).map (e.1, ·) = some e := fun e he => by
    rw [get?_of_mem he]; rfl
  unfold keys
  rw [List.filterMap_map]
  exact ((List.filterMap_congr hsome).trans List.filterMap_some).symm

theorem ext_get? {m n : OrderedMap α β} (hkeys : m.keys = n.keys) (hget : ∀ k, m.get? k = n.get? k) :
    m = n := by
  refine ext ?_
  rw [entries_eq m, entries_eq n, hkeys]
  exact List.filterMap_congr fun k _ => by rw [hget k]

/-- Maps that read alike have the same entries in some order. -/
theorem perm_entries {m n : OrderedMap α β} (h : ∀ k, m.get? k = n.get? k) : m.entries.Perm n.entries := by
  refine (List.perm_ext_iff_of_nodup (List.Nodup.of_map _ m.nodup) (List.Nodup.of_map _ n.nodup)).2 ?_
  rintro ⟨k, v⟩
  rw [← get?_eq_some_iff, ← get?_eq_some_iff, h k]

/-- What only the entry at one key gives. -/
theorem flatMap_entries_of_key {m : OrderedMap α β} {f : α × β → List γ} {k : α}
    (h : ∀ e ∈ m.entries, e.1 ≠ k → f e = []) :
    m.entries.flatMap f = ((m.get? k).map fun v => f (k, v)).getD [] := by
  have hflat : ∀ es : List (α × β), (∀ e ∈ es, e.1 ≠ k → f e = []) → (es.map Prod.fst).Nodup →
      es.flatMap f = ((find k es).map fun v => f (k, v)).getD [] := by
    intro es hes hn
    induction es with
    | nil => rfl
    | cons e es ih =>
      obtain ⟨k', v⟩ := e
      obtain ⟨hhead, htail⟩ := List.forall_mem_cons.1 hes
      obtain ⟨hnew, hn⟩ := List.nodup_cons.1 hn
      rw [List.flatMap_cons, find]
      by_cases hk : k' = k
      · subst hk
        have hnone : es.flatMap f = [] := List.flatMap_eq_nil_iff.2 fun e he =>
          htail e he fun heq => hnew (List.mem_map.2 ⟨e, he, heq⟩)
        rw [hnone, if_pos rfl, List.append_nil]
        rfl
      · rw [hhead hk, if_neg hk, ih htail hn, List.nil_append]
  exact hflat m.entries h m.nodup

/-! ## Writing -/

theorem find_put (k k' : α) (v : β) (es : List (α × β)) :
    find k' (put k v es) = if k = k' then some v else find k' es := by
  induction es with
  | nil => by_cases h : k = k' <;> simp [put, find, h]
  | cons e es ih =>
    by_cases he : e.1 = k
    · by_cases h : k = k' <;> simp [put, find, he, h]
    · by_cases h : k = k'
      · subst h
        simp [put, find, he, ih]
      · simp [put, find, he, ih, h]

theorem get?_insert (m : OrderedMap α β) (k k' : α) (v : β) :
    (m.insert k v).get? k' = if k = k' then some v else m.get? k' :=
  find_put k k' v m.entries

@[simp] theorem get?_insert_self (m : OrderedMap α β) (k : α) (v : β) : (m.insert k v).get? k = some v := by
  rw [get?_insert, if_pos rfl]

theorem get?_insert_of_ne (m : OrderedMap α β) {k k' : α} (v : β) (h : k ≠ k') :
    (m.insert k v).get? k' = m.get? k' := by
  rw [get?_insert, if_neg h]

theorem keys_insert (m : OrderedMap α β) (k : α) (v : β) :
    (m.insert k v).keys = if k ∈ m.keys then m.keys else m.keys ++ [k] :=
  map_fst_put k v m.entries

theorem keys_insert_of_get? {m : OrderedMap α β} {k : α} {w : β} (v : β) (h : m.get? k = some w) :
    (m.insert k v).keys = m.keys := by
  rw [keys_insert, if_pos (mem_keys_of_get? h)]

/-- An entry after an insertion is the inserted one or one of another key. -/
theorem mem_insert {m : OrderedMap α β} {k : α} {v : β} {e : α × β} (h : e ∈ (m.insert k v).entries) :
    e = (k, v) ∨ e ∈ m.entries ∧ e.1 ≠ k := by
  have he := get?_of_mem h
  rw [get?_insert] at he
  by_cases hk : k = e.1
  · rw [if_pos hk] at he
    exact .inl (Prod.ext hk.symm (Option.some.inj he).symm)
  · rw [if_neg hk] at he
    exact .inr ⟨get?_eq_some_iff.1 he, Ne.symm hk⟩

theorem put_of_find {k : α} {v : β} {es : List (α × β)} (h : find k es = some v) : put k v es = es := by
  induction es with
  | nil => cases h
  | cons e es ih =>
    unfold find at h
    split at h
    · rename_i he
      cases h; subst he
      simp [put]
    · rename_i he
      rw [put, if_neg he, ih h]

/-- Inserting what is there changes nothing. -/
theorem insert_of_get? {m : OrderedMap α β} {k : α} {v : β} (h : m.get? k = some v) : m.insert k v = m :=
  ext (put_of_find h)

theorem get?_alter (m : OrderedMap α β) (k k' : α) (f : Option β → β) :
    (m.alter k f).get? k' = if k = k' then some (f (m.get? k)) else m.get? k' :=
  get?_insert m k k' _

@[simp] theorem get?_alter_self (m : OrderedMap α β) (k : α) (f : Option β → β) :
    (m.alter k f).get? k = some (f (m.get? k)) :=
  get?_insert_self m k _

theorem get?_alter_of_ne (m : OrderedMap α β) {k k' : α} (f : Option β → β) (h : k ≠ k') :
    (m.alter k f).get? k' = m.get? k' :=
  get?_insert_of_ne m _ h

theorem keys_alter (m : OrderedMap α β) (k : α) (f : Option β → β) :
    (m.alter k f).keys = if k ∈ m.keys then m.keys else m.keys ++ [k] :=
  keys_insert m k _

theorem alter_single (k : α) (v : β) (f : Option β → β) :
    (single k v).alter k f = single k (f (some v)) :=
  ext (by simp [alter, insert, get?, single, find, put])

theorem alter_of_get? {m : OrderedMap α β} {k : α} {v : β} {f : Option β → β} (h : m.get? k = some v)
    (hf : f (some v) = v) : m.alter k f = m := by
  unfold alter
  rw [h, hf]
  exact insert_of_get? h

theorem keys_modify (m : OrderedMap α β) (k : α) (f : β → β) : (m.modify k f).keys = m.keys := by
  unfold modify
  split
  · rename_i h; exact keys_insert_of_get? _ h
  · rfl

theorem get?_modify (m : OrderedMap α β) (k k' : α) (f : β → β) :
    (m.modify k f).get? k' = if k = k' then (m.get? k').map f else m.get? k' := by
  unfold modify
  split
  · rename_i v h
    rw [get?_insert]
    split
    · rename_i hk; rw [← hk, h]; rfl
    · rfl
  · rename_i h
    split
    · rename_i hk; rw [← hk, h]; rfl
    · rfl

theorem get?_modify_of_ne (m : OrderedMap α β) {k k' : α} (f : β → β) (h : k ≠ k') :
    (m.modify k f).get? k' = m.get? k' := by
  rw [get?_modify, if_neg h]

theorem get?_mapValues (f : α → β → γ) (m : OrderedMap α β) (k : α) :
    (m.mapValues f).get? k = (m.get? k).map (f k) := by
  cases h : m.get? k with
  | none =>
    rw [get?_eq_none_iff] at h
    rw [Option.map_none, get?_eq_none_iff, keys_mapValues]
    exact h
  | some v =>
    rw [Option.map_some, get?_eq_some_iff]
    exact List.mem_map.2 ⟨(k, v), get?_eq_some_iff.1 h, rfl⟩

theorem mapValues_insert (f : α → β → γ) (m : OrderedMap α β) (k : α) (v : β) :
    (m.insert k v).mapValues f = (m.mapValues f).insert k (f k v) := by
  refine ext_get? ?_ fun k' => ?_
  · rw [keys_mapValues, keys_insert, keys_insert, keys_mapValues]
  · rw [get?_mapValues, get?_insert, get?_insert, get?_mapValues]
    by_cases hk : k = k'
    · subst hk
      rw [if_pos rfl, if_pos rfl]
      rfl
    · rw [if_neg hk, if_neg hk]

/-! ## Keeping some keys -/

section Filter

variable (p : α → Bool) (m : OrderedMap α β)

theorem get?_filter (k : α) : (m.filter fun k _ => p k).get? k = if p k then m.get? k else none := by
  cases hk : p k with
  | false =>
    rw [if_neg Bool.false_ne_true, get?_eq_none_iff, keys_filter]
    exact fun h => by simpa [hk] using (List.mem_filter.1 h).2
  | true =>
    rw [if_pos rfl]
    refine Option.ext fun v => ?_
    rw [get?_eq_some_iff, get?_eq_some_iff]
    exact List.mem_filter.trans (and_iff_left hk)

theorem filter_insert (k : α) (v : β) :
    (m.insert k v).filter (fun k _ => p k) =
      if p k then (m.filter fun k _ => p k).insert k v else m.filter fun k _ => p k := by
  refine ext_get? ?_ fun k' => ?_
  · rw [keys_filter, keys_insert]
    cases hk : p k <;> by_cases hmem : k ∈ m.keys <;> simp [keys_filter, keys_insert, hk, hmem]
  · rw [get?_filter, get?_insert]
    by_cases hk : k = k'
    · subst hk
      cases hp : p k <;> simp [get?_filter, hp]
    · cases hp : p k <;> simp [get?_filter, get?_insert, hk]

theorem filter_alter (k : α) (f : Option β → β) :
    (m.alter k f).filter (fun k _ => p k) =
      if p k then (m.filter fun k _ => p k).alter k f else m.filter fun k _ => p k := by
  unfold alter
  rw [filter_insert]
  cases hk : p k with
  | false => rfl
  | true => rw [if_pos rfl, if_pos rfl, get?_filter, if_pos hk]

end Filter

/-! ## Taking out and placing -/

theorem keys_erase (m : OrderedMap α β) (k : α) : (m.erase k).keys = m.keys.erase k :=
  map_fst_drop k m.entries

theorem find_drop_of_ne {k k' : α} {es : List (α × β)} (h : k ≠ k') :
    find k' (drop k es) = find k' es := by
  induction es with
  | nil => rfl
  | cons e es ih =>
    by_cases he : e.1 = k
    · rw [drop, if_pos he, find, if_neg (he ▸ h)]
    · rw [drop, if_neg he, find, find, ih]

theorem get?_erase_of_ne (m : OrderedMap α β) {k k' : α} (h : k ≠ k') :
    (m.erase k).get? k' = m.get? k' :=
  find_drop_of_ne h

theorem find_middle_of_ne {k k' : α} {v : β} {es fs : List (α × β)} (h : k ≠ k') :
    find k' (es ++ (k, v) :: fs) = find k' (es ++ fs) := by
  induction es with
  | nil => rw [List.nil_append, List.nil_append, find, if_neg h]
  | cons e es ih => rw [List.cons_append, List.cons_append, find, find, ih]

/-- Placing an entry leaves what stands at the other keys. -/
theorem get?_place?_of_ne {m n : OrderedMap α β} {i : Nat} {k k' : α} {v : β}
    (hp : m.place? i k v = some n) (h : k ≠ k') : n.get? k' = m.get? k' := by
  unfold place? at hp
  split at hp
  · cases hp
    show find k' ((m.erase k).entries.take i ++ (k, v) :: (m.erase k).entries.drop i) = _
    rw [find_middle_of_ne h, List.take_append_drop]
    exact get?_erase_of_ne m h
  · cases hp

/-- There is no place behind the last entry for a key that is there already. -/
theorem place?_eq_none_iff {m : OrderedMap α β} {i : Nat} {k : α} {v : β} (hi : i ≤ m.size) :
    m.place? i k v = none ↔ i = m.size ∧ k ∈ m.keys := by
  unfold place?
  rw [← contains_eq_true_iff]
  by_cases hlt : i < m.size
  · rw [if_pos (.inl hlt)]
    exact ⟨nofun, fun h => absurd h.1 (Nat.ne_of_lt hlt)⟩
  · have he : i = m.size := Nat.le_antisymm hi (Nat.not_lt.1 hlt)
    cases hc : m.contains k with
    | true => simp [hlt]; exact he
    | false => simp [he]

/-! ## Many insertions -/

theorem put_of_not_mem {k : α} {v : β} {es : List (α × β)} (h : k ∉ es.map Prod.fst) :
    put k v es = es ++ [(k, v)] := by
  induction es with
  | nil => rfl
  | cons e es ih =>
    rw [List.map_cons, List.mem_cons, not_or] at h
    rw [put, if_neg (Ne.symm h.1), ih h.2, List.cons_append]

/-- A new key comes after the others. -/
theorem entries_insert_of_get? {m : OrderedMap α β} {k : α} (v : β) (h : m.get? k = none) :
    (m.insert k v).entries = m.entries ++ [(k, v)] :=
  put_of_not_mem (get?_eq_none_iff.1 h)

theorem put_middle {k : α} {v w : β} {done rest : List (α × β)} (h : k ∉ done.map Prod.fst) :
    put k v (done ++ (k, w) :: rest) = done ++ (k, v) :: rest := by
  induction done with
  | nil => simp [put]
  | cons e done ih =>
    rw [List.map_cons, List.mem_cons, not_or] at h
    rw [List.cons_append, put, if_neg (Ne.symm h.1), ih h.2, List.cons_append]

/-- New entries with distinct keys come after those that are there. -/
theorem entries_insertAll {m : OrderedMap α β} {es : List (α × β)}
    (h : ((m.entries ++ es).map Prod.fst).Nodup) : (m.insertAll es).entries = m.entries ++ es := by
  induction es generalizing m with
  | nil => simp [insertAll]
  | cons e es ih =>
    have hmem : e.1 ∉ m.entries.map Prod.fst := by
      rw [List.map_append, List.map_cons] at h
      exact fun hm => (List.nodup_append.1 h).2.2 e.1 hm e.1 List.mem_cons_self rfl
    have hput : (m.insert e.1 e.2).entries = m.entries ++ [e] := put_of_not_mem hmem
    have hstep : (m.insertAll (e :: es)) = (m.insert e.1 e.2).insertAll es := rfl
    rw [hstep, ih (by rw [hput, List.append_assoc]; exact h), hput, List.append_assoc]
    rfl

theorem entries_ofList {es : List (α × β)} (h : (es.map Prod.fst).Nodup) : (ofList es).entries = es :=
  entries_insertAll h

/-- New values for some keys of a map that stand in a row leave those around them. -/
theorem entries_insertAll_map {m : OrderedMap α β} (f : α × β → β) (done : List (α × β))
    {es rest : List (α × β)} (h : m.entries = done ++ es ++ rest) :
    (m.insertAll (es.map fun e => (e.1, f e))).entries = done ++ es.map (fun e => (e.1, f e)) ++ rest := by
  induction es generalizing m done with
  | nil => simpa [insertAll] using h
  | cons e es ih =>
    have hn : (done.map Prod.fst ++ e.1 :: (es ++ rest).map Prod.fst).Nodup := by
      have := m.nodup
      rw [h, List.append_assoc, List.map_append, List.cons_append, List.map_cons] at this
      exact this
    have hmem : e.1 ∉ done.map Prod.fst :=
      fun hm => (List.nodup_append.1 hn).2.2 e.1 hm e.1 List.mem_cons_self rfl
    have hput : (m.insert e.1 (f e)).entries = (done ++ [(e.1, f e)]) ++ es ++ rest := by
      show put e.1 (f e) m.entries = _
      rw [h, List.append_assoc, List.cons_append, put_middle hmem]
      simp
    rw [List.map_cons]
    show ((m.insert e.1 (f e)).insertAll _).entries = _
    rw [ih _ hput]
    simp

/-- Giving every key a new value in turn is mapping the values. -/
theorem insertAll_eq_mapValues (m : OrderedMap α β) (f : α → β → β) :
    m.insertAll (m.entries.map fun e => (e.1, f e.1 e.2)) = m.mapValues f :=
  ext <| by
    have h := entries_insertAll_map (m := m) (fun e => f e.1 e.2) [] (List.append_nil m.entries).symm
    rwa [List.append_nil] at h

/-! ## Properties of all values -/

section All

variable {P : β → Prop} {m : OrderedMap α β}

omit [DecidableEq α] in
theorem All.empty : (empty : OrderedMap α β).All P := nofun

theorem All.insert (h : m.All P) (k : α) {v : β} (hv : P v) : (m.insert k v).All P := by
  intro e he
  rcases mem_insert he with rfl | ⟨he, -⟩
  · exact hv
  · exact h e he

theorem All.alter (h : m.All P) (k : α) {f : Option β → β} (hf : ∀ old, (∀ v ∈ old, P v) → P (f old)) :
    (m.alter k f).All P :=
  h.insert k (hf _ fun _ hv => h _ (get?_eq_some_iff.1 hv))

/-- A value that is there, or else another one. -/
theorem getD_of_forall {old : Option β} {absent : β} (habsent : P absent) (h : ∀ v ∈ old, P v) :
    P (old.getD absent) := by
  cases old with
  | none => exact habsent
  | some v => exact h v rfl

/-- Each value of a second map is joined to the value of its key in the first. -/
theorem All.join (f : β → β → β) {absent : β} (habsent : P absent) (hf : ∀ v w, P v → P w → P (f v w))
    {n : OrderedMap α β} (hm : m.All P) (hn : n.All P) :
    (n.entries.foldl (fun m e => m.alter e.1 fun old => f (old.getD absent) e.2) m).All P :=
  List.foldlRecOn n.entries _ hm fun _ h e he => h.alter e.1 fun _ hold =>
    hf _ _ (getD_of_forall habsent hold) (hn e he)

theorem All.insertAll (h : m.All P) {es : List (α × β)} (hes : ∀ e ∈ es, P e.2) : (m.insertAll es).All P :=
  List.foldlRecOn es _ h fun _ hm e he => hm.insert e.1 (hes e he)

theorem All.ofList {es : List (α × β)} (hes : ∀ e ∈ es, P e.2) : (ofList es).All P :=
  All.empty.insertAll hes

end All

/-! ## Entry by entry -/

section Parallel

/-- The same keys in the same order, and related values at each of them. -/
def Parallel (R : β → γ → Prop) (m : OrderedMap α β) (n : OrderedMap α γ) : Prop :=
  List.Forall₂ (fun e f => e.1 = f.1 ∧ R e.2 f.2) m.entries n.entries

variable {R : β → γ → Prop} {m : OrderedMap α β} {n : OrderedMap α γ}

omit [DecidableEq α] in
theorem Parallel.getD {o : Option (OrderedMap α β)} {o' : Option (OrderedMap α γ)}
    (h : Option.Rel (Parallel R) o o') : (o.getD empty).Parallel R (o'.getD empty) := by
  cases h with
  | none => exact .nil
  | some h => exact h

theorem Parallel.get? (h : m.Parallel R n) (k : α) : Option.Rel R (m.get? k) (n.get? k) := by
  have hfind : ∀ {es : List (α × β)} {fs : List (α × γ)},
      List.Forall₂ (fun e f => e.1 = f.1 ∧ R e.2 f.2) es fs → Option.Rel R (find k es) (find k fs) := by
    intro es fs h
    induction h with
    | nil => exact .none
    | @cons e f es fs hef _ ih =>
      unfold find
      rw [hef.1]
      split
      · exact .some hef.2
      · exact ih
  exact hfind h

theorem Parallel.insert (h : m.Parallel R n) (k : α) {v : β} {w : γ} (hvw : R v w) :
    (m.insert k v).Parallel R (n.insert k w) := by
  have hput : ∀ {es : List (α × β)} {fs : List (α × γ)},
      List.Forall₂ (fun e f => e.1 = f.1 ∧ R e.2 f.2) es fs →
        List.Forall₂ (fun e f => e.1 = f.1 ∧ R e.2 f.2) (put k v es) (put k w fs) := by
    intro es fs h
    induction h with
    | nil => exact .cons ⟨rfl, hvw⟩ .nil
    | @cons e f es fs hef hrest ih =>
      unfold put
      rw [hef.1]
      split
      · exact .cons ⟨rfl, hvw⟩ hrest
      · exact .cons hef ih
  exact hput h

theorem Parallel.alter (h : m.Parallel R n) (k : α) {f : Option β → β} {g : Option γ → γ}
    (hfg : ∀ o o', Option.Rel R o o' → R (f o) (g o')) : (m.alter k f).Parallel R (n.alter k g) :=
  h.insert k (hfg _ _ (h.get? k))

end Parallel

/-! ## Arranging -/

/-- The entries of a map in the order of a list of keys. -/
def arrange (m : OrderedMap α β) (ks : List α) : OrderedMap α β :=
  ofList (ks.filterMap fun k => (m.get? k).map (k, ·))

variable {m : OrderedMap α β} {ks : List α}

theorem map_fst_filterMap_get? (m : OrderedMap α β) (ks : List α) :
    (ks.filterMap fun k => (m.get? k).map (k, ·)).map Prod.fst = ks.filter (· ∈ m.keys) := by
  induction ks with
  | nil => rfl
  | cons k ks ih =>
    cases h : m.get? k with
    | none =>
      have hk : k ∉ m.keys := get?_eq_none_iff.1 h
      rw [List.filterMap_cons_none (by rw [h]; rfl), ih, List.filter_cons_of_neg (by simpa using hk)]
    | some v =>
      have hk : k ∈ m.keys := mem_keys_of_get? h
      rw [List.filterMap_cons_some (b := (k, v)) (by rw [h]; rfl), List.map_cons, ih,
        List.filter_cons_of_pos (by simpa using hk)]

theorem entries_arrange (h : ks.Nodup) :
    (m.arrange ks).entries = ks.filterMap fun k => (m.get? k).map (k, ·) := by
  refine entries_ofList ?_
  rw [map_fst_filterMap_get?]
  exact h.filter _

theorem keys_arrange (h : ks.Nodup) : (m.arrange ks).keys = ks.filter (· ∈ m.keys) := by
  unfold keys
  rw [entries_arrange h]
  exact map_fst_filterMap_get? m ks

/-- Arranging loses no key that is listed. -/
theorem get?_arrange (h : ks.Nodup) (hks : m.keys ⊆ ks) (k : α) : (m.arrange ks).get? k = m.get? k := by
  refine Option.ext fun v => ?_
  rw [get?_eq_some_iff, entries_arrange h, List.mem_filterMap]
  constructor
  · rintro ⟨k', -, hk'⟩
    obtain ⟨v', hv', he⟩ := Option.map_eq_some_iff.1 hk'
    cases he
    exact hv'
  · intro hv
    exact ⟨k, hks (mem_keys_of_get? hv), by rw [hv]; rfl⟩

end TagHarvest.OrderedMap
