/-
Edits and the id of a record. An assignment refuses a blank id, joining keeps a scalar a scalar and makes
no text shorter; so a record with a scalar id keeps one through edits that neither delete the id field nor
rename from or to it, and the id becomes empty only by a pattern edit that replaces it by the empty text.
Edits have an outcome unless one of them renames the last field to another one that is there.
-/
import TagHarvest.Conversion.Edit
import TagHarvest.Proofs.Record.Identity

namespace TagHarvest

namespace Edit

/-- The edit does not take the id field away. -/
def SparesId : Edit → Prop
  | delete field => field ≠ idField
  | rename source target => source ≠ idField ∧ target ≠ idField
  | _ => True

/-- The edit is a pattern edit of the id field that replaces `id` by the empty text. -/
def EmptiesId (m : Matchers) (cache : PatternCache) (id : String) : Edit → Prop
  | regex field pattern replacement =>
    field = idField ∧ ∃ p, cache.get? pattern = some p ∧ m.replaceAll p replacement id = ""
  | _ => False

/-- Among the edits, one empties the id that the record has by then. -/
def EmptyIdOf (m : Matchers) (cache : PatternCache) (edits : List Edit) (r : Record) : Prop :=
  ∃ before e after r' id, edits = before ++ e :: after ∧ (applyAll m cache before r).2 = .done r' ∧
    r'.HasId id ∧ e.EmptiesId m cache id

section Apply

variable {m : Matchers} {cache : PatternCache} {r r' : Record} {id : String}

theorem get?_idField_insert {field : String} (v : FieldValue) (h : field ≠ idField)
    (hid : r.get? idField = some (.scalar id)) :
    (r.insert field v).get? idField = some (.scalar id) := by
  rw [OrderedMap.get?_insert_of_ne r v h, hid]

theorem applyAssign_scalarId {field : String} {value : AssignedValue}
    (hid : r.get? idField = some (.scalar id)) (h : applyAssign m r field value = .done r') :
    ∃ id', r'.get? idField = some (.scalar id') ∧ (id' = "" → id = "") := by
  unfold applyAssign at h
  dsimp only at h
  split at h
  · cases h
  · rename_i v _
    split at h
    · rename_i hf
      split at h
      · cases h
      · rename_i s _
        split at h
        · cases h
        · rename_i hblank
          cases h
          refine ⟨s, hf ▸ OrderedMap.get?_insert_self r field _, ?_⟩
          rintro rfl
          exact absurd rfl hblank
    · rename_i hf
      cases h
      exact ⟨id, get?_idField_insert v hf hid, fun h => h⟩

/-- Joining texts to a scalar gives a scalar, which is empty only if the first one was. -/
theorem applyJoin_scalarId {field : String} (join : FieldValue → Except ShapeMismatch FieldValue)
    (hjoin : ∀ v, join (.scalar id) = .ok v → ∃ id', v = .scalar id' ∧ (id' = "" → id = ""))
    (hid : r.get? idField = some (.scalar id)) (h : applyJoin r field join = .done r') :
    ∃ id', r'.get? idField = some (.scalar id') ∧ (id' = "" → id = "") := by
  unfold applyJoin at h
  split at h
  · cases h
  · rename_i v hv
    split at h
    · rename_i w hw
      cases h
      by_cases hf : field = idField
      · subst hf
        rw [hid] at hv
        cases hv
        obtain ⟨id', rfl, hempty⟩ := hjoin w hw
        exact ⟨id', OrderedMap.get?_insert_self r _ _, hempty⟩
      · exact ⟨id, get?_idField_insert w hf hid, fun h => h⟩
    · cases h

theorem append_scalar {value v : FieldValue} (h : (FieldValue.scalar id).append value = .ok v) :
    ∃ id', v = .scalar id' ∧ (id' = "" → id = "") := by
  cases value with
  | scalar s =>
    cases h
    exact ⟨id ++ s, rfl, fun he => (String.append_eq_empty_iff.1 he).1⟩
  | list l => cases h

theorem prepend_scalar {value v : FieldValue} (h : (FieldValue.scalar id).prepend value = .ok v) :
    ∃ id', v = .scalar id' ∧ (id' = "" → id = "") := by
  cases value with
  | scalar s =>
    cases h
    exact ⟨s ++ id, rfl, fun he => (String.append_eq_empty_iff.1 he).2⟩
  | list l => cases h

theorem applyRegex_scalarId {field pattern replacement : String}
    (hid : r.get? idField = some (.scalar id))
    (h : applyRegex m cache r field pattern replacement = .done r') :
    ∃ id', r'.get? idField = some (.scalar id') ∧
      (id' = "" → id = "" ∨ (regex field pattern replacement).EmptiesId m cache id) := by
  unfold applyRegex at h
  split at h
  · cases h
  · rename_i p hp
    split at h
    · cases h
    · rename_i v hv
      dsimp only at h
      split at h
      · cases h
      · cases h
        by_cases hf : field = idField
        · subst hf
          rw [hid] at hv
          cases hv
          exact ⟨_, OrderedMap.get?_insert_self r _ _, fun he => .inr ⟨rfl, p, hp, he⟩⟩
        · exact ⟨id, get?_idField_insert _ hf hid, .inl⟩

theorem applyDelete_id {field : String} (hf : field ≠ idField)
    (h : applyDelete r field = .done r') : r'.get? idField = r.get? idField := by
  unfold applyDelete at h
  split at h
  · cases h
    exact OrderedMap.get?_erase_of_ne r hf
  · cases h

theorem applyRename_id {source target : String} (hs : source ≠ idField) (ht : target ≠ idField)
    (h : applyRename r source target = .done r') : r'.get? idField = r.get? idField := by
  unfold applyRename at h
  split at h
  · split at h
    · rename_i hp
      cases h
      rw [OrderedMap.get?_place?_of_ne hp ht, OrderedMap.get?_erase_of_ne r hs]
    · cases h
  · cases h

/-- An edit that spares the id leaves a scalar one, which is empty only if the edit empties it. -/
theorem apply_scalarId {e : Edit} (hs : e.SparesId) (hid : r.get? idField = some (.scalar id))
    (h : e.apply m cache r = .done r') :
    ∃ id', r'.get? idField = some (.scalar id') ∧ (id' = "" → id = "" ∨ e.EmptiesId m cache id) := by
  cases e with
  | assign field value =>
    obtain ⟨id', h', hempty⟩ := applyAssign_scalarId hid h
    exact ⟨id', h', fun he => .inl (hempty he)⟩
  | append field value =>
    obtain ⟨id', h', hempty⟩ := applyJoin_scalarId (·.append value) (fun _ => append_scalar) hid h
    exact ⟨id', h', fun he => .inl (hempty he)⟩
  | prepend field value =>
    obtain ⟨id', h', hempty⟩ := applyJoin_scalarId (·.prepend value) (fun _ => prepend_scalar) hid h
    exact ⟨id', h', fun he => .inl (hempty he)⟩
  | regex field pattern replacement => exact applyRegex_scalarId hid h
  | delete field => exact ⟨id, (applyDelete_id hs h).trans hid, .inl⟩
  | rename source target => exact ⟨id, (applyRename_id hs.1 hs.2 h).trans hid, .inl⟩

/-! ## Several edits -/

/-- The edit is done on `r` or skipped, and leaves `r₁`. -/
def Leaves (m : Matchers) (cache : PatternCache) (e : Edit) (r r₁ : Record) : Prop :=
  e.apply m cache r = .done r₁ ∨ ∃ s, e.apply m cache r = .skipped s ∧ r₁ = r

theorem Leaves.applyAll_cons {e : Edit} {r₁ : Record} (h : e.Leaves m cache r r₁) (es : List Edit) :
    (applyAll m cache (e :: es) r).2 = (applyAll m cache es r₁).2 := by
  rcases h with h | ⟨s, h, rfl⟩
  · rw [applyAll, h]
  · rw [applyAll, h]

theorem Leaves.scalarId {e : Edit} {r₁ : Record} (h : e.Leaves m cache r r₁) (hs : e.SparesId)
    (hid : r.get? idField = some (.scalar id)) :
    ∃ id', r₁.get? idField = some (.scalar id') ∧ (id' = "" → id = "" ∨ e.EmptiesId m cache id) := by
  rcases h with h | ⟨s, -, rfl⟩
  · exact apply_scalarId hs hid h
  · exact ⟨id, hid, .inl⟩

/-- The outcome of edits is that of the rest after the first, or that of a first one that ends them. -/
theorem applyAll_cons_cases {e : Edit} {es : List Edit} {o : EditOutcome}
    (h : (applyAll m cache (e :: es) r).2 = o) :
    (∃ r₁, e.Leaves m cache r r₁ ∧ (applyAll m cache es r₁).2 = o) ∨
      e.apply m cache r = o ∧ ∀ r', o ≠ .done r' := by
  cases ha : e.apply m cache r with
  | done r₁ =>
    have hl : e.Leaves m cache r r₁ := .inl ha
    exact .inl ⟨r₁, hl, (hl.applyAll_cons es).symm.trans h⟩
  | skipped s =>
    have hl : e.Leaves m cache r r := .inr ⟨s, ha, rfl⟩
    exact .inl ⟨r, hl, (hl.applyAll_cons es).symm.trans h⟩
  | failed f =>
    rw [applyAll, ha] at h
    subst h
    exact .inr ⟨rfl, nofun⟩
  | aborted =>
    rw [applyAll, ha] at h
    subst h
    exact .inr ⟨rfl, nofun⟩

theorem Leaves.emptyIdOf {e : Edit} {es : List Edit} {r₁ : Record} (hl : e.Leaves m cache r r₁)
    (h : EmptyIdOf m cache es r₁) : EmptyIdOf m cache (e :: es) r := by
  obtain ⟨before, x, after, r', id, rfl, hb, hid, hx⟩ := h
  exact ⟨e :: before, x, after, r', id, rfl, (hl.applyAll_cons before).trans hb, hid, hx⟩

/-- Edits that spare the id leave a scalar one, which is empty only if it was or one of them empties it. -/
theorem applyAll_scalarId {edits : List Edit} (hs : ∀ e ∈ edits, e.SparesId)
    (hid : r.get? idField = some (.scalar id)) (h : (applyAll m cache edits r).2 = .done r') :
    ∃ id', r'.get? idField = some (.scalar id') ∧ (id' = "" → id = "" ∨ EmptyIdOf m cache edits r) := by
  induction edits generalizing r id with
  | nil =>
    cases h
    exact ⟨id, hid, .inl⟩
  | cons e es ih =>
    rw [List.forall_mem_cons] at hs
    rcases applyAll_cons_cases h with ⟨r₁, hl, hrest⟩ | ⟨-, hno⟩
    · obtain ⟨id₁, hid₁, hempty₁⟩ := hl.scalarId hs.1 hid
      obtain ⟨id', hid', hempty'⟩ := ih hs.2 hid₁ hrest
      refine ⟨id', hid', fun he => ?_⟩
      -- the id was empty before, or the first edit emptied it, or one of the rest did
      by_cases hne : id = ""
      · exact .inl hne
      · rcases hempty' he with h₁ | hes
        · rcases hempty₁ h₁ with h₀ | he₁
          · exact .inl h₀
          · exact .inr ⟨[], e, es, r, id, rfl, rfl, ⟨hid, hne⟩, he₁⟩
        · exact .inr (hl.emptyIdOf hes)
    · exact absurd rfl (hno r')

/-! ## Edits without outcome -/

theorem eq_length_sub_one_iff {l : List String} (hn : l.Nodup) {a : String} {i : Nat}
    (hi : l.idxOf? a = some i) : i = l.length - 1 ↔ l.getLast? = some a := by
  obtain ⟨hlt, hget, -⟩ := List.idxOf?_eq_some_iff.1 hi
  rw [List.getLast?_eq_getElem?]
  constructor
  · intro h
    rw [← h, List.getElem?_eq_getElem hlt, hget]
  · intro h
    obtain ⟨hlast, hget'⟩ := List.getElem?_eq_some_iff.1 h
    exact (List.getElem_inj hn).1 (hget.trans hget'.symm)

/-- The last field cannot be renamed to another one that is there, and nothing else is without outcome. -/
theorem applyRename_eq_aborted_iff {source target : String} :
    applyRename r source target = .aborted ↔
      r.keys.getLast? = some source ∧ target ∈ r.keys ∧ target ≠ source := by
  unfold applyRename OrderedMap.indexOf?
  cases hv : r.get? source with
  | none =>
    refine ⟨nofun, fun h => ?_⟩
    exact absurd (List.mem_of_getLast? h.1) (OrderedMap.get?_eq_none_iff.1 hv)
  | some v =>
    have hmem := OrderedMap.mem_keys_of_get? hv
    cases hi : r.keys.idxOf? source with
    | none => exact absurd hmem (List.idxOf?_eq_none_iff.1 hi)
    | some i =>
      have hlt := (List.idxOf?_eq_some_iff.1 hi).1
      -- the entry is put back at the place it had, in a record that is one field shorter
      have hsize : (r.erase source).size = r.keys.length - 1 := by
        rw [← OrderedMap.length_keys, OrderedMap.keys_erase, List.length_erase_of_mem hmem]
      have hplace : (r.erase source).place? (min i (r.erase source).size) target v = none ↔
          r.keys.getLast? = some source ∧ target ∈ r.keys ∧ target ≠ source := by
        rw [OrderedMap.place?_eq_none_iff (Nat.min_le_right _ _), OrderedMap.keys_erase, hsize,
          r.nodup_keys.mem_erase_iff, ← eq_length_sub_one_iff r.nodup_keys hi,
          and_comm (a := target ≠ source)]
        refine and_congr_left fun _ => ?_
        omega
      rw [← hplace]
      dsimp only
      split
      · rename_i hp
        rw [hp]
        exact ⟨nofun, nofun⟩
      · rename_i hp
        exact ⟨fun _ => hp, fun _ => rfl⟩

/-- Among the edits, one renames the last field the record has by then to another one that is there. -/
def RenamesLast (m : Matchers) (cache : PatternCache) (edits : List Edit) (r : Record) : Prop :=
  ∃ before source target after r', edits = before ++ .rename source target :: after ∧
    (applyAll m cache before r).2 = .done r' ∧
    r'.keys.getLast? = some source ∧ target ∈ r'.keys ∧ target ≠ source

theorem applyAssign_ne_aborted (field : String) (value : AssignedValue) :
    applyAssign m r field value ≠ .aborted := by
  intro h
  unfold applyAssign at h
  dsimp only at h
  split at h
  · cases h
  · split at h
    · split at h
      · cases h
      · split at h <;> cases h
    · cases h

theorem applyJoin_ne_aborted (field : String) (join : FieldValue → Except ShapeMismatch FieldValue) :
    applyJoin r field join ≠ .aborted := by
  intro h
  unfold applyJoin at h
  split at h
  · cases h
  · split at h <;> cases h

theorem applyRegex_ne_aborted (field pattern replacement : String) :
    applyRegex m cache r field pattern replacement ≠ .aborted := by
  intro h
  unfold applyRegex at h
  split at h
  · cases h
  · split at h
    · cases h
    · dsimp only at h
      split at h <;> cases h

theorem applyDelete_ne_aborted (field : String) : applyDelete r field ≠ .aborted := by
  intro h
  unfold applyDelete at h
  split at h <;> cases h

/-- Only a rename may be without outcome. -/
theorem apply_aborted {e : Edit} (h : e.apply m cache r = .aborted) :
    ∃ source target, e = .rename source target ∧
      r.keys.getLast? = some source ∧ target ∈ r.keys ∧ target ≠ source := by
  cases e with
  | assign field value => exact absurd h (applyAssign_ne_aborted field value)
  | append field value => exact absurd h (applyJoin_ne_aborted field _)
  | prepend field value => exact absurd h (applyJoin_ne_aborted field _)
  | regex field pattern replacement => exact absurd h (applyRegex_ne_aborted field pattern replacement)
  | delete field => exact absurd h (applyDelete_ne_aborted field)
  | rename source target => exact ⟨source, target, rfl, applyRename_eq_aborted_iff.1 h⟩

/-- Edits have no outcome only because of a rename of the last field. -/
theorem applyAll_aborted {edits : List Edit} (h : (applyAll m cache edits r).2 = .aborted) :
    RenamesLast m cache edits r := by
  induction edits generalizing r with
  | nil => cases h
  | cons e es ih =>
    rcases applyAll_cons_cases h with ⟨r₁, hl, hrest⟩ | ⟨ha, -⟩
    · obtain ⟨before, source, target, after, r', rfl, hb, hlast⟩ := ih hrest
      exact ⟨e :: before, source, target, after, r', rfl, (hl.applyAll_cons before).trans hb, hlast⟩
    · obtain ⟨source, target, rfl, hlast⟩ := apply_aborted ha
      exact ⟨[], source, target, es, r, rfl, rfl, hlast⟩

end Apply
end Edit

end TagHarvest
