/-
Renaming a field. The field is taken out and put back under its new name at the place that it had, and a
field that had the new name before makes room for it. So all other fields keep their values and their
order, with one exception: the last field of a record cannot take the name of another one, because its
place is then behind the end of the record.
-/
import TagHarvest.Proofs.Conversion.Edits

namespace TagHarvest

namespace OrderedMap

variable {α β : Type} [DecidableEq α] {m n : OrderedMap α β} {i : Nat} {k k' : α} {v : β}

/-- Taking a key out leaves the entries of all others. -/
theorem entries_erase (m : OrderedMap α β) (k : α) :
    (m.erase k).entries = m.entries.filter fun e => e.1 ≠ k := by
  have hdrop : ∀ es : List (α × β), (es.map Prod.fst).Nodup → drop k es = es.filter fun e => e.1 ≠ k := by
    intro es hn
    induction es with
    | nil => rfl
    | cons e es ih =>
      obtain ⟨hnew, hn⟩ := List.nodup_cons.1 hn
      by_cases he : e.1 = k
      · have hes : ∀ e' ∈ es, e'.1 ≠ k := fun e' he' heq =>
          hnew (he ▸ heq ▸ List.mem_map_of_mem (f := Prod.fst) he')
        rw [drop, if_pos he, List.filter_cons_of_neg (by simpa using he),
          List.filter_eq_self.2 fun e' he' => decide_eq_true (hes e' he')]
      · rw [drop, if_neg he, List.filter_cons_of_pos (by simpa using he), ih hn]
  exact hdrop m.entries m.nodup

/-- The entries around one that has been placed are those of the other keys. -/
theorem entries_of_place? (h : m.place? i k v = some n) :
    ∃ before after, n.entries = before ++ (k, v) :: after ∧ before ++ after = (m.erase k).entries ∧
      before.length = i := by
  unfold place? at h
  split at h
  · rename_i hi
    cases h
    refine ⟨_, _, rfl, List.take_append_drop i _, ?_⟩
    -- there are `i` entries to go before the placed one, also when its key was there already
    have hlength : (m.erase k).entries.length = (m.keys.erase k).length := by
      rw [← keys_erase]
      exact (length_keys _).symm
    rw [List.length_take, hlength]
    rw [← length_keys] at hi
    rcases hi with hi | ⟨hi, habsent⟩
    · have := List.length_erase_of_mem (a := k) (l := m.keys)
      by_cases hk : k ∈ m.keys
      · rw [this hk]
        omega
      · rw [List.erase_of_not_mem hk]
        omega
    · have hk : k ∉ m.keys := fun hk => by
        rw [contains_eq_true_iff.2 hk] at habsent
        cases habsent
      rw [List.erase_of_not_mem hk]
      omega
  · cases h

/-- A key that has been placed stands at its place. -/
theorem indexOf?_of_place? (h : m.place? i k v = some n) : n.indexOf? k = some i := by
  obtain ⟨before, after, hentries, hothers, rfl⟩ := entries_of_place? h
  have hkeys : n.keys = before.map Prod.fst ++ k :: after.map Prod.fst := by
    unfold keys
    rw [hentries, List.map_append, List.map_cons]
  have hnew : k ∉ before.map Prod.fst := by
    have hn := n.nodup_keys
    rw [hkeys] at hn
    exact fun hk => (List.nodup_append.1 hn).2.2 k hk k List.mem_cons_self rfl
  unfold indexOf?
  rw [hkeys, List.idxOf?_eq_some_iff]
  refine ⟨by simp, by simp, fun j hj heq => hnew ?_⟩
  have hj' : j < (before.map Prod.fst).length := by simpa using hj
  rw [List.getElem_append_left hj'] at heq
  exact heq ▸ List.getElem_mem hj'

end OrderedMap

/-! ## Fields under a new name -/

/-- The field `source` has the name `target` instead, at its old place, and all other fields are as they were. -/
structure Record.Renamed (source target : String) (r r' : Record) : Prop where
  value : r'.get? target = r.get? source
  gone : source ≠ target → source ∉ r'.keys
  others : r'.entries.filter (fun e => e.1 ≠ source ∧ e.1 ≠ target) =
    r.entries.filter fun e => e.1 ≠ source ∧ e.1 ≠ target
  place : r'.indexOf? target = r.indexOf? source

namespace Edit

variable {m : Matchers} {cache : PatternCache} {r r' : Record} {source target : String}

/-- What a rename that is done has done. -/
theorem renamed_of_applyRename (h : applyRename r source target = .done r') :
    r.Renamed source target r' := by
  unfold applyRename at h
  split at h
  · rename_i v i hv hi
    split at h
    · rename_i hplace
      cases h
      have hkeys : (r.erase source).keys = r.keys.erase source := OrderedMap.keys_erase r source
      -- the field's own place is one that the shorter record has
      have hmin : min i (r.erase source).size = i := by
        obtain ⟨hlt, -, -⟩ := List.idxOf?_eq_some_iff.1 hi
        rw [← OrderedMap.length_keys, hkeys,
          List.length_erase_of_mem (OrderedMap.mem_keys_of_get? hv)]
        omega
      obtain ⟨before, after, hentries, hothers, -⟩ := OrderedMap.entries_of_place? hplace
      rw [OrderedMap.entries_erase, OrderedMap.entries_erase, List.filter_filter] at hothers
      refine ⟨?_, fun hne hmem => ?_, ?_, ?_⟩
      · rw [hv, OrderedMap.get?_eq_some_iff, hentries]
        exact List.mem_append_right _ List.mem_cons_self
      · obtain ⟨w, hw⟩ := Option.ne_none_iff_exists'.1 (mt OrderedMap.get?_eq_none_iff.1 (not_not.2 hmem))
        rw [OrderedMap.get?_place?_of_ne hplace (Ne.symm hne)] at hw
        exact OrderedMap.not_mem_keys_erase r source (OrderedMap.mem_keys_of_get? hw)
      · have hrest : ∀ e ∈ before ++ after, decide (e.1 ≠ source ∧ e.1 ≠ target) = true := by
          intro e he
          rw [hothers] at he
          simpa [and_comm] using (List.mem_filter.1 he).2
        obtain ⟨hbefore, hafter⟩ := List.forall_mem_append.1 hrest
        rw [hentries, List.filter_append, List.filter_cons_of_neg (by simp),
          List.filter_eq_self.2 hbefore, List.filter_eq_self.2 hafter, hothers]
        refine List.filter_congr fun e _ => ?_
        rw [Bool.eq_iff_iff]
        simp [and_comm]
      · rw [OrderedMap.indexOf?_of_place? hplace, hi, hmin]
    · cases h
  · cases h

/-- A rename of a field that is there is not skipped, and it does not fail. -/
theorem applyRename_of_mem (hsource : source ∈ r.keys) (target : String) :
    applyRename r source target = .aborted ∨ ∃ r', applyRename r source target = .done r' := by
  obtain ⟨v, hv⟩ := Option.ne_none_iff_exists'.1 (mt OrderedMap.get?_eq_none_iff.1 (not_not.2 hsource))
  obtain ⟨i, hi⟩ := Option.ne_none_iff_exists'.1 (mt List.idxOf?_eq_none_iff.1 (not_not.2 hsource))
  have hindex : r.indexOf? source = some i := hi
  unfold applyRename
  rw [hv, hindex]
  dsimp only
  split
  · exact .inr ⟨_, rfl⟩
  · exact .inl rfl

/--
A field that is there gets its new name in its place, and all other fields keep their values and their
order, unless it is the last one and the new name is that of another field: then there is no outcome.
-/
theorem apply_rename_exact (m : Matchers) (cache : PatternCache) (hsource : source ∈ r.keys)
    (target : String) :
    ((∃ r', (rename source target).apply m cache r = .done r' ∧ r.Renamed source target r') ↔
      ¬ (r.keys.getLast? = some source ∧ target ∈ r.keys ∧ target ≠ source)) ∧
    ((rename source target).apply m cache r = .aborted ↔
      r.keys.getLast? = some source ∧ target ∈ r.keys ∧ target ≠ source) := by
  have haborted : applyRename r source target = .aborted ↔ _ := applyRename_eq_aborted_iff
  refine ⟨⟨?_, fun hplace => ?_⟩, haborted⟩
  · rintro ⟨r', hdone, -⟩ hlast
    have hend := haborted.2 hlast
    rw [show applyRename r source target = .done r' from hdone] at hend
    cases hend
  · rcases applyRename_of_mem hsource target with hend | ⟨r', hdone⟩
    · exact absurd (haborted.1 hend) hplace
    · exact ⟨r', hdone, renamed_of_applyRename hdone⟩

/-- A field in the middle takes the name of the first one, but the last field cannot. -/
theorem apply_rename_exact_taken :
    let r : Record := .ofList [("site", .scalar "arm"), ("age", .scalar "3"), ("organ", .list ["skin"]),
      ("note", .scalar "x")]
    ("organ" ∈ r.keys ∧ "note" ∈ r.keys) ∧
      (∃ r', (rename "organ" "site").apply .standard .empty r = .done r' ∧
        r.Renamed "organ" "site" r') ∧
      (rename "note" "site").apply .standard .empty r = .aborted := by
  intro r
  have horgan : "organ" ∈ r.keys := by decide
  have hnote : "note" ∈ r.keys := by decide
  exact ⟨⟨horgan, hnote⟩, (apply_rename_exact .standard .empty horgan "site").1.2 (by decide),
    (apply_rename_exact .standard .empty hnote "site").2.2 (by decide)⟩

end Edit
end TagHarvest
