/-
What a merge of two stores does. Fields, records and tables are merged by one operation, `join`, which keeps
the keys of the first map where they stand, puts the new keys of the second one behind them, and joins the
two values of a shared key. It is associative and idempotent if the joining of values is, so the merge of
stores takes these laws from the overwriting of a single value. Read field by field, the later store wins.
-/
import TagHarvest.Record.Merge
import TagHarvest.Proofs.Record.Difference
import TagHarvest.Proofs.Record.Gathering

namespace TagHarvest

/-! ## Joining two maps -/

namespace OrderedMap

variable {α β γ : Type} [DecidableEq α] {f : β → β → β} {m n o : OrderedMap α β}

/-- The entries of both maps, the two values of a shared key joined. -/
def join (f : β → β → β) (m n : OrderedMap α β) : OrderedMap α β :=
  m.alterAll (fun old new => old.elim new (f · new)) n.entries

theorem keys_join (f : β → β → β) (m n : OrderedMap α β) :
    (m.join f n).keys = m.keys ++ n.keys.filter (· ∉ m.keys) := by
  unfold join
  rw [keys_alterAll]
  exact congrArg (m.keys ++ ·) (eraseDups_of_nodup (n.nodup_keys.filter _))

theorem get?_join (f : β → β → β) (m n : OrderedMap α β) (k : α) :
    (m.join f n).get? k = Option.merge f (m.get? k) (n.get? k) := by
  unfold join
  rw [get?_alterAll, given_entries]
  cases m.get? k <;> cases n.get? k <;> rfl

theorem mem_keys_join {k : α} : k ∈ (m.join f n).keys ↔ k ∈ m.keys ∨ k ∈ n.keys := by
  rw [keys_join, List.mem_append, List.mem_filter, decide_eq_true_iff]
  tauto

/-- The new keys of two further maps, as those of the two joined. -/
theorem keys_join_join (f g : β → β → β) (m n o : OrderedMap α β) :
    ((m.join f n).join f o).keys = (m.join f (n.join g o)).keys := by
  simp only [keys_join, List.filter_append, List.filter_filter, List.append_assoc, List.mem_append,
    List.mem_filter, decide_eq_true_eq]
  refine congrArg (m.keys ++ ·) (congrArg (_ ++ ·) (List.filter_congr fun k _ => ?_))
  by_cases hm : k ∈ m.keys <;> by_cases hn : k ∈ n.keys <;> simp [hm, hn]

instance [Std.Associative f] : Std.Associative (@join α β _ f) where
  assoc m n o := by
    refine ext_get? (keys_join_join f f m n o) fun k => ?_
    simp only [get?_join]
    exact Std.Associative.assoc ..

instance [Std.IdempotentOp f] : Std.IdempotentOp (@join α β _ f) where
  idempotent m := by
    refine ext_get? ?_ fun k => ?_
    · rw [keys_join, List.filter_eq_nil_iff.2 fun k hk => by simpa using hk, List.append_nil]
    · rw [get?_join]
      exact Std.IdempotentOp.idempotent ..

theorem empty_join (f : β → β → β) (m : OrderedMap α β) : empty.join f m = m :=
  alterAll_entries (fun _ => rfl) m

theorem join_empty (f : β → β → β) (m : OrderedMap α β) : m.join f empty = m := rfl

/-- Inserting the entries of a map joins it with the later value of a shared key. -/
theorem insertAll_eq_join (m n : OrderedMap α β) : m.insertAll n.entries = m.join (fun _ new => new) n := by
  unfold insertAll join alterAll
  congr 1
  funext m e
  exact congrArg (m.insert e.1) (by cases m.get? e.1 <;> rfl)

/-- Joining with a value made where there is none is joining, if the value made changes nothing. -/
theorem foldl_alter_eq_join {absent : β} (hf : ∀ v, f absent v = v) (m n : OrderedMap α β) :
    n.entries.foldl (fun m e => m.alter e.1 fun old => f (old.getD absent) e.2) m = m.join f n := by
  unfold join alterAll
  congr 1
  funext m e
  refine congrArg (m.insert e.1) ?_
  cases m.get? e.1 with
  | none => exact hf e.2
  | some v => rfl

/-- Where an absent value counts as one that changes nothing, a key of the joined map has the two values joined. -/
theorem getD_get?_join {absent : β} (hleft : ∀ v, f absent v = v) (hright : ∀ v, f v absent = v) (k : α) :
    ((m.join f n).get? k).getD absent = f ((m.get? k).getD absent) ((n.get? k).getD absent) := by
  rw [get?_join]
  cases m.get? k with
  | none => cases n.get? k <;> exact (hleft _).symm
  | some v =>
    cases n.get? k with
    | none => exact (hright v).symm
    | some w => rfl

/-- If the joined value reads as the second one does, or else as the first, so does what is read of a map. -/
theorem bind_get?_join {g : β → Option γ} (hg : ∀ v w, g (f v w) = (g w).or (g v)) (k : α) :
    ((m.join f n).get? k).bind g = ((n.get? k).bind g).or ((m.get? k).bind g) := by
  rw [get?_join]
  cases m.get? k with
  | none => cases n.get? k <;> simp
  | some v =>
    cases n.get? k with
    | none => rfl
    | some w => exact hg v w

end OrderedMap

/-! ## Fields, records and tables -/

/-- The later of two values. -/
def FieldValue.later (_ new : FieldValue) : FieldValue := new

instance : Std.Associative FieldValue.later := ⟨fun _ _ _ => rfl⟩

instance : Std.IdempotentOp FieldValue.later := ⟨fun _ => rfl⟩

namespace Store

theorem overwrite_eq_join : overwrite = OrderedMap.join FieldValue.later := by
  funext r other
  exact OrderedMap.insertAll_eq_join r other

theorem mergeTable_eq_join : mergeTable = OrderedMap.join overwrite := by
  funext t other
  unfold mergeTable OrderedMap.join OrderedMap.alterAll
  congr 1
  funext t e
  exact congrArg (t.insert e.1) (by cases t.get? e.1 <;> rfl)

theorem merge_eq_join : merge = OrderedMap.join mergeTable := by
  funext s other
  unfold merge OrderedMap.join OrderedMap.alterAll updateTable tableOrEmpty table?
  congr 1
  funext s e
  refine congrArg (s.insert e.1) ?_
  cases s.get? e.1 with
  | none =>
    rw [mergeTable_eq_join]
    exact OrderedMap.empty_join overwrite e.2
  | some t => rfl

theorem merge_eq : merge = OrderedMap.join (OrderedMap.join (OrderedMap.join FieldValue.later)) := by
  rw [merge_eq_join, mergeTable_eq_join, overwrite_eq_join]

instance : Std.Associative merge := by
  rw [merge_eq]
  infer_instance

instance : Std.IdempotentOp merge := by
  rw [merge_eq]
  infer_instance

/-- The value of a field of a record in a table. -/
def value? (s : Store) (table id field : String) : Option FieldValue :=
  (s.record? table id).bind (·.get? field)

/-- Field by field the later store wins. -/
theorem value?_merge (s other : Store) (table id field : String) :
    (s.merge other).value? table id field = (other.value? table id field).or (s.value? table id field) := by
  unfold value? record? table?
  simp only [Option.bind_assoc]
  rw [merge_eq]
  refine OrderedMap.bind_get?_join (fun t u => ?_) table
  refine OrderedMap.bind_get?_join (fun a b => ?_) id
  rw [OrderedMap.get?_join]
  cases a.get? field <;> cases b.get? field <;> rfl

end Store

/-! ## The merged store against the later one -/

/-- A table or record of the first store only, or a field without a value in the second. -/
def Finding.LacksRight : Finding → Prop
  | .tableLeft _ | .recordLeft _ _ => True
  | .tableRight _ | .recordRight _ _ => False
  | .field _ _ d => d.right = none

theorem FieldValue.agrees_self (v : FieldValue) : v.agrees v = true := by
  have htexts : (v.texts.zip v.texts).all (fun p => textsAgree p.1 p.2) = true := by
    rw [List.all_eq_true]
    intro p hp
    obtain ⟨i, -, rfl⟩ := List.mem_iff_getElem.1 hp
    rw [List.getElem_zip]
    simp [textsAgree]
  unfold agrees
  rw [beq_self_eq_true, beq_self_eq_true]
  exact htexts

namespace Store

/-- What the merged store has of a table of the later one: at least the same records. -/
theorem table?_merge {s other : Store} {name : String} {t u : Table}
    (ht : (s.merge other).table? name = some t) (hu : other.table? name = some u) : u.keys ⊆ t.keys := by
  unfold table? at ht hu
  rw [merge_eq_join, OrderedMap.get?_join, hu] at ht
  cases hs : s.get? name with
  | none =>
    rw [hs] at ht
    cases ht
    exact List.Subset.refl _
  | some old =>
    rw [hs] at ht
    cases ht
    rw [mergeTable_eq_join]
    exact fun id hid => OrderedMap.mem_keys_join.2 (.inr hid)

theorem lacksRight_of_mem_findings {s other : Store} {x : Finding}
    (h : x ∈ ((s.merge other).differences other).findings) : x.LacksRight := by
  replace h := mem_findings_iff.1 h
  cases x with
  | tableLeft name => trivial
  | recordLeft name id => trivial
  | tableRight name =>
    obtain ⟨hmem, hno⟩ := h
    rw [merge_eq_join] at hno
    exact hno (OrderedMap.mem_keys_join.2 (.inr hmem))
  | recordRight name id =>
    obtain ⟨t, u, ht, hu, hmem, hno⟩ := h
    exact hno (table?_merge ht hu hmem)
  | field name id d =>
    obtain ⟨a, b, ha, hb, hleft, hright, hd⟩ := h
    show d.right = none
    cases hr : d.right with
    | none => rfl
    | some w =>
      -- the merged record has the same value, so the two sides do not differ
      have hvalue := value?_merge s other name id d.field
      unfold value? at hvalue
      rw [ha, hb, Option.bind_some, Option.bind_some, hleft, hright, hr] at hvalue
      rw [hr, hvalue] at hd
      exact absurd hd (by simp [FieldValue.Differ, FieldValue.agrees_self])

/--
Merging is associative and idempotent with the empty store as identity, and this with the order of tables,
records and fields. After a merge every field of the other store has the value it has there and every other
one the value it had. Compared with the other store, the result lacks nothing, and where a field differs,
the other store has no value.
-/
theorem merge_laws (a b c : Store) :
    (a.merge b).merge c = a.merge (b.merge c) ∧ a.merge a = a ∧
      merge .empty a = a ∧ a.merge .empty = a ∧
      (∀ table id field,
        (a.merge b).value? table id field = (b.value? table id field).or (a.value? table id field)) ∧
      ∀ x ∈ ((a.merge b).differences b).findings, x.LacksRight := by
  refine ⟨Std.Associative.assoc a b c, Std.IdempotentOp.idempotent a, ?_, ?_, value?_merge a b,
    fun x => lacksRight_of_mem_findings⟩
  · rw [merge_eq]
    exact OrderedMap.empty_join _ a
  · rw [merge_eq]
    exact OrderedMap.join_empty _ a

/-- A shared record keeps its place and its fields theirs; what is new comes last. -/
theorem merge_laws_reweighed :
    weighed.merge reweighed = .ofList [
      ("protocol", .ofList [("P1", .ofList [("id", .scalar "P1")])]),
      ("sample", .ofList [
        ("S1", .ofList [("id", .scalar "S1"), ("weight", .scalar "1.5"), ("color", .scalar "blue"),
          ("extra", .scalar "e")]),
        ("S2", .ofList [("id", .scalar "S2")]),
        ("S3", .ofList [("id", .scalar "S3")])])] ∧
      .tableLeft "protocol" ∈ ((weighed.merge reweighed).differences reweighed).findings ∧
      (Finding.tableLeft "protocol").LacksRight := by
  have hmem : .tableLeft "protocol" ∈ ((weighed.merge reweighed).differences reweighed).findings := by
    decide +kernel
  exact ⟨by decide +kernel, hmem, (merge_laws weighed reweighed .empty).2.2.2.2.2 _ hmem⟩

end Store
end TagHarvest
