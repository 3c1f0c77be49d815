/-
What a comparison of two stores reports. A report is told as the list of its findings, each of which is one
of its lines: tables and records that are there on one side only, and fields of shared records. The findings
are exactly what the stores differ in, each of them once. So a report without findings or lines is that of
two stores that are alike, and it does not matter in what order tables, records and fields stand.
-/
import TagHarvest.Record.Difference
import TagHarvest.Proofs.Record.Identity

namespace TagHarvest

/-! ## Keys of two maps -/

namespace OrderedMap

variable {α β γ : Type} [DecidableEq α]

/-- The same keys, in whatever order, and related values at each of them. -/
def Alike (R : β → β → Prop) (m n : OrderedMap α β) : Prop :=
  ∀ k, Option.Rel R (m.get? k) (n.get? k)

instance instDecidableRel (R : β → β → Prop) [DecidableRel R] : ∀ o o', Decidable (Option.Rel R o o')
  | some v, some w => decidable_of_iff (R v w) ⟨.some, fun | .some h => h⟩
  | none, none => isTrue .none
  | some _, none => isFalse nofun
  | none, some _ => isFalse nofun

instance (R : β → β → Prop) [DecidableRel R] : DecidableRel (@Alike α β _ R) := fun m n =>
  decidable_of_iff (∀ k ∈ m.keys ++ n.keys, Option.Rel R (m.get? k) (n.get? k)) <| by
    refine ⟨fun h k => ?_, fun h k _ => h k⟩
    by_cases hk : k ∈ m.keys ++ n.keys
    · exact h k hk
    · rw [List.mem_append, not_or] at hk
      rw [get?_eq_none_iff.2 hk.1, get?_eq_none_iff.2 hk.2]
      exact .none

theorem Alike.exists_of_get? {R : β → β → Prop} {m n : OrderedMap α β} (h : m.Alike R n) {k : α} {v : β}
    (hv : m.get? k = some v) : ∃ w, n.get? k = some w ∧ R v w := by
  have hk := h k
  rw [hv] at hk
  generalize n.get? k = o at hk ⊢
  rcases hk with hvw | _
  exact ⟨_, rfl, hvw⟩

theorem Alike.get?_eq {m n : OrderedMap α β} (h : m.Alike (· = ·) n) (k : α) : m.get? k = n.get? k := by
  have hk := h k
  generalize m.get? k = o at hk ⊢
  generalize n.get? k = o' at hk ⊢
  rcases hk with rfl | _ <;> rfl

theorem Alike.symm {R : β → β → Prop} (hR : ∀ v w, R v w → R w v) {m n : OrderedMap α β}
    (h : m.Alike R n) : n.Alike R m := by
  intro k
  have hk := h k
  generalize m.get? k = o at hk ⊢
  generalize n.get? k = o' at hk ⊢
  rcases hk with hvw | _
  · exact .some (hR _ _ hvw)
  · exact .none

theorem Alike.mem_keys_iff {R : β → β → Prop} {m n : OrderedMap α β} (h : m.Alike R n) (k : α) :
    k ∈ m.keys ↔ k ∈ n.keys := by
  have hk := h k
  rw [← contains_eq_true_iff, ← contains_eq_true_iff]
  unfold contains
  generalize m.get? k = o at hk ⊢
  generalize n.get? k = o' at hk ⊢
  cases hk <;> rfl

theorem mem_keysMissingIn {m n : OrderedMap α β} {k : α} :
    k ∈ m.keysMissingIn n ↔ k ∈ m.keys ∧ k ∉ n.keys := by
  unfold keysMissingIn
  rw [List.mem_filter, ← @contains_eq_true_iff _ _ _ n]
  simp

theorem nodup_keysMissingIn (m n : OrderedMap α β) : (m.keysMissingIn n).Nodup :=
  m.nodup_keys.filter _

/-- What `f` makes of the two values of each shared key, as far as it is to be kept. -/
def shared (f : β → β → γ) (keep : γ → Bool) (m n : OrderedMap α β) : List (α × γ) :=
  m.entries.filterMap fun e =>
    (n.get? e.1).bind fun w => if keep (f e.2 w) then some (e.1, f e.2 w) else none

section Shared

variable {f : β → β → γ} {keep : γ → Bool} {m n : OrderedMap α β}

theorem mem_shared_iff {k : α} {c : γ} :
    (k, c) ∈ shared f keep m n ↔
      ∃ v w, m.get? k = some v ∧ n.get? k = some w ∧ f v w = c ∧ keep c = true := by
  unfold shared
  simp only [List.mem_filterMap, Option.bind_eq_some_iff, Option.ite_none_right_eq_some,
    Option.some.injEq, Prod.mk.injEq]
  constructor
  · rintro ⟨⟨k', v⟩, he, w, hw, hkeep, rfl, rfl⟩
    exact ⟨v, w, get?_of_mem he, hw, rfl, hkeep⟩
  · rintro ⟨v, w, hv, hw, rfl, hkeep⟩
    exact ⟨(k, v), get?_eq_some_iff.1 hv, w, hw, hkeep, rfl, rfl⟩

theorem nodup_shared (f : β → β → γ) (keep : γ → Bool) (m n : OrderedMap α β) :
    ((shared f keep m n).map Prod.fst).Nodup := by
  apply List.pairwise_map.2
  apply List.pairwise_filterMap.2
  refine (List.pairwise_map.1 m.nodup).imp ?_
  intro a b hab x hx y hy
  simp only [Option.bind_eq_some_iff, Option.ite_none_right_eq_some, Option.some.injEq] at hx hy
  obtain ⟨_, _, _, rfl⟩ := hx
  obtain ⟨_, _, _, rfl⟩ := hy
  exact hab

variable (f keep) in
/-- Two maps are alike if no key is missing in one of them and nothing is kept of the shared ones. -/
theorem alike_iff {R : β → β → Prop} (h : ∀ v w, keep (f v w) = false ↔ R v w) :
    m.Alike R n ↔ m.keysMissingIn n = [] ∧ n.keysMissingIn m = [] ∧ shared f keep m n = [] := by
  simp only [List.eq_nil_iff_forall_not_mem, mem_keysMissingIn, not_and, not_not]
  constructor
  · intro hR
    refine ⟨fun k => (hR.mem_keys_iff k).1, fun k => (hR.mem_keys_iff k).2, ?_⟩
    rintro ⟨k, c⟩ hc
    obtain ⟨v, w, hv, hw, rfl, hkeep⟩ := mem_shared_iff.1 hc
    have hk := hR k
    rw [hv, hw] at hk
    rcases hk with hvw | _
    rw [(h v w).2 hvw] at hkeep
    cases hkeep
  · rintro ⟨hleft, hright, hshared⟩ k
    cases hv : m.get? k with
    | none =>
      cases hw : n.get? k with
      | none => exact .none
      | some w => exact absurd (hright k (mem_keys_of_get? hw)) (get?_eq_none_iff.1 hv)
    | some v =>
      cases hw : n.get? k with
      | none => exact absurd (hleft k (mem_keys_of_get? hv)) (get?_eq_none_iff.1 hw)
      | some w =>
        refine .some ((h v w).1 ?_)
        by_contra hkeep
        exact hshared (k, f v w) (mem_shared_iff.2 ⟨v, w, hv, hw, rfl, by simpa using hkeep⟩)

end Shared

end OrderedMap

/-! ## Fields of two records -/

/-- There is a value on one side only, or there are two that do not agree. -/
def FieldValue.Differ (agree : FieldValue → FieldValue → Bool) :
    Option FieldValue → Option FieldValue → Prop
  | none, none => False
  | some v, some w => agree v w = false
  | some _, none => True
  | none, some _ => True

theorem FieldValue.not_differ_iff {agree : FieldValue → FieldValue → Bool} {o o' : Option FieldValue} :
    ¬ Differ agree o o' ↔ Option.Rel (fun v w => agree v w = true) o o' := by
  cases o with
  | none =>
    cases o' with
    | none => exact ⟨fun _ => .none, fun _ h => h⟩
    | some w => exact ⟨fun h => absurd trivial h, nofun⟩
  | some v =>
    cases o' with
    | none => exact ⟨fun h => absurd trivial h, nofun⟩
    | some w =>
      constructor
      · intro h
        exact .some (by simpa [Differ] using h)
      · rintro (h | _) hd
        exact absurd (h.symm.trans hd) (by decide)

namespace Record

variable {agree : FieldValue → FieldValue → Bool} {l r : Record}

/-- What there is to report of a field of the left record. -/
def difference? (agree : FieldValue → FieldValue → Bool) (r : Record) (e : String × FieldValue) :
    Option FieldDifference :=
  (r.get? e.1).elim (some ⟨e.1, some e.2, none⟩) fun w =>
    if agree e.2 w then none else some ⟨e.1, some e.2, some w⟩

theorem difference?_eq_some_iff {e : String × FieldValue} {d : FieldDifference} :
    difference? agree r e = some d ↔
      d.field = e.1 ∧ d.left = some e.2 ∧ r.get? e.1 = d.right ∧ FieldValue.Differ agree d.left d.right := by
  obtain ⟨field, left, right⟩ := d
  unfold difference?
  cases r.get? e.1 with
  | none =>
    constructor
    · intro h
      cases h
      exact ⟨rfl, rfl, rfl, trivial⟩
    · rintro ⟨rfl, rfl, rfl, -⟩
      rfl
  | some w =>
    rw [Option.elim_some, Option.ite_none_left_eq_some]
    constructor
    · rintro ⟨h, heq⟩
      cases heq
      exact ⟨rfl, rfl, rfl, by simpa [FieldValue.Differ] using h⟩
    · rintro ⟨rfl, rfl, rfl, h⟩
      exact ⟨by simpa [FieldValue.Differ] using h, rfl⟩

theorem differences_eq (agree : FieldValue → FieldValue → Bool) (l r : Record) :
    l.differences agree r = l.entries.filterMap (difference? agree r) ++
      (r.entries.filter fun e => !l.contains e.1).map fun e => ⟨e.1, none, some e.2⟩ := by
  unfold differences
  refine congrArg (· ++ _) (List.filterMap_congr ?_)
  rintro ⟨field, v⟩ -
  unfold difference?
  dsimp only
  cases r.get? field <;> rfl

/-- A field is listed with the two values that it has if these differ, and only then. -/
theorem mem_differences_iff {d : FieldDifference} :
    d ∈ l.differences agree r ↔
      l.get? d.field = d.left ∧ r.get? d.field = d.right ∧ FieldValue.Differ agree d.left d.right := by
  rw [differences_eq, List.mem_append]
  constructor
  · rintro (h | h)
    · obtain ⟨⟨field, v⟩, he, h⟩ := List.mem_filterMap.1 h
      obtain ⟨hfield, hleft, hright, hd⟩ := difference?_eq_some_iff.1 h
      rw [hfield]
      exact ⟨(OrderedMap.get?_of_mem he).trans hleft.symm, hright, hd⟩
    · obtain ⟨⟨field, w⟩, he, rfl⟩ := List.mem_map.1 h
      obtain ⟨he, hno⟩ := List.mem_filter.1 he
      refine ⟨?_, OrderedMap.get?_of_mem he, trivial⟩
      show l.get? field = none
      rw [OrderedMap.get?_eq_none_iff, ← OrderedMap.contains_eq_true_iff]
      simpa using hno
  · obtain ⟨field, left, right⟩ := d
    rintro ⟨hl, hr, hd⟩
    cases left with
    | some v =>
      left
      exact List.mem_filterMap.2
        ⟨(field, v), OrderedMap.get?_eq_some_iff.1 hl, difference?_eq_some_iff.2 ⟨rfl, rfl, hr, hd⟩⟩
    | none =>
      right
      cases right with
      | none => exact hd.elim
      | some w =>
        refine List.mem_map.2 ⟨(field, w), List.mem_filter.2 ⟨OrderedMap.get?_eq_some_iff.1 hr, ?_⟩, rfl⟩
        simpa [OrderedMap.contains] using hl

theorem nodup_differences (agree : FieldValue → FieldValue → Bool) (l r : Record) :
    (l.differences agree r).Nodup := by
  rw [differences_eq]
  refine List.nodup_append.2 ⟨?_, ?_, ?_⟩
  · refine (List.Nodup.of_map _ l.nodup).filterMap ?_
    intro e e' d h h'
    obtain ⟨hfield, hleft, -⟩ := difference?_eq_some_iff.1 h
    obtain ⟨hfield', hleft', -⟩ := difference?_eq_some_iff.1 h'
    exact Prod.ext (hfield.symm.trans hfield') (Option.some.inj (hleft.symm.trans hleft'))
  · refine ((List.Nodup.of_map _ r.nodup).filter _).map ?_
    rintro ⟨field, w⟩ ⟨field', w'⟩ h
    cases h
    rfl
  · -- the fields of the left record are listed with a value on the left, the added ones without
    rintro d hd _ hd' rfl
    obtain ⟨e, -, h⟩ := List.mem_filterMap.1 hd
    obtain ⟨e', -, rfl⟩ := List.mem_map.1 hd'
    obtain ⟨-, hleft, -⟩ := difference?_eq_some_iff.1 h
    cases hleft

theorem differences_eq_nil_iff :
    l.differences agree r = [] ↔ l.Alike (fun v w => agree v w = true) r := by
  rw [List.eq_nil_iff_forall_not_mem]
  constructor
  · intro h field
    apply FieldValue.not_differ_iff.1
    intro hd
    exact h ⟨field, l.get? field, r.get? field⟩ (mem_differences_iff.2 ⟨rfl, rfl, hd⟩)
  · intro h d hd
    obtain ⟨hl, hr, hd⟩ := mem_differences_iff.1 hd
    rw [← hl, ← hr] at hd
    exact FieldValue.not_differ_iff.2 (h d.field) hd

end Record

/-! ## Tables and stores -/

/-- Stores with the same tables, ids and fields, in whatever order, and related values in each field. -/
def Store.Alike (R : FieldValue → FieldValue → Prop) (l r : Store) : Prop :=
  OrderedMap.Alike (OrderedMap.Alike (OrderedMap.Alike R)) l r

instance (R : FieldValue → FieldValue → Prop) [DecidableRel R] (l r : Store) : Decidable (l.Alike R r) :=
  inferInstanceAs (Decidable (OrderedMap.Alike (OrderedMap.Alike (OrderedMap.Alike R)) l r))

section Levels

variable {agree : FieldValue → FieldValue → Bool}

theorem Table.records_differences (l r : Table) :
    (l.differences agree r).records =
      OrderedMap.shared (Record.differences agree) (fun ds => !ds.isEmpty) l r := by
  unfold differences OrderedMap.shared
  apply List.filterMap_congr
  rintro ⟨id, a⟩ -
  dsimp only
  cases r.get? id with
  | none => rfl
  | some b =>
    dsimp only [Option.bind_some]
    cases Record.differences agree a b <;> rfl

theorem Store.tables_differencesBy (l r : Store) :
    (l.differencesBy agree r).tables =
      OrderedMap.shared (Table.differences agree) (fun d => !d.isEmpty) l r := by
  unfold differencesBy OrderedMap.shared
  apply List.filterMap_congr
  rintro ⟨name, t⟩ -
  dsimp only
  cases r.get? name with
  | none => rfl
  | some u =>
    by_cases h : (Table.differences agree t u).isEmpty = true <;> simp [h]

theorem Table.isEmpty_differences_iff {l r : Table} :
    (l.differences agree r).isEmpty = true ↔
      OrderedMap.Alike (OrderedMap.Alike fun v w => agree v w = true) l r := by
  rw [OrderedMap.alike_iff (Record.differences agree) (fun ds => !ds.isEmpty)
    fun a b => by simpa using Record.differences_eq_nil_iff, ← records_differences]
  simp [TableDifference.isEmpty, differences, and_assoc]

theorem Store.isIdentical_differencesBy_iff {l r : Store} :
    (l.differencesBy agree r).isIdentical = true ↔ l.Alike (fun v w => agree v w = true) r := by
  unfold Store.Alike
  rw [OrderedMap.alike_iff (Table.differences agree) (fun d => !d.isEmpty)
    fun t u => by simpa using Table.isEmpty_differences_iff, ← tables_differencesBy]
  simp [StoreDifference.isIdentical, differencesBy, and_assoc]

end Levels

/-! ## Findings -/

/-- One difference between two stores. -/
inductive Finding where
  | tableLeft (table : String)
  | tableRight (table : String)
  | recordLeft (table id : String)
  | recordRight (table id : String)
  | field (table id : String) (d : FieldDifference)
  deriving DecidableEq, Repr

namespace Finding

/-- The line that reports a finding. -/
def line : Finding → String
  | tableLeft table => "Table '" ++ table ++ "' only in the first store"
  | tableRight table => "Table '" ++ table ++ "' only in the second store"
  | recordLeft table id => table ++ "['" ++ id ++ "']" ++ " only in the first store"
  | recordRight table id => table ++ "['" ++ id ++ "']" ++ " only in the second store"
  | field table id d =>
    let side : Option FieldValue → String
      | some v => "'" ++ v.display ++ "'"
      | none => "<missing>"
    table ++ "['" ++ id ++ "']" ++ "." ++ d.field ++ ": " ++ side d.left ++ " != " ++ side d.right

/-- The table that a finding is about. -/
def table : Finding → String
  | tableLeft table | tableRight table | recordLeft table _ | recordRight table _ | field table _ _ => table

/-- What a finding says of the two stores; a field is one of a record that both have. -/
def Holds (agree : FieldValue → FieldValue → Bool) (l r : Store) : Finding → Prop
  | tableLeft table => table ∈ l.keys ∧ table ∉ r.keys
  | tableRight table => table ∈ r.keys ∧ table ∉ l.keys
  | recordLeft table id =>
    ∃ t u, l.table? table = some t ∧ r.table? table = some u ∧ id ∈ t.keys ∧ id ∉ u.keys
  | recordRight table id =>
    ∃ t u, l.table? table = some t ∧ r.table? table = some u ∧ id ∈ u.keys ∧ id ∉ t.keys
  | field table id d =>
    ∃ a b, l.record? table id = some a ∧ r.record? table id = some b ∧
      a.get? d.field = d.left ∧ b.get? d.field = d.right ∧ FieldValue.Differ agree d.left d.right

end Finding

/-- The findings of a table's report, in the order of its lines. -/
def TableDifference.findings (table : String) (d : TableDifference) : List Finding :=
  d.onlyLeft.map (.recordLeft table) ++ d.onlyRight.map (.recordRight table) ++
    d.records.flatMap fun (id, ds) => ds.map (.field table id)

/-- The findings of a report, in the order of its lines. -/
def StoreDifference.findings (d : StoreDifference) : List Finding :=
  d.onlyLeft.map .tableLeft ++ d.onlyRight.map .tableRight ++
    d.tables.flatMap fun (name, t) => t.findings name

/-- Tables and records have one entry each, and there are no empty entries. -/
structure StoreDifference.Concise (d : StoreDifference) : Prop where
  tables : (d.tables.map Prod.fst).Nodup
  filled : ∀ t ∈ d.tables, t.2.isEmpty = false
  records : ∀ t ∈ d.tables, (t.2.records.map Prod.fst).Nodup ∧ ∀ e ∈ t.2.records, e.2 ≠ []

theorem TableDifference.lines_eq (table : String) (d : TableDifference) :
    d.lines table = (d.findings table).map Finding.line := by
  unfold lines findings
  simp only [List.map_append, List.map_map, List.map_flatMap]
  rfl

theorem StoreDifference.lines_eq (d : StoreDifference) : d.lines = d.findings.map Finding.line := by
  unfold lines findings
  simp only [List.map_append, List.map_map, List.map_flatMap, TableDifference.lines_eq]
  rfl

/-! ## Where findings come from -/

section Membership

variable {d : StoreDifference} {table id : String}

theorem StoreDifference.mem_findings_tableLeft : .tableLeft table ∈ d.findings ↔ table ∈ d.onlyLeft := by
  simp [findings, TableDifference.findings]

theorem StoreDifference.mem_findings_tableRight : .tableRight table ∈ d.findings ↔ table ∈ d.onlyRight := by
  simp [findings, TableDifference.findings]

theorem StoreDifference.mem_findings_recordLeft :
    .recordLeft table id ∈ d.findings ↔ ∃ t, (table, t) ∈ d.tables ∧ id ∈ t.onlyLeft := by
  simp [findings, TableDifference.findings]

theorem StoreDifference.mem_findings_recordRight :
    .recordRight table id ∈ d.findings ↔ ∃ t, (table, t) ∈ d.tables ∧ id ∈ t.onlyRight := by
  simp [findings, TableDifference.findings]

theorem StoreDifference.mem_findings_field {f : FieldDifference} :
    .field table id f ∈ d.findings ↔
      ∃ t, (table, t) ∈ d.tables ∧ ∃ ds, (id, ds) ∈ t.records ∧ f ∈ ds := by
  simp [findings, TableDifference.findings]

end Membership

/-- Every finding of a table's report names the table. -/
theorem TableDifference.table_of_mem_findings {d : TableDifference} {name : String} {x : Finding}
    (h : x ∈ d.findings name) : x.table = name := by
  unfold findings at h
  simp only [List.mem_append, List.mem_map, List.mem_flatMap] at h
  rcases h with (⟨id, -, rfl⟩ | ⟨id, -, rfl⟩) | ⟨e, -, f, -, rfl⟩ <;> rfl

theorem TableDifference.nodup_findings {d : TableDifference} (name : String) (hl : d.onlyLeft.Nodup)
    (hr : d.onlyRight.Nodup) (hk : (d.records.map Prod.fst).Nodup) (hd : ∀ e ∈ d.records, e.2.Nodup) :
    (d.findings name).Nodup := by
  unfold findings
  refine List.nodup_append.2 ⟨List.nodup_append.2 ⟨?_, ?_, ?_⟩, ?_, ?_⟩
  · exact hl.map fun _ _ h => by cases h; rfl
  · exact hr.map fun _ _ h => by cases h; rfl
  · simp
  · refine List.nodup_flatMap.2 ⟨fun e he => (hd e he).map fun _ _ h => by cases h; rfl, ?_⟩
    refine (List.pairwise_map.1 hk).imp ?_
    rintro ⟨id, ds⟩ ⟨id', ds'⟩ hne x hx hx'
    obtain ⟨f, -, rfl⟩ := List.mem_map.1 hx
    obtain ⟨f', -, h⟩ := List.mem_map.1 hx'
    cases h
    exact hne rfl
  · simp only [List.mem_append, List.mem_map, List.mem_flatMap]
    rintro x (⟨id, -, rfl⟩ | ⟨id, -, rfl⟩) _ ⟨e, -, f, -, rfl⟩ h <;> cases h

theorem StoreDifference.nodup_findings {d : StoreDifference} (hl : d.onlyLeft.Nodup)
    (hr : d.onlyRight.Nodup) (hk : (d.tables.map Prod.fst).Nodup)
    (ht : ∀ e ∈ d.tables, (e.2.findings e.1).Nodup) : d.findings.Nodup := by
  unfold findings
  refine List.nodup_append.2 ⟨List.nodup_append.2 ⟨?_, ?_, ?_⟩, ?_, ?_⟩
  · exact hl.map fun _ _ h => by cases h; rfl
  · exact hr.map fun _ _ h => by cases h; rfl
  · simp
  · refine List.nodup_flatMap.2 ⟨ht, (List.pairwise_map.1 hk).imp ?_⟩
    intro e e' hne x hx hx'
    -- a finding names the table whose report it stands in
    exact hne ((TableDifference.table_of_mem_findings hx).symm.trans
      (TableDifference.table_of_mem_findings hx'))
  · simp only [TableDifference.findings, List.mem_append, List.mem_map, List.mem_flatMap]
    rintro x (⟨_, -, rfl⟩ | ⟨_, -, rfl⟩) _ ⟨_, -, (⟨_, -, rfl⟩ | ⟨_, -, rfl⟩) | ⟨_, -, _, -, rfl⟩⟩ h <;>
      cases h

/-- Pieces of which none is empty come to nothing only if there are none. -/
theorem flatMap_eq_nil_iff_of_ne_nil {α β : Type} {f : α → List β} {l : List α} (h : ∀ a ∈ l, f a ≠ []) :
    l.flatMap f = [] ↔ l = [] := by
  rw [List.flatMap_eq_nil_iff]
  constructor
  · intro hnil
    exact List.eq_nil_iff_forall_not_mem.2 fun a ha => h a ha (hnil a ha)
  · rintro rfl
    exact nofun

theorem TableDifference.findings_eq_nil_iff {d : TableDifference} {name : String}
    (h : ∀ e ∈ d.records, e.2 ≠ []) : d.findings name = [] ↔ d.isEmpty = true := by
  have hrecords : (d.records.flatMap fun (id, ds) => ds.map (Finding.field name id)) = [] ↔ d.records = [] :=
    flatMap_eq_nil_iff_of_ne_nil fun e he hnil => h e he (List.map_eq_nil_iff.1 hnil)
  unfold findings isEmpty
  rw [List.append_eq_nil_iff, List.append_eq_nil_iff, hrecords]
  simp

/-- Without empty entries a report is without findings only if it is empty. -/
theorem StoreDifference.Concise.findings_eq_nil_iff {d : StoreDifference} (h : d.Concise) :
    d.findings = [] ↔ d.isIdentical = true := by
  have htables : (d.tables.flatMap fun (name, t) => t.findings name) = [] ↔ d.tables = [] := by
    apply flatMap_eq_nil_iff_of_ne_nil
    intro e he hnil
    have hempty := (TableDifference.findings_eq_nil_iff (h.records e he).2).1 hnil
    rw [h.filled e he] at hempty
    cases hempty
  unfold findings isIdentical
  rw [List.append_eq_nil_iff, List.append_eq_nil_iff, htables]
  simp

theorem TableDifference.isEmpty_eq_false_of_mem {d : TableDifference} {id : String}
    (h : id ∈ d.onlyLeft ∨ id ∈ d.onlyRight ∨ ∃ ds, (id, ds) ∈ d.records) : d.isEmpty = false := by
  unfold isEmpty
  rcases h with h | h | ⟨_, h⟩ <;> simp [List.isEmpty_eq_false_iff.2 (List.ne_nil_of_mem h)]

/-! ## Findings of a comparison -/

namespace Store

variable {agree : FieldValue → FieldValue → Bool} {l r : Store}

theorem mem_tables_differencesBy {name : String} {d : TableDifference} :
    (name, d) ∈ (l.differencesBy agree r).tables ↔
      ∃ t u, l.table? name = some t ∧ r.table? name = some u ∧ Table.differences agree t u = d ∧
        d.isEmpty = false := by
  rw [tables_differencesBy, OrderedMap.mem_shared_iff]
  simp only [Bool.not_eq_true']
  rfl

theorem concise_differencesBy (agree : FieldValue → FieldValue → Bool) (l r : Store) :
    (l.differencesBy agree r).Concise where
  tables := by
    rw [tables_differencesBy]
    exact OrderedMap.nodup_shared _ _ l r
  filled := by
    rintro ⟨name, d⟩ h
    obtain ⟨t, u, -, -, -, hd⟩ := mem_tables_differencesBy.1 h
    exact hd
  records := by
    rintro ⟨name, d⟩ h
    obtain ⟨t, u, -, -, rfl, -⟩ := mem_tables_differencesBy.1 h
    dsimp only
    rw [Table.records_differences]
    refine ⟨OrderedMap.nodup_shared _ _ t u, ?_⟩
    rintro ⟨id, ds⟩ hds
    obtain ⟨a, b, -, -, -, hne⟩ := OrderedMap.mem_shared_iff.1 hds
    simpa using hne

theorem nodup_findings (agree : FieldValue → FieldValue → Bool) (l r : Store) :
    (l.differencesBy agree r).findings.Nodup := by
  refine StoreDifference.nodup_findings (OrderedMap.nodup_keysMissingIn l r)
    (OrderedMap.nodup_keysMissingIn r l) (concise_differencesBy agree l r).tables ?_
  rintro ⟨name, d⟩ h
  obtain ⟨t, u, -, -, rfl, -⟩ := mem_tables_differencesBy.1 h
  refine TableDifference.nodup_findings name (OrderedMap.nodup_keysMissingIn t u)
    (OrderedMap.nodup_keysMissingIn u t) ((concise_differencesBy agree l r).records _ h).1 ?_
  rintro ⟨id, ds⟩ hds
  rw [Table.records_differences, OrderedMap.mem_shared_iff] at hds
  obtain ⟨a, b, -, -, rfl, -⟩ := hds
  exact Record.nodup_differences agree a b

/-- A comparison reports what the stores differ in, and nothing else. -/
theorem mem_findings_iff {x : Finding} :
    x ∈ (l.differencesBy agree r).findings ↔ x.Holds agree l r := by
  cases x with
  | tableLeft name =>
    rw [StoreDifference.mem_findings_tableLeft]
    exact OrderedMap.mem_keysMissingIn
  | tableRight name =>
    rw [StoreDifference.mem_findings_tableRight]
    exact OrderedMap.mem_keysMissingIn
  | recordLeft name id =>
    rw [StoreDifference.mem_findings_recordLeft]
    constructor
    · rintro ⟨d, hd, hid⟩
      obtain ⟨t, u, ht, hu, rfl, -⟩ := mem_tables_differencesBy.1 hd
      exact ⟨t, u, ht, hu, OrderedMap.mem_keysMissingIn.1 hid⟩
    · rintro ⟨t, u, ht, hu, hid⟩
      have hid := OrderedMap.mem_keysMissingIn.2 hid
      have hdiffers : (Table.differences agree t u).isEmpty = false :=
        TableDifference.isEmpty_eq_false_of_mem (.inl hid)
      exact ⟨_, mem_tables_differencesBy.2 ⟨t, u, ht, hu, rfl, hdiffers⟩, hid⟩
  | recordRight name id =>
    rw [StoreDifference.mem_findings_recordRight]
    constructor
    · rintro ⟨d, hd, hid⟩
      obtain ⟨t, u, ht, hu, rfl, -⟩ := mem_tables_differencesBy.1 hd
      exact ⟨t, u, ht, hu, OrderedMap.mem_keysMissingIn.1 hid⟩
    · rintro ⟨t, u, ht, hu, hid⟩
      have hid := OrderedMap.mem_keysMissingIn.2 hid
      exact ⟨_, mem_tables_differencesBy.2 ⟨t, u, ht, hu, rfl,
        TableDifference.isEmpty_eq_false_of_mem (.inr (.inl hid))⟩, hid⟩
  | field name id f =>
    rw [StoreDifference.mem_findings_field]
    constructor
    · rintro ⟨d, hd, ds, hds, hf⟩
      obtain ⟨t, u, ht, hu, rfl, -⟩ := mem_tables_differencesBy.1 hd
      rw [Table.records_differences, OrderedMap.mem_shared_iff] at hds
      obtain ⟨a, b, ha, hb, rfl, -⟩ := hds
      exact ⟨a, b, record?_eq_some_iff.2 ⟨t, ht, ha⟩, record?_eq_some_iff.2 ⟨u, hu, hb⟩,
        Record.mem_differences_iff.1 hf⟩
    · rintro ⟨a, b, ha, hb, hf⟩
      obtain ⟨t, ht, ha⟩ := record?_eq_some_iff.1 ha
      obtain ⟨u, hu, hb⟩ := record?_eq_some_iff.1 hb
      have hf := Record.mem_differences_iff.2 hf
      have hds : (id, Record.differences agree a b) ∈ (Table.differences agree t u).records := by
        rw [Table.records_differences, OrderedMap.mem_shared_iff]
        exact ⟨a, b, ha, hb, rfl, by simpa using List.ne_nil_of_mem hf⟩
      exact ⟨_, mem_tables_differencesBy.2 ⟨t, u, ht, hu, rfl,
        TableDifference.isEmpty_eq_false_of_mem (.inr (.inr ⟨_, hds⟩))⟩, _, hds, hf⟩

/-! ## The order of entries -/

theorem Alike.symm {l' : Store} (h : l.Alike (· = ·) l') : l'.Alike (· = ·) l :=
  OrderedMap.Alike.symm (fun _ _ ht => ht.symm fun _ _ ha => ha.symm fun _ _ => Eq.symm) h

theorem Alike.exists_of_record? {l' : Store} (h : l.Alike (· = ·) l') {name id : String} {a : Record}
    (ha : l.record? name id = some a) :
    ∃ a', l'.record? name id = some a' ∧ ∀ field, a.get? field = a'.get? field := by
  obtain ⟨t, ht, ha⟩ := record?_eq_some_iff.1 ha
  obtain ⟨t', ht', htt'⟩ := OrderedMap.Alike.exists_of_get? h ht
  obtain ⟨a', ha', haa'⟩ := htt'.exists_of_get? ha
  exact ⟨a', record?_eq_some_iff.2 ⟨t', ht', ha'⟩, haa'.get?_eq⟩

theorem Alike.holds {l' r' : Store} (hl : l.Alike (· = ·) l') (hr : r.Alike (· = ·) r') {x : Finding}
    (h : x.Holds agree l r) : x.Holds agree l' r' := by
  cases x with
  | tableLeft name =>
    obtain ⟨hmem, hno⟩ := h
    exact ⟨(OrderedMap.Alike.mem_keys_iff hl name).1 hmem, mt (OrderedMap.Alike.mem_keys_iff hr name).2 hno⟩
  | tableRight name =>
    obtain ⟨hmem, hno⟩ := h
    exact ⟨(OrderedMap.Alike.mem_keys_iff hr name).1 hmem, mt (OrderedMap.Alike.mem_keys_iff hl name).2 hno⟩
  | recordLeft name id =>
    obtain ⟨t, u, ht, hu, hmem, hno⟩ := h
    obtain ⟨t', ht', htt'⟩ := OrderedMap.Alike.exists_of_get? hl ht
    obtain ⟨u', hu', huu'⟩ := OrderedMap.Alike.exists_of_get? hr hu
    exact ⟨t', u', ht', hu', (htt'.mem_keys_iff id).1 hmem, mt (huu'.mem_keys_iff id).2 hno⟩
  | recordRight name id =>
    obtain ⟨t, u, ht, hu, hmem, hno⟩ := h
    obtain ⟨t', ht', htt'⟩ := OrderedMap.Alike.exists_of_get? hl ht
    obtain ⟨u', hu', huu'⟩ := OrderedMap.Alike.exists_of_get? hr hu
    exact ⟨t', u', ht', hu', (huu'.mem_keys_iff id).1 hmem, mt (htt'.mem_keys_iff id).2 hno⟩
  | field name id f =>
    obtain ⟨a, b, ha, hb, hleft, hright, hd⟩ := h
    obtain ⟨a', ha', haa'⟩ := hl.exists_of_record? ha
    obtain ⟨b', hb', hbb'⟩ := hr.exists_of_record? hb
    exact ⟨a', b', ha', hb', (haa' _).symm.trans hleft, (hbb' _).symm.trans hright, hd⟩

/--
A comparison reports exactly what two stores differ in. It lists a table, or a record of a table that both
have, if it is there on one side only, and a field of a record that both have, with the two values, if it
is missing on one side or the values do not agree; all of this once, on a line each. The stores are
identical if nothing is listed, which is if they have the same tables, ids and fields and agree in all
values. In what order tables, records and fields stand makes no difference to what is listed.
-/
theorem differencesBy_exact (agree : FieldValue → FieldValue → Bool) (l r : Store) :
    let d := l.differencesBy agree r
    d.Concise ∧ d.findings.Nodup ∧ (∀ x, x ∈ d.findings ↔ x.Holds agree l r) ∧
      d.lines = d.findings.map Finding.line ∧ (d.isIdentical = true ↔ d.lines = []) ∧
      (d.isIdentical = true ↔ l.Alike (fun v w => agree v w = true) r) ∧
      ∀ l' r' : Store, l.Alike (· = ·) l' → r.Alike (· = ·) r' →
        d.findings.Perm (l'.differencesBy agree r').findings := by
  intro d
  have hconcise := concise_differencesBy agree l r
  refine ⟨hconcise, nodup_findings agree l r, fun x => mem_findings_iff, d.lines_eq, ?_,
    isIdentical_differencesBy_iff, ?_⟩
  · rw [d.lines_eq, List.map_eq_nil_iff]
    exact hconcise.findings_eq_nil_iff.symm
  · intro l' r' hl hr
    rw [List.perm_ext_iff_of_nodup (nodup_findings agree l r) (nodup_findings agree l' r')]
    intro x
    rw [mem_findings_iff, mem_findings_iff]
    constructor
    · exact hl.holds hr
    · exact hl.symm.holds hr.symm

/-- Two tables, the second with a record whose fields are numerals and names. -/
def weighed : Store :=
  .ofList [
    ("protocol", .ofList [("P1", .ofList [("id", .scalar "P1")])]),
    ("sample", .ofList [
      ("S1", .ofList [("id", .scalar "S1"), ("weight", .scalar "1.50"), ("color", .scalar "red")]),
      ("S2", .ofList [("id", .scalar "S2")])])]

/-- The same with tables, records and fields the other way round. -/
def weighedBack : Store :=
  .ofList [
    ("sample", .ofList [
      ("S2", .ofList [("id", .scalar "S2")]),
      ("S1", .ofList [("color", .scalar "red"), ("weight", .scalar "1.50"), ("id", .scalar "S1")])]),
    ("protocol", .ofList [("P1", .ofList [("id", .scalar "P1")])])]

/-- One of the two tables, with another colour, a further field and another record. -/
def reweighed : Store :=
  .ofList [("sample", .ofList [
    ("S1", .ofList [("id", .scalar "S1"), ("weight", .scalar "1.5"), ("color", .scalar "blue"),
      ("extra", .scalar "e")]),
    ("S3", .ofList [("id", .scalar "S3")])])]

theorem differencesBy_exact_reordered :
    weighed.Alike (· = ·) weighedBack ∧ reweighed.Alike (· = ·) reweighed ∧
      (weighed.differences reweighed).lines = [
        "Table 'protocol' only in the first store", "sample['S2'] only in the first store",
        "sample['S3'] only in the second store", "sample['S1'].color: 'red' != 'blue'",
        "sample['S1'].extra: <missing> != 'e'"] ∧
      (weighed.differences reweighed).findings.Perm (weighedBack.differences reweighed).findings := by
  have hl : weighed.Alike (· = ·) weighedBack := by decide
  have hr : reweighed.Alike (· = ·) reweighed := by decide
  have hexact := differencesBy_exact FieldValue.agrees weighed reweighed
  exact ⟨hl, hr, by decide +kernel, hexact.2.2.2.2.2.2 weighedBack reweighed hl hr⟩

end Store
end TagHarvest
