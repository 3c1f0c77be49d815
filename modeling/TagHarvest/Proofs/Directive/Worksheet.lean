/-
What a worksheet of directives says. Each filled cell in a column of operations asks for one change, and a
data row puts the edits of its cells under its label. Both are put in by insertion: among the columns of an
operation on one field the last that is filled tells, and among the rows of one label the last tells, which
replaces the edits of earlier ones as a whole. So a row keeps the edits that the last row of its label
repeats, and a row that is the last of its label keeps them all, unless one of its columns comes twice.
-/
import TagHarvest.Directive.Worksheet
import TagHarvest.Proofs.Conversion.Fault

namespace TagHarvest

/-! ## Changes -/

/-- What an edit does to its target. -/
inductive Change where
  | value (v : FieldValue)
  | pair (texts : List String)
  | drop
  | name (new : String)
  deriving DecidableEq

/-- The change that a cell asks for, if it is one. -/
def Operation.ask? (op : Operation) (target cell : String) (here : Location) : Option Change :=
  match op with
  | .assign | .append | .prepend => some (.value (.scalar cell))
  | .regex => (readPair cell target here).toOption.map .pair
  | .delete => if isTruthy cell then some .drop else none
  | .rename => some (.name cell)

namespace Edits

/-- The change of a field by an operation. -/
def change? (e : Edits) (op : Operation) (target : String) : Option Change :=
  match op with
  | .assign => (e.assign.get? target).map .value
  | .append => (e.append.get? target).map .value
  | .prepend => (e.prepend.get? target).map .value
  | .regex => (e.regex.get? target).map .pair
  | .delete => if target ∈ e.delete then some .drop else none
  | .rename => (e.rename.get? target).map .name

variable {e e' : Edits} {op : Operation} {target cell : String} {here : Location}

theorem change?_required (b : Bool) : change? { required := b } op target = none := by
  cases op <;> rfl

/-- A cell replaces the change of its operation and target, and no other. -/
theorem change?_addCell (h : e.addCell op target cell here = .ok e') (op' : Operation) (target' : String) :
    e'.change? op' target' =
      if op = op' ∧ target = target' then (op.ask? target cell here).or (e.change? op' target')
      else e.change? op' target' := by
  unfold addCell at h
  cases op with
  | assign | append | prepend | rename =>
    cases h
    cases op' <;> simp [change?, Operation.ask?, OrderedMap.get?_insert, apply_ite (Option.map _)]
  | regex =>
    obtain ⟨pair, hpair, h⟩ := except_bind_eq_ok h
    cases h
    cases op' <;>
      simp [change?, Operation.ask?, hpair, Except.toOption, OrderedMap.get?_insert, apply_ite (Option.map _)]
  | delete =>
    obtain rfl := Except.ok.inj h
    cases hyes : isTruthy cell with
    | false => simp [Operation.ask?, hyes]
    | true =>
      cases op' with
      | delete =>
        by_cases htarget : target = target'
        · simp [change?, Operation.ask?, hyes, htarget]
        · simp [change?, htarget, Ne.symm htarget]
      | assign | append | prepend | regex | rename => simp [change?]

end Edits

/-! ## Rows -/

namespace OperationColumn

variable (place : Nat → Location) (row : Row)

/-- The change that the cell of a row asks for; a blank cell asks for none. -/
def asked? (c : OperationColumn) : Option Change :=
  let cell := Text.trim (row.cell c.column)
  if cell.isEmpty then none else c.operation.ask? c.target cell (place c.column)

/-- True of a column whose cell is not blank in a row; a deletion must say yes. -/
def Filled (c : OperationColumn) : Prop :=
  Text.trim (row.cell c.column) ≠ "" ∧
    (c.operation = .delete → isTruthy (Text.trim (row.cell c.column)) = true)

/-- The changes that a row asks for in the columns of an operation on a target. -/
def asks (columns : List OperationColumn) (op : Operation) (target : String) : List Change :=
  (columns.filter fun c => c.operation = op ∧ c.target = target).filterMap (asked? place row)

variable {place row} {c : OperationColumn} {columns : List OperationColumn} {op : Operation}
  {target : String}

theorem asks_append (columns columns' : List OperationColumn) :
    asks place row (columns ++ columns') op target =
      asks place row columns op target ++ asks place row columns' op target := by
  unfold asks
  rw [List.filter_append, List.filterMap_append]

theorem asks_singleton :
    asks place row [c] op target =
      if c.operation = op ∧ c.target = target then (c.asked? place row).toList else [] := by
  unfold asks
  split_ifs with h
  · rw [List.filter_cons_of_pos (by simpa using h), List.filter_nil]
    cases hc : c.asked? place row <;> simp [hc]
  · rw [List.filter_cons_of_neg (by simpa using h)]
    rfl

end OperationColumn

namespace BlockHeader

variable {h : BlockHeader} {place : Nat → Location} {row : Row} {e : Edits}

/-- The edits of a row with those of one column added. -/
def addColumn (place : Nat → Location) (row : Row) (e : Edits) (c : OperationColumn) :
    Except DirectiveError Edits :=
  let cell := Text.trim (row.cell c.column)
  if cell.isEmpty then .ok e else e.addCell c.operation c.target cell (place c.column)

theorem change?_of_addColumn {e e' : Edits} {c : OperationColumn} (h : addColumn place row e c = .ok e')
    (op : Operation) (target : String) :
    e'.change? op target =
      (OperationColumn.asks place row [c] op target).getLast?.or (e.change? op target) := by
  unfold addColumn at h
  rw [OperationColumn.asks_singleton]
  unfold OperationColumn.asked?
  dsimp only at h ⊢
  split at h
  · rename_i hblank
    cases h
    simp [hblank]
  · rename_i hfilled
    rw [Edits.change?_addCell h, if_neg hfilled]
    split_ifs
    · cases c.operation.ask? c.target (Text.trim (row.cell c.column)) (place c.column) <;> rfl
    · rfl

theorem change?_of_columns {columns : List OperationColumn} {e e' : Edits}
    (h : columns.foldlM (addColumn place row) e = .ok e') (op : Operation) (target : String) :
    e'.change? op target =
      (OperationColumn.asks place row columns op target).getLast?.or (e.change? op target) := by
  induction columns generalizing e with
  | nil =>
    cases h
    rfl
  | cons c columns ih =>
    rw [List.foldlM_cons] at h
    obtain ⟨e₁, hc, h⟩ := except_bind_eq_ok h
    rw [ih h, change?_of_addColumn hc, ← Option.or_assoc, ← List.getLast?_append,
      ← OperationColumn.asks_append, List.singleton_append]

/-- The edits of a row have the change that the last column of an operation and target asks for. -/
theorem change?_of_editsOf (he : h.editsOf place row = .ok e) (op : Operation) (target : String) :
    e.change? op target = (OperationColumn.asks place row h.operations op target).getLast? := by
  have hfold : h.operations.foldlM (addColumn place row) { required := isYes h.required row } = .ok e := he
  rw [change?_of_columns hfold, Edits.change?_required, Option.or_none]

/-- In a row that has edits each filled cell asks for one. -/
theorem isSome_asked? (he : h.editsOf place row = .ok e) {c : OperationColumn} (hc : c ∈ h.operations)
    (hfilled : c.Filled row) : (c.asked? place row).isSome := by
  obtain ⟨e₀, e₁, hstep⟩ := exists_step_of_foldlM (f := addColumn place row) he hc
  obtain ⟨hcell, hyes⟩ := hfilled
  unfold addColumn at hstep
  unfold OperationColumn.asked?
  dsimp only at hstep ⊢
  rw [if_neg (by simpa using hcell)] at hstep ⊢
  cases hop : c.operation with
  | assign | append | prepend | rename => rfl
  | regex =>
    rw [hop] at hstep
    obtain ⟨pair, hpair, -⟩ := except_bind_eq_ok hstep
    simp [Operation.ask?, hpair, Except.toOption]
  | delete => simp [Operation.ask?, hyes hop]

/-- The way in which a row compares its key, if its cell names one. -/
def comparison? (h : BlockHeader) (row : Row) : Option Comparison :=
  (MatchKind.ofCell? ((h.comparison.map row.cell).getD "")).map (⟨·, isYes h.unique row⟩)

theorem comparison?_of_comparisonOf {c : Comparison} (hc : h.comparisonOf place row = .ok c) :
    h.comparison? row = some c := by
  unfold comparisonOf at hc
  unfold comparison?
  dsimp only at hc
  split at hc
  · rename_i kind hkind
    cases hc
    rw [hkind]
    rfl
  · cases hc

end BlockHeader

/-! ## Worksheets -/

/-- A row with a key, and the header that is in force for it. -/
structure DataRow where
  /-- The place of the row's first cell. -/
  start : Location
  header : BlockHeader
  row : Row
  deriving DecidableEq

namespace DataRow

/-- The place of a cell of the row. -/
def place (r : DataRow) (column : Nat) : Location := { r.start with column }

/-- The text that the row's directive compares with. -/
def key (r : DataRow) : String := Text.trim (r.row.cell r.header.key.column)

/-- Where the row's directive stands. -/
def label? (r : DataRow) : Option DirectiveLabel :=
  (r.header.comparison? r.row).map (⟨r.header.key.table, r.header.key.field, r.key⟩, ·)

/-- The changes that the row asks for by an operation on a field. -/
def asks (r : DataRow) (op : Operation) (target : String) : List Change :=
  OperationColumn.asks r.place r.row r.header.operations op target

/-- The rows with keys of a worksheet from an index on, under the header in force. -/
def under (sheet : Worksheet) : (index : Nat) → List Row → Option BlockHeader → List DataRow
  | _, [], _ => []
  | index, row :: rest, header =>
    if row.isTags then under sheet (index + 1) rest (BlockHeader.compile (sheet.location index) row).toOption
    else if row.isIgnore then under sheet (index + 1) rest header
    else if row.isBlank then under sheet (index + 1) rest none
    else match header with
    | none => under sheet (index + 1) rest none
    | some h =>
      let r : DataRow := ⟨sheet.location index 0, h, row⟩
      if r.key = "" then under sheet (index + 1) rest header
      else r :: under sheet (index + 1) rest header

/-- The row gives a directive. -/
structure Gives (r : DataRow) (x : PlacedEdits) : Prop where
  label : r.label? = some x.label
  edits : r.header.editsOf r.place r.row = .ok x.edits

end DataRow

/-- The edits of a field under a comparison and a key. -/
def FieldDirectives.edits? (d : FieldDirectives) (c : Comparison) (key : String) : Option Edits :=
  (d.get? c).bind (OrderedMap.get? · key)

/-- The edits of a table under a field, a comparison and a key. -/
def TableDirectives.edits? (d : TableDirectives) (field : String) (c : Comparison) (key : String) :
    Option Edits :=
  (d.get? field).bind (FieldDirectives.edits? · c key)

/-- A level of a document, read below a key after the level at a key has changed. -/
theorem OrderedMap.bind_get?_alter {α β γ δ : Type} [DecidableEq α] {g : OrderedMap β γ → Option δ} {v : δ}
    {P : Prop} [Decidable P] {f : OrderedMap β γ → OrderedMap β γ} (hempty : g .empty = none)
    (hf : ∀ n, g (f n) = if P then some v else g n) (m : OrderedMap α (OrderedMap β γ)) (k k' : α) :
    ((m.alter k fun old => f (old.getD .empty)).get? k').bind g =
      if k = k' ∧ P then some v else (m.get? k').bind g := by
  rw [get?_alter]
  by_cases hk : k = k'
  · subst hk
    rw [if_pos rfl, Option.bind_some, hf]
    cases m.get? k with
    | none => simp [hempty]
    | some n => simp
  · simp [hk]

namespace ConversionDirectives

/-- The edits under a label. -/
def edits? (d : ConversionDirectives) (l : DirectiveLabel) : Option Edits :=
  (d.get? l.1.table).bind (TableDirectives.edits? · l.1.field l.2 l.1.key)

/-- Puts a directive under its label. -/
def putPlaced (d : ConversionDirectives) (x : PlacedEdits) : ConversionDirectives :=
  d.put x.place.table x.place.field x.comparison x.place.key x.edits

theorem edits?_putPlaced (d : ConversionDirectives) (x : PlacedEdits) (l : DirectiveLabel) :
    (d.putPlaced x).edits? l = if x.label = l then some x.edits else d.edits? l := by
  obtain ⟨⟨table, field, key⟩, c⟩ := l
  obtain ⟨⟨table', field', key'⟩, c', e⟩ := x
  have hkeys (d : KeyedEdits) : (d.insert key' e).get? key = if key' = key then some e else d.get? key :=
    OrderedMap.get?_insert ..
  have hfield (d : FieldDirectives) := 
    OrderedMap.bind_get?_alter (g := fun d => d.get? key) (f := fun d => d.insert key' e) rfl hkeys d c' c
  have htable (d : TableDirectives) :=
    OrderedMap.bind_get?_alter (g := (FieldDirectives.edits? · c key)) rfl hfield d field' field
  have hdocument :=
    OrderedMap.bind_get?_alter (g := (TableDirectives.edits? · field c key)) rfl htable d table' table
  refine hdocument.trans (if_congr ?_ rfl rfl)
  simp [PlacedEdits.label, and_assoc, and_comm]

variable {sheet : Worksheet} {d d' : ConversionDirectives}

/-- Under a label is what the last row of that label gives, or what was there before. -/
theorem edits?_foldl_putPlaced {rs : List DataRow} {xs : List PlacedEdits}
    (h : List.Forall₂ DataRow.Gives rs xs) (d : ConversionDirectives) (l : DirectiveLabel) :
    (∃ last e, (rs.filter (·.label? = some l)).getLast? = some last ∧
        last.header.editsOf last.place last.row = .ok e ∧ (xs.foldl putPlaced d).edits? l = some e) ∨
      (rs.filter (·.label? = some l)).getLast? = none ∧ (xs.foldl putPlaced d).edits? l = d.edits? l := by
  induction h generalizing d with
  | nil => exact .inr ⟨rfl, rfl⟩
  | @cons r x rs xs hgives _ ih =>
    have hlabel : r.label? = some l ↔ x.label = l := by rw [hgives.label, Option.some_inj]
    rw [List.foldl_cons]
    rcases ih (d.putPlaced x) with ⟨last, e, hlast, he, hfound⟩ | ⟨hnone, hsame⟩
    · refine .inl ⟨last, e, ?_, he, hfound⟩
      rw [List.filter_cons]
      split
      · rw [List.getLast?_cons, hlast]
        rfl
      · exact hlast
    · rw [hsame, edits?_putPlaced, List.filter_cons]
      by_cases hx : x.label = l
      · refine .inl ⟨r, x.edits, ?_, hgives.edits, if_pos hx⟩
        rw [if_pos (by simpa using hlabel.2 hx), List.getLast?_cons, hnone]
        rfl
      · exact .inr ⟨by rwa [if_neg (by simpa using mt hlabel.1 hx)], if_neg hx⟩

/-- The directive of a data row is put under its label. -/
theorem gives_of_addRow {r : DataRow} (hkey : r.key ≠ "") (hrow : r.header.addRow r.place r.row d = .ok d') :
    ∃ x, r.Gives x ∧ d' = d.putPlaced x := by
  unfold BlockHeader.addRow at hrow
  dsimp only at hrow
  rw [if_neg (by simpa [DataRow.key] using hkey)] at hrow
  obtain ⟨c, hc, hrow⟩ := except_bind_eq_ok hrow
  obtain ⟨e, he, hrow⟩ := except_bind_eq_ok hrow
  cases hrow
  refine ⟨⟨⟨r.header.key.table, r.header.key.field, r.key⟩, c, e⟩, ⟨?_, he⟩, rfl⟩
  unfold DataRow.label?
  rw [BlockHeader.comparison?_of_comparisonOf hc]
  rfl

/-- A worksheet puts the directives of its data rows under their labels, one after the other. -/
theorem gives_of_ofRows {index : Nat} {rows : List Row} {header : Option BlockHeader}
    (h : ofRows sheet index rows header d = .ok d') :
    ∃ xs, List.Forall₂ DataRow.Gives (DataRow.under sheet index rows header) xs ∧
      d' = xs.foldl putPlaced d := by
  induction rows generalizing index header d with
  | nil =>
    cases h
    exact ⟨[], .nil, rfl⟩
  | cons row rows ih =>
    unfold ofRows at h
    unfold DataRow.under
    split_ifs at h with htags hignore hblank
    · rw [if_pos htags]
      cases hheader : BlockHeader.compile (sheet.location index) row with
      | ok b =>
        rw [hheader] at h
        exact ih h
      | error e =>
        rw [hheader] at h
        cases h
    · rw [if_neg htags, if_pos hignore]
      exact ih h
    · rw [if_neg htags, if_neg hignore, if_pos hblank]
      exact ih h
    · rw [if_neg htags, if_neg hignore, if_neg hblank]
      cases header with
      | none => exact ih h
      | some b =>
        obtain ⟨d₁, hrow, h⟩ := except_bind_eq_ok h
        obtain ⟨xs, hxs, rfl⟩ := ih h
        dsimp only
        split_ifs with hkey
        · refine ⟨xs, hxs, ?_⟩
          unfold BlockHeader.addRow at hrow
          dsimp only at hrow
          rw [if_pos (by simpa [DataRow.key] using hkey)] at hrow
          cases hrow
          rfl
        · obtain ⟨x, hx, rfl⟩ := gives_of_addRow (r := ⟨sheet.location index 0, b, row⟩) hkey hrow
          exact ⟨x :: xs, .cons hx hxs, rfl⟩

end ConversionDirectives

namespace DataRow

/-- The edits have the change of each filled cell of the row. -/
def Kept (r : DataRow) (e : Edits) : Prop :=
  ∀ c ∈ r.header.operations, c.Filled r.row →
    ∃ change, c.asked? r.place r.row = some change ∧ e.change? c.operation c.target = some change

variable {r last : DataRow} {e e' : Edits}

theorem kept_iff (he : r.header.editsOf r.place r.row = .ok e)
    (hlast : last.header.editsOf last.place last.row = .ok e') :
    r.Kept e' ↔ ∀ c ∈ r.header.operations, c.Filled r.row →
      (last.asks c.operation c.target).getLast? = c.asked? r.place r.row := by
  refine forall₂_congr fun c hc => forall_congr' fun hfilled => ?_
  obtain ⟨change, hchange⟩ := Option.isSome_iff_exists.1 (BlockHeader.isSome_asked? he hc hfilled)
  rw [hchange, BlockHeader.change?_of_editsOf hlast]
  simp [asks]

/-- A row keeps its own edits unless a column of it comes twice. -/
theorem kept_self (he : r.header.editsOf r.place r.row = .ok e)
    (hcolumns : (r.header.operations.map fun c => (c.operation, c.target)).Nodup) : r.Kept e := by
  rw [kept_iff he he]
  intro c hc hfilled
  obtain ⟨change, hchange⟩ := Option.isSome_iff_exists.1 (BlockHeader.isSome_asked? he hc hfilled)
  have hmem : change ∈ r.asks c.operation c.target :=
    List.mem_filterMap.2 ⟨c, List.mem_filter.2 ⟨hc, by simp⟩, hchange⟩
  have hall : ∀ other ∈ r.asks c.operation c.target, other = change := by
    intro other hother
    obtain ⟨c', hc', hask⟩ := List.mem_filterMap.1 hother
    obtain ⟨hc', hsame⟩ := List.mem_filter.1 hc'
    have heq : c' = c := List.inj_on_of_nodup_map hcolumns hc' hc (by simpa using hsame)
    rw [heq, hchange] at hask
    exact (Option.some.inj hask).symm
  cases hgot : (r.asks c.operation c.target).getLast? with
  | none =>
    rw [List.getLast?_eq_none_iff.1 hgot] at hmem
    cases hmem
  | some other => rw [hchange, hall other (List.mem_of_getLast? hgot)]

end DataRow

/-- The data rows of a worksheet. -/
def Worksheet.dataRows (sheet : Worksheet) : List DataRow := DataRow.under sheet 0 sheet.rows none

/--
The directive of a data row has the edits of the last data row with its label, and of these the changes of
the last columns. So the row's edits are kept if the last row asks for them too; and the last row's own are
kept if no operation on a field has two columns.
-/
theorem ConversionDirectives.edits?_of_dataRow {sheet : Worksheet} {d : ConversionDirectives}
    (h : ofWorksheet sheet = .ok d) {r : DataRow} (hr : r ∈ sheet.dataRows) :
    ∃ l last e, r.label? = some l ∧ d.edits? l = some e ∧
      (sheet.dataRows.filter (·.label? = some l)).getLast? = some last ∧
      (∀ op target, e.change? op target = (last.asks op target).getLast?) ∧
      (r.Kept e ↔ ∀ c ∈ r.header.operations, c.Filled r.row →
        (last.asks c.operation c.target).getLast? = c.asked? r.place r.row) ∧
      ((last.header.operations.map fun c => (c.operation, c.target)).Nodup → last.Kept e) := by
  obtain ⟨xs, hxs, rfl⟩ := gives_of_ofRows h
  obtain ⟨x, -, hx⟩ := exists_of_mem_forall₂ hxs.flip hr
  rcases edits?_foldl_putPlaced hxs .empty x.label with ⟨last, e, hlast, he, hfound⟩ | ⟨hnone, -⟩
  · exact ⟨x.label, last, e, hx.label, hfound, hlast, BlockHeader.change?_of_editsOf he,
      DataRow.kept_iff hx.edits he, DataRow.kept_self he⟩
  · have hmem : r ∈ sheet.dataRows.filter (·.label? = some x.label) :=
      List.mem_filter.2 ⟨hr, by simpa using hx.label⟩
    rw [show sheet.dataRows.filter _ = [] from List.getLast?_eq_none_iff.1 hnone] at hmem
    cases hmem

/-- Two rows with one key: the second has the directive, and the first has lost its assignment. -/
theorem ConversionDirectives.edits?_of_dataRow_replaced :
    let sheet : Worksheet := ⟨"edits.csv", "edits", [["#tags", "#sample.name.value", "#sample.id.assign",
      "#sample.notes.append"], ["", "a", "X", ""], ["", "a", "", "n"]]⟩
    ∃ first second, sheet.dataRows = [first, second] ∧
      ∃ d e, ofWorksheet sheet = .ok d ∧ d.edits? (⟨"sample", "name", "a"⟩, ⟨.exact, false⟩) = some e ∧
        ¬ first.Kept e ∧ second.Kept e := by
  intro sheet
  let header : BlockHeader :=
    ⟨⟨"sample", "name", 1⟩, [⟨2, "id", .assign⟩, ⟨3, "notes", .append⟩], none, none, none⟩
  let first : DataRow := ⟨sheet.location 1 0, header, ["", "a", "X", ""]⟩
  let second : DataRow := ⟨sheet.location 2 0, header, ["", "a", "", "n"]⟩
  let d : ConversionDirectives := .single "sample" (.single "name" (.single ⟨.exact, false⟩
    (.single "a" { append := .single "notes" (.scalar "n") })))
  have hrows : sheet.dataRows = [first, second] := by decide +kernel
  have h : ofWorksheet sheet = .ok d := by decide +kernel
  obtain ⟨l, last, e, hl, he, hlast, -, hkept, hself⟩ := edits?_of_dataRow h (r := first) (by simp [hrows])
  obtain rfl : (⟨"sample", "name", "a"⟩, ⟨.exact, false⟩) = l := by
    rw [← Option.some_inj, ← hl]
    decide
  obtain rfl : second = last := by
    rw [← Option.some_inj, ← hlast, hrows]
    decide
  refine ⟨first, second, hrows, d, e, h, he, fun hall => ?_, hself (by decide)⟩
  have hassign := hkept.1 hall ⟨2, "id", .assign⟩ (by decide) ⟨by decide, by decide⟩
  revert hassign
  decide

end TagHarvest
