/-
Records written as a worksheet and harvested again. `tabulate` writes a header with a column for each field
and below it a row for each record, where the fields that a record lacks are empty cells. Harvested into
the empty store, the rows give the records back in their order, each with its id first and its other fields
in the order of the columns.
-/
import TagHarvest.Proofs.Harvest.Reading
import TagHarvest.Proofs.Header.Columns
import TagHarvest.Proofs.Record.Gathering

namespace TagHarvest

/-! ## Writing -/

/-- The order in which the fields of a row are harvested. -/
def Column.order (columns : List Column) : List String :=
  idField :: (columns.map Column.name).filter (· ≠ idField)

namespace Record

/-- The record has an id, and a column of its kind and a value that a cell can hold for each field. -/
structure Fits (r : Record) (columns : List Column) : Prop where
  id : r.id?.isSome
  fields : ∀ e ∈ r.entries, ⟨e.1, e.2.isList⟩ ∈ columns ∧ e.2.Writable

instance (r : Record) (columns : List Column) : Decidable (r.Fits columns) :=
  decidable_of_iff (r.id?.isSome ∧ ∀ e ∈ r.entries, ⟨e.1, e.2.isList⟩ ∈ columns ∧ e.2.Writable)
    ⟨fun ⟨a, b⟩ => ⟨a, b⟩, fun ⟨a, b⟩ => ⟨a, b⟩⟩

/-- What a record has in a column; nothing if it lacks the field. -/
def cell (r : Record) (c : Column) : String :=
  match r.get? c.name with
  | some v => v.cellText
  | none => ""

/-- The row of a record, which has no marker. -/
def row (columns : List Column) (r : Record) : Row := "" :: columns.map r.cell

end Record

/-- Records of a table as a worksheet. -/
def tabulate (source name table : String) (columns : List Column) (records : List Record) : Worksheet where
  source
  name
  rows := ("#tags" :: columns.map (Column.tag table)) :: records.map (Record.row columns)

/-! ## Reading one row -/

variable {table : String} {columns : List Column} {r : Record}

theorem Column.Layout.nodup_order (h : Layout columns) : (order columns).Nodup :=
  List.nodup_cons.2 ⟨by simp, h.distinct.filter _⟩

namespace Record

/-- In its row, every recipe finds what the record has for the field. -/
theorem Fits.evaluate_row (hr : r.Fits columns) (hc : Column.Layout columns) {f : FieldRecipe}
    (hf : f ∈ Column.recipes 1 columns) : f.evaluate (r.row columns) = r.get? f.name := by
  obtain ⟨⟨c, i⟩, hp, rfl⟩ := List.mem_map.1 hf
  obtain ⟨hi, hci⟩ := List.mem_zipIdx_iff_le_and_getElem?_sub.1 hp
  dsimp only at hi hci
  have hcell : (r.row columns)[i]? = some (r.cell c) := by
    obtain ⟨j, rfl⟩ := Nat.exists_eq_add_of_le' hi
    show (columns.map r.cell)[j]? = _
    rw [List.getElem?_map]
    exact congrArg (Option.map r.cell) hci
  unfold cell at hcell
  show (c.recipe i).evaluate _ = r.get? c.name
  unfold Column.recipe
  cases hv : r.get? c.name with
  | none =>
    rw [hv] at hcell
    exact FieldRecipe.evaluate_empty hcell
  | some v =>
    rw [hv] at hcell
    obtain ⟨hcolumn, hwritable⟩ := hr.fields (c.name, v) (OrderedMap.get?_eq_some_iff.1 hv)
    -- the field's name tells its column, and so its kind
    have hsame : c = ⟨c.name, v.isList⟩ :=
      List.inj_on_of_nodup_map hc.distinct (List.mem_of_getElem? hci) hcolumn rfl
    have hlist : c.list = v.isList := congrArg Column.list hsame
    rw [hlist]
    exact FieldRecipe.evaluate_cellText hcell hwritable

theorem Fits.build_row (hr : r.Fits columns) (hc : Column.Layout columns) (table : String) :
    Harvest.build [Column.rowRecipe table columns] (r.row columns) =
      [(table, r.arrange (Column.order columns))] := by
  have hnames : (Column.rowRecipe table columns).fields.map FieldRecipe.name = columns.map Column.name :=
    Column.map_name_recipes
  have hbuild := RecordRecipe.build_eq_arrange (r := Column.rowRecipe table columns)
    (by rw [hnames]; exact hc.distinct)
    (by rw [hnames]; exact List.mem_map_of_mem (f := Column.name) hc.id) hr.id
    fun f hf => hr.evaluate_row hc hf
  rw [hnames] at hbuild
  unfold Harvest.build
  rw [List.filterMap_cons_some (by rw [hbuild]; rfl)]
  rfl

theorem isTags_row (r : Record) : (r.row columns).isTags = false := by
  show (Token.leadingBare "" == "#tags") = false
  decide

theorem isIgnore_row (r : Record) : (r.row columns).isIgnore = false := by
  show (Token.leadingBare "" == "#ignore") = false
  decide

/-- The id keeps a row from being blank. -/
theorem Fits.isBlank_row (hr : r.Fits columns) (hc : Column.Layout columns) :
    (r.row columns).isBlank = false := by
  obtain ⟨id, hid⟩ := Option.isSome_iff_exists.1 hr.id
  have hget := id?_eq_some_iff.1 hid
  have hcell : r.cell ⟨idField, false⟩ = id := by
    unfold cell
    rw [hget]
    rfl
  have hmem : id ∈ r.row columns :=
    List.mem_cons_of_mem _ (List.mem_map.2 ⟨_, hc.id, hcell⟩)
  have hwritable : Text.Trimmed id := (hr.fields _ (OrderedMap.get?_eq_some_iff.1 hget)).2
  unfold Row.isBlank
  rw [List.all_eq_false]
  exact ⟨id, hmem, by rw [hwritable.isBlankText]; exact Bool.false_ne_true⟩

end Record

/-! ## Reading all rows -/

namespace Harvest

variable {records : List Record}

theorem reading_rows (hc : Column.Layout columns) (hr : ∀ r ∈ records, r.Fits columns) (sheet : Worksheet)
    (index : Nat) (count : HarvestCount) :
    reading sheet index (records.map (Record.row columns)) (some [Column.rowRecipe table columns]) count =
      (.ok { count with rows := count.rows + records.length, records := count.records + records.length },
        records.map fun r => [(table, r.arrange (Column.order columns))]) := by
  induction records generalizing index count with
  | nil => rfl
  | cons r records ih =>
    obtain ⟨hfits, hrest⟩ := List.forall_mem_cons.1 hr
    have hbuild := hfits.build_row hc table
    have hstep : step (compileHeader sheet index) (r.row columns)
        (some [Column.rowRecipe table columns]) count =
        .ok (some [Column.rowRecipe table columns],
          { count with rows := count.rows + 1, records := count.records + 1 }) := by
      unfold step
      rw [r.isTags_row, r.isIgnore_row, hfits.isBlank_row hc]
      dsimp only
      rw [hbuild]
      rfl
    have hyield : yield (some [Column.rowRecipe table columns]) (r.row columns) =
        [(table, r.arrange (Column.order columns))] := by
      unfold yield
      rw [r.isTags_row, r.isIgnore_row, hfits.isBlank_row hc]
      exact hbuild
    rw [List.map_cons, reading, hstep]
    dsimp only
    rw [ih hrest, hyield, Nat.add_right_comm, Nat.add_right_comm count.records]
    rfl

/-- The header opens a block, in which every row gives its record. -/
theorem reading_tabulate (ht : TableSpelling table) (hc : Column.Layout columns)
    (hr : ∀ r ∈ records, r.Fits columns) (source name : String) :
    let sheet := tabulate source name table columns records
    reading sheet 0 sheet.rows none {} =
      (.ok ⟨1, records.length, records.length⟩,
        [] :: records.map fun r => [(table, r.arrange (Column.order columns))]) := by
  intro sheet
  have hcompile : compileHeader sheet 0 = .ok [Column.rowRecipe table columns] :=
    compileHeader_columns ht hc rfl
  have hmarker : Row.isTags ("#tags" :: columns.map (Column.tag table)) = true := by
    show (Token.leadingBare "#tags" == "#tags") = true
    decide
  have hstep : step (compileHeader sheet 0) ("#tags" :: columns.map (Column.tag table)) none {} =
      .ok (some [Column.rowRecipe table columns], ⟨1, 0, 0⟩) := by
    unfold step
    rw [hmarker, hcompile]
    rfl
  have hyield : yield none ("#tags" :: columns.map (Column.tag table)) = [] := by
    unfold yield
    rw [hmarker]
    rfl
  show reading sheet 0 (_ :: records.map (Record.row columns)) none {} = _
  rw [reading, hstep]
  dsimp only
  rw [reading_rows hc hr, hyield, Nat.zero_add]

end Harvest

/-! ## There and back -/

/-- The same fields with the same values, the id first and the others in the order of the columns. -/
structure Record.Rearranged (columns : List Column) (r r' : Record) : Prop where
  keys : r'.keys = idField :: (columns.map Column.name).filter fun name => name ≠ idField ∧ name ∈ r.keys
  values : ∀ field, r'.get? field = r.get? field

theorem Record.Rearranged.id?_eq {r' : Record} (h : r.Rearranged columns r') : r'.id? = r.id? :=
  congrArg (Option.bind · FieldValue.asScalar?) (h.values idField)

theorem Record.Fits.rearranged (hr : r.Fits columns) (hc : Column.Layout columns) :
    r.Rearranged columns (r.arrange (Column.order columns)) := by
  obtain ⟨id, hid⟩ := Option.isSome_iff_exists.1 hr.id
  have hfirst : idField ∈ r.keys := OrderedMap.mem_keys_of_get? (Record.id?_eq_some_iff.1 hid)
  refine ⟨?_, OrderedMap.get?_arrange hc.nodup_order fun field hfield => ?_⟩
  · rw [OrderedMap.keys_arrange hc.nodup_order]
    unfold Column.order
    rw [List.filter_cons_of_pos (by simpa using hfirst), List.filter_filter]
    simp [Bool.and_comm]
  · obtain ⟨e, he, rfl⟩ := List.mem_map.1 hfield
    have hcolumn : e.1 ∈ columns.map Column.name :=
      List.mem_map_of_mem (f := Column.name) (hr.fields e he).1
    unfold Column.order
    by_cases h : e.1 = idField
    · rw [h]
      exact List.mem_cons_self
    · exact List.mem_cons_of_mem _ (List.mem_filter.2 ⟨hcolumn, by simpa using h⟩)

/--
Records with different ids that fit columns which tags can spell come back from their worksheet: harvested
without propagation into the empty store, they are all that is in it, under the name of their table and in
their order, each with its id first and its other fields in the order of the columns.
-/
theorem Harvest.worksheet_tabulate (hierarchy : Hierarchy) (project study : Option String)
    (source name table : String) (columns : List Column) (records : List Record)
    (ht : TableSpelling table) (hc : Column.Layout columns) (hr : ∀ r ∈ records, r.Fits columns)
    (hd : (records.map Record.id?).Nodup) :
    let result := worksheet { hierarchy, propagate := false } ⟨.empty, project, study⟩
      (tabulate source name table columns records)
    result.1 = .ok ⟨1, records.length, records.length⟩ ∧
      ∃ t : Table, result.2.store = (if records = [] then .empty else .single table t) ∧
        List.Forall₂ (fun r e => r.id? = some e.1 ∧ r.Rearranged columns e.2) records t.entries := by
  intro result
  let arranged : Record → Record := fun r => r.arrange (Column.order columns)
  have harranged : ∀ r ∈ records, r.Rearranged columns (arranged r) :=
    fun r hmem => (hr r hmem).rearranged hc
  have hids : (records.map arranged).map Record.id? = records.map Record.id? := by
    rw [List.map_map]
    exact List.map_congr_left fun r hmem => (harranged r hmem).id?_eq
  have hreading := reading_tabulate ht hc hr source name
  have hyields : (yields (tabulate source name table columns records)).flatten =
      (records.map arranged).map (table, ·) := by
    unfold yields
    rw [hreading, List.flatten_cons, List.nil_append, List.map_map, ← List.flatMap_def]
    exact (List.map_eq_flatMap ..).symm
  have hresult : result = _ := worksheet_eq _
  rw [foldl_absorb, attached_of_not_propagate rfl, hyields, hreading] at hresult
  have hsome : ∀ r ∈ records.map arranged, r.id?.isSome := by
    intro r' hr'
    obtain ⟨r, hmem, rfl⟩ := List.mem_map.1 hr'
    rw [(harranged r hmem).id?_eq]
    exact (hr r hmem).id
  obtain ⟨t, hstore, hentries⟩ := Store.mergeAll_distinct table hsome (by rw [hids]; exact hd)
  refine ⟨congrArg Prod.fst hresult, t, ?_, ?_⟩
  · rw [hresult]
    dsimp only
    rw [hstore]
    simp
  · rw [hentries, List.map_map, List.forall₂_map_right_iff, List.forall₂_same]
    intro r hmem
    obtain ⟨id, hid⟩ := Option.isSome_iff_exists.1 (hr r hmem).id
    have hid' : (arranged r).id? = some id := (harranged r hmem).id?_eq.trans hid
    exact ⟨by rw [hid, Function.comp_apply, hid']; rfl, harranged r hmem⟩

/-- Two samples, the one with its id last, an attribute and a list, the other with nothing but its id. -/
theorem Harvest.worksheet_tabulate_samples :
    let columns : List Column := [⟨"height%unit", false⟩, ⟨"id", false⟩, ⟨"protocol.id", true⟩]
    let records : List Record :=
      [.ofList [("protocol.id", .list ["P 1", "P,2"]), ("height%unit", .scalar "cm"), ("id", .scalar "S1")],
       .ofList [("id", .scalar "S2")]]
    let sheet := tabulate "a.csv" "a" "sample" columns records
    let result := worksheet { propagate := false } ⟨.empty, none, none⟩ sheet
    TableSpelling "sample" ∧ Column.Layout columns ∧ (∀ r ∈ records, r.Fits columns) ∧
      (records.map Record.id?).Nodup ∧
      sheet.rows =
        [["#tags", "#sample.height%unit", "#sample.id", "*#sample.protocol.id"],
         ["", "cm", "S1", "P 1;P,2;"],
         ["", "", "S2", ""]] ∧
      (result.1 = .ok ⟨1, 2, 2⟩ ∧
        ∃ t : Table, result.2.store = .single "sample" t ∧
          List.Forall₂ (fun r e => r.id? = some e.1 ∧ r.Rearranged columns e.2) records t.entries) ∧
      result.2.store = .single "sample" (.ofList
        [("S1", .ofList [("id", .scalar "S1"), ("height%unit", .scalar "cm"),
           ("protocol.id", .list ["P 1", "P,2"])]),
         ("S2", .ofList [("id", .scalar "S2")])]) := by
  intro columns records sheet result
  have ht : TableSpelling "sample" := by decide
  have hc : Column.Layout columns := by decide +kernel
  have hr : ∀ r ∈ records, r.Fits columns := by decide +kernel
  have hd : (records.map Record.id?).Nodup := by decide
  exact ⟨ht, hc, hr, hd, by decide +kernel,
    worksheet_tabulate .standard none none "a.csv" "a" "sample" columns records ht hc hr hd,
    by decide +kernel⟩

end TagHarvest
