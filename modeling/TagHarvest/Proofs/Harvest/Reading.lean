/-
A worksheet is read the same whatever was harvested before it. `reading` tells from the worksheet alone the
records of each row and the outcome, and harvesting takes in these records row by row. What becomes of the
state is then told in one step: the latest ids are noted from all records, and the store has the records
merged into it as they are `attached`, each with the ids that are the latest at its row.
-/
import TagHarvest.Harvest
import TagHarvest.Proofs.Record.Absorption

namespace TagHarvest.Harvest

variable {rules : HarvestRules} {h : Harvest}

/-! ## What a worksheet says -/

/-- The header in force after a row, and the counts. -/
def step (compile : Except TagError (List RecordRecipe)) (cells : Row)
    (scope : Option (List RecordRecipe)) (count : HarvestCount) :
    Except TagError (Option (List RecordRecipe) × HarvestCount) :=
  if cells.isTags then
    compile.map fun recipes => (some recipes, { count with headers := count.headers + 1 })
  else if cells.isIgnore then .ok (scope, count)
  else if cells.isBlank then .ok (none, count)
  else match scope with
  | none => .ok (none, count)
  | some recipes =>
    .ok (scope, { count with
      rows := count.rows + 1, records := count.records + (build recipes cells).length })

/-- The records of a row; a row that is passed over has none. -/
def yield (scope : Option (List RecordRecipe)) (cells : Row) : List (String × Record) :=
  if cells.isTags || cells.isIgnore || cells.isBlank then []
  else match scope with
  | none => []
  | some recipes => build recipes cells

/-- The outcome of the rows from an index on, and the records of each of them up to a fault. -/
def reading (sheet : Worksheet) :
    (index : Nat) → List Row → Option (List RecordRecipe) → HarvestCount →
      Except TagError HarvestCount × List (List (String × Record))
  | _, [], _, count => (.ok count, [])
  | index, cells :: rest, scope, count =>
    match step (compileHeader sheet index) cells scope count with
    | .error e => (.error e, [])
    | .ok (scope', count') =>
      let r := reading sheet (index + 1) rest scope' count'
      (r.1, yield scope cells :: r.2)

/-- The records of each row of a worksheet, up to a header that does not compile. -/
def yields (sheet : Worksheet) : List (List (String × Record)) :=
  (reading sheet 0 sheet.rows none {}).2

theorem row_eq (compile : Except TagError (List RecordRecipe)) (cells : Row)
    (scope : Option (List RecordRecipe)) (count : HarvestCount) :
    row rules compile cells scope count h =
      (step compile cells scope count).map fun p => (p.1, p.2, h.absorb rules (yield scope cells)) := by
  unfold row step yield
  cases cells.isTags with
  | true => cases compile <;> rfl
  | false =>
    cases cells.isIgnore with
    | true => rfl
    | false =>
      cases cells.isBlank with
      | true => rfl
      | false => cases scope <;> rfl

/-- Harvesting rows is taking in what they say. -/
theorem rows_eq (sheet : Worksheet) (index : Nat) (cells : List Row)
    (scope : Option (List RecordRecipe)) (count : HarvestCount) :
    rows rules sheet index cells scope count h =
      ((reading sheet index cells scope count).1,
        (reading sheet index cells scope count).2.foldl (absorb rules) h) := by
  induction cells generalizing h index scope count with
  | nil => rfl
  | cons cells rest ih =>
    unfold rows reading
    rw [row_eq]
    cases step (compileHeader sheet index) cells scope count with
    | error e => rfl
    | ok p => exact ih ..

theorem worksheet_eq (sheet : Worksheet) :
    h.worksheet rules sheet =
      ((reading sheet 0 sheet.rows none {}).1, (yields sheet).foldl (absorb rules) h) :=
  rows_eq sheet 0 sheet.rows none {}

/-! ## The latest ids -/

/-- The id of the last record of a table, or `start` if there is none. -/
def latest (table : String) (start : Option String) (built : List (String × Record)) : Option String :=
  built.foldl (fun last e => if e.1 = table then e.2.id? else last) start

theorem latest_of_not_mem {table : String} {start : Option String} {built : List (String × Record)}
    (hb : table ∉ built.map Prod.fst) : latest table start built = start := by
  unfold latest
  induction built with
  | nil => rfl
  | cons e built ih =>
    rw [List.map_cons, List.mem_cons, not_or] at hb
    rw [List.foldl_cons, if_neg (Ne.symm hb.1)]
    exact ih hb.2

theorem latest_of_mem {table : String} {built : List (String × Record)} (hb : table ∈ built.map Prod.fst)
    (start start' : Option String) : latest table start built = latest table start' built := by
  unfold latest
  induction built generalizing start start' with
  | nil => cases hb
  | cons e built ih =>
    rw [List.foldl_cons, List.foldl_cons]
    by_cases he : e.1 = table
    · rw [if_pos he, if_pos he]
    · rw [if_neg he, if_neg he]
      exact ih ((List.mem_cons.1 hb).resolve_left (Ne.symm he)) start start'

theorem latest_latest (table : String) (start : Option String) (built : List (String × Record)) :
    latest table (latest table start built) built = latest table start built := by
  by_cases hb : table ∈ built.map Prod.fst
  · exact latest_of_mem hb _ _
  · exact latest_of_not_mem hb

theorem note_eq (h : Harvest) (built : List (String × Record)) :
    h.note built = { h with
      project := latest projectTable h.project built
      study := latest studyTable h.study built } := by
  unfold note latest
  induction built generalizing h with
  | nil => rfl
  | cons e built ih =>
    rw [List.foldl_cons, ih, List.foldl_cons, List.foldl_cons]
    have hne : projectTable ≠ studyTable := by decide
    by_cases hp : e.1 = projectTable
    · simp [hp, hne]
    · by_cases hs : e.1 = studyTable
      · simp [hs, hne.symm]
      · simp [hp, hs]

/-- The latest id of a table whose ids are attached to others. -/
def latest? (h : Harvest) (ancestor : String) : Option String :=
  if ancestor = projectTable then h.project
  else if ancestor = studyTable then h.study
  else none

theorem note_append (h : Harvest) (built more : List (String × Record)) :
    h.note (built ++ more) = (h.note built).note more :=
  List.foldl_append

/-! ## What becomes of the state -/

/-- The records of rows with their tables, each with the ids attached that are the latest at its row. -/
def attached (rules : HarvestRules) : Harvest → List (List (String × Record)) → List (String × Record)
  | _, [] => []
  | h, built :: rest =>
    (built.map fun e => (e.1, (h.note built).propagated rules e.1 e.2)) ++
      attached rules (h.note built) rest

theorem note_withStore (h : Harvest) (s : Store) (built : List (String × Record)) :
    { h with store := s }.note built = { h.note built with store := s } := by
  rw [note_eq, note_eq]

theorem attached_withStore (h : Harvest) (s : Store) (ys : List (List (String × Record))) :
    attached rules { h with store := s } ys = attached rules h ys := by
  induction ys generalizing h with
  | nil => rfl
  | cons built rest ih =>
    unfold attached
    rw [note_withStore, ih]
    rfl

theorem absorb_eq (h : Harvest) (built : List (String × Record)) :
    h.absorb rules built = { h.note built with
      store := h.store.mergeAll (built.map fun e => (e.1, (h.note built).propagated rules e.1 e.2)) } := by
  unfold absorb Store.mergeAll
  rw [List.foldl_map, note_eq]

/-- Taking in rows notes the ids of all their records and merges the records as they are attached. -/
theorem foldl_absorb (h : Harvest) (ys : List (List (String × Record))) :
    ys.foldl (absorb rules) h =
      { h.note ys.flatten with store := h.store.mergeAll (attached rules h ys) } := by
  induction ys generalizing h with
  | nil => rfl
  | cons built rest ih =>
    rw [List.foldl_cons, ih, absorb_eq, attached_withStore, note_withStore, ← Store.mergeAll_append,
      List.flatten_cons, note_append]
    rfl

/-- Without propagation nothing is attached. -/
theorem attached_of_not_propagate (hr : rules.propagate = false) (ys : List (List (String × Record))) :
    attached rules h ys = ys.flatten := by
  induction ys generalizing h with
  | nil => rfl
  | cons built rest ih =>
    have hsame : (built.map fun e => (e.1, (h.note built).propagated rules e.1 e.2)) = built := by
      unfold propagated
      rw [hr]
      exact List.map_id' built
    unfold attached
    rw [hsame, ih, List.flatten_cons]

/-- Where records come from: a row, and the ids noted up to it. -/
theorem mem_attached_iff {ys : List (List (String × Record))} {e : String × Record} :
    e ∈ attached rules h ys ↔
      ∃ above built below r, ys = above ++ built :: below ∧ (e.1, r) ∈ built ∧
        e.2 = (h.note (above ++ [built]).flatten).propagated rules e.1 r := by
  induction ys generalizing h with
  | nil => simp [attached]
  | cons first rest ih =>
    unfold attached
    rw [List.mem_append, ih, List.mem_map]
    constructor
    · rintro (⟨⟨table, r⟩, hr, rfl⟩ | ⟨above, built, below, r, rfl, hr, he⟩)
      · exact ⟨[], first, rest, r, rfl, hr, by simp⟩
      · refine ⟨first :: above, built, below, r, rfl, hr, ?_⟩
        rw [he, ← note_append]
        rfl
    · rintro ⟨above, built, below, r, hys, hr, he⟩
      cases above with
      | nil =>
        cases hys
        refine .inl ⟨(e.1, r), hr, Prod.ext rfl ?_⟩
        rw [he]
        simp
      | cons top above =>
        cases hys
        refine .inr ⟨above, built, below, r, rfl, hr, ?_⟩
        rw [he, ← note_append]
        rfl

end TagHarvest.Harvest
