/-
Worksheets in parts. What goes on from row to row is the header in force, the counts and the state of the
harvest; a `#tags` row and a blank row make the header in force anew, so a worksheet may be cut before either
of them, and its parts are harvested one after the other as the whole is. A row that carries no record may be
taken out. In both cases the rows get other indices, which compilation does not mind.
-/
import TagHarvest.Harvest
import TagHarvest.Proofs.Header.Location
import TagHarvest.Proofs.Tagging.Scope

namespace TagHarvest

/-- The counts of two worksheets together. -/
instance instAddHarvestCount : Add HarvestCount :=
  ⟨fun a b => ⟨a.headers + b.headers, a.rows + b.rows, a.records + b.records⟩⟩

/-- Rows from which some of the `#ignore` rows have been taken out. -/
inductive Row.Pruned : List Row → List Row → Prop
  | nil : Pruned [] []
  | keep (row : Row) {rows rows' : List Row} (h : Pruned rows rows') : Pruned (row :: rows) (row :: rows')
  | drop {row : Row} (hignore : row.isIgnore = true) {rows rows' : List Row} (h : Pruned rows rows') :
    Pruned (row :: rows) rows'

theorem Row.Pruned.refl : ∀ rows : List Row, Pruned rows rows
  | [] => .nil
  | row :: rows => .keep row (refl rows)

/-- Rows that stand in a worksheet from an index on are its rows. -/
theorem Worksheet.row_of_prefix {sheet : Worksheet} {index : Nat} {cells : Row} {rest : List Row}
    (h : cells :: rest <+: sheet.rows.drop index) :
    sheet.row index = cells ∧ rest <+: sheet.rows.drop (index + 1) := by
  obtain ⟨below, h⟩ := h
  have hdrop : sheet.rows.drop index = cells :: (rest ++ below) := h.symm
  constructor
  · unfold row
    rw [← List.head?_drop, hdrop]
    rfl
  · rw [← List.drop_drop, hdrop]
    exact List.prefix_append rest below

namespace Harvest

variable {rules : HarvestRules} {h : Harvest} {scope : Option (List RecordRecipe)} {count : HarvestCount}

theorem rows_cons (sheet : Worksheet) (index : Nat) (cells : Row) (rest : List Row) :
    rows rules sheet index (cells :: rest) scope count h =
      match row rules (compileHeader sheet index) cells scope count h with
      | .error e => (.error e, h)
      | .ok (scope, count, h) => rows rules sheet (index + 1) rest scope count h :=
  rfl

/-! ## The same rows elsewhere -/

/-- A row only needs the recipes of its header, not the reason why there are none. -/
theorem agree_row {compile compile' : Except TagError (List RecordRecipe)} (hc : Agree compile compile')
    (cells : Row) :
    Agree (row rules compile cells scope count h) (row rules compile' cells scope count h) := by
  unfold row
  split
  · cases compile with
    | error e =>
      cases compile' with
      | error e' => rfl
      | ok recipes => cases hc
    | ok recipes =>
      cases compile' with
      | error e' => cases hc
      | ok recipes' =>
        cases hc
        rfl
  · rfl

theorem row_of_isIgnore {cells : Row} (hignore : cells.isIgnore = true)
    (compile : Except TagError (List RecordRecipe)) :
    row rules compile cells scope count h = .ok (scope, count, h) := by
  unfold row
  rw [Row.isTags_of_isIgnore hignore, hignore]
  rfl

/-- Rows do the same in any worksheet, and without `#ignore` rows. -/
theorem rows_pruned {sheet sheet' : Worksheet} {cells cells' : List Row} (hp : Row.Pruned cells cells')
    {index index' : Nat} (hs : cells <+: sheet.rows.drop index) (hs' : cells' <+: sheet'.rows.drop index')
    (scope : Option (List RecordRecipe)) (count : HarvestCount) (h : Harvest) :
    Agree (rows rules sheet' index' cells' scope count h).1 (rows rules sheet index cells scope count h).1 ∧
      (rows rules sheet' index' cells' scope count h).2 = (rows rules sheet index cells scope count h).2 := by
  induction hp generalizing index index' scope count h with
  | nil => exact ⟨rfl, rfl⟩
  | drop hignore _ ih =>
    obtain ⟨-, hrest⟩ := Worksheet.row_of_prefix hs
    rw [rows, row_of_isIgnore hignore]
    exact ih hrest hs' scope count h
  | keep row _ ih =>
    obtain ⟨hrow, hrest⟩ := Worksheet.row_of_prefix hs
    obtain ⟨hrow', hrest'⟩ := Worksheet.row_of_prefix hs'
    have hagree : Agree (Harvest.row rules (compileHeader sheet' index') row scope count h)
        (Harvest.row rules (compileHeader sheet index) row scope count h) :=
      agree_row (agree_compileHeader (hrow.trans hrow'.symm)) row
    unfold rows
    generalize Harvest.row rules (compileHeader sheet' index') row scope count h = outcome',
      Harvest.row rules (compileHeader sheet index) row scope count h = outcome at hagree ⊢
    cases outcome with
    | error e =>
      cases outcome' with
      | error e' => exact ⟨rfl, rfl⟩
      | ok p => cases hagree
    | ok p =>
      cases outcome' with
      | error e' => cases hagree
      | ok p' =>
        cases hagree
        exact ih hrest hrest' _ _ _

/-! ## Rows in two parts -/

/-- The header in force above a `#tags` row or a blank row has no effect on it. -/
theorem row_of_boundary {cells : Row} (hb : cells.isTags ∨ cells.isBlank)
    (compile : Except TagError (List RecordRecipe)) (scope scope' : Option (List RecordRecipe)) :
    row rules compile cells scope count h = row rules compile cells scope' count h := by
  unfold row
  cases htags : cells.isTags with
  | true => rfl
  | false =>
    have hblank : cells.isBlank = true := hb.resolve_left (by simp [htags])
    have hignore : cells.isIgnore = false :=
      Bool.eq_false_iff.2 fun hi => by simp [Row.isBlank_of_isIgnore hi] at hblank
    rw [hignore, hblank]
    rfl

theorem rows_append (sheet : Worksheet) {below : List Row}
    (hb : ∀ cells ∈ below.head?, cells.isTags ∨ cells.isBlank) (above : List Row) (index : Nat)
    (scope : Option (List RecordRecipe)) (count : HarvestCount) (h : Harvest) :
    rows rules sheet index (above ++ below) scope count h =
      match rows rules sheet index above scope count h with
      | (.error e, h') => (.error e, h')
      | (.ok count', h') => rows rules sheet (index + above.length) below none count' h' := by
  induction above generalizing index scope count h with
  | nil =>
    cases below with
    | nil => rfl
    | cons cells rest =>
      show rows rules sheet index (cells :: rest) scope count h = rows rules sheet index (cells :: rest) none count h
      unfold rows
      rw [row_of_boundary (hb cells rfl) _ scope none]
  | cons cells above ih =>
    rw [List.cons_append, rows_cons, rows_cons]
    cases row rules (compileHeader sheet index) cells scope count h with
    | error e => rfl
    | ok p =>
      dsimp only
      rw [ih, List.length_cons, Nat.add_right_comm, Nat.add_assoc]

/-! ## Counts -/

theorem row_add (c : HarvestCount) (compile : Except TagError (List RecordRecipe)) (cells : Row) :
    row rules compile cells scope (c + count) h =
      (row rules compile cells scope count h).map fun p => (p.1, c + p.2.1, p.2.2) := by
  unfold row
  split
  · cases compile <;> rfl
  · split
    · rfl
    · split
      · rfl
      · cases scope with
        | none => rfl
        | some recipes =>
          show Except.ok (some recipes, HarvestCount.mk (c.headers + count.headers) (c.rows + (count.rows + 1))
            (c.records + count.records + (build recipes cells).length), _) = _
          rw [Nat.add_assoc]
          rfl

/-- Counting goes on from what has been counted before. -/
theorem rows_add (c : HarvestCount) (sheet : Worksheet) (index : Nat) (cells : List Row)
    (scope : Option (List RecordRecipe)) (count : HarvestCount) (h : Harvest) :
    rows rules sheet index cells scope (c + count) h =
      ((rows rules sheet index cells scope count h).1.map (c + ·),
        (rows rules sheet index cells scope count h).2) := by
  induction cells generalizing index scope count h with
  | nil => rfl
  | cons cells rest ih =>
    unfold rows
    rw [row_add]
    cases row rules (compileHeader sheet index) cells scope count h with
    | error e => rfl
    | ok p => exact ih ..

/-! ## Worksheets -/

/-- Rows of a worksheet are harvested as a worksheet of their own would be. -/
theorem worksheet_of_prefix (rules : HarvestRules) {part sheet : Worksheet} {index : Nat}
    (hpart : part.rows <+: sheet.rows.drop index) (h : Harvest) :
    Agree (h.worksheet rules part).1 (rows rules sheet index part.rows none {} h).1 ∧
      (h.worksheet rules part).2 = (rows rules sheet index part.rows none {} h).2 :=
  rows_pruned (.refl part.rows) hpart (List.prefix_refl _) none {} h

/-- The part that goes before another has its counts and its state, and the other goes on from them. -/
theorem worksheet_parts {above below sheet : Worksheet} (hrows : sheet.rows = above.rows ++ below.rows)
    (hb : ∀ cells ∈ below.rows.head?, cells.isTags ∨ cells.isBlank) {count : HarvestCount}
    (hok : (h.worksheet rules sheet).1 = .ok count) :
    ∃ c c', (h.worksheet rules above).1 = .ok c ∧
      (h.worksheet rules above).2.worksheet rules below = (.ok c', (h.worksheet rules sheet).2) ∧
      count = c + c' := by
  have hprefix : above.rows <+: sheet.rows.drop 0 := hrows ▸ List.prefix_append above.rows below.rows
  have hdrop : sheet.rows.drop (0 + above.rows.length) = below.rows := by
    rw [hrows, Nat.zero_add, List.drop_left]
  have hsuffix : below.rows <+: sheet.rows.drop (0 + above.rows.length) :=
    ⟨[], (List.append_nil _).trans hdrop.symm⟩
  have hwhole : h.worksheet rules sheet = _ :=
    (congrArg (rows rules sheet 0 · none {} h) hrows).trans (rows_append sheet hb above.rows 0 none {} h)
  obtain ⟨habove, hstate⟩ := worksheet_of_prefix rules hprefix h
  generalize rows rules sheet 0 above.rows none {} h = first at habove hstate hwhole
  obtain ⟨_ | c, h'⟩ := first
  · rw [hwhole] at hok
    cases hok
  · obtain rfl : (h.worksheet rules above).2 = h' := hstate
    generalize (h.worksheet rules above).2 = h' at hwhole ⊢
    obtain ⟨hbelow, hstate'⟩ := worksheet_of_prefix rules hsuffix h'
    -- the second part is counted from the counts of the first
    replace hwhole := hwhole.trans (rows_add c sheet (0 + above.rows.length) below.rows none {} h')
    generalize rows rules sheet (0 + above.rows.length) below.rows none {} h' = second at hbelow hstate' hwhole
    obtain ⟨_ | c', h''⟩ := second
    · rw [hwhole] at hok
      cases hok
    · rw [hwhole] at hok ⊢
      cases hok
      exact ⟨c, c', habove.eq_ok, Prod.ext hbelow.eq_ok hstate', rfl⟩

/--
A worksheet that is harvested without a fault may be cut before any `#tags` row and any blank row: its two parts,
harvested one after the other, give the same state, and their counts add up to those of the whole. And a
worksheet without some of its `#ignore` rows has the same counts, or a fault as before, and gives the same state.
-/
theorem worksheet_divided (rules : HarvestRules) (h : Harvest) (sheet : Worksheet) :
    (∀ count, (h.worksheet rules sheet).1 = .ok count →
      ∀ (i : Nat) (above below : Worksheet), (sheet.row i).isTags ∨ (sheet.row i).isBlank →
        above.rows = sheet.rows.take i → below.rows = sheet.rows.drop i →
        ∃ c c', (h.worksheet rules above).1 = .ok c ∧
          (h.worksheet rules above).2.worksheet rules below = (.ok c', (h.worksheet rules sheet).2) ∧
          count = c + c') ∧
      ∀ pruned : Worksheet, Row.Pruned sheet.rows pruned.rows →
        Agree (h.worksheet rules pruned).1 (h.worksheet rules sheet).1 ∧
          (h.worksheet rules pruned).2 = (h.worksheet rules sheet).2 := by
  constructor
  · intro count hok i above below hrow habove hbelow
    have hboundary : ∀ cells ∈ (sheet.rows.drop i).head?, cells.isTags ∨ cells.isBlank := by
      intro cells hcells
      rw [List.head?_drop] at hcells
      unfold Worksheet.row at hrow
      rw [hcells] at hrow
      exact hrow
    refine worksheet_parts ?_ (hbelow ▸ hboundary) hok
    rw [habove, hbelow, List.take_append_drop]
  · intro pruned hp
    exact rows_pruned hp (List.prefix_refl _) (List.prefix_refl _) none {} h

/-- Two blocks with a blank row between them and `#ignore` rows, one of which stands between header and data. -/
def blocks : Worksheet :=
  ⟨"a.csv", "a", [["#tags", "#project.id"], ["#ignore", "name"], ["", "P1"], [""], ["", "lost"],
    ["#ignore"], ["#tags", "#entity.id"], ["", "E1"], ["", "E2"]]⟩

theorem worksheet_divided_blocks :
    let start : Harvest := { store := .empty }
    let above : Worksheet := ⟨"b.csv", "b", blocks.rows.take 3⟩
    let below : Worksheet := ⟨"c.csv", "c", blocks.rows.drop 3⟩
    let pruned : Worksheet := ⟨"d.csv", "d", blocks.rows.eraseIdx 1⟩
    (start.worksheet {} blocks).1 = .ok ⟨2, 3, 3⟩ ∧
      (∃ c c', (start.worksheet {} above).1 = .ok c ∧
        (start.worksheet {} above).2.worksheet {} below = (.ok c', (start.worksheet {} blocks).2) ∧
        ⟨2, 3, 3⟩ = c + c') ∧
      Agree (start.worksheet {} pruned).1 (start.worksheet {} blocks).1 ∧
      (start.worksheet {} pruned).2 = (start.worksheet {} blocks).2 := by
  intro start above below pruned
  have hok : (start.worksheet {} blocks).1 = .ok ⟨2, 3, 3⟩ := by decide +kernel
  have hpruned : Row.Pruned blocks.rows pruned.rows := .keep _ (.drop (by decide +kernel) (.refl _))
  obtain ⟨hdivided, hsame⟩ := worksheet_divided {} start blocks
  exact ⟨hok, hdivided _ hok 3 above below (.inr (by decide +kernel)) rfl rfl, hsame pruned hpruned⟩

end Harvest
end TagHarvest
