/-
Header rows with all tags in full. The text of a cell changes only where its abbreviated tags stand, so it is
read as its tokens in full, and cell after cell the row compiles to the same recipes. A table whose name
ends as the table of a child does cannot be named in full: its tag is read as that of a child of another
table.
-/
import TagHarvest.Proofs.Header.Qualification

namespace TagHarvest

namespace HeaderState

variable {s s' : HeaderState} {here : Location} {tag text : String} {ts : List Token}

/-! ## Cells -/

/-- The tokens before the clauses of a cell. -/
def marker (here : Location) : List Token := if here.column = 0 then [.tag "#tags"] else []

/-- The tokens of a cell with the states in which they are read. -/
def cellReadings (here : Location) (s : HeaderState) (text : String) : List Reading :=
  (marker here).map (⟨s, false, ·⟩) ++
    readings here s ((Token.scanCell text).1.drop (marker here).length)

/-- A text with the full names in the place of its abbreviated tags. -/
def cellInFull (text : String) (rs : List Reading) : String :=
  String.ofList (Token.respell text.toList (rs.map Reading.inFull))

/-- No tag in a text is abbreviated. -/
def NoAbbreviation (text : String) : Prop :=
  ∀ tag, Token.tag tag ∈ (Token.scanCell text).1 → ¬ Tag.Abbreviated tag

/-- The tables that `#table=` names in a cell. -/
def chosenTables (here : Location) (text : String) : List String :=
  (Clause.ofTokens ((clauseTokens here text).toOption.getD [])).filterMap fun
    | .table name => some name
    | _ => none

theorem clauseTokens_eq_ok_iff :
    clauseTokens here text = .ok ts ↔ Token.tokenize text = .ok (marker here ++ ts) := by
  unfold clauseTokens marker
  cases Token.tokenize text with
  | error e => exact ⟨nofun, nofun⟩
  | ok tokens =>
    dsimp only
    by_cases hcolumn : here.column = 0
    · rw [if_pos hcolumn, if_pos hcolumn]
      split
      · simp
      · rename_i hmarker
        refine ⟨nofun, fun h => ?_⟩
        exact absurd (Except.ok.inj h) (hmarker ts)
    · rw [if_neg hcolumn, if_neg hcolumn, Except.ok.injEq, Except.ok.injEq, List.nil_append]

/-- The marker of a header row names no field. -/
theorem not_abbreviated_marker (h : Token.tag tag ∈ marker here) : ¬ Tag.Abbreviated tag := by
  have hkind : Tag.ofText "#tags" = .ok .tags := by decide +kernel
  unfold marker at h
  split at h
  · cases List.mem_singleton.1 h
    exact Tag.not_abbreviated hkind nofun nofun
  · cases h

/-- The marker is the same in full. -/
theorem inFull_marker : ((marker here).map (⟨s, false, ·⟩)).map Reading.inFull = marker here := by
  rw [List.map_map, List.map_congr_left (g := id), List.map_id]
  intro t ht
  cases t with
  | tag tag => exact congrArg Token.tag (fullTag_of_eq_none (inFull?_eq_none (not_abbreviated_marker ht)))
  | literal | pattern | word | equals | plus | star | semicolon | comma => rfl

theorem cellReadings_of_clauseTokens (h : clauseTokens here text = .ok ts) :
    s.cellReadings here text = (marker here).map (⟨s, false, ·⟩) ++ readings here s ts := by
  have hscan := Token.tokenize_eq_ok_iff.1 (clauseTokens_eq_ok_iff.1 h)
  unfold cellReadings Token.scanCell
  rw [hscan, List.drop_left]

/-- The text of a cell in full is read as its tokens in full. -/
theorem clauseTokens_inFull (h : clauseTokens here text = .ok ts)
    (hfull : ReadInFull here s ts s') :
    clauseTokens here (cellInFull text (s.cellReadings here text)) =
      .ok ((readings here s ts).map Reading.inFull) := by
  have htokenize := clauseTokens_eq_ok_iff.1 h
  have hread := List.forall_mem_append.1 (Token.readable_of_tokenize htokenize)
  have hts : List.Forall₂ Token.Retags ts ((readings here s ts).map Reading.inFull) := by
    conv_lhs => rw [← hfull.tokens]
    rw [List.forall₂_map_left_iff, List.forall₂_map_right_iff, List.forall₂_same]
    intro r hr
    refine retags_fullToken (hfull.states r hr) (hread.2 _ ?_)
    rw [← hfull.tokens]
    exact List.mem_map_of_mem hr
  have hmarker : List.Forall₂ Token.Retags (marker here) (marker here) :=
    List.forall₂_same.2 fun t _ => .same t
  rw [clauseTokens_eq_ok_iff, cellReadings_of_clauseTokens h]
  unfold cellInFull
  rw [List.map_append, inFull_marker]
  exact Token.tokenize_respell htokenize (List.rel_append hmarker hts)

/-- A token in full is no abbreviated tag. -/
theorem not_abbreviated_inFull {r : Reading} {column : Nat} (hs : r.state.Settled column)
    (hread : r.token.Readable) (hplain : r.Plain) (hresolved : r.Resolved) (h : r.inFull = .tag tag) :
    ¬ Tag.Abbreviated tag := by
  obtain ⟨s, declares, t⟩ := r
  cases t with
  | tag old =>
    cases h
    exact not_abbreviated_fullTag hs hread hplain (hresolved old rfl)
  | literal | pattern | word | equals | plus | star | semicolon | comma => cases h

/-- A cell does the same in full, and keeps what is known between clauses. -/
theorem cell_inFull (hs : s.Settled here.column)
    (hchosen : ∀ name ∈ chosenTables here text, TableName name)
    (hplain : ∀ r ∈ s.cellReadings here text, r.Plain) (h : cell here text s = .ok () s') :
    s'.Settled here.column ∧ cell here (cellInFull text (s.cellReadings here text)) s = .ok () s' ∧
      NoAbbreviation (cellInFull text (s.cellReadings here text)) := by
  obtain ⟨ts, s₁, hlook, hclauses⟩ := bind_eq_ok h
  obtain ⟨htokens, hs₁⟩ := look_eq_ok hlook
  rw [hs₁] at hclauses
  have hread := List.forall_mem_append.1 (Token.readable_of_tokenize (clauseTokens_eq_ok_iff.1 htokens))
  unfold chosenTables at hchosen
  rw [htokens] at hchosen
  rw [cellReadings_of_clauseTokens htokens, List.forall_mem_append] at hplain
  have hfull : ReadInFull here s ts s' := readInFull_of_clauses hs hread.2
    (fun name hname => hchosen name (List.mem_filterMap.2 ⟨_, hname, rfl⟩)) hplain.2 hclauses
  have htokensFull := clauseTokens_inFull htokens hfull
  refine ⟨hfull.settled, ?_, fun tag htag => ?_⟩
  · unfold cell
    rw [bind_apply_of_ok (look_of_ok htokensFull)]
    exact hfull.run
  · have hscan := Token.tokenize_eq_ok_iff.1 (clauseTokens_eq_ok_iff.1 htokensFull)
    unfold Token.scanCell at htag
    rw [hscan] at htag
    rcases List.mem_append.1 htag with hmarker | htag
    · exact not_abbreviated_marker hmarker
    · obtain ⟨r, hr, hinFull⟩ := List.mem_map.1 htag
      have hreadable : r.token.Readable := hread.2 _ (by
        rw [← hfull.tokens]
        exact List.mem_map_of_mem hr)
      exact not_abbreviated_inFull (hfull.states r hr) hreadable (hplain.2 r hr) (hfull.resolved r hr) hinFull

/-! ## Rows -/

variable {place : Nat → Location} {column : Nat} {row : Row}

/-- The cells of a row with the tokens and the states in which they are read. -/
def rowReadings (place : Nat → Location) : Nat → HeaderState → Row → List (String × List Reading)
  | _, _, [] => []
  | column, s, text :: rest => (text, s.cellReadings (place column) text) ::
    rowReadings place (column + 1) (s.after (cell (place column) text)) rest

/-- The row with all tags in full. -/
def rowInFull (place : Nat → Location) (column : Nat) (s : HeaderState) (row : Row) : Row :=
  (rowReadings place column s row).map fun (text, rs) => cellInFull text rs

/-- The tables that `#table=` names in a row. -/
def rowTables (place : Nat → Location) (column : Nat) (row : Row) : List String :=
  (row.zipIdx column).flatMap fun (text, i) => chosenTables (place i) text

theorem Settled.next (hs : s.Settled column) : s.Settled (column + 1) :=
  { hs with first := fun _ _ h => absurd h (Nat.succ_ne_zero column) }

/-- A row does the same in full. -/
theorem cells_inFull (hplace : ∀ i, (place i).column = i) (hs : s.Settled column)
    (hchosen : ∀ name ∈ rowTables place column row, TableName name)
    (hplain : ∀ c ∈ rowReadings place column s row, ∀ r ∈ c.2, r.Plain)
    (h : cells place column row s = .ok () s') :
    cells place column (rowInFull place column s row) s = .ok () s' ∧
      ∀ text ∈ rowInFull place column s row, NoAbbreviation text := by
  induction row generalizing column s with
  | nil => exact ⟨h, List.forall_mem_nil _⟩
  | cons text rest ih =>
    obtain ⟨⟨⟩, s₁, hcell, hrest⟩ := bind_eq_ok h
    unfold rowTables at hchosen
    rw [List.zipIdx_cons, List.flatMap_cons, List.forall_mem_append] at hchosen
    unfold rowInFull
    unfold rowReadings at hplain ⊢
    rw [after_of_ok hcell] at hplain ⊢
    rw [List.forall_mem_cons] at hplain
    rw [← hplace column] at hs
    obtain ⟨hs₁, hfull, hnone⟩ := cell_inFull hs hchosen.1 hplain.1 hcell
    rw [hplace column] at hs₁
    obtain ⟨hrestFull, hrestNone⟩ := ih hs₁.next hchosen.2 hplain.2 hrest
    exact ⟨(bind_apply_of_ok hfull).trans hrestFull, List.forall_mem_cons.2 ⟨hnone, hrestNone⟩⟩

end HeaderState

namespace Worksheet

variable {sheet : Worksheet} {i : Nat} {recipes : List RecordRecipe}

/-- The cells of a header row with the tokens and the states in which they are read. -/
def readings (sheet : Worksheet) (i : Nat) : List (String × List Reading) :=
  HeaderState.rowReadings (sheet.location i) 0 .start (sheet.row i)

/-- The tables that `#table=` names in a header row. -/
def chosenTables (sheet : Worksheet) (i : Nat) : List String :=
  HeaderState.rowTables (sheet.location i) 0 (sheet.row i)

/-- The worksheet with all tags of a header row in full. -/
def inFull (sheet : Worksheet) (i : Nat) : Worksheet :=
  { sheet with rows := sheet.rows.set i (HeaderState.rowInFull (sheet.location i) 0 .start (sheet.row i)) }

theorem row_inFull (sheet : Worksheet) (i : Nat) :
    (sheet.inFull i).row i = HeaderState.rowInFull (sheet.location i) 0 .start (sheet.row i) := by
  unfold inFull row
  dsimp only
  rw [List.getElem?_set_self']
  cases sheet.rows[i]? with
  | none => rfl
  | some cells => rfl

/--
A header row that compiles gives the same recipes with the full name in the place of every abbreviated tag,
and then no tag of it is abbreviated, if the tables that `#table=` names can be spelled in a tag and no tag
would be misread in full.
-/
theorem compileHeader_inFull (hchosen : ∀ name ∈ sheet.chosenTables i, TableSpelling name)
    (hplain : ∀ c ∈ sheet.readings i, ∀ r ∈ c.2, r.Plain) (h : compileHeader sheet i = .ok recipes) :
    compileHeader (sheet.inFull i) i = .ok recipes ∧
      ∀ text ∈ (sheet.inFull i).row i, HeaderState.NoAbbreviation text := by
  unfold compileHeader at h ⊢
  dsimp only at h ⊢
  rw [row_inFull]
  cases hcells : HeaderState.cells (sheet.location i) 0 (sheet.row i) .start with
  | error e s =>
    rw [hcells] at h
    cases h
  | ok u s =>
    rw [hcells] at h
    obtain ⟨hfull, hnone⟩ := HeaderState.cells_inFull (fun _ => rfl) HeaderState.settled_start
      (fun name hname => (hchosen name hname).tableName) hplain hcells
    have hlocation : (sheet.inFull i).location i = sheet.location i := rfl
    refine ⟨?_, hnone⟩
    rw [hlocation, hfull]
    exact h

/-- Literals of column 0, operands, a child's attribute and a second table, which are all named in short. -/
theorem compileHeader_inFull_child :
    let sheet : Worksheet := ⟨"a.csv", "a",
      [["#tags #table=sample; #.batch=\"b7\" ; #%note=\"n\"", "#id; #.size", "#%unit; #label=#%unit+ \"x\"",
        "#sample%child.id", "#sample%child.length; #%unit =#id", "#table=plot;#.id,*#.tags"]]⟩
    (∀ name ∈ sheet.chosenTables 0, TableSpelling name) ∧
      (∀ c ∈ sheet.readings 0, ∀ r ∈ c.2, r.Plain) ∧
      (sheet.inFull 0).row 0 =
        ["#tags #table=sample; #sample.batch=\"b7\" ; #sample.batch%note=\"n\"", "#sample.id; #sample.size",
          "#sample.size%unit; #sample.label=#sample.size%unit+ \"x\"", "#sample%child.id",
          "#sample%child.length; #sample%child.length%unit =#sample.id", "#table=plot;#plot.id,*#plot.tags"] ∧
      ∃ recipes, compileHeader sheet 0 = .ok recipes ∧ compileHeader (sheet.inFull 0) 0 = .ok recipes ∧
        ∀ text ∈ (sheet.inFull 0).row 0, HeaderState.NoAbbreviation text := by
  intro sheet
  have hchosen : ∀ name ∈ sheet.chosenTables 0, TableSpelling name := by decide +kernel
  have hplain : ∀ c ∈ sheet.readings 0, ∀ r ∈ c.2, r.Plain := by decide +kernel
  have hok : (compileHeader sheet 0).isOk = true := by decide +kernel
  obtain ⟨recipes, hrecipes⟩ : ∃ recipes, compileHeader sheet 0 = .ok recipes := by
    cases h : compileHeader sheet 0 with
    | error e =>
      rw [h] at hok
      cases hok
    | ok recipes => exact ⟨recipes, rfl⟩
  exact ⟨hchosen, hplain, by decide +kernel, recipes, hrecipes, compileHeader_inFull hchosen hplain hrecipes⟩

/-- A table that ends as the table of a child does is named by a tag of its children only. -/
theorem compileHeader_inFull_misread :
    let sheet : Worksheet := ⟨"a.csv", "a", [["#tags", "#s%child%child.w", "#id", "#s%child%child.id"]]⟩
    (∀ name ∈ sheet.chosenTables 0, TableSpelling name) ∧
      compileHeader sheet 0 = .ok
        [⟨"s%child", [⟨"id", [.column 2], false, 2⟩], none⟩,
          ⟨"s%child", [⟨"parentID", [.column 2], false, 2⟩, ⟨"id", [.column 3], false, 3⟩,
            ⟨"w", [.column 1], false, 1⟩], some 0⟩] ∧
      (sheet.inFull 0).row 0 = ["#tags", "#s%child%child.w", "#s%child.id", "#s%child%child.id"] ∧
      compileHeader (sheet.inFull 0) 0 = .error (.shape ⟨"a.csv", "a", 0, 2⟩ .childWithoutId) := by
  decide +kernel

end Worksheet
end TagHarvest
