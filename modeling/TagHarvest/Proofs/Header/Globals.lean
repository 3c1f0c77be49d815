/-
Literals of column 0 in the records of a row. They are handed out when all cells have been compiled, so a
recipe gets one only if its cells have left the name free and no earlier literal has taken it, and what a
recipe declares or inherits itself is never mixed with one: `build_global`. The id is the one field of which
a record takes the first declaration only, and it has no second (`SingleId`).
-/
import TagHarvest.Proofs.Header.WellFormed

namespace TagHarvest

/-! ## Fixed values -/

/-- The text of an operand that does not look at the row. -/
def Operand.fixedText : Operand → String
  | .literal text => text
  | _ => ""

namespace FieldRecipe

variable {f : FieldRecipe} {row : Row}

/-- The value of a literal field: its text, or the items of a list, unless there is nothing in it. -/
def fixedValue? (f : FieldRecipe) : Option FieldValue :=
  let text := String.join (f.operands.map Operand.fixedText)
  if f.list then if listItems text = [] then none else some (.list (listItems text))
  else if text = "" then none else some (.scalar text)

theorem text?_of_isLiteral (h : f.isLiteral = true) :
    f.text? row = some (String.join (f.operands.map Operand.fixedText)) := by
  have htexts : ∀ {os : List Operand}, os.all Operand.isLiteral = true →
      os.mapM (Operand.text? row) = some (os.map Operand.fixedText) := by
    intro os hos
    induction os with
    | nil => rfl
    | cons o os ih =>
      rw [List.all_cons, Bool.and_eq_true] at hos
      obtain ⟨ho, hos⟩ := hos
      have hfirst : o.text? row = some o.fixedText := by
        cases o with
        | literal text => rfl
        | column i => cases ho
        | reference r => cases ho
      rw [List.mapM_cons, hfirst, ih hos]
      rfl
  unfold text?
  rw [htexts h]
  rfl

/-- A literal field has the same value on every row. -/
theorem evaluate_of_isLiteral (h : f.isLiteral = true) : f.evaluate row = f.fixedValue? := by
  unfold evaluate fixedValue?
  rw [text?_of_isLiteral h, Option.bind_some]
  cases f.list with
  | true => simp [FieldValue.isEmpty]
  | false => simp [FieldValue.isEmpty]

end FieldRecipe

/-! ## The declarations of a field -/

namespace RecordRecipe

variable {r r' : RecordRecipe} {f : FieldRecipe} {name : String} {row : Row} {record : Record}

/-- The declarations of a field in their order. -/
def declared (r : RecordRecipe) (name : String) : List FieldRecipe := r.fields.filter (·.name == name)

theorem declared_eq_nil_iff : r.declared name = [] ↔ name ∉ r.fields.map FieldRecipe.name := by
  unfold declared
  rw [List.filter_eq_nil_iff]
  simp

theorem declared_push_self (r : RecordRecipe) (f : FieldRecipe) :
    (r.push f).declared f.name = r.declared f.name ++ [f] := by
  have hself : [f].filter (·.name == f.name) = [f] :=
    List.filter_eq_self.2 fun g hg => by rw [List.mem_singleton.1 hg]; exact beq_self_eq_true _
  unfold declared push
  rw [List.filter_append, hself]

theorem declared_push_of_ne (hf : f.name ≠ name) : (r.push f).declared name = r.declared name := by
  unfold declared push
  rw [List.filter_append, List.filter_cons_of_neg (by simpa using hf), List.filter_nil, List.append_nil]

theorem declared_resolved (sources : List ((String × String) × Operand)) (name : String) :
    (r.resolved sources).declared name = (r.declared name).map (FieldRecipe.resolved sources) := by
  unfold declared resolved
  rw [List.filter_map]
  rfl

theorem head?_declared (r : RecordRecipe) (name : String) : (r.declared name).head? = r.field? name :=
  List.head?_filter

/-- The id is declared once at most. -/
def SingleId (r : RecordRecipe) : Prop := (r.declared idField).length ≤ 1

/-- An id that is added is the only one, since an id is no list. -/
theorem singleId_of_addId (hid : f.name = idField) (hlist : f.list = false) (h : r.add f = .ok r') :
    r'.SingleId := by
  obtain ⟨rfl, hold⟩ := add_eq_ok h
  have hnone : r.field? f.name = none := by
    cases hfield : r.field? f.name with
    | none => rfl
    | some old =>
      have hboth := (hold old hfield).2
      rw [hlist] at hboth
      cases hboth
  unfold SingleId
  rw [← hid, declared_push_self, declared_eq_nil_iff.2 (field?_eq_none_iff.1 hnone)]
  exact le_refl 1

theorem SingleId.add (h : r.SingleId) (hlist : f.name = idField → f.list = false) (hadd : r.add f = .ok r') :
    r'.SingleId := by
  by_cases hid : f.name = idField
  · exact singleId_of_addId hid (hlist hid) hadd
  · obtain ⟨rfl, -⟩ := add_eq_ok hadd
    unfold SingleId
    rw [declared_push_of_ne hid]
    exact h

theorem foldl_extended_evaluate (f : FieldRecipe) (row : Row) :
    ([f].filterMap (·.evaluate row)).foldl extended none = f.evaluate row := by
  cases hv : f.evaluate row with
  | none =>
    rw [List.filterMap_cons_none (f := fun f : FieldRecipe => f.evaluate row) hv]
    rfl
  | some v =>
    rw [List.filterMap_cons_some (f := fun f : FieldRecipe => f.evaluate row) hv]
    rfl

/-- A field has the values of its declarations, one after the other, the id too if it has only one. -/
theorem get?_of_build_declared (h : r.build row = some record)
    (hsingle : name = idField → (r.declared name).length ≤ 1)
    (hlist : ∀ f ∈ r.fields, f.name = idField → f.list = false) :
    record.get? name = ((r.declared name).filterMap (·.evaluate row)).foldl extended none := by
  by_cases hname : name = idField
  · subst hname
    cases hid : r.field? idField with
    | none =>
      unfold build at h
      rw [hid] at h
      cases h
    | some id =>
      have hone : r.declared idField = [id] := by
        have hhead := (head?_declared r idField).trans hid
        have hlength := hsingle rfl
        match hd : r.declared idField with
        | [] => rw [hd] at hhead; cases hhead
        | [f] => rw [hd] at hhead; rw [Option.some.inj hhead]
        | _ :: _ :: _ => rw [hd] at hlength; simp at hlength
      have hmem : id ∈ r.fields := List.mem_of_find?_eq_some hid
      have hvalue := get?_id_build hid (hlist id hmem (by simpa using List.find?_some hid)) row
      rw [h, Option.bind_some] at hvalue
      rw [hvalue, hone, foldl_extended_evaluate]
  · exact get?_of_build h hname

end RecordRecipe

namespace HeaderState

variable {width column : Nat} {s s' : HeaderState} {table : String} {f : FieldRecipe} {target : Target}
  {here : Location} {own : RecordRecipe} {name : String} {g : String × FieldRecipe}
  {globals earlier later : List (String × FieldRecipe)}

theorem singleId_of_placed (hf : f.Declarable width) (h : Placed column table f s target s')
    (hs : s.Sound width) (hsingle : ∀ r ∈ s.recipes, r.SingleId) : ∀ r ∈ s'.recipes, r.SingleId := by
  cases h with
  | global => exact hsingle
  | nowhere => exact hsingle
  | pending => exact hsingle
  | field hr hadd =>
    intro r hmem
    rcases List.mem_or_eq_of_mem_set hmem with hmem | rfl
    · exact hsingle r hmem
    · exact (hsingle _ (List.mem_of_getElem? hr)).add hf.id hadd
  | own =>
    refine List.forall_mem_append.2 ⟨hsingle, List.forall_mem_singleton.2 ?_⟩
    exact List.length_filter_le _ _
  | child hid _ _ _ hadd =>
    refine List.forall_mem_append.2 ⟨hsingle, List.forall_mem_singleton.2 ?_⟩
    exact RecordRecipe.singleId_of_addId hid (hf.id hid) hadd
  | childOfWaiting hid _ _ _ hadd hwaiting hadd' =>
    refine List.forall_mem_append.2 ⟨hsingle, List.forall_mem_singleton.2 ?_⟩
    exact (RecordRecipe.singleId_of_addId hid (hf.id hid) hadd).add (hs.pending hwaiting).id hadd'

/-- Whatever the cells declare, each recipe has one id at most. -/
theorem kept_singleId (width : Nat) :
    Kept width fun s => s.Sound width ∧ ∀ r ∈ s.recipes, r.SingleId where
  context table last hs := ⟨(kept_sound width).context table last hs.1, hs.2⟩
  placed _ hf h hs := ⟨sound_of_placed hf h hs.1, singleId_of_placed hf h hs.1 hs.2⟩

/-! ## Column 0 -/

theorem globals_of_clauses (hcolumn : here.column ≠ 0) {cs : List Clause}
    (hcs : ∀ c ∈ cs, ∀ parts, c.value? = some (.operands parts none) → parts ≠ [])
    (h : cs.forM (clause here) s = .ok () s') : s'.globals = s.globals := by
  induction cs generalizing s with
  | nil =>
    cases h
    rfl
  | cons c cs ih =>
    obtain ⟨hc, hcs⟩ := List.forall_mem_cons.1 hcs
    obtain ⟨⟨⟩, s₁, hclause, hrest⟩ := bind_eq_ok h
    rw [ih hcs hrest]
    rcases clause_eq_ok hc hclause with ⟨name, -, rfl⟩ | ⟨table, base, f, target, s₂, -, hplaced, rfl⟩
    · rfl
    · cases hplaced with
      | global hzero => exact absurd hzero hcolumn
      | _ => rfl

/-- Only column 0 declares literals for all recipes. -/
theorem globals_of_cells {place : Nat → Location} (hplace : ∀ i, (place i).column = i) {row : Row}
    (hcolumn : column ≠ 0) (h : cells place column row s = .ok () s') : s'.globals = s.globals := by
  induction row generalizing column s with
  | nil =>
    cases h
    rfl
  | cons text row ih =>
    obtain ⟨⟨⟩, s₁, hcell, hrest⟩ := bind_eq_ok h
    obtain ⟨tokens, s₂, hlook, hclauses⟩ := bind_eq_ok hcell
    obtain ⟨-, rfl⟩ := look_eq_ok hlook
    have hhere : (place column).column ≠ 0 := by rwa [hplace]
    rw [ih (Nat.succ_ne_zero column) hrest,
      globals_of_clauses hhere (fun c hc parts => Clause.ofTokens_ne_nil hc) hclauses]

/-! ## Handing out -/

/-- The name of a literal of column 0 in the records of a table. -/
def globalName (table : String) (g : String × FieldRecipe) : String :=
  if table = g.1 then g.2.name else g.1 ++ "." ++ g.2.name

theorem name_defaultField (table : String) (g : String × FieldRecipe) :
    (defaultField table g).name = globalName table g := by
  unfold defaultField globalName
  split <;> rfl

theorem isLiteral_defaultField (table : String) (h : g.2.isLiteral = true) :
    (defaultField table g).isLiteral = true := by
  unfold defaultField
  split <;> exact h

theorem fixedValue?_defaultField (table : String) (g : String × FieldRecipe) :
    (defaultField table g).fixedValue? = g.2.fixedValue? := by
  unfold defaultField
  split <;> rfl

theorem table_withGlobals (globals : List (String × FieldRecipe)) (r : RecordRecipe) :
    (withGlobals globals r).table = r.table := congrArg Prod.fst (head_withGlobals globals r)

/-- A field that a recipe has itself is left as it is. -/
theorem declared_withGlobals_of_mem (h : name ∈ own.fields.map FieldRecipe.name) :
    (withGlobals globals own).declared name = own.declared name := by
  obtain ⟨defaults, heq, -, hnew, -⟩ := withGlobals_eq globals own
  have hnone : defaults.filter (·.name == name) = [] := by
    refine List.filter_eq_nil_iff.2 fun d hd hname => hnew d hd ?_
    rw [eq_of_beq hname]
    exact h
  rw [heq]
  unfold RecordRecipe.declared
  rw [List.filter_append, hnone, List.append_nil]

/-- A field that a recipe does not have itself is that of the first literal with its name. -/
theorem declared_withGlobals_of_not_mem (hown : globalName own.table g ∉ own.fields.map FieldRecipe.name)
    (hearlier : ∀ g' ∈ earlier, globalName own.table g' ≠ globalName own.table g) :
    (withGlobals (earlier ++ g :: later) own).declared (globalName own.table g) =
      [defaultField own.table g] := by
  -- the earlier literals leave the name free, and the later ones find it taken
  let before := withGlobals earlier own
  let d := defaultField own.table g
  have hname : d.name = globalName own.table g := name_defaultField own.table g
  have hfree : d.name ∉ before.fields.map FieldRecipe.name := by
    obtain ⟨defaults, heq, hdefaults, -⟩ := withGlobals_eq earlier own
    rw [hname, show before = _ from heq, List.map_append, List.mem_append, not_or]
    refine ⟨hown, fun hmem => ?_⟩
    obtain ⟨d', hd', hsame⟩ := List.mem_map.1 hmem
    obtain ⟨g', hg', rfl⟩ := hdefaults d' hd'
    exact hearlier g' hg' ((name_defaultField own.table g').symm.trans hsame)
  have hstep : withGlobals (earlier ++ g :: later) own = withGlobals later (before.push d) := by
    have hadd := ((addDefault_eq before d).resolve_left fun hmem => hfree hmem.1).2
    have hsplit : withGlobals (earlier ++ g :: later) own =
        withGlobals later (before.addDefault (defaultField before.table g)) := List.foldl_append
    rw [hsplit, show before.table = own.table from table_withGlobals earlier own, hadd]
  have htaken : d.name ∈ (before.push d).fields.map FieldRecipe.name :=
    List.mem_map_of_mem (RecordRecipe.mem_fields_push.2 (.inr rfl))
  rw [hstep, ← hname, declared_withGlobals_of_mem htaken, RecordRecipe.declared_push_self,
    RecordRecipe.declared_eq_nil_iff.2 hfree, List.nil_append]

/-- A finished recipe has what its cells have declared and the literals, without references. -/
theorem Finished.exists_own {recipes : List RecordRecipe} (h : s.Finished recipes) {j : Nat} {r : RecordRecipe}
    (hr : recipes[j]? = some r) :
    ∃ own, s.recipes[j]? = some own ∧ own.table = r.table ∧ own.parent = r.parent ∧
      ∀ name, r.declared name =
        ((withGlobals s.globals own).declared name).map (FieldRecipe.resolved s.named) := by
  rw [h.resolved] at hr
  unfold completed at hr
  rw [List.map_map, List.getElem?_map] at hr
  obtain ⟨own, hown, rfl⟩ := Option.map_eq_some_iff.1 hr
  obtain ⟨htable, hparent⟩ := Prod.mk.inj (head_withGlobals s.globals own)
  exact ⟨own, hown, htable.symm, hparent.symm, RecordRecipe.declared_resolved s.named⟩

end HeaderState

/--
A literal of column 0 has one name in the records of a recipe. If the recipe has no field of that name when
the cells have been compiled, and no earlier literal has the name in its records, every record has the value
of the literal there. If the recipe has a field of that name, every record has what this field's declarations
give, and nothing where they give nothing.
-/
theorem build_global {sheet : Worksheet} {row : Nat} {text : String} {texts : Row}
    {first s : HeaderState} {recipes : List RecordRecipe} (hrow : sheet.row row = text :: texts)
    (hfirst : HeaderState.cell (sheet.location row 0) text .start = .ok () first)
    (hrest : HeaderState.cells (sheet.location row) 1 texts first = .ok () s)
    (h : compileHeader sheet row = .ok recipes) {earlier later : List (String × FieldRecipe)}
    {g : String × FieldRecipe} (hglobals : first.globals = earlier ++ g :: later) {j : Nat}
    {r : RecordRecipe} (hr : recipes[j]? = some r) {cells : Row} {record : Record}
    (hbuild : r.build cells = some record) {name : String}
    (hname : name = HeaderState.globalName r.table g) :
    ∃ own, s.recipes[j]? = some own ∧ own.table = r.table ∧ own.parent = r.parent ∧
      (own.declared name = [] → (∀ g' ∈ earlier, HeaderState.globalName r.table g' ≠ name) →
        record.get? name = g.2.fixedValue?) ∧
      (own.declared name ≠ [] →
        record.get? name = ((own.declared name).filterMap fun f =>
            (f.resolved s.named).evaluate cells).foldl RecordRecipe.extended none ∧
          ((∀ f ∈ own.declared name, (f.resolved s.named).evaluate cells = none) →
            record.get? name = none)) := by
  have hcells : HeaderState.cells (sheet.location row) 0 (sheet.row row) .start = .ok () s := by
    rw [hrow]
    exact (bind_apply_of_ok hfirst).trans hrest
  have hfinished := finished_of_cells hcells h
  have hstart : HeaderState.start.Sound (sheet.row row).length ∧
      ∀ r ∈ HeaderState.start.recipes, r.SingleId :=
    ⟨HeaderState.sound_start _, by simp [HeaderState.start]⟩
  obtain ⟨hs, hsingle⟩ := (HeaderState.kept_singleId _).row (le_refl _) hstart hcells
  have hkept : s.globals = earlier ++ g :: later :=
    (HeaderState.globals_of_cells (fun _ => rfl) Nat.one_ne_zero hrest).trans hglobals
  have hlist := (HeaderState.shape_of_finished hs hfinished).ids r (List.mem_of_getElem? hr)
  obtain ⟨own, hown, htable, hparent, hdeclared⟩ := hfinished.exists_own hr
  rw [← htable] at hname ⊢
  refine ⟨own, hown, rfl, hparent, fun hfree hearlier => ?_, fun htaken => ?_⟩
  · -- the only declaration of the name is the literal
    have hliteral : (HeaderState.defaultField own.table g).isLiteral = true :=
      HeaderState.isLiteral_defaultField own.table (hs.globals g (by rw [hkept]; simp)).2
    have hone : r.declared name = [HeaderState.defaultField own.table g] := by
      rw [hname] at hfree hearlier ⊢
      rw [hdeclared, hkept, HeaderState.declared_withGlobals_of_not_mem
        (RecordRecipe.declared_eq_nil_iff.1 hfree) hearlier, List.map_singleton,
        FieldRecipe.resolved_of_isLiteral hliteral]
    rw [RecordRecipe.get?_of_build_declared hbuild (fun _ => by rw [hone]; exact le_refl 1) hlist, hone,
      RecordRecipe.foldl_extended_evaluate, FieldRecipe.evaluate_of_isLiteral hliteral,
      HeaderState.fixedValue?_defaultField]
  · -- the literals leave the declarations of the name as they are
    have hsame : r.declared name = (own.declared name).map (FieldRecipe.resolved s.named) := by
      rw [hdeclared, HeaderState.declared_withGlobals_of_mem
        (not_imp_comm.1 RecordRecipe.declared_eq_nil_iff.2 htaken)]
    have hlength : name = idField → (r.declared name).length ≤ 1 := by
      intro hid
      rw [hsame, List.length_map, hid]
      exact hsingle own (List.mem_of_getElem? hown)
    have hvalue : record.get? name = ((own.declared name).filterMap fun f =>
        (f.resolved s.named).evaluate cells).foldl RecordRecipe.extended none := by
      rw [RecordRecipe.get?_of_build_declared hbuild hlength hlist, hsame, List.filterMap_map]
      rfl
    refine ⟨hvalue, fun hnothing => ?_⟩
    rw [hvalue, List.filterMap_eq_nil_iff.2 hnothing]
    rfl

/-- A header whose literal of column 0 has the name of a column of its own table, with one row below it. -/
def siteSheet : Worksheet :=
  ⟨"a.csv", "a", [["#tags #project.site=\"X\"", "#project.id", "#project.site", "#project%child.id",
    "#sample.id"], ["", "P1", "", "C1", "S1"]]⟩

/-- The state after its first cell. -/
def siteFirst : HeaderState where
  table := some "project"
  last := some ⟨.global, "project", "site"⟩
  recipes := []
  globals := [("project", ⟨"site", [.literal "X"], false, 0⟩)]
  child := none

/-- The state in which its cells end. -/
def siteState : HeaderState where
  table := some "sample"
  last := some ⟨.recipe 2, "sample", "id"⟩
  recipes := [⟨"project", [⟨"id", [.column 1], false, 1⟩, ⟨"site", [.column 2], false, 2⟩], none⟩,
    ⟨"project", [⟨"parentID", [.column 1], false, 1⟩, ⟨"id", [.column 3], false, 3⟩], some 0⟩,
    ⟨"sample", [⟨"id", [.column 4], false, 4⟩], none⟩]
  globals := [("project", ⟨"site", [.literal "X"], false, 0⟩)]
  child := some ⟨"project", some 1, none⟩

/-- Its recipes: the project keeps its column, its child and the sample get the literal. -/
def siteRecipes : List RecordRecipe :=
  [⟨"project", [⟨"id", [.column 1], false, 1⟩, ⟨"site", [.column 2], false, 2⟩], none⟩,
    ⟨"project", [⟨"parentID", [.column 1], false, 1⟩, ⟨"id", [.column 3], false, 3⟩,
      ⟨"site", [.literal "X"], false, 0⟩], some 0⟩,
    ⟨"sample", [⟨"id", [.column 4], false, 4⟩, ⟨"project.site", [.literal "X"], false, 0⟩], none⟩]

/-- An empty cell leaves the project without a site, while its child and the sample have the literal. -/
theorem build_global_site :
    HeaderState.cell (siteSheet.location 0 0) "#tags #project.site=\"X\"" .start = .ok () siteFirst ∧
      HeaderState.cells (siteSheet.location 0) 1 (siteSheet.row 0).tail siteFirst = .ok () siteState ∧
      compileHeader siteSheet 0 = .ok siteRecipes ∧
      ∃ project child sample, siteRecipes.map (·.build (siteSheet.row 1)) =
          [some project, some child, some sample] ∧
        project.get? "site" = none ∧ child.get? "site" = some (.scalar "X") ∧
        sample.get? "project.site" = some (.scalar "X") := by
  have hfirst : HeaderState.cell (siteSheet.location 0 0) "#tags #project.site=\"X\"" .start =
      .ok () siteFirst := by
    decide +kernel
  have hrest : HeaderState.cells (siteSheet.location 0) 1 (siteSheet.row 0).tail siteFirst =
      .ok () siteState := by
    decide +kernel
  have hcompiled : compileHeader siteSheet 0 = .ok siteRecipes := by decide +kernel
  have hglobals : siteFirst.globals = [] ++ ("project", ⟨"site", [.literal "X"], false, 0⟩) :: [] := rfl
  have hbuilt : ∀ r ∈ siteRecipes, (r.build (siteSheet.row 1)).isSome := by decide +kernel
  obtain ⟨project, hproject⟩ := Option.isSome_iff_exists.1 (hbuilt siteRecipes[0] (by simp))
  obtain ⟨child, hchild⟩ := Option.isSome_iff_exists.1 (hbuilt siteRecipes[1] (by simp))
  obtain ⟨sample, hsample⟩ := Option.isSome_iff_exists.1 (hbuilt siteRecipes[2] (by simp))
  refine ⟨hfirst, hrest, hcompiled, project, child, sample, ?_, ?_, ?_, ?_⟩
  · show [siteRecipes[0].build _, siteRecipes[1].build _, siteRecipes[2].build _] = _
    rw [hproject, hchild, hsample]
  · obtain ⟨own, hown, -, -, -, htaken⟩ :=
      build_global rfl hfirst hrest hcompiled hglobals (j := 0) rfl hproject rfl
    cases hown
    exact (htaken (by decide)).2 (by decide +kernel)
  · obtain ⟨own, hown, -, -, hfree, -⟩ :=
      build_global rfl hfirst hrest hcompiled hglobals (j := 1) rfl hchild rfl
    cases hown
    exact (hfree (by decide) (by simp)).trans (by decide +kernel)
  · obtain ⟨own, hown, -, -, hfree, -⟩ :=
      build_global rfl hfirst hrest hcompiled hglobals (j := 2) rfl hsample rfl
    cases hown
    exact (hfree (by decide) (by simp)).trans (by decide +kernel)

end TagHarvest
