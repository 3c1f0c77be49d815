/-
What references read. References are looked up among the literals of column 0 first and among the fields of
the records after that, while a record keeps the field that its own table declares. So a reference reads the
field of the record, unless a literal of column 0 has the name of a field that the table declares itself.
-/
import TagHarvest.Proofs.Header.WellFormed
import Mathlib.Data.List.Pairwise

namespace TagHarvest

/-! ## Fields without a namesake -/

namespace RecordRecipe

variable {r r' : RecordRecipe} {f g : FieldRecipe}

/-- Only lists are declared more than once. -/
def Consistent (r : RecordRecipe) : Prop :=
  r.fields.Pairwise fun f g => f.name = g.name → f.list = true ∧ g.list = true

theorem Consistent.eq_of_name (h : r.Consistent) (hf : f ∈ r.fields) (hg : g ∈ r.fields)
    (hname : f.name = g.name) (hlist : g.list = false) : f = g := by
  by_contra hne
  have hsymm : Std.Symm fun f g : FieldRecipe => f.name = g.name → f.list = true ∧ g.list = true :=
    ⟨fun f g hfg hgf => (hfg hgf.symm).symm⟩
  have hboth := h.forall hf hg hne hname
  rw [hlist] at hboth
  exact Bool.false_ne_true hboth.2

/-- A field of a new name has no namesake. -/
theorem Consistent.append (h : r.Consistent) {fields : List FieldRecipe}
    (hnew : ∀ f ∈ fields, f.name ∉ r.fields.map FieldRecipe.name)
    (hnodup : (fields.map FieldRecipe.name).Nodup) :
    RecordRecipe.Consistent { r with fields := r.fields ++ fields } := by
  refine List.pairwise_append.2 ⟨h, ?_, fun f hf g hg hname => ?_⟩
  · exact (List.pairwise_map.1 hnodup).imp fun hne hname => absurd hname hne
  · exact absurd (List.mem_map_of_mem (f := FieldRecipe.name) hf) (hname ▸ hnew g hg)

theorem Consistent.add (h : r.Consistent) (hadd : r.add f = .ok r') : r'.Consistent := by
  obtain ⟨rfl, hold⟩ := add_eq_ok hadd
  refine List.pairwise_append.2 ⟨h, List.pairwise_singleton _ _, fun g hg g' hg' hname => ?_⟩
  obtain rfl := List.mem_singleton.1 hg'
  obtain ⟨first, hfirst, hfield, hfirstName⟩ := exists_field? (List.mem_map_of_mem (f := FieldRecipe.name) hg)
  rw [hname] at hfield
  obtain ⟨hlist, hlist'⟩ := hold first hfield
  refine ⟨?_, hlist'⟩
  cases hg' : g.list with
  | true => rfl
  | false =>
    -- a field that is no list has no namesake, so it is the first of its name, which is a list
    obtain rfl := h.eq_of_name hfirst hg hfirstName hg'
    rw [hlist] at hg'
    cases hg'

end RecordRecipe

namespace HeaderState

variable {width column : Nat} {s s' : HeaderState} {table name : String} {f : FieldRecipe} {target : Target}

/-- Only lists are declared more than once in the recipes of the tables' own records. -/
def AllConsistent (recipes : List RecordRecipe) : Prop :=
  ∀ r ∈ recipes, r.parent = none → r.Consistent

/-- The recipe of a child record may have a field twice, and is left out. -/
theorem AllConsistent.concat_child {recipes : List RecordRecipe} (h : AllConsistent recipes)
    {r : RecordRecipe} {i : Nat} (hhead : r.head = (table, some i)) : AllConsistent (recipes ++ [r]) := by
  refine List.forall_mem_append.2 ⟨h, List.forall_mem_singleton.2 fun hparent => ?_⟩
  obtain ⟨-, hchild⟩ := Prod.mk.inj hhead
  rw [hchild] at hparent
  cases hparent

theorem allConsistent_of_placed (h : Placed column table f s target s') (hs : AllConsistent s.recipes) :
    AllConsistent s'.recipes := by
  cases h with
  | global => exact hs
  | nowhere => exact hs
  | pending => exact hs
  | field hr hadd =>
    intro r hmem hparent
    rcases List.mem_or_eq_of_mem_set hmem with hmem | rfl
    · exact hs r hmem hparent
    · obtain ⟨-, hold⟩ := Prod.mk.inj (head_of_add hadd)
      exact (hs _ (List.mem_of_getElem? hr) (hold.symm.trans hparent)).add hadd
  | own =>
    refine List.forall_mem_append.2 ⟨hs, List.forall_mem_singleton.2 fun _ => ?_⟩
    exact List.pairwise_singleton _ _
  | child _ _ _ hc hadd => exact hs.concat_child ((head_of_add hadd).trans (head_childOf hc))
  | childOfWaiting _ _ _ hc hadd _ hadd' =>
    exact hs.concat_child ((head_of_add hadd').trans ((head_of_add hadd).trans (head_childOf hc)))

theorem kept_allConsistent (width : Nat) : Kept width fun s => AllConsistent s.recipes where
  context _ _ hs := hs
  placed _ _ h hs := allConsistent_of_placed h hs

theorem allConsistent_completed (hs : AllConsistent s.recipes) : AllConsistent s.completed := by
  intro r hr hparent
  obtain ⟨r₀, hr₀, rfl⟩ := List.mem_map.1 hr
  obtain ⟨defaults, heq, -, hnew, hnodup⟩ := withGlobals_eq s.globals r₀
  rw [heq] at hparent ⊢
  exact (hs r₀ hr₀ hparent).append hnew hnodup

/-! ## Looking up -/

/-- The text of a field with a literal as its only operand. -/
def literalText? (f : FieldRecipe) : Option String :=
  match f.operands with
  | [.literal text] => some text
  | _ => none

/-- The literal of column 0 that references to a field find first. -/
def literalOf? (globals : List (String × FieldRecipe)) (table name : String) : Option String :=
  globals.findSome? fun g => if g.1 = table ∧ g.2.name = name then literalText? g.2 else none

theorem source?_of_isLiteral (hf : f.isLiteral = true) : source? f = (literalText? f).map .literal := by
  unfold source? literalText?
  split
  · rename_i i hi
    unfold FieldRecipe.isLiteral at hf
    rw [hi] at hf
    cases hf
  · rename_i text htext
    rw [htext]
    rfl
  · rename_i hcolumn hliteral
    split
    · rename_i text htext
      exact absurd htext (hliteral text)
    · rfl

/-- Among the literals of column 0 the first of a name is found. -/
theorem lookup_globals {globals : List (String × FieldRecipe)}
    (hglobals : ∀ g ∈ globals, g.2.isLiteral = true) (table name : String) :
    (globals.filterMap fun (t, f) => (source? f).map fun o => ((t, f.name), o)).lookup (table, name) =
      (literalOf? globals table name).map Operand.literal := by
  induction globals with
  | nil => rfl
  | cons g globals ih =>
    obtain ⟨t, f⟩ := g
    obtain ⟨hf, hrest⟩ := List.forall_mem_cons.1 hglobals
    have hsource : source? f = (literalText? f).map .literal := source?_of_isLiteral hf
    unfold literalOf?
    rw [List.findSome?_cons]
    cases htext : literalText? f with
    | none =>
      have hnone : (source? f).map (fun o => ((t, f.name), o)) = none := by rw [hsource, htext]; rfl
      rw [List.filterMap_cons_none (by exact hnone), ih hrest, ite_self]
      rfl
    | some text =>
      have hsome : (source? f).map (fun o => ((t, f.name), o)) = some ((t, f.name), .literal text) := by
        rw [hsource, htext]
        rfl
      rw [List.filterMap_cons_some (by exact hsome), List.lookup_cons]
      by_cases hname : t = table ∧ f.name = name
      · obtain ⟨rfl, rfl⟩ := hname
        simp
      · have hkey : ((table, name) == (t, f.name)) = false := by
          rw [beq_eq_false_iff_ne]
          rintro h
          cases h
          exact hname ⟨rfl, rfl⟩
        rw [hkey, if_neg hname]
        exact ih hrest

/-- What a reference to a table's own field finds: a literal of column 0, or what the field itself reads. -/
theorem lookup_named (hs : s.Sound width) (hconsistent : AllConsistent s.recipes) {q : RecordRecipe}
    (hq : q ∈ s.completed) (hown : q.parent = none) {g : FieldRecipe} (hg : g ∈ q.fields)
    (hlist : g.list = false) {o : Operand} (h : s.named.lookup (q.table, g.name) = some o) :
    match literalOf? s.globals q.table g.name with
    | some text => o = .literal text
    | none => source? g = some o := by
  have hglobals := lookup_globals (fun g hg => (hs.globals g hg).2) q.table g.name
  unfold named HeaderState.sources at h
  rw [List.lookup_append, hglobals] at h
  cases hliteral : literalOf? s.globals q.table g.name with
  | some text =>
    rw [hliteral] at h
    exact (Option.some.inj h).symm
  | none =>
    rw [hliteral] at h
    -- the source is a field of a table's own recipe, and there is one recipe and one field of these names
    have hrecipes : (HeaderState.sources [] s.completed).lookup (q.table, g.name) = some o := h
    rcases mem_sources (mem_of_lookup hrecipes) with
      ⟨f, hf, -⟩ | ⟨r, hr, hchild, htable, f, hf, hname, hsource⟩
    · cases hf
    · have hparent : r.parent = none := by simpa [RecordRecipe.isChild] using hchild
      obtain ⟨i, hi⟩ := List.getElem?_of_mem hr
      obtain ⟨j, hj⟩ := List.getElem?_of_mem hq
      have harranged : Arranged s.completed := hs.arranged.map fun r => head_withGlobals s.globals r
      obtain rfl := harranged.own hi hj hparent hown htable
      obtain rfl : r = q := Option.some.inj (hi.symm.trans hj)
      obtain rfl := (allConsistent_completed hconsistent r hr hown).eq_of_name hf hg hname hlist
      exact hsource

end HeaderState

/-! ## What an operand reads -/

/--
On every row the operand has the text that the field has as its value, and has none where the field reads a
column and is left without a value.
-/
def Operand.Reads (o : Operand) (g : FieldRecipe) : Prop :=
  ∀ cells : Row, (∀ text, g.evaluate cells = some (.scalar text) → o.text? cells = some text) ∧
    ((∃ i, .column i ∈ g.operands) → g.evaluate cells = none → o.text? cells = none)

namespace Operand

variable {o : Operand} {g : FieldRecipe} {text : String}

theorem text?_column_ne_empty {row : Row} {i : Nat} (h : (column i).text? row = some text) : text ≠ "" := by
  unfold text? at h
  dsimp only at h
  split at h
  · cases h
  · split at h
    · cases h
    · rename_i hne
      cases h
      simpa using hne

/-- The only operand of a field reads the field. -/
theorem reads_of_singleton (hg : g.operands = [o]) (hlist : g.list = false) : o.Reads g := by
  have hvalue : ∀ cells, g.evaluate cells =
      (o.text? cells).bind fun text => if text.isEmpty then none else some (.scalar text) := by
    intro cells
    unfold FieldRecipe.evaluate
    rw [FieldRecipe.text?_of_singleton hg, hlist]
    rfl
  intro cells
  rw [hvalue]
  refine ⟨fun text h => ?_, fun ⟨i, hi⟩ h => ?_⟩
  · obtain ⟨text', ho, hscalar⟩ := Option.bind_eq_some_iff.1 h
    split at hscalar
    · cases hscalar
    · cases hscalar
      exact ho
  · rw [hg] at hi
    obtain rfl := List.mem_singleton.1 hi
    cases ho : (column i).text? cells with
    | none => rfl
    | some text =>
      -- a column never has the empty text, so the field would have a value
      rw [ho, Option.bind_some, if_neg (by simpa using text?_column_ne_empty ho)] at h
      cases h

/-- A literal reads a field if the field is made of literals and has the same text. -/
theorem literal_reads_iff (hlist : g.list = false) :
    (literal text).Reads g ↔
      (∀ i, .column i ∉ g.operands) ∧ ∀ cells v, g.evaluate cells = some v → v = .scalar text := by
  constructor
  · refine fun h => ⟨fun i hi => ?_, fun cells v hv => ?_⟩
    · -- on the empty row a column is empty, and a literal is not
      have hempty : g.evaluate [] = none := FieldRecipe.evaluate_of_mem hi rfl
      cases (h []).2 ⟨i, hi⟩ hempty
    · obtain ⟨text', rfl⟩ := FieldRecipe.exists_scalar_of_evaluate hlist hv
      rw [Option.some.inj ((h cells).1 text' hv)]
  · rintro ⟨hcolumns, hvalue⟩ cells
    refine ⟨fun text' hv => ?_, fun ⟨i, hi⟩ _ => absurd hi (hcolumns i)⟩
    cases hvalue cells _ hv
    rfl

end Operand

/--
A reference reads the field of the referred table's own records that has its name, if this is no list, unless
a literal of column 0 has the same table and name: then it reads that literal, and so reads the field only if
the field is made of literals and has the same text. Without a text of the reference the field that refers has
no value.
-/
theorem reference_reads_iff {sheet : Worksheet} {row : Nat} {s : HeaderState} {recipes : List RecordRecipe}
    (hcells : HeaderState.cells (sheet.location row) 0 (sheet.row row) .start = .ok () s)
    (h : compileHeader sheet row = .ok recipes) {j k n : Nat} {r : RecordRecipe} {f : FieldRecipe}
    {ref : FieldReference} (hr : s.recipes[j]? = some r) (hf : r.fields[k]? = some f)
    (hoperand : f.operands[n]? = some (.reference ref)) {q : RecordRecipe} {g : FieldRecipe} (hq : q ∈ recipes)
    (hown : q.parent = none) (htable : q.table = ref.table) (hg : g ∈ q.fields) (hname : g.name = ref.field)
    (hlist : g.list = false) :
    ∃ r' f' o, recipes[j]? = some r' ∧ r'.fields[k]? = some f' ∧ f'.operands[n]? = some o ∧
      f'.name = f.name ∧ (∀ cells, o.text? cells = none → f'.evaluate cells = none) ∧
      (o.Reads g ↔ ∀ text, HeaderState.literalOf? s.globals ref.table ref.field = some text →
        (∀ i, .column i ∉ g.operands) ∧ ∀ cells v, g.evaluate cells = some v → v = .scalar text) := by
  obtain ⟨s', hcells', hfinished⟩ := finished_of_compileHeader h
  obtain rfl : s = s' := by
    rw [hcells] at hcells'
    cases hcells'
    rfl
  have hs := HeaderState.sound_of_cells hcells
  have hstart : HeaderState.AllConsistent HeaderState.start.recipes := by
    simp [HeaderState.AllConsistent, HeaderState.start]
  have hconsistent := (HeaderState.kept_allConsistent _).row (le_refl _) hstart hcells
  -- the operand keeps its place when literals of column 0 come after the fields
  obtain ⟨defaults, heq, -⟩ := HeaderState.withGlobals_eq s.globals r
  have hr' : s.completed[j]? = some (HeaderState.withGlobals s.globals r) := by
    unfold HeaderState.completed
    rw [List.getElem?_map, hr]
    rfl
  have hf' : (HeaderState.withGlobals s.globals r).fields[k]? = some f := by
    rw [heq, List.getElem?_append_left (List.getElem?_eq_some_iff.1 hf).1]
    exact hf
  obtain ⟨o, ho⟩ := hfinished.found _ (List.mem_of_getElem? hr') f (List.mem_of_getElem? hf') ref
    (List.mem_of_getElem? hoperand)
  have hresolved : (Operand.reference ref).resolved s.named = o := by
    show (s.named.lookup (ref.table, ref.field)).getD _ = o
    rw [ho]
    rfl
  have hoperand' : (f.resolved s.named).operands[n]? = some o := by
    show (f.operands.map (Operand.resolved s.named))[n]? = some o
    rw [List.getElem?_map, hoperand, Option.map_some, hresolved]
  refine ⟨(HeaderState.withGlobals s.globals r).resolved s.named, f.resolved s.named, o, ?_, ?_, hoperand',
    rfl, fun cells => FieldRecipe.evaluate_of_mem (List.mem_of_getElem? hoperand'), ?_⟩
  · rw [hfinished.resolved, List.getElem?_map, hr']
    rfl
  · show ((HeaderState.withGlobals s.globals r).fields.map _)[k]? = _
    rw [List.getElem?_map, hf']
    rfl
  · rw [hfinished.resolved] at hq
    obtain ⟨q₀, hq₀, rfl⟩ := List.mem_map.1 hq
    obtain ⟨g₀, hg₀, rfl⟩ := List.mem_map.1 hg
    obtain ⟨reftable, reffield, usedAt⟩ := ref
    obtain rfl : q₀.table = reftable := htable
    obtain rfl : g₀.name = reffield := hname
    have hfound := HeaderState.lookup_named hs hconsistent hq₀ hown hg₀ hlist ho
    cases hliteral : HeaderState.literalOf? s.globals q₀.table g₀.name with
    | some text =>
      rw [hliteral] at hfound
      obtain rfl : o = .literal text := hfound
      rw [Operand.literal_reads_iff hlist]
      refine ⟨fun hg t ht => ?_, fun hg => hg text rfl⟩
      cases ht
      exact hg
    | none =>
      rw [hliteral] at hfound
      obtain ⟨hsingle, hne⟩ := HeaderState.source?_eq_some_iff.1 hfound
      have hsingle' : (g₀.resolved s.named).operands = [o] := by
        show g₀.operands.map (Operand.resolved s.named) = [o]
        rw [hsingle, List.map_singleton, Operand.resolved_of_ne hne]
      exact iff_of_true (Operand.reads_of_singleton hsingle' hlist) fun _ h => by cases h

/-- A header with a reference to a column that has the name of a literal of column 0. -/
def namesakeSheet : Worksheet :=
  ⟨"a.csv", "a", [["#tags #project.site=\"X\"", "#project.id", "#project.site", "#sample.id",
    "#sample.origin=#project.site"]]⟩

/-- The state in which its cells end. -/
def namesakeState : HeaderState where
  table := some "sample"
  last := some ⟨.recipe 1, "sample", "origin"⟩
  recipes := [⟨"project", [⟨"id", [.column 1], false, 1⟩, ⟨"site", [.column 2], false, 2⟩], none⟩,
    ⟨"sample", [⟨"id", [.column 3], false, 3⟩, ⟨"origin", [.reference ⟨"project", "site", 4⟩], false, 4⟩],
      none⟩]
  globals := [("project", ⟨"site", [.literal "X"], false, 0⟩)]
  child := none

/-- Its recipes: the project keeps the column, and the reference gets the literal. -/
def namesakeRecipes : List RecordRecipe :=
  [⟨"project", [⟨"id", [.column 1], false, 1⟩, ⟨"site", [.column 2], false, 2⟩], none⟩,
    ⟨"sample", [⟨"id", [.column 3], false, 3⟩, ⟨"origin", [.literal "X"], false, 4⟩,
      ⟨"project.site", [.literal "X"], false, 0⟩], none⟩]

/-- The reference does not read the column that makes the field of the project. -/
theorem reference_reads_iff_namesake :
    HeaderState.cells (namesakeSheet.location 0) 0 (namesakeSheet.row 0) .start = .ok () namesakeState ∧
      compileHeader namesakeSheet 0 = .ok namesakeRecipes ∧
      ¬ (Operand.literal "X").Reads ⟨"site", [.column 2], false, 2⟩ := by
  have hcells : HeaderState.cells (namesakeSheet.location 0) 0 (namesakeSheet.row 0) .start =
      .ok () namesakeState := by
    decide +kernel
  have hcompiled : compileHeader namesakeSheet 0 = .ok namesakeRecipes := by decide +kernel
  have hoperand : [Operand.reference ⟨"project", "site", 4⟩][0]? =
      some (.reference ⟨"project", "site", 4⟩) := rfl
  refine ⟨hcells, hcompiled, fun hreads => ?_⟩
  obtain ⟨r', f', o, hr', hf', ho, -, -, hiff⟩ :=
    reference_reads_iff hcells hcompiled (j := 1) (k := 1) (n := 0) rfl rfl hoperand
      (q := ⟨"project", [⟨"id", [.column 1], false, 1⟩, ⟨"site", [.column 2], false, 2⟩], none⟩)
      (g := ⟨"site", [.column 2], false, 2⟩) List.mem_cons_self rfl rfl (by simp) rfl rfl
  cases hr'
  cases hf'
  cases ho
  exact (hiff.1 hreads "X" rfl).1 2 List.mem_cons_self

end TagHarvest
