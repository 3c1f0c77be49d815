/-
The end of a header row. Every recipe gets the literals of column 0 that it does not declare itself, and
then every reference is replaced by the source that it names; the tables and the parents stay as they are.
`finished_of_finish` says so of a row that ends without a fault.
-/
import TagHarvest.Header.Compile
import TagHarvest.Proofs.Effects
import TagHarvest.Proofs.Header.Recipe

namespace TagHarvest

variable {sources : List ((String × String) × Operand)} {o o' : Operand} {name : String}

/-! ## Replacing references -/

/-- The operand, or the source that it names. -/
def Operand.resolved (sources : List ((String × String) × Operand)) : Operand → Operand
  | .reference r => (sources.lookup (r.table, r.field)).getD (.reference r)
  | o => o

theorem Operand.resolved_of_ne (h : ∀ r, o ≠ .reference r) : o.resolved sources = o := by
  cases o with
  | literal text => rfl
  | column i => rfl
  | reference r => exact absurd rfl (h r)

/-- The field with its references replaced. -/
def FieldRecipe.resolved (sources : List ((String × String) × Operand)) (f : FieldRecipe) : FieldRecipe :=
  { f with operands := f.operands.map (Operand.resolved sources) }

/-- The recipe with all its references replaced. -/
def RecordRecipe.resolved (sources : List ((String × String) × Operand)) (r : RecordRecipe) : RecordRecipe :=
  { r with fields := r.fields.map (FieldRecipe.resolved sources) }

theorem FieldRecipe.resolved_rename (f : FieldRecipe) (name : String) :
    FieldRecipe.resolved sources { f with name := name } = { f.resolved sources with name := name } := rfl

theorem FieldRecipe.resolved_of_isLiteral {f : FieldRecipe} (h : f.isLiteral = true) :
    f.resolved sources = f := by
  have hmap : f.operands.map (Operand.resolved sources) = f.operands := by
    conv_rhs => rw [← List.map_id f.operands]
    refine List.map_congr_left fun o ho => ?_
    have hliteral : o.isLiteral = true := List.all_eq_true.1 h o ho
    exact Operand.resolved_of_ne fun r hr => by
      rw [hr] at hliteral
      cases hliteral
  unfold resolved
  rw [hmap]

theorem RecordRecipe.field?_resolved (r : RecordRecipe) (name : String) :
    (r.resolved sources).field? name = (r.field? name).map (FieldRecipe.resolved sources) := by
  unfold field? resolved
  rw [List.find?_map]
  rfl

/-! ## Sources -/

namespace HeaderState

/-- A source is a literal or a column. -/
theorem source?_eq_some_iff {f : FieldRecipe} :
    source? f = some o ↔ f.operands = [o] ∧ ∀ r, o ≠ .reference r := by
  unfold source?
  constructor
  · intro h
    split at h
    · rename_i i hi
      cases h
      exact ⟨hi, nofun⟩
    · rename_i text htext
      cases h
      exact ⟨htext, nofun⟩
    · cases h
  · rintro ⟨hf, ho⟩
    rw [hf]
    cases o with
    | literal text => rfl
    | column i => rfl
    | reference r => exact absurd rfl (ho r)

/-- What a reference can name is the only operand of a literal of column 0 or of a field of a table's own. -/
theorem mem_sources {globals : List (String × FieldRecipe)} {recipes : List RecordRecipe} {table : String}
    (h : ((table, name), o) ∈ HeaderState.sources globals recipes) :
    (∃ f, (table, f) ∈ globals ∧ f.name = name ∧ source? f = some o) ∨
      ∃ r ∈ recipes, r.isChild = false ∧ r.table = table ∧
        ∃ f ∈ r.fields, f.name = name ∧ source? f = some o := by
  unfold HeaderState.sources at h
  rcases List.mem_append.1 h with hglobal | hrecipe
  · obtain ⟨⟨t, f⟩, hf, hsource⟩ := List.mem_filterMap.1 hglobal
    obtain ⟨o', ho', heq⟩ := Option.map_eq_some_iff.1 hsource
    cases heq
    exact .inl ⟨f, hf, rfl, ho'⟩
  · obtain ⟨r, hr, hrest⟩ := List.mem_flatMap.1 hrecipe
    obtain ⟨hr, hown⟩ := List.mem_filter.1 hr
    obtain ⟨f, hf, hsource⟩ := List.mem_filterMap.1 hrest
    obtain ⟨o', ho', heq⟩ := Option.map_eq_some_iff.1 hsource
    cases heq
    exact .inr ⟨r, hr, by simpa using hown, rfl, f, hf, rfl, ho'⟩

theorem mem_of_lookup {α β : Type} [BEq α] [LawfulBEq α] {l : List (α × β)} {a : α} {b : β}
    (h : l.lookup a = some b) : (a, b) ∈ l := by
  obtain ⟨l₁, l₂, rfl, -⟩ := List.lookup_eq_some_iff.1 h
  simp

theorem resolve_eq_ok {place : Nat → Location} (h : resolve place sources o = .ok o') :
    o' = o.resolved sources ∧
      ∀ r, o = .reference r → sources.lookup (r.table, r.field) = some o' := by
  cases o with
  | literal text =>
    cases h
    exact ⟨rfl, nofun⟩
  | column i =>
    cases h
    exact ⟨rfl, nofun⟩
  | reference r =>
    unfold resolve at h
    dsimp only at h
    cases hlookup : sources.lookup (r.table, r.field) with
    | none =>
      rw [hlookup] at h
      cases h
    | some source =>
      rw [hlookup] at h
      cases h
      refine ⟨?_, fun r' hr' => ?_⟩
      · show o' = (sources.lookup (r.table, r.field)).getD (.reference r)
        rw [hlookup]
        rfl
      · cases hr'
        exact hlookup

variable {place : Nat → Location} {r r' : RecordRecipe} {recipes : List RecordRecipe} {s : HeaderState}

theorem resolveField_eq_ok {f f' : FieldRecipe}
    (h : (do return { f with operands := ← f.operands.mapM (resolve place sources) }) =
      Except.ok (ε := TagError) f') :
    f' = f.resolved sources ∧
      ∀ ref, .reference ref ∈ f.operands → ∃ o, sources.lookup (ref.table, ref.field) = some o := by
  obtain ⟨os, hos, hf'⟩ := except_bind_eq_ok h
  cases hf'
  have hall := mapM_eq_ok hos
  refine ⟨?_, fun ref href => ?_⟩
  · rw [eq_map_of_forall₂ hall fun o o' ho => (resolve_eq_ok ho).1]
    rfl
  · obtain ⟨o, -, ho⟩ := exists_of_mem_forall₂ hall.flip href
    exact ⟨o, (resolve_eq_ok ho).2 ref rfl⟩

theorem resolveRecipe_eq_ok (h : resolveRecipe place sources r = .ok r') :
    r' = r.resolved sources ∧
      ∀ f ∈ r.fields, ∀ ref, .reference ref ∈ f.operands →
        ∃ o, sources.lookup (ref.table, ref.field) = some o := by
  obtain ⟨fields, hfields, hr'⟩ := except_bind_eq_ok h
  cases hr'
  have hall := mapM_eq_ok hfields
  refine ⟨?_, fun f hf => ?_⟩
  · rw [eq_map_of_forall₂ hall fun f f' hf => (resolveField_eq_ok hf).1]
    rfl
  · obtain ⟨f', -, hf'⟩ := exists_of_mem_forall₂ hall.flip hf
    exact (resolveField_eq_ok hf').2

/-- What a reference is replaced by is no reference. -/
theorem ne_reference_of_lookup {globals : List (String × FieldRecipe)} {key : String × String}
    (h : (HeaderState.sources globals recipes).lookup key = some o) (ref : FieldReference) :
    o ≠ .reference ref := by
  obtain ⟨table, name⟩ := key
  rcases mem_sources (mem_of_lookup h) with ⟨f, -, -, hf⟩ | ⟨r, -, -, -, f, -, -, hf⟩
  · exact (source?_eq_some_iff.1 hf).2 ref
  · exact (source?_eq_some_iff.1 hf).2 ref

/-! ## Literals of column 0 -/

/-- A literal of column 0 in the records of a table: that of another table keeps its table's name. -/
def defaultField (table : String) (g : String × FieldRecipe) : FieldRecipe :=
  if table = g.1 then g.2 else { g.2 with name := g.1 ++ "." ++ g.2.name }

theorem addDefault_eq (r : RecordRecipe) (f : FieldRecipe) :
    f.name ∈ r.fields.map FieldRecipe.name ∧ r.addDefault f = r ∨
      f.name ∉ r.fields.map FieldRecipe.name ∧ r.addDefault f = r.push f := by
  unfold RecordRecipe.addDefault
  cases hf : r.field? f.name with
  | some old =>
    have hold : f.name ∈ r.fields.map FieldRecipe.name := by
      by_contra hn
      rw [RecordRecipe.field?_eq_none_iff.2 hn] at hf
      cases hf
    exact .inl ⟨hold, rfl⟩
  | none => exact .inr ⟨RecordRecipe.field?_eq_none_iff.1 hf, rfl⟩

/-- The literals of column 0 come after the declared fields, where no other field has their name. -/
theorem withGlobals_eq (globals : List (String × FieldRecipe)) (r : RecordRecipe) :
    ∃ defaults, withGlobals globals r = { r with fields := r.fields ++ defaults } ∧
      (∀ d ∈ defaults, ∃ g ∈ globals, d = defaultField r.table g) ∧
      (∀ d ∈ defaults, d.name ∉ r.fields.map FieldRecipe.name) ∧ (defaults.map FieldRecipe.name).Nodup := by
  induction globals generalizing r with
  | nil => exact ⟨[], by simp [withGlobals], by simp, by simp, List.nodup_nil⟩
  | cons g globals ih =>
    -- the first literal is added or not, and the others meet what it leaves
    let first := defaultField r.table g
    have hstep : withGlobals (g :: globals) r = withGlobals globals (r.addDefault first) := rfl
    rcases addDefault_eq r first with ⟨-, hadd⟩ | ⟨hnew, hadd⟩
    · obtain ⟨defaults, heq, hmem, habsent, hnodup⟩ := ih r
      refine ⟨defaults, hstep.trans (by rw [hadd, heq]), fun d hd => ?_, habsent, hnodup⟩
      obtain ⟨g', hg', hd⟩ := hmem d hd
      exact ⟨g', List.mem_cons_of_mem _ hg', hd⟩
    · -- the names that are left must differ from the one just added
      obtain ⟨defaults, heq, hmem, habsent, hnodup⟩ := ih (r.push first)
      have hnames : ∀ d ∈ defaults, d.name ∉ r.fields.map FieldRecipe.name ∧ d.name ≠ first.name := by
        intro d hd
        simpa [RecordRecipe.push] using habsent d hd
      refine ⟨first :: defaults, hstep.trans (by rw [hadd, heq]; simp [RecordRecipe.push]), ?_, ?_, ?_⟩
      · refine List.forall_mem_cons.2 ⟨⟨g, List.mem_cons_self, rfl⟩, fun d hd => ?_⟩
        obtain ⟨g', hg', hd⟩ := hmem d hd
        exact ⟨g', List.mem_cons_of_mem _ hg', hd⟩
      · exact List.forall_mem_cons.2 ⟨hnew, fun d hd => (hnames d hd).1⟩
      · refine List.nodup_cons.2 ⟨fun hm => ?_, hnodup⟩
        obtain ⟨d, hd, hname⟩ := List.mem_map.1 hm
        exact (hnames d hd).2 hname

/-! ## The end of the row -/

/-- The recipes that the cells have made, with the literals of column 0. -/
def completed (s : HeaderState) : List RecordRecipe := s.recipes.map (withGlobals s.globals)

/-- What references of the row can name. -/
def named (s : HeaderState) : List ((String × String) × Operand) := HeaderState.sources s.globals s.completed

/-- A row that ends without a fault, and its recipes. -/
structure Finished (s : HeaderState) (recipes : List RecordRecipe) : Prop where
  settled : s.child.bind (·.pending) = none
  resolved : recipes = s.completed.map (RecordRecipe.resolved s.named)
  found : ∀ r ∈ s.completed, ∀ f ∈ r.fields, ∀ ref, .reference ref ∈ f.operands →
    ∃ o, s.named.lookup (ref.table, ref.field) = some o
  ids : ∀ r ∈ recipes, r.hasId = true

theorem hasId_of_forM (h : recipes.forM (checkId place) = .ok ()) : ∀ r ∈ recipes, r.hasId = true := by
  induction recipes with
  | nil => simp
  | cons r recipes ih =>
    change (checkId place r >>= fun _ => recipes.forM (checkId place)) = .ok () at h
    unfold checkId at h
    by_cases hid : r.hasId = true
    · rw [if_pos hid] at h
      exact List.forall_mem_cons.2 ⟨hid, ih h⟩
    · rw [if_neg hid] at h
      cases h

theorem finished_of_finish (h : s.finish place = .ok recipes) : s.Finished recipes := by
  unfold finish at h
  cases hpending : s.child.bind (·.pending) with
  | some f =>
    rw [hpending] at h
    cases h
  | none =>
    rw [hpending] at h
    dsimp only at h
    obtain ⟨resolved, hresolved, h⟩ := except_bind_eq_ok h
    obtain ⟨⟨⟩, hids, h⟩ := except_bind_eq_ok h
    cases h
    have hall := mapM_eq_ok hresolved
    refine ⟨hpending, eq_map_of_forall₂ hall fun r r' hr => (resolveRecipe_eq_ok hr).1, fun r hr => ?_,
      hasId_of_forM hids⟩
    obtain ⟨r', -, hr'⟩ := exists_of_mem_forall₂ hall.flip hr
    exact (resolveRecipe_eq_ok hr').2

end HeaderState

/-- A header that compiles is the end of its cells, compiled from the first to the last. -/
theorem finished_of_compileHeader {sheet : Worksheet} {row : Nat} {recipes : List RecordRecipe}
    (h : compileHeader sheet row = .ok recipes) :
    ∃ s, HeaderState.cells (sheet.location row) 0 (sheet.row row) .start = .ok () s ∧ s.Finished recipes := by
  unfold compileHeader at h
  dsimp only at h
  cases hcells : HeaderState.cells (sheet.location row) 0 (sheet.row row) .start with
  | error e s =>
    rw [hcells] at h
    cases h
  | ok _ s =>
    rw [hcells] at h
    exact ⟨s, rfl, HeaderState.finished_of_finish h⟩

/-- The recipes of a header that compiles come from the state in which its cells end. -/
theorem finished_of_cells {sheet : Worksheet} {row : Nat} {s : HeaderState} {recipes : List RecordRecipe}
    (hcells : HeaderState.cells (sheet.location row) 0 (sheet.row row) .start = .ok () s)
    (h : compileHeader sheet row = .ok recipes) : s.Finished recipes := by
  obtain ⟨s', hcells', hfinished⟩ := finished_of_compileHeader h
  rw [hcells] at hcells'
  cases hcells'
  exact hfinished

end TagHarvest
