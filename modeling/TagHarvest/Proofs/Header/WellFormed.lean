/-
The shape of compiled headers. Whatever the cells of a row declare, the recipes stay in order: a table has
at most one recipe of its own, and the parent of a child's recipe comes before it. Every field has
operands, and the columns that they read are those of the row. When the row ends, no reference is left and
every recipe has an id that is no list.
-/
import TagHarvest.Proofs.Header.Placement
import TagHarvest.Proofs.Header.Resolution

namespace TagHarvest

/-! ## The order of recipes -/

/-- A table has one recipe of its own at most, and a child's recipe comes after that of its parent. -/
structure Arranged (recipes : List RecordRecipe) : Prop where
  own : ∀ {i j : Nat} {p q : RecordRecipe}, recipes[i]? = some p → recipes[j]? = some q →
    p.parent = none → q.parent = none → p.table = q.table → i = j
  parent : ∀ {i j : Nat} {c : RecordRecipe}, recipes[j]? = some c → c.parent = some i →
    i < j ∧ ∃ p, recipes[i]? = some p ∧ p.parent = none ∧ p.table = c.table

/-- What the order of recipes depends on. -/
def RecordRecipe.head (r : RecordRecipe) : String × Option Nat := (r.table, r.parent)

theorem getElem?_concat_eq_some {α : Type} {l : List α} {a b : α} {i : Nat} (h : (l ++ [a])[i]? = some b) :
    l[i]? = some b ∨ i = l.length ∧ b = a := by
  rw [List.getElem?_append] at h
  split at h
  · exact .inl h
  · rename_i hi
    obtain ⟨hlt, hb⟩ := List.getElem?_eq_some_iff.1 h
    rw [List.length_singleton] at hlt
    exact .inr ⟨by omega, by simpa using hb.symm⟩

theorem getElem?_set_eq_some {α : Type} {l : List α} {a b : α} {i index : Nat}
    (h : (l.set index a)[i]? = some b) : l[i]? = some b ∨ i = index ∧ b = a := by
  rw [List.getElem?_set] at h
  split at h
  · rename_i hi
    split at h
    · exact .inr ⟨hi.symm, (Option.some.inj h).symm⟩
    · cases h
  · exact .inl h

namespace Arranged

variable {recipes recipes' : List RecordRecipe} {r : RecordRecipe}

theorem nil : Arranged [] := ⟨by simp, by simp⟩

theorem exists_of_heads (heads : recipes'.map RecordRecipe.head = recipes.map RecordRecipe.head) {i : Nat}
    (hr : recipes'[i]? = some r) : ∃ q, recipes[i]? = some q ∧ q.table = r.table ∧ q.parent = r.parent := by
  have hi := congrArg (fun l => l[i]?) heads
  simp only [List.getElem?_map, hr, Option.map_some] at hi
  obtain ⟨q, hq, hhead⟩ := Option.map_eq_some_iff.1 hi.symm
  obtain ⟨ht, hp⟩ := Prod.mk.inj hhead
  exact ⟨q, hq, ht, hp⟩

/-- The order does not concern the fields. -/
theorem congr (h : Arranged recipes)
    (heads : recipes'.map RecordRecipe.head = recipes.map RecordRecipe.head) : Arranged recipes' := by
  constructor
  · intro i j p q hp hq hpp hqp ht
    obtain ⟨p', hp', hpt, hpp'⟩ := exists_of_heads heads hp
    obtain ⟨q', hq', hqt, hqp'⟩ := exists_of_heads heads hq
    exact h.own hp' hq' (hpp'.trans hpp) (hqp'.trans hqp) (hpt.trans (ht.trans hqt.symm))
  · intro i j c hc hparent
    obtain ⟨c', hc', hct, hcp⟩ := exists_of_heads heads hc
    obtain ⟨hij, p, hp, hpp, hpt⟩ := h.parent hc' (hcp.trans hparent)
    obtain ⟨p', hp', hpt', hpp'⟩ := exists_of_heads heads.symm hp
    exact ⟨hij, p', hp', hpp'.trans hpp, hpt'.trans (hpt.trans hct)⟩

theorem map (h : Arranged recipes) {g : RecordRecipe → RecordRecipe} (hg : ∀ r, (g r).head = r.head) :
    Arranged (recipes.map g) := by
  refine h.congr ?_
  rw [List.map_map]
  exact List.map_congr_left fun r _ => hg r

theorem set (h : Arranged recipes) {index : Nat} {r' : RecordRecipe} (hr : recipes[index]? = some r)
    (hhead : r'.head = r.head) : Arranged (recipes.set index r') := by
  obtain ⟨hindex, rfl⟩ := List.getElem?_eq_some_iff.1 hr
  refine h.congr ?_
  rw [List.map_set, hhead, ← List.map_set, List.set_getElem_self]

/-- A new recipe is the first of its table or the child of one that is there. -/
theorem concat (h : Arranged recipes)
    (hown : r.parent = none → ∀ q ∈ recipes, q.parent = none → q.table ≠ r.table)
    (hchild : ∀ i, r.parent = some i → ∃ p, recipes[i]? = some p ∧ p.parent = none ∧ p.table = r.table) :
    Arranged (recipes ++ [r]) := by
  -- the new recipe is the last, so the others keep their places
  have hkeep : ∀ {i : Nat} {p : RecordRecipe}, recipes[i]? = some p → (recipes ++ [r])[i]? = some p := by
    intro i p hp
    obtain ⟨hi, -⟩ := List.getElem?_eq_some_iff.1 hp
    rw [List.getElem?_append_left hi]
    exact hp
  constructor
  · intro i j p q hp hq hpp hqp ht
    rcases getElem?_concat_eq_some hp with hp' | ⟨hi, rfl⟩
    · rcases getElem?_concat_eq_some hq with hq' | ⟨-, rfl⟩
      · exact h.own hp' hq' hpp hqp ht
      · exact absurd ht (hown hqp p (List.mem_of_getElem? hp') hpp)
    · rcases getElem?_concat_eq_some hq with hq' | ⟨hj, rfl⟩
      · exact absurd ht.symm (hown hpp q (List.mem_of_getElem? hq') hqp)
      · exact hi.trans hj.symm
  · intro i j c hc hparent
    rcases getElem?_concat_eq_some hc with hc | ⟨rfl, rfl⟩
    · obtain ⟨hij, p, hp, hpp, hpt⟩ := h.parent hc hparent
      exact ⟨hij, p, hkeep hp, hpp, hpt⟩
    · obtain ⟨p, hp, hpp, hpt⟩ := hchild i hparent
      obtain ⟨hi, -⟩ := List.getElem?_eq_some_iff.1 hp
      exact ⟨hi, p, hkeep hp, hpp, hpt⟩

theorem concat_child (h : Arranged recipes) {i : Nat} {p : RecordRecipe} (hp : recipes[i]? = some p)
    (hpp : p.parent = none) (hhead : r.head = (p.table, some i)) : Arranged (recipes ++ [r]) := by
  obtain ⟨ht, hparent⟩ := Prod.mk.inj hhead
  refine h.concat (fun hnone => ?_) fun j hj => ?_
  · rw [hparent] at hnone
    cases hnone
  · rw [hparent] at hj
    cases hj
    exact ⟨p, hp, hpp, ht.symm⟩

end Arranged

/-! ## The state of a header row -/

namespace HeaderState

variable {width column : Nat} {s s' : HeaderState} {table : String} {f : FieldRecipe} {target : Target}
  {recipes : List RecordRecipe}

theorem ownRecipe?_eq_some {i : Nat} {p : RecordRecipe} (h : s.ownRecipe? table = some i)
    (hp : s.recipes[i]? = some p) : p.table = table ∧ p.parent = none := by
  obtain ⟨hi, htest, -⟩ := List.findIdx?_eq_some_iff_getElem.1 h
  obtain ⟨_, rfl⟩ := List.getElem?_eq_some_iff.1 hp
  simpa [RecordRecipe.isChild] using htest

theorem ownRecipe?_eq_none (h : s.ownRecipe? table = none) {q : RecordRecipe} (hq : q ∈ s.recipes)
    (hparent : q.parent = none) : q.table ≠ table := by
  have htest := List.findIdx?_eq_none_iff.1 h q hq
  simpa [RecordRecipe.isChild, hparent] using htest

theorem head_childOf {p c : RecordRecipe} {i : Nat} (h : p.childOf i = some c) :
    c.head = (p.table, some i) := by
  obtain ⟨id, -, rfl⟩ := RecordRecipe.childOf_eq_some_iff.1 h
  rfl

theorem head_of_add {r r' : RecordRecipe} (h : r.add f = .ok r') : r'.head = r.head := by
  obtain ⟨rfl, -⟩ := RecordRecipe.add_eq_ok h
  rfl

/-- A placement keeps the order of the recipes. -/
theorem arranged_of_placed (h : Placed column table f s target s') (hs : Arranged s.recipes) :
    Arranged s'.recipes := by
  cases h with
  | global => exact hs
  | nowhere => exact hs
  | pending => exact hs
  | field hr hadd => exact hs.set hr (head_of_add hadd)
  | own hown => exact hs.concat (fun _ q hq hparent => ownRecipe?_eq_none hown hq hparent) nofun
  | child _ hown hp hc hadd =>
    exact hs.concat_child hp (ownRecipe?_eq_some hown hp).2 ((head_of_add hadd).trans (head_childOf hc))
  | childOfWaiting _ hown hp hc hadd _ hadd' =>
    exact hs.concat_child hp (ownRecipe?_eq_some hown hp).2
      ((head_of_add hadd').trans ((head_of_add hadd).trans (head_childOf hc)))

/-! ## The fields of a header row -/

/-- What the cells of a header of this width have declared so far. -/
structure Sound (width : Nat) (s : HeaderState) : Prop where
  arranged : Arranged s.recipes
  fields : ∀ r ∈ s.recipes, ∀ f ∈ r.fields, f.Declarable width
  globals : ∀ g ∈ s.globals, g.2.Declarable width ∧ g.2.isLiteral = true
  pending : ∀ {table : String} {f : FieldRecipe}, s.waiting? table = some f → f.Declarable width

/-- A field that a child's recipe begins with reads what one of its parent's reads, and was declared with it. -/
theorem exists_of_mem_childOf {p c : RecordRecipe} {i : Nat} (h : p.childOf i = some c) (hf : f ∈ c.fields) :
    ∃ g ∈ p.fields, f.operands = g.operands ∧ f.column = g.column := by
  obtain ⟨id, hid, rfl⟩ := RecordRecipe.childOf_eq_some_iff.1 h
  rcases List.mem_append.1 hf with hf | hf
  · obtain ⟨g, hg, rfl⟩ := List.mem_map.1 hf
    exact ⟨g, (List.mem_filter.1 hg).1, rfl, rfl⟩
  · obtain rfl := List.mem_singleton.1 hf
    exact ⟨id, List.mem_of_find?_eq_some hid, rfl, rfl⟩

theorem declarable_of_add {r r' : RecordRecipe} (hr : ∀ g ∈ r.fields, g.Declarable width)
    (hf : f.Declarable width) (h : r.add f = .ok r') : ∀ g ∈ r'.fields, g.Declarable width := by
  obtain ⟨rfl, -⟩ := RecordRecipe.add_eq_ok h
  intro g hg
  rcases RecordRecipe.mem_fields_push.1 hg with hg | rfl
  · exact hr g hg
  · exact hf

/-- The id that opens a child's recipe is its only one, also where an inherited field loses a prefix. -/
theorem declarable_of_child {p c c' : RecordRecipe} {i : Nat} (hp : ∀ g ∈ p.fields, g.Declarable width)
    (hf : f.Declarable width) (hid : f.name = idField) (hc : p.childOf i = some c) (hadd : c.add f = .ok c') :
    ∀ g ∈ c'.fields, g.Declarable width := by
  -- a field that is named `id` before the id would have to be a list, as would the id
  have hnone : c.field? idField = none := by
    cases hfield : c.field? idField with
    | none => rfl
    | some old =>
      rw [← hid] at hfield
      have hlist := ((RecordRecipe.add_eq_ok hadd).2 old hfield).2
      rw [hf.id hid] at hlist
      cases hlist
  refine declarable_of_add (fun g hg => ?_) hf hadd
  obtain ⟨g', hg', hoperands, hcolumn⟩ := exists_of_mem_childOf hc hg
  refine ⟨hoperands ▸ (hp g' hg').operands, hoperands ▸ (hp g' hg').columns, fun hname => ?_,
    hcolumn ▸ (hp g' hg').column, hoperands ▸ (hp g' hg').references⟩
  have hmem := List.mem_map_of_mem (f := FieldRecipe.name) hg
  rw [hname] at hmem
  exact absurd hmem (RecordRecipe.field?_eq_none_iff.1 hnone)

theorem fields_of_placed (hf : f.Declarable width) (h : Placed column table f s target s')
    (hs : s.Sound width) : ∀ r ∈ s'.recipes, ∀ g ∈ r.fields, g.Declarable width := by
  cases h with
  | global => exact hs.fields
  | nowhere => exact hs.fields
  | pending => exact hs.fields
  | field hr hadd =>
    intro r hmem
    rcases List.mem_or_eq_of_mem_set hmem with hmem | rfl
    · exact hs.fields r hmem
    · exact declarable_of_add (hs.fields _ (List.mem_of_getElem? hr)) hf hadd
  | own =>
    refine List.forall_mem_append.2 ⟨hs.fields, List.forall_mem_singleton.2 fun g hg => ?_⟩
    obtain rfl := List.mem_singleton.1 hg
    exact hf
  | child hid _ hp hc hadd =>
    refine List.forall_mem_append.2 ⟨hs.fields, List.forall_mem_singleton.2 ?_⟩
    exact declarable_of_child (hs.fields _ (List.mem_of_getElem? hp)) hf hid hc hadd
  | childOfWaiting hid _ hp hc hadd hwaiting hadd' =>
    refine List.forall_mem_append.2 ⟨hs.fields, List.forall_mem_singleton.2 ?_⟩
    exact declarable_of_add (declarable_of_child (hs.fields _ (List.mem_of_getElem? hp)) hf hid hc hadd)
      (hs.pending hwaiting) hadd'

theorem pending_of_placed (hf : f.Declarable width) (h : Placed column table f s target s')
    (hs : s.Sound width) {t : String} {g : FieldRecipe} (hg : s'.waiting? t = some g) :
    g.Declarable width := by
  cases h with
  | pending =>
    by_cases ht : table = t
    · simp only [waiting?, Option.bind_some, if_pos ht, Option.some.injEq] at hg
      exact hg ▸ hf
    · simp [waiting?, ht] at hg
  | child => simp [waiting?] at hg
  | childOfWaiting => simp [waiting?] at hg
  | _ => exact hs.pending hg

theorem sound_of_placed (hf : f.Declarable width) (h : Placed column table f s target s')
    (hs : s.Sound width) : s'.Sound width := by
  refine ⟨arranged_of_placed h hs.arranged, fields_of_placed hf h hs, ?_, pending_of_placed hf h hs⟩
  -- only column 0 adds to the globals, and only literals
  cases h with
  | global _ hliteral =>
    exact List.forall_mem_append.2 ⟨hs.globals, List.forall_mem_singleton.2 ⟨hf, hliteral⟩⟩
  | _ => exact hs.globals

theorem sound_start (width : Nat) : start.Sound width :=
  ⟨.nil, by simp [start], by simp [start], by simp [start, waiting?]⟩

theorem kept_sound (width : Nat) : Kept width (Sound width) :=
  ⟨fun _ _ hs => ⟨hs.arranged, hs.fields, hs.globals, hs.pending⟩, fun _ hf => sound_of_placed hf⟩

/-! ## Completed recipes -/

/-- A literal of column 0 is declarable under the name that it has in the records of any table. -/
theorem declarable_defaultField {g : String × FieldRecipe} (table : String) (hg : g.2.Declarable width) :
    (defaultField table g).Declarable width := by
  unfold defaultField
  split
  · exact hg
  · refine ⟨hg.operands, hg.columns, fun hname => ?_, hg.column, hg.references⟩
    -- the name has a point, which `id` has not
    have hdot : '.' ∈ idField.toList := by
      rw [← show g.1 ++ "." ++ g.2.name = idField from hname]
      simp
    exact absurd hdot (by decide)

theorem declarable_of_completed (hs : s.Sound width) {r : RecordRecipe} (hr : r ∈ s.completed) :
    ∀ f ∈ r.fields, f.Declarable width := by
  obtain ⟨r₀, hr₀, rfl⟩ := List.mem_map.1 hr
  obtain ⟨defaults, heq, hdefaults, -⟩ := withGlobals_eq s.globals r₀
  rw [heq]
  refine List.forall_mem_append.2 ⟨hs.fields r₀ hr₀, fun d hd => ?_⟩
  obtain ⟨g, hg, rfl⟩ := hdefaults d hd
  exact declarable_defaultField r₀.table (hs.globals g hg).1

theorem head_withGlobals (globals : List (String × FieldRecipe)) (r : RecordRecipe) :
    (withGlobals globals r).head = r.head := by
  obtain ⟨defaults, heq, -⟩ := withGlobals_eq globals r
  rw [heq]
  rfl

/-- What a reference reads is a column of the row or none. -/
theorem columns_of_named (hs : s.Sound width) {key : String × String} {i : Nat}
    (h : s.named.lookup key = some (.column i)) : 0 < i ∧ i < width := by
  obtain ⟨table, name⟩ := key
  have hsource : ∃ f : FieldRecipe, f.Declarable width ∧ source? f = some (.column i) := by
    rcases mem_sources (mem_of_lookup h) with ⟨f, hf, -, hsource⟩ | ⟨r, hr, -, -, f, hf, -, hsource⟩
    · exact ⟨f, (hs.globals _ hf).1, hsource⟩
    · exact ⟨f, declarable_of_completed hs hr f hf, hsource⟩
  obtain ⟨f, hf, hsource⟩ := hsource
  refine hf.columns i ?_
  rw [(source?_eq_some_iff.1 hsource).1]
  exact List.mem_singleton_self _

/-- No reference is left in a row that ends, and its columns are those of the cells. -/
theorem operand_of_finished {recipes : List RecordRecipe} (hs : s.Sound width) (h : s.Finished recipes)
    {r : RecordRecipe} (hr : r ∈ s.completed) {f : FieldRecipe} (hf : f ∈ r.fields) {o : Operand}
    (ho : o ∈ f.operands) :
    (∀ ref, o.resolved s.named ≠ .reference ref) ∧
      ∀ i, o.resolved s.named = .column i → 0 < i ∧ i < width := by
  cases o with
  | literal text => exact ⟨nofun, nofun⟩
  | column i =>
    refine ⟨nofun, fun j hj => ?_⟩
    cases hj
    exact (declarable_of_completed hs hr f hf).columns i ho
  | reference ref =>
    obtain ⟨source, hsource⟩ := h.found r hr f hf ref ho
    have hresolved : (Operand.reference ref).resolved s.named = source := by
      show (s.named.lookup (ref.table, ref.field)).getD _ = source
      rw [hsource]
      rfl
    rw [hresolved]
    refine ⟨ne_reference_of_lookup hsource, fun i hi => ?_⟩
    rw [hi] at hsource
    exact columns_of_named hs hsource

end HeaderState

/-! ## Compiled headers -/

/-- The shape of the recipes of a header with this many cells. -/
structure HeaderShape (width : Nat) (recipes : List RecordRecipe) : Prop where
  arranged : Arranged recipes
  id : ∀ r ∈ recipes, ∃ f ∈ r.fields, f.name = idField
  ids : ∀ r ∈ recipes, ∀ f ∈ r.fields, f.name = idField → f.list = false
  operands : ∀ r ∈ recipes, ∀ f ∈ r.fields, f.operands ≠ []
  references : ∀ r ∈ recipes, ∀ f ∈ r.fields, ∀ ref, .reference ref ∉ f.operands
  columns : ∀ r ∈ recipes, ∀ f ∈ r.fields, ∀ i, .column i ∈ f.operands → 1 ≤ i ∧ i < width

namespace HeaderState

variable {width : Nat} {s : HeaderState} {recipes : List RecordRecipe}

theorem shape_of_finished (hs : s.Sound width) (h : s.Finished recipes) : HeaderShape width recipes := by
  -- a field of the finished recipes is a declared one with its references replaced
  have hfield : ∀ r ∈ recipes, ∀ f ∈ r.fields,
      ∃ r₀ ∈ s.completed, ∃ f₀ ∈ r₀.fields, f = f₀.resolved s.named := by
    intro r hr f hf
    rw [h.resolved] at hr
    obtain ⟨r₀, hr₀, rfl⟩ := List.mem_map.1 hr
    obtain ⟨f₀, hf₀, rfl⟩ := List.mem_map.1 hf
    exact ⟨r₀, hr₀, f₀, hf₀, rfl⟩
  refine ⟨?_, fun r hr => ?_, fun r hr f hf hid => ?_, fun r hr f hf => ?_, fun r hr f hf ref href => ?_,
    fun r hr f hf i hi => ?_⟩
  · rw [h.resolved]
    exact (hs.arranged.map fun r => head_withGlobals s.globals r).map fun r => rfl
  · obtain ⟨f, hf⟩ := Option.isSome_iff_exists.1 (h.ids r hr)
    exact ⟨f, List.mem_of_find?_eq_some hf, by simpa using List.find?_some hf⟩
  · obtain ⟨r₀, hr₀, f₀, hf₀, rfl⟩ := hfield r hr f hf
    exact (declarable_of_completed hs hr₀ f₀ hf₀).id hid
  · obtain ⟨r₀, hr₀, f₀, hf₀, rfl⟩ := hfield r hr f hf
    exact mt List.map_eq_nil_iff.1 (declarable_of_completed hs hr₀ f₀ hf₀).operands
  · obtain ⟨r₀, hr₀, f₀, hf₀, rfl⟩ := hfield r hr f hf
    obtain ⟨o, ho, heq⟩ := List.mem_map.1 href
    exact (operand_of_finished hs h hr₀ hf₀ ho).1 ref heq
  · obtain ⟨r₀, hr₀, f₀, hf₀, rfl⟩ := hfield r hr f hf
    obtain ⟨o, ho, heq⟩ := List.mem_map.1 hi
    exact (operand_of_finished hs h hr₀ hf₀ ho).2 i heq

/-- The state in which the cells of a row end. -/
theorem sound_of_cells {sheet : Worksheet} {row : Nat}
    (h : HeaderState.cells (sheet.location row) 0 (sheet.row row) .start = .ok () s) :
    s.Sound (sheet.row row).length :=
  (kept_sound _).row (le_refl _) (sound_start _) h

end HeaderState

/--
The recipes of every header that compiles: each has an id, and no id is a list; no operand is a reference; the
columns are those of the row right of column 0; every field has operands; a table has at most one recipe of
its own; and the parent of a child's recipe is an earlier one, that of the child's table.
-/
theorem compileHeader_shape {sheet : Worksheet} {row : Nat} {recipes : List RecordRecipe}
    (h : compileHeader sheet row = .ok recipes) : HeaderShape (sheet.row row).length recipes := by
  obtain ⟨s, hcells, hfinished⟩ := finished_of_compileHeader h
  exact HeaderState.shape_of_finished (HeaderState.sound_of_cells hcells) hfinished

/-- A header with a literal of column 0, a reference to it, and a child's field that waits for the id. -/
theorem compileHeader_shape_child :
    compileHeader ⟨"a.csv", "a", [["#tags #sample.site=\"X\"", "#sample.id",
        "#sample%child.note=#sample.site", "#sample%child.id"]]⟩ 0 =
      .ok [⟨"sample", [⟨"id", [.column 1], false, 1⟩, ⟨"site", [.literal "X"], false, 0⟩], none⟩,
        ⟨"sample", [⟨"parentID", [.column 1], false, 1⟩, ⟨"id", [.column 3], false, 3⟩,
          ⟨"note", [.literal "X"], false, 2⟩, ⟨"site", [.literal "X"], false, 0⟩], some 0⟩] ∧
    HeaderShape 4
      [⟨"sample", [⟨"id", [.column 1], false, 1⟩, ⟨"site", [.literal "X"], false, 0⟩], none⟩,
        ⟨"sample", [⟨"parentID", [.column 1], false, 1⟩, ⟨"id", [.column 3], false, 3⟩,
          ⟨"note", [.literal "X"], false, 2⟩, ⟨"site", [.literal "X"], false, 0⟩], some 0⟩] := by
  refine ⟨?compiled, compileHeader_shape ?compiled⟩
  decide +kernel

end TagHarvest
