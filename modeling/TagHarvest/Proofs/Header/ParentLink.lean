/-
The link of a child record to its parent. The recipe of a child computes `parentID` as the recipe of the
parent computes the id, from the cell that opens the child to the end of the row. So `parentID` is the id of
the parent's record of the same row, and is absent without one, unless the child's recipe has `parentID`
from elsewhere: it does if the parent's recipe has a literal of that name, which every child inherits.
-/
import TagHarvest.Proofs.Header.WellFormed

namespace TagHarvest

/--
The fields named `parentID` of a child's recipe: one for the id of the parent, before it literals that are
inherited from the parent, and after it lists, if a list is inherited.
-/
structure Linked (p c : RecordRecipe) (source : FieldRecipe) (before after : List FieldRecipe) : Prop where
  id : p.field? idField = some source
  scalar : source.list = false
  fields : c.fields.filter (·.name == parentField) = before ++ { source with name := parentField } :: after
  inherited : ∀ f ∈ before, f.isLiteral = true ∧ ∃ g ∈ p.fields,
    (g.name = parentField ∨ g.name = p.table ++ "." ++ parentField) ∧ f = { g with name := parentField }
  lists : before = [] → after = []

/-- A child's recipe that is linked to its parent's in some way. -/
def HasLink (p c : RecordRecipe) : Prop := ∃ source before after, Linked p c source before after

namespace Linked

variable {p c : RecordRecipe} {source f : FieldRecipe} {before after : List FieldRecipe}

/-- A child's recipe as it begins is linked to the recipe that it is made of. -/
theorem of_childOf {i : Nat} (h : p.childOf i = some c) (hid : p.field? idField = some source)
    (hlist : source.list = false) : ∃ before, Linked p c source before [] := by
  obtain ⟨id, hid', rfl⟩ := RecordRecipe.childOf_eq_some_iff.1 h
  obtain rfl : source = id := Option.some.inj (hid.symm.trans hid')
  refine ⟨p.inherited.filter (·.name == parentField), hid, hlist, List.filter_append .., fun f hf => ?_,
    fun _ => rfl⟩
  obtain ⟨hf, hname⟩ := List.mem_filter.1 hf
  obtain ⟨g, hg, rfl⟩ := List.mem_map.1 hf
  obtain ⟨hg, hliteral⟩ := List.mem_filter.1 hg
  dsimp only at hname
  refine ⟨(Bool.and_eq_true_iff.1 hliteral).1, g, hg, ?_, by rw [beq_iff_eq.1 hname]⟩
  -- the name was `parentID` already, or is so without the prefix of the own table
  cases hstart : Text.afterStart? (p.table ++ ".") g.name with
  | none =>
    rw [hstart] at hname
    exact .inl (beq_iff_eq.1 hname)
  | some rest =>
    rw [hstart] at hname
    obtain rfl : rest = parentField := beq_iff_eq.1 hname
    exact .inr (Text.afterStart?_eq_some_iff.1 hstart)

/-- Fields that are added to the parent's recipe leave the link alone. -/
theorem append_parent (h : Linked p c source before after) (fields : List FieldRecipe) :
    Linked { p with fields := p.fields ++ fields } c source before after := by
  refine ⟨?_, h.scalar, h.fields, fun f hf => ?_, h.lists⟩
  · unfold RecordRecipe.field?
    rw [List.find?_append, show p.fields.find? (·.name == idField) = some source from h.id]
    rfl
  · obtain ⟨hliteral, g, hg, hname, hfg⟩ := h.inherited f hf
    exact ⟨hliteral, g, List.mem_append_left _ hg, hname, hfg⟩

/-- Fields of other names leave it alone in the child's recipe. -/
theorem append_child (h : Linked p c source before after) {fields : List FieldRecipe}
    (hfields : ∀ f ∈ fields, f.name ≠ parentField) :
    Linked p { c with fields := c.fields ++ fields } source before after := by
  refine ⟨h.id, h.scalar, ?_, h.inherited, h.lists⟩
  have hnone : fields.filter (·.name == parentField) = [] :=
    List.filter_eq_nil_iff.2 fun f hf => by simpa using hfields f hf
  rw [List.filter_append, hnone, List.append_nil, h.fields]

/-- A field that a child adds is a list if it is named `parentID`, and so was one that is inherited. -/
theorem add_child (h : Linked p c source before after) {c' : RecordRecipe} (hadd : c.add f = .ok c') :
    ∃ after', Linked p c' source before after' := by
  obtain ⟨rfl, hold⟩ := RecordRecipe.add_eq_ok hadd
  by_cases hname : f.name = parentField
  · have hfirst : c.field? parentField = (before ++ { source with name := parentField } :: after).head? := by
      unfold RecordRecipe.field?
      rw [← List.head?_filter, h.fields]
    refine ⟨after ++ [f], h.id, h.scalar, ?_, h.inherited, fun hbefore => ?_⟩
    · show (c.fields ++ [f]).filter _ = _
      rw [List.filter_append, h.fields]
      simp [hname]
    · -- the link itself is no list, so nothing can be added to it
      rw [hbefore] at hfirst
      have hlist := (hold _ (by rw [hname]; exact hfirst)).1
      dsimp only at hlist
      rw [h.scalar] at hlist
      cases hlist
  · exact ⟨after, h.append_child (by simpa using hname)⟩

theorem resolved (h : Linked p c source before after) (sources : List ((String × String) × Operand)) :
    Linked (p.resolved sources) (c.resolved sources) (source.resolved sources)
      (before.map (FieldRecipe.resolved sources)) (after.map (FieldRecipe.resolved sources)) := by
  have hfields : (c.fields.map (FieldRecipe.resolved sources)).filter (·.name == parentField) =
      (c.fields.filter (·.name == parentField)).map (FieldRecipe.resolved sources) := List.filter_map ..
  refine ⟨?_, h.scalar, ?_, fun f hf => ?_, fun hbefore => ?_⟩
  · rw [RecordRecipe.field?_resolved, h.id]
    rfl
  · refine hfields.trans ?_
    rw [h.fields, List.map_append, List.map_cons, FieldRecipe.resolved_rename]
  · obtain ⟨f₀, hf₀, rfl⟩ := List.mem_map.1 hf
    obtain ⟨hliteral, g, hg, hname, rfl⟩ := h.inherited f₀ hf₀
    refine ⟨?_, g.resolved sources, List.mem_map_of_mem hg, hname, FieldRecipe.resolved_rename g parentField⟩
    rw [FieldRecipe.resolved_of_isLiteral hliteral]
    exact hliteral
  · rw [h.lists (List.map_eq_nil_iff.1 hbefore), List.map_nil]

end Linked

theorem HasLink.add_child {p c c' : RecordRecipe} {f : FieldRecipe} (h : HasLink p c)
    (hadd : c.add f = .ok c') : HasLink p c' := by
  obtain ⟨source, before, after, hlinked⟩ := h
  obtain ⟨after', hlinked'⟩ := hlinked.add_child hadd
  exact ⟨source, before, after', hlinked'⟩

/-! ## The recipes of a header row -/

/-- Every child's recipe is linked to that of its parent. -/
def AllLinked (recipes : List RecordRecipe) : Prop :=
  ∀ (i j : Nat) (p c : RecordRecipe), recipes[j]? = some c → c.parent = some i → recipes[i]? = some p →
    HasLink p c

namespace AllLinked

variable {recipes : List RecordRecipe} {r r' : RecordRecipe} {f : FieldRecipe}

theorem set (h : AllLinked recipes) (harranged : Arranged recipes) {index : Nat}
    (hr : recipes[index]? = some r) (hadd : r.add f = .ok r') : AllLinked (recipes.set index r') := by
  obtain ⟨hr', -⟩ := RecordRecipe.add_eq_ok hadd
  intro i j p c hc hparent hp
  rcases getElem?_set_eq_some hc with hc' | ⟨rfl, rfl⟩
  · rcases getElem?_set_eq_some hp with hp' | ⟨rfl, rfl⟩
    · exact h i j p c hc' hparent hp'
    · obtain ⟨source, before, after, hlinked⟩ := h _ j r c hc' hparent hr
      rw [hr']
      exact ⟨source, before, after, hlinked.append_parent [f]⟩
  · have hold : r.parent = some i := by
      rw [← hparent, hr']
      rfl
    rcases getElem?_set_eq_some hp with hp' | ⟨rfl, -⟩
    · exact (h i _ p r hr hold hp').add_child hadd
    · -- no recipe is its own parent
      exact absurd (harranged.parent hr hold).1 (lt_irrefl _)

theorem concat (h : AllLinked recipes) (harranged : Arranged (recipes ++ [r]))
    (hr : ∀ i p, r.parent = some i → recipes[i]? = some p → HasLink p r) : AllLinked (recipes ++ [r]) := by
  intro i j p c hc hparent hp
  have hij := (harranged.parent hc hparent).1
  have hj : j < (recipes ++ [r]).length := (List.getElem?_eq_some_iff.1 hc).1
  rw [List.length_append, List.length_singleton] at hj
  -- the parent comes before the child, so it is not the new recipe
  have hp' : recipes[i]? = some p := (getElem?_concat_eq_some hp).resolve_right fun hi => by omega
  rcases getElem?_concat_eq_some hc with hc' | ⟨-, rfl⟩
  · exact h i j p c hc' hparent hp'
  · exact hr i p hparent hp'

theorem concat_child (h : AllLinked recipes) (harranged : Arranged (recipes ++ [r])) {i : Nat}
    {p : RecordRecipe} (hp : recipes[i]? = some p) (hhead : r.head = (p.table, some i))
    (hlink : HasLink p r) : AllLinked (recipes ++ [r]) := by
  obtain ⟨-, hi⟩ := Prod.mk.inj hhead
  refine h.concat harranged fun i' p' hparent hp' => ?_
  obtain rfl := Option.some.inj (hi.symm.trans hparent)
  obtain rfl := Option.some.inj (hp.symm.trans hp')
  exact hlink

end AllLinked

namespace HeaderState

variable {width column : Nat} {s s' : HeaderState} {table : String} {f : FieldRecipe} {target : Target}

theorem hasLink_of_child {p c c' : RecordRecipe} {i : Nat} (hp : ∀ g ∈ p.fields, g.Declarable width)
    (hc : p.childOf i = some c) (hadd : c.add f = .ok c') : HasLink p c' := by
  obtain ⟨id, hid, -⟩ := RecordRecipe.childOf_eq_some_iff.1 hc
  have hname : id.name = idField := by simpa using List.find?_some hid
  obtain ⟨before, hlinked⟩ := Linked.of_childOf hc hid ((hp id (List.mem_of_find?_eq_some hid)).id hname)
  exact HasLink.add_child ⟨id, before, [], hlinked⟩ hadd

theorem allLinked_of_placed (hs : s.Sound width) (h : Placed column table f s target s')
    (hlinked : AllLinked s.recipes) : AllLinked s'.recipes := by
  have harranged := arranged_of_placed h hs.arranged
  cases h with
  | global => exact hlinked
  | nowhere => exact hlinked
  | pending => exact hlinked
  | field hr hadd => exact hlinked.set hs.arranged hr hadd
  | own => exact hlinked.concat harranged nofun
  | child _ _ hp hc hadd =>
    have hlink := hasLink_of_child (hs.fields _ (List.mem_of_getElem? hp)) hc hadd
    exact hlinked.concat_child harranged hp ((head_of_add hadd).trans (head_childOf hc)) hlink
  | childOfWaiting _ _ hp hc hadd _ hadd' =>
    have hlink := hasLink_of_child (hs.fields _ (List.mem_of_getElem? hp)) hc hadd
    exact hlinked.concat_child harranged hp
      ((head_of_add hadd').trans ((head_of_add hadd).trans (head_childOf hc))) (hlink.add_child hadd')

theorem kept_allLinked (width : Nat) : Kept width fun s => s.Sound width ∧ AllLinked s.recipes where
  context table last hs := ⟨(kept_sound width).context table last hs.1, hs.2⟩
  placed hcolumn hf h hs := ⟨(kept_sound width).placed hcolumn hf h hs.1, allLinked_of_placed hs.1 h hs.2⟩

/-- The link lasts to the end of the row, since literals of column 0 are added only for new names. -/
theorem allLinked_of_finished {recipes : List RecordRecipe} (hlinked : AllLinked s.recipes)
    (h : s.Finished recipes) : AllLinked recipes := by
  rw [h.resolved]
  intro i j p c hc hparent hp
  unfold completed at hc hp
  rw [List.map_map, List.getElem?_map] at hc hp
  obtain ⟨p₀, hp₀, rfl⟩ := Option.map_eq_some_iff.1 hp
  obtain ⟨c₀, hc₀, rfl⟩ := Option.map_eq_some_iff.1 hc
  obtain ⟨pdefaults, hpeq, -⟩ := withGlobals_eq s.globals p₀
  obtain ⟨cdefaults, hceq, -, hnew, -⟩ := withGlobals_eq s.globals c₀
  have hparent₀ : c₀.parent = some i := by
    rw [← hparent, Function.comp_apply, hceq]
    rfl
  obtain ⟨source, before, after, hl⟩ := hlinked i j p₀ c₀ hc₀ hparent₀ hp₀
  -- the link itself has the name, so no literal of column 0 is added under it
  have hnames : ∀ d ∈ cdefaults, d.name ≠ parentField := by
    intro d hd hname
    have hlink : { source with name := parentField } ∈ c₀.fields.filter (·.name == parentField) := by
      rw [hl.fields]
      simp
    exact hnew d hd (hname ▸ List.mem_map_of_mem (f := FieldRecipe.name) (List.mem_filter.1 hlink).1)
  rw [Function.comp_apply, Function.comp_apply, hpeq, hceq]
  exact ⟨_, _, _, ((hl.append_parent pdefaults).append_child hnames).resolved s.named⟩

end HeaderState

/--
The link of a child's record: `parentID` is the id of the record that the parent's recipe makes of the same
row, or absent if there is none, exactly if no other declaration of `parentID` in the child's recipe gives a
value. There is none unless the parent's recipe has a literal `parentID`, which the child inherits.
-/
theorem parentID_iff {sheet : Worksheet} {row : Nat} {recipes : List RecordRecipe}
    (h : compileHeader sheet row = .ok recipes) {i j : Nat} {c : RecordRecipe} (hc : recipes[j]? = some c)
    (hparent : c.parent = some i) :
    ∃ p source before after, recipes[i]? = some p ∧ Linked p c source before after ∧
      ∀ cells record, c.build cells = some record →
        (record.get? parentField = (p.build cells).bind (·.get? idField) ↔
          ∀ f ∈ before ++ after, f.evaluate cells = none) := by
  obtain ⟨s, hcells, hfinished⟩ := finished_of_compileHeader h
  have hstart : AllLinked HeaderState.start.recipes := fun i j p c hc => by simp [HeaderState.start] at hc
  obtain ⟨hs, hlinked⟩ := (HeaderState.kept_allLinked _).row (le_refl _)
    ⟨HeaderState.sound_start _, hstart⟩ hcells
  have hshape := HeaderState.shape_of_finished hs hfinished
  obtain ⟨-, p, hp, -⟩ := hshape.arranged.parent hc hparent
  obtain ⟨source, before, after, hl⟩ :=
    HeaderState.allLinked_of_finished hlinked hfinished i j p c hc hparent hp
  refine ⟨p, source, before, after, hp, hl, fun cells record hrecord => ?_⟩
  rw [RecordRecipe.get?_of_build hrecord (by decide), hl.fields,
    RecordRecipe.get?_id_build hl.id hl.scalar cells]
  exact RecordRecipe.foldl_extended_eq_evaluate_iff (f := { source with name := parentField }) hl.scalar

/-- A recipe with a literal `parentID`. -/
def rootedParent : RecordRecipe :=
  ⟨"sample", [⟨"id", [.column 1], false, 1⟩, ⟨"parentID", [.literal "ROOT"], false, 2⟩], none⟩

/-- The recipe of its children, which inherits the literal. -/
def rootedChild : RecordRecipe :=
  ⟨"sample", [⟨"parentID", [.literal "ROOT"], false, 2⟩, ⟨"parentID", [.column 1], false, 1⟩,
    ⟨"id", [.column 3], false, 3⟩], some 0⟩

/-- A literal `parentID` is inherited beside the link, so the child's record has both. -/
theorem parentID_iff_inherited :
    compileHeader ⟨"a.csv", "a",
          [["#tags", "#sample.id", "#sample.parentID=\"ROOT\"", "#sample%child.id"]]⟩ 0 =
        .ok [rootedParent, rootedChild] ∧
      (rootedChild.build ["", "S1", "", "S1-a"]).bind (·.get? parentField) = some (.list ["ROOT", "S1"]) ∧
      (rootedParent.build ["", "S1", "", "S1-a"]).bind (·.get? idField) = some (.scalar "S1") ∧
      ∃ source before after, Linked rootedParent rootedChild source before after ∧
        ∃ f ∈ before ++ after, f.evaluate ["", "S1", "", "S1-a"] ≠ none := by
  have hcompiled : compileHeader ⟨"a.csv", "a",
      [["#tags", "#sample.id", "#sample.parentID=\"ROOT\"", "#sample%child.id"]]⟩ 0 =
        .ok [rootedParent, rootedChild] := by
    decide +kernel
  have hchild : (rootedChild.build ["", "S1", "", "S1-a"]).bind (·.get? parentField) =
      some (.list ["ROOT", "S1"]) := by
    decide +kernel
  have hparent : (rootedParent.build ["", "S1", "", "S1-a"]).bind (·.get? idField) = some (.scalar "S1") := by
    decide +kernel
  refine ⟨hcompiled, hchild, hparent, ?_⟩
  obtain ⟨record, hrecord, hget⟩ := Option.bind_eq_some_iff.1 hchild
  obtain ⟨p, source, before, after, hp, hlinked, hiff⟩ :=
    parentID_iff hcompiled (i := 0) (j := 1) (c := rootedChild) rfl rfl
  obtain rfl : rootedParent = p := Option.some.inj hp
  refine ⟨source, before, after, hlinked, ?_⟩
  by_contra hnone
  have heq := (hiff _ record hrecord).2 fun f hf => by_contra fun hv => hnone ⟨f, hf, hv⟩
  rw [hget, hparent] at heq
  cases heq

end TagHarvest
