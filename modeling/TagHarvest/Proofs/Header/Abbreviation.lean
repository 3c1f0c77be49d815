/-
Abbreviated tags. A tag may leave its table to the cells before it, and as an attribute also its field; `inFull?`
is the field that it stands for. A clause with such a tag does the same as one that names the field in full,
because the field declared last is where a full name is looked up: in its table's own recipe, or in the
recipe of the child record that is open.
-/
import TagHarvest.Proofs.Cell.Respelling
import TagHarvest.Proofs.Header.Acceptance
import TagHarvest.Proofs.Header.FullName
import TagHarvest.Proofs.Header.WellFormed

namespace TagHarvest

/-- A tag that leaves its table, or its table and field, to the tags before it. -/
def Tag.Abbreviated (tag : String) : Prop :=
  (∃ name, ofText tag = .ok (.attr name)) ∨ ∃ f, ofText tag = .ok (.field f) ∧ f.table = none

theorem Tag.not_abbreviated {tag : String} {kind : Tag} (h : ofText tag = .ok kind)
    (hattr : ∀ name, kind ≠ .attr name) (hfield : ∀ f, kind = .field f → f.table ≠ none) :
    ¬ Abbreviated tag := by
  rintro (⟨name, hname⟩ | ⟨f, hf, hnone⟩)
  · exact hattr name (Except.ok.inj (h.symm.trans hname))
  · exact hfield f (Except.ok.inj (h.symm.trans hf)) hnone

/-- The names in a clause can be spelled. -/
def Clause.Spelled : Clause → Prop
  | .table name => TableName name
  | .field _ f _ => f.Spelled
  | _ => True

namespace HeaderState

/-! ## What a tag stands for -/

/-- True if the field declared last is one of a child record. -/
def lastIsChild (s : HeaderState) : Bool :=
  match s.last.map LastField.target with
  | some (.recipe i) => (s.recipes[i]?).any RecordRecipe.isChild
  | some .pendingChild => true
  | _ => false

/--
The full name of the field that an abbreviated tag stands for; none for other tags. A tag that `declares`
an attribute of a child's field stands for a field of the child.
-/
def inFull? (s : HeaderState) (declares : Bool) (tag : String) : Option FieldName :=
  match Tag.ofText tag with
  | .ok (.attr name) => s.last.map fun last =>
    ⟨some last.table, last.base, some name, declares && s.lastIsChild⟩
  | .ok (.field f) => if f.table.isSome then none else s.table.map fun t => { f with table := some t }
  | _ => none

/-- The tag that names in full what a tag stands for. -/
def fullTag (s : HeaderState) (declares : Bool) (tag : String) : String :=
  ((s.inFull? declares tag).map FieldName.tag).getD tag

/-- The token with a full name in the place of an abbreviated tag. -/
def fullToken (s : HeaderState) (declares : Bool) : Token → Token
  | .tag tag => .tag (s.fullTag declares tag)
  | t => t

/-! ## Where the last field is -/

/-- Where a field of a table is looked up: in the recipe it went to. -/
inductive Home (s : HeaderState) (table : String) : Target → Prop
  | own {i : Nat} : s.ownRecipe? table = some i → Home s table (.recipe i)
  | child {i : Nat} {scope : ChildScope} {r : RecordRecipe} : s.child = some scope → scope.table = table →
      scope.recipe = some i → s.recipes[i]? = some r → r.isChild = true → Home s table (.recipe i)
  | global : Home s table .global
  | pending : Home s table .pendingChild

/-- What the cells of a row know when a cell in this column is compiled. -/
structure Settled (column : Nat) (s : HeaderState) : Prop where
  /-- The recipe of an open child is a child's. -/
  scope : ∀ scope i, s.child = some scope → scope.recipe = some i →
    ∃ r, s.recipes[i]? = some r ∧ r.isChild = true
  last : ∀ last, s.last = some last → Home s last.table last.target
  /-- Column 0 declares literals only. -/
  first : ∀ last, s.last = some last → column = 0 → last.target = .global
  table : ∀ t, s.table = some t → TableName t
  lastTable : ∀ last, s.last = some last → TableName last.table
  lastBase : ∀ last, s.last = some last → BaseName last.base

variable {s s' s₁ : HeaderState} {here : Location} {table : String} {f : FieldRecipe} {index : Nat}
  {target : Target} {d : Declaration} {r : RecordRecipe}

theorem settled_start : Settled 0 start := ⟨nofun, nofun, nofun, nofun, nofun, nofun⟩

/-- Recipes that differ in their fields only are those of the same tables. -/
theorem ownRecipe?_of_heads (h : s'.recipes.map RecordRecipe.head = s.recipes.map RecordRecipe.head) :
    s'.ownRecipe? table = s.ownRecipe? table := by
  have hown : ∀ s : HeaderState, s.ownRecipe? table =
      (s.recipes.map RecordRecipe.head).findIdx? fun head => head.1 == table && !head.2.isSome := by
    intro s
    rw [List.findIdx?_map]
    rfl
  rw [hown, hown, h]

/-- Adding a field changes no head of a recipe. -/
theorem heads_of_addTo (h : addTo here index f s = .ok () s') :
    s'.recipes.map RecordRecipe.head = s.recipes.map RecordRecipe.head ∧ s'.child = s.child := by
  rcases addTo_eq_ok h with ⟨-, rfl⟩ | ⟨r, r', hr, hadd, rfl⟩
  · exact ⟨rfl, rfl⟩
  · obtain ⟨hindex, rfl⟩ := List.getElem?_eq_some_iff.1 hr
    refine ⟨?_, rfl⟩
    rw [List.map_set, head_of_add hadd, ← List.map_set, List.set_getElem_self]

theorem exists_child_of_heads (h : s'.recipes.map RecordRecipe.head = s.recipes.map RecordRecipe.head)
    (hr : s.recipes[index]? = some r) (hchild : r.isChild = true) :
    ∃ r', s'.recipes[index]? = some r' ∧ r'.isChild = true := by
  obtain ⟨r', hr', -, hparent⟩ := Arranged.exists_of_heads h.symm hr
  exact ⟨r', hr', by unfold RecordRecipe.isChild at hchild ⊢; rw [hparent, hchild]⟩

theorem Home.of_heads (hhome : Home s table target)
    (h : s'.recipes.map RecordRecipe.head = s.recipes.map RecordRecipe.head) (hopen : s'.child = s.child) :
    Home s' table target := by
  cases hhome with
  | own hown => exact .own ((ownRecipe?_of_heads h).trans hown)
  | child hscope htable hrecipe hr hchild =>
    obtain ⟨r', hr', hchild'⟩ := exists_child_of_heads h hr hchild
    exact .child (hopen.trans hscope) htable hrecipe hr' hchild'
  | global => exact .global
  | pending => exact .pending

/-- The recipe that a table's own field goes to is the table's. -/
theorem ownRecipe?_of_recipeFor (h : recipeFor table s = .ok index s') :
    s'.ownRecipe? table = some index ∧ s'.child = s.child ∧
      ∀ (i : Nat) (r : RecordRecipe), s.recipes[i]? = some r → s'.recipes[i]? = some r := by
  rcases recipeFor_eq_ok h with ⟨hown, rfl⟩ | ⟨hown, rfl, rfl⟩
  · exact ⟨hown, rfl, fun _ _ hr => hr⟩
  · refine ⟨?_, rfl, fun i r hr => ?_⟩
    · unfold ownRecipe? at hown ⊢
      rw [List.findIdx?_append, hown]
      simp [RecordRecipe.new, RecordRecipe.isChild]
    · obtain ⟨hi, -⟩ := List.getElem?_eq_some_iff.1 hr
      rw [List.getElem?_append_left hi]
      exact hr

/-- A field is looked up where it has been placed. -/
theorem home_of_place (hs : s.Settled here.column)
    (howner : ∀ i, d.owner = some (.recipe i) → Home s d.table (.recipe i))
    (h : place here d f s = .ok target s') :
    Home s' d.table target ∧ (here.column = 0 → target = .global) ∧
      ∀ scope i, s'.child = some scope → scope.recipe = some i →
        ∃ r, s'.recipes[i]? = some r ∧ r.isChild = true := by
  -- what only adds a field keeps what is known of the open child
  have hscope : s'.recipes.map RecordRecipe.head = s.recipes.map RecordRecipe.head ∧ s'.child = s.child →
      ∀ scope i, s'.child = some scope → scope.recipe = some i →
        ∃ r, s'.recipes[i]? = some r ∧ r.isChild = true := by
    rintro ⟨hheads, hopen⟩ scope i hscope hi
    obtain ⟨r, hr, hchild⟩ := hs.scope scope i (hopen.symm.trans hscope) hi
    exact exists_child_of_heads hheads hr hchild
  rcases place_eq_ok h with ⟨hcolumn, hglobal⟩ | ⟨hcolumn, ⟨i, hd, hadd, rfl⟩ | ⟨-, -, hchild⟩ |
    ⟨-, -, i, s₁, hfor, hadd, rfl⟩⟩
  · obtain ⟨-, rfl, rfl⟩ := addGlobal_eq_ok hglobal
    exact ⟨.global, fun _ => rfl, hs.scope⟩
  · have hheads := heads_of_addTo hadd
    exact ⟨(howner i hd).of_heads hheads.1 hheads.2, fun hzero => absurd hzero hcolumn, hscope hheads⟩
  · rcases addChild_eq_ok hchild with ⟨-, scope, s₁, hopen, hadd⟩ |
      ⟨-, scope, i, hopen, htable, hi, hadd, rfl⟩ | ⟨-, rfl, rfl⟩
    · obtain ⟨rfl, htable, -, -⟩ := childScope_eq_ok hopen
      obtain ⟨parent, p, c, c₁, c', -, -, hc, hid, hpending, rfl, rfl⟩ := addChildId_eq_ok hadd
      have hhead : c'.head = c.head := by
        rcases hpending with ⟨-, rfl⟩ | ⟨waiting, -, hadd'⟩
        · exact head_of_add hid
        · exact (head_of_add hadd').trans (head_of_add hid)
      have hc' : c'.isChild = true := by
        have hparent := congrArg Prod.snd (hhead.trans (head_childOf hc))
        unfold RecordRecipe.isChild
        rw [show c'.parent = _ from hparent]
        rfl
      have hnew : (s.recipes ++ [c'])[s.recipes.length]? = some c' := by simp
      refine ⟨.child rfl htable rfl hnew hc', fun hzero => absurd hzero hcolumn, ?_⟩
      rintro _ i ⟨⟩ hi
      obtain rfl : s.recipes.length = i := Option.some.inj hi
      exact ⟨c', hnew, hc'⟩
    · have hheads := heads_of_addTo hadd
      obtain ⟨r, hr, hchild⟩ := hs.scope scope i hopen hi
      exact ⟨(Home.child hopen htable hi hr hchild).of_heads hheads.1 hheads.2,
        fun hzero => absurd hzero hcolumn, hscope hheads⟩
    · refine ⟨.pending, fun hzero => absurd hzero hcolumn, ?_⟩
      rintro _ i ⟨⟩ hi
      cases hi
  · obtain ⟨hown, hopen, hkeep⟩ := ownRecipe?_of_recipeFor hfor
    have hheads := heads_of_addTo hadd
    refine ⟨(Home.own hown).of_heads hheads.1 hheads.2, fun hzero => absurd hzero hcolumn, ?_⟩
    intro scope i hs' hi
    obtain ⟨r, hr, hchild⟩ := hs.scope scope i (hopen.symm.trans (hheads.2.symm.trans hs')) hi
    exact exists_child_of_heads hheads.1 (hkeep i r hr) hchild

/-! ## Full names -/

theorem tableOf_eq_ok {named : Option String} (h : s.tableOf here named = .ok table) :
    named = some table ∨ named = none ∧ s.table = some table := by
  unfold tableOf at h
  split at h
  · cases h
    exact .inl rfl
  · rename_i ht
    cases h
    exact .inr ⟨rfl, ht⟩
  · cases h

section FullNames

variable {declares : Bool} {tag name : String} {last : LastField} {g : FieldName} {column : Nat}

theorem inFull?_of_attr (declares : Bool) (h : Tag.ofText tag = .ok (.attr name)) (hlast : s.last = some last) :
    s.inFull? declares tag =
      some ⟨some last.table, last.base, some name, declares && s.lastIsChild⟩ := by
  unfold inFull?
  rw [h, hlast]
  rfl

theorem inFull?_of_field (declares : Bool) (h : Tag.ofText tag = .ok (.field g)) (hnone : g.table = none)
    (htable : s.table = some table) : s.inFull? declares tag = some { g with table := some table } := by
  unfold inFull?
  rw [h]
  dsimp only
  rw [hnone, htable]
  rfl

theorem fullToken_tag (s : HeaderState) (declares : Bool) (tag : String) :
    s.fullToken declares (.tag tag) = .tag (s.fullTag declares tag) := rfl

theorem inFull?_eq_none (h : ¬ Tag.Abbreviated tag) : s.inFull? declares tag = none := by
  unfold inFull?
  split
  · rename_i name hname
    exact absurd (.inl ⟨name, hname⟩) h
  · rename_i f hf
    exact if_pos (Option.isSome_iff_ne_none.2 fun hnone => h (.inr ⟨f, hf, hnone⟩))
  · rfl

theorem fullTag_of_eq_none (h : s.inFull? declares tag = none) : s.fullTag declares tag = tag := by
  unfold fullTag
  rw [h]
  rfl

theorem spelled_of_inFull? (hs : s.Settled column) (hread : (Token.tag tag).Readable)
    (h : s.inFull? declares tag = some g) : g.Spelled ∧ g.table ≠ none := by
  unfold inFull? at h
  split at h
  · rename_i name hname
    obtain ⟨last, hlast, rfl⟩ := Option.map_eq_some_iff.1 h
    refine ⟨⟨?_, hs.lastBase last hlast, ?_⟩, nofun⟩
    · rintro _ ⟨⟩
      exact hs.lastTable last hlast
    · rintro _ ⟨⟩
      exact Tag.spellable_attr hread hname
  · rename_i f hf
    have hspelled := FieldName.spelled_of_ofText hread hf
    split at h
    · cases h
    · obtain ⟨t, ht, rfl⟩ := Option.map_eq_some_iff.1 h
      refine ⟨⟨?_, hspelled.base, hspelled.attr⟩, nofun⟩
      rintro _ ⟨⟩
      exact hs.table t ht
  · cases h

/-- A full name is read back from its tag. -/
theorem ofText_fullTag (hs : s.Settled column) (hread : (Token.tag tag).Readable)
    (h : s.inFull? declares tag = some g) (hplain : ¬ g.Misread) :
    Tag.ofText (s.fullTag declares tag) = .ok (.field g) := by
  obtain ⟨hspelled, htable⟩ := spelled_of_inFull? hs hread h
  unfold fullTag
  rw [h]
  exact FieldName.ofText_tag hspelled htable hplain

/-- A tag takes the place of a tag. -/
theorem retags_fullToken (hs : s.Settled column) {t : Token} (hread : t.Readable) :
    Token.Retags t (s.fullToken declares t) := by
  cases t with
  | tag tag =>
    rw [fullToken_tag]
    cases h : s.inFull? declares tag with
    | none =>
      rw [fullTag_of_eq_none h]
      exact .same _
    | some g =>
      obtain ⟨hspelled, htable⟩ := spelled_of_inFull? hs hread h
      refine .tag tag ?_
      unfold fullTag
      rw [h]
      exact FieldName.readable_tag hspelled htable
  | literal | pattern | word | equals | plus | star | semicolon | comma => exact .same _

/-- What follows a tag in full is no abbreviation. -/
theorem not_abbreviated_fullTag (hs : s.Settled column) (hread : (Token.tag tag).Readable)
    (hplain : ∀ g ∈ s.inFull? declares tag, ¬ g.Misread)
    (hfull : Tag.Abbreviated tag → s.inFull? declares tag ≠ none) :
    ¬ Tag.Abbreviated (s.fullTag declares tag) := by
  cases h : s.inFull? declares tag with
  | none =>
    rw [fullTag_of_eq_none h]
    exact fun hshort => hfull hshort h
  | some g =>
    have hg := ofText_fullTag hs hread h (hplain g h)
    obtain ⟨-, htable⟩ := spelled_of_inFull? hs hread h
    refine Tag.not_abbreviated hg nofun ?_
    rintro _ ⟨⟩
    exact htable

/-- An abbreviated operand with a value stands for a field that is the same operand. -/
theorem inFull?_of_operand {part : OperandText} {o : Operand} (hpart : Clause.operand (.tag tag) = .ok part)
    (ho : s.operand here part = .ok o) (hshort : Tag.Abbreviated tag) :
    ∃ g, s.inFull? false tag = some g ∧ g.child = false ∧ s.operand here (.field g.table g.name) = .ok o := by
  obtain ⟨kind, hkind, hpart⟩ := except_bind_eq_ok hpart
  rcases hshort with ⟨name, hname⟩ | ⟨f, hf, hnone⟩
  · cases hkind.symm.trans hname
    cases hpart
    obtain ⟨last, hlast, ho⟩ := except_bind_eq_ok ho
    exact ⟨_, inFull?_of_attr false hname (lastFor_eq_ok hlast), rfl, ho⟩
  · cases hkind.symm.trans hf
    dsimp only at hpart
    split at hpart
    · cases hpart
    · rename_i hchild
      cases hpart
      obtain ⟨table, htable, ho⟩ := except_bind_eq_ok ho
      rcases tableOf_eq_ok htable with hsome | ⟨-, hcurrent⟩
      · cases hnone.symm.trans hsome
      · exact ⟨_, inFull?_of_field false hf hnone hcurrent, by simpa using hchild, ho⟩

/-- An operand reads the same under its full name. -/
theorem operand_fullToken (hs : s.Settled column) {t : Token} (hread : t.Readable)
    (hplain : ∀ tag, t = .tag tag → ∀ g ∈ s.inFull? false tag, ¬ g.Misread) {part : OperandText}
    {o : Operand} (hpart : Clause.operand t = .ok part) (ho : s.operand here part = .ok o) :
    ∃ part', Clause.operand (s.fullToken false t) = .ok part' ∧ s.operand here part' = .ok o := by
  cases t with
  | tag tag =>
    rw [fullToken_tag]
    by_cases hshort : Tag.Abbreviated tag
    · obtain ⟨g, hg, hchild, hsame⟩ := inFull?_of_operand hpart ho hshort
      refine ⟨.field g.table g.name, ?_, hsame⟩
      show (Tag.ofText (s.fullTag false tag) >>= _) = _
      rw [ofText_fullTag hs hread hg (hplain tag rfl g hg)]
      show (if g.child then _ else _) = _
      rw [hchild]
      rfl
    · rw [fullTag_of_eq_none (inFull?_eq_none hshort)]
      exact ⟨part, hpart, ho⟩
  | literal | pattern | word | equals | plus | star | semicolon | comma => exact ⟨part, hpart, ho⟩

end FullNames

/-! ## Declarations -/

/-- A declaration that succeeds has operands, and its field is placed and becomes the last one. -/
theorem place_of_declare {value : Assignment} (h : declare here d value s = .ok () s') :
    ∃ operands target s₁, s.operands? here value = .ok operands ∧
      place here d ⟨d.name, operands.getD [.column here.column], d.list, here.column⟩ s = .ok target s₁ ∧
      s' = { s₁ with table := some d.table, last := some ⟨target, d.table, d.base⟩ } := by
  obtain ⟨operands, s₀, hlook, hrest⟩ := bind_eq_ok h
  obtain ⟨hoperands, rfl⟩ := look_eq_ok hlook
  split at hrest
  · cases hrest
  · obtain ⟨-, target, s₁, hplace, hs'⟩ := register_eq_ok hrest
    exact ⟨operands, target, s₁, hoperands, hplace, hs'⟩

theorem settled_of_declare {value : Assignment} (hs : s.Settled here.column) (htable : TableName d.table)
    (hbase : BaseName d.base) (howner : ∀ i, d.owner = some (.recipe i) → Home s d.table (.recipe i))
    (h : declare here d value s = .ok () s') : s'.Settled here.column := by
  obtain ⟨operands, target, s₁, -, hplace, rfl⟩ := place_of_declare h
  obtain ⟨hhome, hfirst, hscope⟩ := home_of_place hs howner hplace
  exact {
    scope := hscope
    last := by
      rintro _ ⟨⟩
      exact hhome.of_heads rfl rfl
    first := by
      rintro _ ⟨⟩
      exact hfirst
    table := by
      rintro _ ⟨⟩
      exact htable
    lastTable := by
      rintro _ ⟨⟩
      exact htable
    lastBase := by
      rintro _ ⟨⟩
      exact hbase }

/-- A clause whose names can be spelled keeps what is known between clauses. -/
theorem settled_of_clause {c : Clause} (hs : s.Settled here.column) (hc : c.Spelled)
    (h : clause here c s = .ok () s') : s'.Settled here.column := by
  cases c with
  | fault f => cases h
  | table name =>
    cases h
    exact { hs with
      table := by
        rintro _ ⟨⟩
        exact hc
      last := fun last hlast => (hs.last last hlast).of_heads rfl rfl }
  | attr list name value =>
    obtain ⟨last, s₁, hlook, hrest⟩ := bind_eq_ok h
    obtain ⟨hlast, rfl⟩ := look_eq_ok hlook
    have hlast := lastFor_eq_ok hlast
    split at hrest
    · cases hrest
    · refine settled_of_declare hs (hs.lastTable last hlast) (hs.lastBase last hlast) ?_ hrest
      rintro i hi
      rw [← Option.some.inj hi]
      exact hs.last last hlast
  | field list name value =>
    obtain ⟨table, s₁, hlook, hrest⟩ := bind_eq_ok h
    obtain ⟨htable, rfl⟩ := look_eq_ok hlook
    refine settled_of_declare hs ?_ hc.base (fun _ howner => by cases howner) hrest
    rcases tableOf_eq_ok htable with hnamed | ⟨-, hcurrent⟩
    · exact hc.table table hnamed
    · exact hs.table table hcurrent

/-! ## Clauses with full names -/

theorem look_congr {α : Type} {g g' : HeaderState → Except TagError α} (h : g s = g' s) :
    look g s = look g' s := by
  unfold look
  rw [get_bind_apply, get_bind_apply]
  simp only [h]

/-- A declaration depends on the place of its field and on its operands only. -/
theorem declare_congr {value value' : Assignment} (child : Bool) (owner : Option Target)
    (hvalue : s.operands? here value' = s.operands? here value)
    (hplace : ∀ f : FieldRecipe, f.name = d.name → place here { d with child, owner } f s = place here d f s) :
    declare here { d with child, owner } value' s = declare here d value s := by
  have hregister : ∀ operands, register here { d with child, owner } operands s = register here d operands s := by
    intro operands
    unfold register
    split
    · rfl
    · show EStateM.bind _ _ s = EStateM.bind _ _ s
      unfold EStateM.bind
      rw [hplace _ rfl]
  have hlook : look (·.operands? here value') s = look (·.operands? here value) s := look_congr hvalue
  unfold declare
  show EStateM.bind _ _ s = EStateM.bind _ _ s
  unfold EStateM.bind
  rw [hlook]
  cases hresult : look (·.operands? here value) s with
  | error e s₁ => rfl
  | ok operands s₁ =>
    obtain ⟨-, rfl⟩ := look_eq_ok hresult
    dsimp only
    split
    · rfl
    · exact hregister operands

theorem attributeName_ne_id (base attr : String) : attributeName base attr ≠ idField := by
  intro h
  have hmem : '%' ∈ (attributeName base attr).toList := by
    unfold attributeName
    simp [String.toList_append]
  rw [h] at hmem
  revert hmem
  decide

theorem lastIsChild_of_recipe {last : LastField} (hlast : s.last = some last)
    (htarget : last.target = .recipe index) :
    s.lastIsChild = (s.recipes[index]?).any RecordRecipe.isChild := by
  unfold lastIsChild
  rw [hlast, Option.map_some, htarget]

/-- A full name finds the recipe of the field declared last. -/
theorem place_inFull (hs : s.Settled here.column) {last : LastField} (hlast : s.last = some last)
    (htarget : here.column = 0 ∨ ∃ i, last.target = .recipe i) (hid : f.name ≠ idField)
    (base name : String) (list : Bool) :
    place here ⟨last.table, base, name, s.lastIsChild, none, list⟩ f s =
      place here ⟨last.table, base, name, false, some last.target, list⟩ f s := by
  unfold place
  by_cases hcolumn : here.column = 0
  · have hglobal := hs.first last hlast hcolumn
    have hchild : s.lastIsChild = false := by
      unfold lastIsChild
      rw [hlast, Option.map_some, hglobal]
    rw [if_pos hcolumn, if_pos hcolumn, hchild]
    rfl
  · obtain ⟨i, hi⟩ := htarget.resolve_left hcolumn
    have hhome := hs.last last hlast
    rw [hi] at hhome
    rw [if_neg hcolumn, if_neg hcolumn, lastIsChild_of_recipe hlast hi, hi]
    dsimp only
    cases hhome with
    | own hown =>
      have hchild : (s.recipes[i]?).any RecordRecipe.isChild = false := by
        cases hr : s.recipes[i]? with
        | none => rfl
        | some r => simp [RecordRecipe.isChild, (ownRecipe?_eq_some hown hr).2]
      have hfor : recipeFor last.table s = .ok i s := by
        unfold recipeFor
        rw [get_bind_apply, hown]
        rfl
      rw [hchild, if_neg Bool.false_ne_true, bind_apply_of_ok hfor]
    | @child _ scope r hopen htable hrecipe hr hchild =>
      have hany : (s.recipes[i]?).any RecordRecipe.isChild = true := by rw [hr]; exact hchild
      have hscope : childScope here last.table s = .ok scope s := by
        unfold childScope
        rw [get_bind_apply, hopen]
        dsimp only
        rw [if_pos htable]
        rfl
      unfold addChild
      rw [hany, if_pos rfl, bind_apply_of_ok hscope, if_neg hid, hrecipe]

/-- An attribute is declared in the same way under its full name. -/
theorem clause_attr_inFull (hs : s.Settled here.column) {last : LastField} (hlast : s.last = some last)
    {list : Bool} {name : String} {value value' : Assignment}
    (hvalue : s.operands? here value' = s.operands? here value)
    (h : clause here (.attr list name value) s = .ok () s') :
    clause here (.field list ⟨some last.table, last.base, some name, s.lastIsChild⟩ value') s =
      .ok () s' := by
  obtain ⟨last', s₁, hlook, hrest⟩ := bind_eq_ok h
  obtain ⟨hlast', hs₁⟩ := look_eq_ok hlook
  obtain rfl : last = last' := Option.some.inj (hlast.symm.trans (lastFor_eq_ok hlast'))
  rw [hs₁] at hrest
  split at hrest
  · cases hrest
  · -- an attribute of a literal of column 0 is accepted in column 0 only
    have htarget : here.column = 0 ∨ ∃ i, last.target = .recipe i := by
      obtain ⟨operands, target, s₂, -, hplace, -⟩ := place_of_declare hrest
      rcases place_eq_ok hplace with ⟨hcolumn, -⟩ | ⟨-, ⟨i, hi, -⟩ | ⟨hnone, -⟩ | ⟨hnone, -⟩⟩
      · exact .inl hcolumn
      · exact .inr ⟨i, Option.some.inj hi⟩
      · cases hnone
      · cases hnone
    have hdeclare := declare_congr s.lastIsChild none hvalue
      (d := ⟨last.table, last.base, attributeName last.base name, false, some last.target, list⟩)
      fun f hf => place_inFull hs hlast htarget (ne_of_eq_of_ne hf (attributeName_ne_id _ _)) _ _ _
    exact hdeclare.trans hrest

/-- A field is declared in the same way under its full name. -/
theorem clause_field_inFull {list : Bool} {name : FieldName} {value value' : Assignment}
    {named : Option String} (htable : s.tableOf here named = s.tableOf here name.table)
    (hvalue : s.operands? here value' = s.operands? here value) :
    clause here (.field list { name with table := named } value') s =
      clause here (.field list name value) s := by
  have hlook : look (·.tableOf here named) s = look (·.tableOf here name.table) s := look_congr htable
  unfold clause
  show EStateM.bind _ _ s = EStateM.bind _ _ s
  unfold EStateM.bind
  rw [hlook]
  cases hresult : look (·.tableOf here name.table) s with
  | error e s₁ => rfl
  | ok table s₁ =>
    obtain ⟨-, rfl⟩ := look_eq_ok hresult
    exact declare_congr (d := ⟨table, name.base, name.name, name.child, none, list⟩) name.child none hvalue
      fun _ _ => rfl

end HeaderState
end TagHarvest
