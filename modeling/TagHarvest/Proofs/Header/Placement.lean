/-
What the cells of a header row do to the state of its compilation. A clause that succeeds either names
the current table or puts one field in its place, and there are few places: the literals of column 0, a
recipe that is there, a new recipe, the recipe of a child record, or the field that waits for a child's id.
`Placed` lists them with their conditions. What every placement keeps holds when the cells of a row have been
compiled: `Kept.row`.
-/
import TagHarvest.Header.Compile
import TagHarvest.Proofs.Effects
import TagHarvest.Proofs.Header.Grammar

namespace TagHarvest

/-- A recipe that a header of this width can declare. -/
structure FieldRecipe.Declarable (width : Nat) (f : FieldRecipe) : Prop where
  operands : f.operands ≠ []
  columns : ∀ i, .column i ∈ f.operands → 0 < i ∧ i < width
  id : f.name = idField → f.list = false
  column : f.column < width
  references : ∀ r, .reference r ∈ f.operands → r.usedAt < width

namespace HeaderState

/-- The field that waits for the id of a child of `table`. -/
def waiting? (s : HeaderState) (table : String) : Option FieldRecipe :=
  s.child.bind fun scope => if scope.table = table then scope.pending else none

/-- Where a field of `table` that is declared in a column goes, and the state after it. -/
inductive Placed (column : Nat) (table : String) (f : FieldRecipe) (s : HeaderState) :
    Target → HeaderState → Prop
  /-- A literal of column 0. -/
  | global : column = 0 → f.isLiteral = true →
      Placed column table f s .global { s with globals := s.globals ++ [(table, f)] }
  /-- A field of a recipe that is there: a table's own or that of the open child record. -/
  | field {index : Nat} {r r' : RecordRecipe} : s.recipes[index]? = some r → r.add f = .ok r' →
      Placed column table f s (.recipe index) { s with recipes := s.recipes.set index r' }
  /-- A field of a recipe that has not been made. -/
  | nowhere {index : Nat} : s.recipes[index]? = none → Placed column table f s (.recipe index) s
  /-- The first field of a table. -/
  | own : s.ownRecipe? table = none →
      Placed column table f s (.recipe s.recipes.length)
        { s with recipes := s.recipes ++ [(RecordRecipe.new table).push f] }
  /-- A field of a child record whose id is still to come. -/
  | pending : f.name ≠ idField →
      Placed column table f s .pendingChild { s with child := some ⟨table, none, some f⟩ }
  /-- The id of a child record, which opens its recipe. -/
  | child {parent : Nat} {p c c' : RecordRecipe} : f.name = idField →
      s.ownRecipe? table = some parent → s.recipes[parent]? = some p → p.childOf parent = some c →
      c.add f = .ok c' → s.waiting? table = none →
      Placed column table f s (.recipe s.recipes.length)
        { s with recipes := s.recipes ++ [c'], child := some ⟨table, some s.recipes.length, none⟩ }
  /-- The id of a child record of which one field was waiting. -/
  | childOfWaiting {parent : Nat} {p c c₁ c' : RecordRecipe} {waiting : FieldRecipe} :
      f.name = idField → s.ownRecipe? table = some parent → s.recipes[parent]? = some p →
      p.childOf parent = some c → c.add f = .ok c₁ → s.waiting? table = some waiting →
      c₁.add waiting = .ok c' →
      Placed column table f s (.recipe s.recipes.length)
        { s with recipes := s.recipes ++ [c'], child := some ⟨table, some s.recipes.length, none⟩ }

variable {s s' : HeaderState} {here : Location} {table : String} {f : FieldRecipe} {index : Nat}
  {target : Target}

/-! ## Placing a field -/

theorem addTo_eq_ok (h : addTo here index f s = .ok () s') :
    s.recipes[index]? = none ∧ s' = s ∨
      ∃ r r', s.recipes[index]? = some r ∧ r.add f = .ok r' ∧
        s' = { s with recipes := s.recipes.set index r' } := by
  unfold addTo at h
  rw [get_bind_apply] at h
  cases hr : s.recipes[index]? with
  | none =>
    rw [hr] at h
    cases h
    exact .inl ⟨rfl, rfl⟩
  | some r =>
    rw [hr] at h
    dsimp only at h
    cases hadd : r.add f with
    | error fault =>
      rw [hadd] at h
      cases h
    | ok r' =>
      rw [hadd] at h
      cases h
      exact .inr ⟨r, r', rfl, hadd, rfl⟩

theorem placed_of_addTo (column : Nat) (table : String) (h : addTo here index f s = .ok () s') :
    Placed column table f s (.recipe index) s' := by
  rcases addTo_eq_ok h with ⟨hr, rfl⟩ | ⟨r, r', hr, hadd, rfl⟩
  · exact .nowhere hr
  · exact .field hr hadd

theorem recipeFor_eq_ok (h : recipeFor table s = .ok index s') :
    s.ownRecipe? table = some index ∧ s' = s ∨
      s.ownRecipe? table = none ∧ index = s.recipes.length ∧
        s' = { s with recipes := s.recipes ++ [RecordRecipe.new table] } := by
  unfold recipeFor at h
  rw [get_bind_apply] at h
  cases hown : s.ownRecipe? table with
  | some i =>
    rw [hown] at h
    cases h
    exact .inl ⟨rfl, rfl⟩
  | none =>
    rw [hown] at h
    cases h
    exact .inr ⟨rfl, rfl, rfl⟩

/-- A table's own field goes to the table's recipe or begins it. -/
theorem placed_of_recipeFor (column : Nat) {s₁ : HeaderState} (hfor : recipeFor table s = .ok index s₁)
    (hadd : addTo here index f s₁ = .ok () s') : Placed column table f s (.recipe index) s' := by
  rcases recipeFor_eq_ok hfor with ⟨-, rfl⟩ | ⟨hown, rfl, rfl⟩
  · exact placed_of_addTo column table hadd
  · have hnew : (s.recipes ++ [RecordRecipe.new table])[s.recipes.length]? =
        some (RecordRecipe.new table) := by
      simp
    have hpush : (RecordRecipe.new table).add f = .ok ((RecordRecipe.new table).push f) := rfl
    rcases addTo_eq_ok hadd with ⟨hr, -⟩ | ⟨r, r', hr, hr', rfl⟩
    · rw [hnew] at hr
      cases hr
    · rw [hnew] at hr
      cases hr
      rw [hpush] at hr'
      cases hr'
      have hset : (s.recipes ++ [RecordRecipe.new table]).set s.recipes.length
          ((RecordRecipe.new table).push f) = s.recipes ++ [(RecordRecipe.new table).push f] := by
        simp
      dsimp only
      rw [hset]
      exact .own hown

/-- The scope of a child's field is the open one of its table or a new one. -/
theorem childScope_eq_ok {scope : ChildScope} (h : childScope here table s = .ok scope s') :
    s' = { s with child := some scope } ∧ scope.table = table ∧ scope.pending = s.waiting? table ∧
      (s.child = some scope ∨ scope.recipe = none) := by
  unfold childScope at h
  rw [get_bind_apply] at h
  cases hc : s.child with
  | none =>
    rw [hc] at h
    cases h
    exact ⟨rfl, rfl, by simp [waiting?, hc], .inr rfl⟩
  | some open? =>
    rw [hc] at h
    dsimp only at h
    split at h
    · rename_i htable
      cases h
      exact ⟨by rw [← hc], htable, by simp [waiting?, hc, htable], .inl rfl⟩
    · rename_i htable
      split at h
      · cases h
      · cases h
        exact ⟨rfl, rfl, by simp [waiting?, hc, htable], .inr rfl⟩

/-- The id of a child is the first field of a new recipe, before the one that has been waiting for it. -/
theorem addChildId_eq_ok {scope : ChildScope} (h : addChildId here scope f s = .ok target s') :
    ∃ parent p c c₁ c', s.ownRecipe? scope.table = some parent ∧ s.recipes[parent]? = some p ∧
      p.childOf parent = some c ∧ c.add f = .ok c₁ ∧
      (scope.pending = none ∧ c' = c₁ ∨ ∃ waiting, scope.pending = some waiting ∧ c₁.add waiting = .ok c') ∧
      target = .recipe s.recipes.length ∧
      s' = { s with recipes := s.recipes ++ [c'], child := some ⟨scope.table, some s.recipes.length, none⟩ } := by
  unfold addChildId at h
  rw [get_bind_apply] at h
  dsimp only at h
  cases hown : s.ownRecipe? scope.table with
  | none =>
    rw [hown] at h
    cases h
  | some parent =>
    rw [hown] at h
    dsimp only at h
    cases hchild : (s.recipes[parent]?).bind (·.childOf parent) with
    | none =>
      rw [hchild] at h
      cases h
    | some c =>
      rw [hchild] at h
      dsimp only at h
      obtain ⟨p, hp, hc⟩ := Option.bind_eq_some_iff.1 hchild
      cases hadd : c.add f with
      | error fault =>
        rw [hadd] at h
        cases h
      | ok c₁ =>
        rw [hadd] at h
        cases hpending : scope.pending with
        | none =>
          rw [hpending] at h
          cases h
          exact ⟨parent, p, c, c₁, c₁, rfl, hp, hc, hadd, .inl ⟨rfl, rfl⟩, rfl, rfl⟩
        | some waiting =>
          rw [hpending] at h
          -- the id is added first, then the field that has been waiting for it
          obtain ⟨_, s₂, hc₁, hrest⟩ := bind_eq_ok h
          cases hc₁
          obtain ⟨⟨⟩, s₃, hset, hrest⟩ := bind_eq_ok hrest
          cases hset
          obtain ⟨c', s₄, hc', hend⟩ := bind_eq_ok hrest
          cases hadd' : c₁.add waiting with
          | error fault =>
            rw [hadd'] at hc'
            cases hc'
          | ok _ =>
            rw [hadd'] at hc'
            cases hc'
            cases hend
            exact ⟨parent, p, c, c₁, c', rfl, hp, hc, hadd, .inr ⟨waiting, rfl, hadd'⟩, rfl, rfl⟩

theorem placed_of_addChildId (column : Nat) {scope : ChildScope} {s₁ : HeaderState}
    (hscope : childScope here table s = .ok scope s₁) (hid : f.name = idField)
    (h : addChildId here scope f s₁ = .ok target s') : Placed column table f s target s' := by
  obtain ⟨rfl, rfl, hwaiting, -⟩ := childScope_eq_ok hscope
  obtain ⟨parent, p, c, c₁, c', hown, hp, hc, hadd, hpending, rfl, rfl⟩ := addChildId_eq_ok h
  rcases hpending with ⟨hnone, rfl⟩ | ⟨waiting, hsome, hadd'⟩
  · exact .child hid hown hp hc hadd (hwaiting ▸ hnone)
  · exact .childOfWaiting hid hown hp hc hadd (hwaiting ▸ hsome) hadd'

/-- A child's field is its id, or it goes to the child's recipe that is open, or it waits for the id. -/
theorem addChild_eq_ok (h : addChild here table f s = .ok target s') :
    (f.name = idField ∧ ∃ scope s₁, childScope here table s = .ok scope s₁ ∧
      addChildId here scope f s₁ = .ok target s') ∨
    (f.name ≠ idField ∧ ∃ scope index, s.child = some scope ∧ scope.table = table ∧
      scope.recipe = some index ∧ addTo here index f s = .ok () s' ∧ target = .recipe index) ∨
    f.name ≠ idField ∧ target = .pendingChild ∧ s' = { s with child := some ⟨table, none, some f⟩ } := by
  unfold addChild at h
  obtain ⟨scope, s₁, hscope, hrest⟩ := bind_eq_ok h
  by_cases hid : f.name = idField
  · rw [if_pos hid] at hrest
    exact .inl ⟨hid, scope, s₁, hscope, hrest⟩
  · rw [if_neg hid] at hrest
    obtain ⟨rfl, rfl, -, hopen⟩ := childScope_eq_ok hscope
    cases hrecipe : scope.recipe with
    | some index =>
      rw [hrecipe] at hrest hopen
      -- only a scope that was open before has a recipe, so the state is the one before
      obtain hopen : s.child = some scope := hopen.resolve_right nofun
      rw [← hopen] at hrest
      obtain ⟨⟨⟩, s₂, hadd, hend⟩ := bind_eq_ok hrest
      cases hend
      exact .inr (.inl ⟨hid, scope, index, hopen, rfl, hrecipe, hadd, rfl⟩)
    | none =>
      rw [hrecipe] at hrest
      cases hpending : scope.pending with
      | some waiting =>
        rw [hpending] at hrest
        cases hrest
      | none =>
        rw [hpending] at hrest
        cases hrest
        exact .inr (.inr ⟨hid, rfl, by rw [← hrecipe]⟩)

/-- A child's field goes to the child's recipe, opens it or waits for it. -/
theorem placed_of_addChild (column : Nat) (h : addChild here table f s = .ok target s') :
    Placed column table f s target s' := by
  rcases addChild_eq_ok h with ⟨hid, scope, s₁, hscope, hadd⟩ | ⟨-, scope, index, -, -, -, hadd, rfl⟩ |
    ⟨hid, rfl, rfl⟩
  · exact placed_of_addChildId column hscope hid hadd
  · exact placed_of_addTo column table hadd
  · exact .pending hid

theorem addGlobal_eq_ok {d : Declaration} (h : addGlobal here d f s = .ok target s') :
    f.isLiteral = true ∧ target = .global ∧ s' = { s with globals := s.globals ++ [(d.table, f)] } := by
  unfold addGlobal at h
  split at h
  · cases h
  · rename_i hliteral
    split at h
    · cases h
    · cases h
      exact ⟨by simpa using hliteral, rfl, rfl⟩

/-- A declaration is placed by its column, by the field that it is an attribute of, or by its table. -/
theorem place_eq_ok {d : Declaration} (h : place here d f s = .ok target s') :
    (here.column = 0 ∧ addGlobal here d f s = .ok target s') ∨
    here.column ≠ 0 ∧
      ((∃ index, d.owner = some (.recipe index) ∧ addTo here index f s = .ok () s' ∧ target = .recipe index) ∨
      (d.owner = none ∧ d.child = true ∧ addChild here d.table f s = .ok target s') ∨
      d.owner = none ∧ d.child = false ∧ ∃ index s₁, recipeFor d.table s = .ok index s₁ ∧
        addTo here index f s₁ = .ok () s' ∧ target = .recipe index) := by
  unfold place at h
  by_cases hcolumn : here.column = 0
  · rw [if_pos hcolumn] at h
    exact .inl ⟨hcolumn, h⟩
  · rw [if_neg hcolumn] at h
    refine .inr ⟨hcolumn, ?_⟩
    cases howner : d.owner with
    | some owner =>
      rw [howner] at h
      cases owner with
      | recipe index =>
        obtain ⟨⟨⟩, s₁, hadd, hend⟩ := bind_eq_ok h
        cases hend
        exact .inl ⟨index, rfl, hadd, rfl⟩
      | global => cases h
      | pendingChild => cases h
    | none =>
      rw [howner] at h
      dsimp only at h
      cases hchild : d.child with
      | true =>
        rw [if_pos hchild] at h
        exact .inr (.inl ⟨rfl, rfl, h⟩)
      | false =>
        rw [if_neg (by simpa using hchild)] at h
        obtain ⟨index, s₁, hfor, hrest⟩ := bind_eq_ok h
        obtain ⟨⟨⟩, s₂, hadd, hend⟩ := bind_eq_ok hrest
        cases hend
        exact .inr (.inr ⟨rfl, rfl, index, s₁, hfor, hadd, rfl⟩)

/-- A declaration that succeeds puts its field in one of the places there are. -/
theorem placed_of_place {d : Declaration} (h : place here d f s = .ok target s') :
    Placed here.column d.table f s target s' := by
  rcases place_eq_ok h with ⟨hcolumn, hglobal⟩ | ⟨-, ⟨index, -, hadd, rfl⟩ | ⟨-, -, hchild⟩ |
    ⟨-, -, index, s₁, hfor, hadd, rfl⟩⟩
  · obtain ⟨hliteral, rfl, rfl⟩ := addGlobal_eq_ok hglobal
    exact .global hcolumn hliteral
  · exact placed_of_addTo here.column d.table hadd
  · exact placed_of_addChild here.column hchild
  · exact placed_of_recipeFor here.column hfor hadd

/-! ## Declaring a field -/

theorem look_eq_ok {α : Type} {g : HeaderState → Except TagError α} {a : α} (h : look g s = .ok a s') :
    g s = .ok a ∧ s' = s := by
  unfold look at h
  rw [get_bind_apply] at h
  cases hg : g s with
  | ok b =>
    rw [hg] at h
    cases h
    exact ⟨rfl, rfl⟩
  | error e =>
    rw [hg] at h
    cases h

/-- No operand that is written reads a column itself. -/
theorem operand_ne_column {part : OperandText} {o : Operand} (h : s.operand here part = .ok o) (i : Nat) :
    o ≠ .column i := by
  cases part with
  | literal text =>
    cases h
    exact nofun
  | attr name =>
    obtain ⟨last, -, ho⟩ := except_bind_eq_ok h
    cases ho
    exact nofun
  | field named name =>
    obtain ⟨table, -, ho⟩ := except_bind_eq_ok h
    cases ho
    exact nofun

/-- A reference is used in the cell that writes it. -/
theorem usedAt_of_operand {part : OperandText} {r : FieldReference}
    (h : s.operand here part = .ok (.reference r)) : r.usedAt = here.column := by
  cases part with
  | literal text => cases h
  | attr name =>
    obtain ⟨last, -, ho⟩ := except_bind_eq_ok h
    cases ho
    rfl
  | field named name =>
    obtain ⟨table, -, ho⟩ := except_bind_eq_ok h
    cases ho
    rfl

theorem operands?_eq_ok {value : Assignment} {operands : Option (List Operand)}
    (h : s.operands? here value = .ok operands) :
    value = .column ∧ operands = none ∨
      ∃ parts os, value = .operands parts none ∧ operands = some os ∧
        List.Forall₂ (fun part o => s.operand here part = .ok o) parts os := by
  cases value with
  | column =>
    cases h
    exact .inl ⟨rfl, rfl⟩
  | fault f => cases h
  | operands parts fault =>
    obtain ⟨os, hos, h⟩ := except_bind_eq_ok h
    cases fault with
    | some f => cases h
    | none =>
      cases h
      exact .inr ⟨parts, os, rfl, rfl, mapM_eq_ok hos⟩

theorem register_eq_ok {d : Declaration} {operands : Option (List Operand)}
    (h : register here d operands s = .ok () s') :
    (operands = none → here.column ≠ 0) ∧
      ∃ target s₁, place here d ⟨d.name, operands.getD [.column here.column], d.list, here.column⟩ s =
          .ok target s₁ ∧
        s' = { s₁ with table := some d.table, last := some ⟨target, d.table, d.base⟩ } := by
  unfold register at h
  by_cases hunassigned : (operands.isNone && here.column = 0) = true
  · rw [if_pos hunassigned] at h
    cases h
  · rw [if_neg hunassigned] at h
    obtain ⟨target, s₁, hplace, hend⟩ := bind_eq_ok h
    cases hend
    refine ⟨fun hnone hcolumn => hunassigned ?_, target, s₁, hplace, rfl⟩
    simp [hnone, hcolumn]

/-- A field that is declared has operands, and the only column it may read is that of its cell. -/
theorem declare_eq_ok {d : Declaration} {value : Assignment}
    (hvalue : ∀ parts, value = .operands parts none → parts ≠ [])
    (h : declare here d value s = .ok () s') :
    ∃ f target s₁, (∀ width, here.column < width → f.Declarable width) ∧
      Placed here.column d.table f s target s₁ ∧
      s' = { s₁ with table := some d.table, last := some ⟨target, d.table, d.base⟩ } := by
  unfold declare at h
  obtain ⟨operands, s₀, hlook, hrest⟩ := bind_eq_ok h
  obtain ⟨hoperands, rfl⟩ := look_eq_ok hlook
  by_cases hlist : (d.list && d.name = idField) = true
  · rw [if_pos hlist] at hrest
    cases hrest
  · rw [if_neg hlist] at hrest
    obtain ⟨hcolumn, target, s₁, hplace, hs'⟩ := register_eq_ok hrest
    refine ⟨_, target, s₁, fun width hwidth => ⟨?_, ?_, ?_, hwidth, ?_⟩, placed_of_place hplace, hs'⟩
    -- operands, columns, the id and references, each for a field of its own column and for an assigned one
    · rcases operands?_eq_ok hoperands with ⟨-, rfl⟩ | ⟨parts, os, hparts, rfl, hos⟩
      · simp
      · intro hnil
        have hlength := hos.length_eq
        rw [show os = [] from hnil] at hlength
        exact hvalue parts hparts (List.length_eq_zero_iff.1 hlength)
    · intro i hi
      rcases operands?_eq_ok hoperands with ⟨-, rfl⟩ | ⟨parts, os, -, rfl, hos⟩
      · obtain rfl : i = here.column := by simpa using hi
        exact ⟨Nat.pos_of_ne_zero (hcolumn rfl), hwidth⟩
      · obtain ⟨part, -, hpart⟩ := exists_of_mem_forall₂ hos hi
        exact absurd rfl (operand_ne_column hpart i)
    · intro hid
      have hname : d.name = idField := hid
      simpa [hname] using hlist
    · intro r hr
      rcases operands?_eq_ok hoperands with ⟨-, rfl⟩ | ⟨parts, os, -, rfl, hos⟩
      · cases List.mem_singleton.1 hr
      · obtain ⟨part, -, hpart⟩ := exists_of_mem_forall₂ hos hr
        rw [usedAt_of_operand hpart]
        exact hwidth

/-! ## Clauses, cells and rows -/

/-- A clause that succeeds names the current table or declares one field. -/
theorem clause_eq_ok {c : Clause} (hc : ∀ parts, c.value? = some (.operands parts none) → parts ≠ [])
    (h : clause here c s = .ok () s') :
    (∃ name, c = .table name ∧ s' = { s with table := some name }) ∨
      ∃ table base f target s₁, (∀ width, here.column < width → f.Declarable width) ∧
        Placed here.column table f s target s₁ ∧
        s' = { s₁ with table := some table, last := some ⟨target, table, base⟩ } := by
  cases c with
  | fault f => cases h
  | table name =>
    cases h
    exact .inl ⟨name, rfl, rfl⟩
  | attr list name value =>
    obtain ⟨last, s₀, hlook, hrest⟩ := bind_eq_ok h
    obtain ⟨-, rfl⟩ := look_eq_ok hlook
    by_cases hpending : last.target = .pendingChild
    · rw [if_pos hpending] at hrest
      cases hrest
    · rw [if_neg hpending] at hrest
      obtain ⟨f, target, s₁, hf, hplaced, hs'⟩ :=
        declare_eq_ok (fun parts hv => hc parts (congrArg some hv)) hrest
      exact .inr ⟨_, _, f, target, s₁, hf, hplaced, hs'⟩
  | field list name value =>
    obtain ⟨table, s₀, hlook, hrest⟩ := bind_eq_ok h
    obtain ⟨-, rfl⟩ := look_eq_ok hlook
    obtain ⟨f, target, s₁, hf, hplaced, hs'⟩ :=
      declare_eq_ok (fun parts hv => hc parts (congrArg some hv)) hrest
    exact .inr ⟨_, _, f, target, s₁, hf, hplaced, hs'⟩

/-- What the cells of a header of this width keep, of which the current table and the last field are no part. -/
structure Kept (width : Nat) (P : HeaderState → Prop) : Prop where
  context : ∀ {s : HeaderState} (table last), P s → P { s with table := table, last := last }
  placed : ∀ {s s' : HeaderState} {column : Nat} {table : String} {f : FieldRecipe} {target : Target},
    column < width → f.Declarable width → Placed column table f s target s' → P s → P s'

namespace Kept

variable {width : Nat} {P : HeaderState → Prop}

theorem clause (hP : Kept width P) (hcolumn : here.column < width) {c : Clause}
    (hc : ∀ parts, c.value? = some (.operands parts none) → parts ≠ []) (hs : P s)
    (h : HeaderState.clause here c s = .ok () s') : P s' := by
  rcases clause_eq_ok hc h with ⟨name, -, rfl⟩ | ⟨table, base, f, target, s₁, hf, hplaced, rfl⟩
  · exact hP.context _ _ hs
  · exact hP.context _ _ (hP.placed hcolumn (hf width hcolumn) hplaced hs)

theorem clauses (hP : Kept width P) (hcolumn : here.column < width) {cs : List Clause}
    (hcs : ∀ c ∈ cs, ∀ parts, c.value? = some (.operands parts none) → parts ≠ []) (hs : P s)
    (h : cs.forM (HeaderState.clause here) s = .ok () s') : P s' := by
  induction cs generalizing s with
  | nil =>
    cases h
    exact hs
  | cons c cs ih =>
    obtain ⟨hc, hcs⟩ := List.forall_mem_cons.1 hcs
    obtain ⟨⟨⟩, s₁, hclause, hrest⟩ := bind_eq_ok h
    exact ih hcs (hP.clause hcolumn hc hs hclause) hrest

theorem cell (hP : Kept width P) (hcolumn : here.column < width) {text : String} (hs : P s)
    (h : HeaderState.cell here text s = .ok () s') : P s' := by
  obtain ⟨tokens, s₁, hlook, hclauses⟩ := bind_eq_ok h
  obtain ⟨-, rfl⟩ := look_eq_ok hlook
  exact hP.clauses hcolumn (fun c hc parts => Clause.ofTokens_ne_nil hc) hs hclauses

theorem cells (hP : Kept width P) {place : Nat → Location} (hplace : ∀ i, (place i).column = i)
    {column : Nat} {row : Row} (hwidth : column + row.length ≤ width) (hs : P s)
    (h : HeaderState.cells place column row s = .ok () s') : P s' := by
  induction row generalizing column s with
  | nil =>
    cases h
    exact hs
  | cons text row ih =>
    obtain ⟨⟨⟩, s₁, hcell, hrest⟩ := bind_eq_ok h
    rw [List.length_cons] at hwidth
    have hcolumn : (place column).column < width := by
      rw [hplace]
      omega
    exact ih (by omega) (hP.cell hcolumn hs hcell) hrest

/-- What every placement keeps holds when all cells of a row have been compiled. -/
theorem row (hP : Kept width P) {sheet : Worksheet} {i : Nat} (hwidth : (sheet.row i).length ≤ width)
    (hstart : P start) (h : HeaderState.cells (sheet.location i) 0 (sheet.row i) start = .ok () s) : P s :=
  hP.cells (fun _ => rfl) (by omega) hstart h

end Kept

end HeaderState
end TagHarvest
