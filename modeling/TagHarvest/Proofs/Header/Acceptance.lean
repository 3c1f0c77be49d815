/-
Which header cells are accepted. A cell right of column 0 that compiles is a text of the grammar. A text of
the grammar has only faults of structure, with one exception: the attribute of a literal of column 0, which
is refused as a fault of grammar wherever it stands. Both hold from every state of the compilation.
-/
import TagHarvest.Proofs.Header.Placement

namespace TagHarvest
namespace HeaderState

/-- A part of the compilation of which all failures are among `E`. -/
abbrev FailsWith (E : TagError → Prop) {α : Type} (x : Compile α) : Prop :=
  Meets Anywhere (fun _ => True) (fun _ e => E e) x

variable {here : Location} {E : TagError → Prop} {s s' : HeaderState} {e : TagError}

/-! ## Failures of what only looks at the state -/

theorem failure_of_lastFor {attr : String} (h : s.lastFor here attr = .error e) :
    ∃ fault, e = .shape here fault := by
  unfold lastFor at h
  cases hs : s.last with
  | some last =>
    rw [hs] at h
    cases h
  | none =>
    rw [hs] at h
    cases h
    exact ⟨_, rfl⟩

theorem failure_of_tableOf {named : Option String} (h : s.tableOf here named = .error e) :
    ∃ fault, e = .shape here fault := by
  unfold tableOf at h
  split at h
  · cases h
  · cases h
  · cases h
    exact ⟨_, rfl⟩

theorem failure_of_operand {part : OperandText} (h : s.operand here part = .error e) :
    ∃ fault, e = .shape here fault := by
  cases part with
  | literal text => cases h
  | attr name =>
    rcases except_bind_eq_error h with hlast | ⟨last, -, h⟩
    · exact failure_of_lastFor hlast
    · cases h
  | field named name =>
    rcases except_bind_eq_error h with htable | ⟨table, -, h⟩
    · exact failure_of_tableOf htable
    · cases h

/-- Operands fail at a fault of their own or where they name what is not there. -/
theorem failure_of_operands? (hE : ∀ fault, E (.shape here fault)) {value : Assignment}
    (hvalue : ∀ f, value.fault? = some f → E (.grammar here f)) (h : s.operands? here value = .error e) : E e := by
  cases value with
  | column => cases h
  | fault f =>
    cases h
    exact hvalue f rfl
  | operands parts fault =>
    rcases except_bind_eq_error h with hparts | ⟨os, -, h⟩
    · obtain ⟨part, -, hpart⟩ := mapM_eq_error hparts
      obtain ⟨f, rfl⟩ := failure_of_operand hpart
      exact hE f
    · cases fault with
      | none => cases h
      | some f =>
        cases h
        exact hvalue f rfl

theorem failsWith_look {α : Type} {g : HeaderState → Except TagError α} (hg : ∀ s e, g s = .error e → E e) :
    FailsWith E (look g) := by
  refine Meets.get.bind fun s _ => ?_
  cases h : g s with
  | ok a => exact Meets.pure trivial
  | error e => exact Meets.throw fun _ => hg s e h

/-! ## Failures of a declaration -/

section Declarations

variable {table : String} {f : FieldRecipe} {d : Declaration} {value : Assignment}
  (hE : ∀ fault, E (.shape here fault))

include hE

theorem failsWith_addTo (index : Nat) : FailsWith E (addTo here index f) := by
  refine Meets.get.bind fun s _ => ?_
  cases s.recipes[index]? with
  | none => exact Meets.pure trivial
  | some r =>
    dsimp only
    cases r.add f with
    | ok r' => exact Meets.set fun _ => trivial
    | error fault => exact Meets.throw fun _ => hE fault

omit hE in
theorem failsWith_recipeFor : FailsWith E (recipeFor table) := by
  refine Meets.get.bind fun s _ => ?_
  cases s.ownRecipe? table with
  | none => exact (Meets.set fun _ => trivial).seq (Meets.pure trivial)
  | some i => exact Meets.pure trivial

theorem failsWith_childScope : FailsWith E (childScope here table) := by
  refine Meets.get.bind fun s _ => ?_
  cases s.child with
  | none => exact (Meets.set fun _ => trivial).seq (Meets.pure trivial)
  | some scope =>
    dsimp only
    split
    · exact Meets.pure trivial
    · split
      · exact Meets.throw fun _ => hE _
      · exact (Meets.set fun _ => trivial).seq (Meets.pure trivial)

theorem failsWith_addChildId (scope : ChildScope) : FailsWith E (addChildId here scope f) := by
  refine Meets.get.bind fun s _ => ?_
  dsimp only
  cases s.ownRecipe? scope.table with
  | none => exact Meets.throw fun _ => hE _
  | some parent =>
    dsimp only
    cases (s.recipes[parent]?).bind (·.childOf parent) with
    | none => exact Meets.throw fun _ => hE _
    | some child =>
      refine Meets.bind (Q := fun _ => True) ?_ fun child _ => ?_
      · cases child.add f with
        | ok c => exact Meets.pure trivial
        | error fault => exact Meets.throw fun _ => hE fault
      · refine (Meets.set fun _ => trivial).seq ?_
        cases scope.pending with
        | none => exact (Meets.set fun _ => trivial).seq (Meets.pure trivial)
        | some waiting =>
          refine Meets.bind (Q := fun _ => True) ?_ fun child _ => ?_
          · cases child.add waiting with
            | ok c => exact Meets.pure trivial
            | error fault => exact Meets.throw fun _ => hE fault
          · exact (Meets.set fun _ => trivial).seq (Meets.pure trivial)

theorem failsWith_addChild : FailsWith E (addChild here table f) := by
  refine (failsWith_childScope hE).bind fun scope _ => ?_
  split
  · exact failsWith_addChildId hE scope
  · split
    · exact (failsWith_addTo hE _).seq (Meets.pure trivial)
    · exact Meets.throw fun _ => hE _
    · exact (Meets.modify fun _ => trivial).seq (Meets.pure trivial)

-- column 0 has faults of grammar of its own; a missing marker is none of a declaration
variable (hzero : here.column = 0 → ∀ f, f ≠ .missingMarker → E (.grammar here f))

include hzero

/-- Right of column 0 only the attribute of a literal of column 0 is a fault of grammar. -/
theorem failsWith_place (hglobal : d.owner = some .global → E (.grammar here .attributeOfGlobal)) :
    FailsWith E (place here d f) := by
  unfold place
  split
  · rename_i hcolumn
    unfold addGlobal
    split
    · exact Meets.throw fun _ => hzero hcolumn _ nofun
    · split
      · exact Meets.throw fun _ => hzero hcolumn _ nofun
      · exact (Meets.modify fun _ => trivial).seq (Meets.pure trivial)
  · cases howner : d.owner with
    | none =>
      dsimp only
      split
      · exact failsWith_addChild hE
      · exact failsWith_recipeFor.bind fun index _ => (failsWith_addTo hE index).seq (Meets.pure trivial)
    | some target =>
      cases target with
      | recipe index => exact (failsWith_addTo hE index).seq (Meets.pure trivial)
      | global => exact Meets.throw fun _ => hglobal howner
      | pendingChild => exact Meets.throw fun _ => hE _

theorem failsWith_register (hglobal : d.owner = some .global → E (.grammar here .attributeOfGlobal))
    (operands : Option (List Operand)) : FailsWith E (register here d operands) := by
  unfold register
  split
  · rename_i hunassigned
    have hcolumn : here.column = 0 := by simpa using (Bool.and_eq_true_iff.1 hunassigned).2
    exact Meets.throw fun _ => hzero hcolumn _ nofun
  · exact (failsWith_place hE hzero hglobal).bind fun target _ => Meets.modify fun _ => trivial

theorem failsWith_declare (hvalue : ∀ f, value.fault? = some f → E (.grammar here f))
    (hglobal : d.owner = some .global → E (.grammar here .attributeOfGlobal)) :
    FailsWith E (declare here d value) := by
  have hoperands : FailsWith E (look (·.operands? here value)) :=
    failsWith_look fun s e => failure_of_operands? hE hvalue
  refine hoperands.bind fun operands _ => ?_
  split
  · exact Meets.throw fun _ => hE _
  · exact failsWith_register hE hzero hglobal operands

/-- A clause fails at a fault of its own or where its declaration does. -/
theorem failsWith_clause {c : Clause} (hc : ∀ f, c.fault? = some f → E (.grammar here f))
    (hglobal : E (.grammar here .attributeOfGlobal)) : FailsWith E (clause here c) := by
  cases c with
  | fault f => exact Meets.throw fun _ => hc f rfl
  | table name => exact Meets.modify fun _ => trivial
  | attr list name value =>
    have hlast : FailsWith E (look (·.lastFor here name)) := failsWith_look fun s e h => by
      obtain ⟨f, rfl⟩ := failure_of_lastFor h
      exact hE f
    refine hlast.bind fun last _ => ?_
    split
    · exact Meets.throw fun _ => hE _
    · exact failsWith_declare hE hzero hc fun _ => hglobal
  | field list name value =>
    have htable : FailsWith E (look (·.tableOf here name.table)) := failsWith_look fun s e h => by
      obtain ⟨f, rfl⟩ := failure_of_tableOf h
      exact hE f
    exact htable.bind fun table _ => failsWith_declare hE hzero hc fun _ => hglobal

end Declarations

/-! ## Clauses -/

/-- The field declared last is a literal of column 0. -/
def LastGlobal (s : HeaderState) : Prop := ∃ last, s.last = some last ∧ last.target = .global

theorem lastFor_eq_ok {attr : String} {last : LastField} (h : s.lastFor here attr = .ok last) :
    s.last = some last := by
  unfold lastFor at h
  cases hs : s.last with
  | some f =>
    rw [hs] at h
    cases h
    rfl
  | none =>
    rw [hs] at h
    cases h

/-- What is wrong with a clause that has no fault of its own. -/
theorem clause_eq_error {c : Clause} (hcolumn : here.column ≠ 0) (hc : c.fault? = none)
    (h : clause here c s = .error e s') :
    (∃ fault, e = .shape here fault) ∨
      e = .grammar here .attributeOfGlobal ∧ s.LastGlobal ∧ ∃ list name value, c = .attr list name value := by
  cases c with
  | fault f => cases hc
  | table name => cases h
  | attr list name value =>
    rcases bind_eq_error h with hlook | ⟨last, s₁, hlook, hrest⟩
    · have hfails : FailsWith (fun e => ∃ fault, e = .shape here fault) (look (·.lastFor here name)) :=
        failsWith_look fun s e => failure_of_lastFor
      exact .inl (hfails.error hlook).2
    · obtain ⟨hlast, rfl⟩ := look_eq_ok hlook
      -- the attribute is placed with the last field, which column 0 refuses
      by_cases hpending : last.target = .pendingChild
      · rw [if_pos hpending] at hrest
        cases hrest
        exact .inl ⟨_, rfl⟩
      · rw [if_neg hpending] at hrest
        have hfails : FailsWith (fun e => (∃ fault, e = .shape here fault) ∨
            e = .grammar here .attributeOfGlobal ∧ last.target = .global)
            (declare here ⟨last.table, last.base, attributeName last.base name, false, some last.target, list⟩
              value) :=
          failsWith_declare (fun fault => .inl ⟨fault, rfl⟩) (absurd · hcolumn)
            (fun f hf => nomatch hc.symm.trans hf) fun howner => .inr ⟨rfl, Option.some.inj howner⟩
        rcases (hfails.error hrest).2 with hshape | ⟨he, hglobal⟩
        · exact .inl hshape
        · exact .inr ⟨he, ⟨last, lastFor_eq_ok hlast, hglobal⟩, list, name, value, rfl⟩
  | field list name value =>
    rcases bind_eq_error h with hlook | ⟨table, s₁, hlook, hrest⟩
    · have hfails : FailsWith (fun e => ∃ fault, e = .shape here fault) (look (·.tableOf here name.table)) :=
        failsWith_look fun s e => failure_of_tableOf
      exact .inl (hfails.error hlook).2
    · obtain ⟨-, rfl⟩ := look_eq_ok hlook
      have hfails : FailsWith (fun e => ∃ fault, e = .shape here fault)
          (declare here ⟨table, name.base, name.name, name.child, none, list⟩ value) :=
        failsWith_declare (fun fault => ⟨fault, rfl⟩) (absurd · hcolumn) (fun f hf => nomatch hc.symm.trans hf)
          nofun
      exact .inl (hfails.error hrest).2

theorem fault?_of_declare {d : Declaration} {value : Assignment} (h : declare here d value s = .ok () s') :
    value.fault? = none := by
  obtain ⟨operands, s₁, hlook, -⟩ := bind_eq_ok h
  obtain ⟨hoperands, -⟩ := look_eq_ok hlook
  rcases operands?_eq_ok hoperands with ⟨rfl, -⟩ | ⟨parts, os, rfl, -, -⟩
  · rfl
  · rfl

theorem fault?_of_clause {c : Clause} (h : clause here c s = .ok () s') : c.fault? = none := by
  cases c with
  | fault f => cases h
  | table name => rfl
  | attr list name value =>
    obtain ⟨last, s₁, -, hrest⟩ := bind_eq_ok h
    by_cases hpending : last.target = .pendingChild
    · rw [if_pos hpending] at hrest
      cases hrest
    · rw [if_neg hpending] at hrest
      exact fault?_of_declare hrest
  | field list name value =>
    obtain ⟨table, s₁, -, hrest⟩ := bind_eq_ok h
    exact fault?_of_declare hrest

/-- After a field right of column 0 the field declared last is none of column 0. -/
theorem lastGlobal_of_clause {c : Clause} (hcolumn : here.column ≠ 0)
    (hc : ∀ parts, c.value? = some (.operands parts none) → parts ≠ [])
    (h : clause here c s = .ok () s') (hs' : s'.LastGlobal) : s.LastGlobal ∧ ∃ name, c = .table name := by
  rcases clause_eq_ok hc h with ⟨name, hname, rfl⟩ | ⟨table, base, f, target, s₁, -, hplaced, rfl⟩
  · exact ⟨hs', name, hname⟩
  · obtain ⟨last, hlast, htarget⟩ := hs'
    cases hlast
    cases hplaced with
    | global hzero => exact absurd hzero hcolumn
    | _ => cases htarget

/-! ## Cells -/

theorem fault?_of_clauses {cs : List Clause} (h : cs.forM (clause here) s = .ok () s') :
    ∀ c ∈ cs, c.fault? = none := by
  induction cs generalizing s with
  | nil => simp
  | cons c cs ih =>
    obtain ⟨⟨⟩, s₁, hclause, hrest⟩ := bind_eq_ok h
    exact List.forall_mem_cons.2 ⟨fault?_of_clause hclause, ih hrest⟩

/-- What is wrong with clauses that have no fault of their own. -/
theorem clauses_eq_error {cs : List Clause} (hcolumn : here.column ≠ 0) (hfault : ∀ c ∈ cs, c.fault? = none)
    (hcs : ∀ c ∈ cs, ∀ parts, c.value? = some (.operands parts none) → parts ≠ [])
    (h : cs.forM (clause here) s = .error e s') :
    (∃ fault, e = .shape here fault) ∨
      e = .grammar here .attributeOfGlobal ∧ s.LastGlobal ∧
        ∃ tables list name value rest, cs = tables ++ .attr list name value :: rest ∧
          ∀ c ∈ tables, ∃ table, c = .table table := by
  induction cs generalizing s with
  | nil => cases h
  | cons c cs ih =>
    obtain ⟨hc, hrestFault⟩ := List.forall_mem_cons.1 hfault
    obtain ⟨hparts, hrestParts⟩ := List.forall_mem_cons.1 hcs
    rcases bind_eq_error h with hclause | ⟨⟨⟩, s₁, hclause, hrest⟩
    · rcases clause_eq_error hcolumn hc hclause with hshape | ⟨he, hlast, list, name, value, rfl⟩
      · exact .inl hshape
      · exact .inr ⟨he, hlast, [], list, name, value, cs, rfl, by simp⟩
    · rcases ih hrestFault hrestParts hrest with
        hshape | ⟨he, hlast, tables, list, name, value, rest, rfl, htables⟩
      · exact .inl hshape
      · -- the literal of column 0 is still the last field, so the clause before declares none
        obtain ⟨hlast, table, rfl⟩ := lastGlobal_of_clause hcolumn hparts hclause hlast
        refine .inr ⟨he, hlast, .table table :: tables, list, name, value, rest, rfl, ?_⟩
        exact List.forall_mem_cons.2 ⟨⟨table, rfl⟩, htables⟩

/--
A cell right of column 0 that compiles is a text of the grammar, whatever has been compiled before. A text of
the grammar that does not compile has a fault of structure, or the first field that it declares is an
attribute of a literal of column 0.
-/
theorem cell_grammar (hcolumn : here.column ≠ 0) (s : HeaderState) (text : String) :
    (∀ s', cell here text s = .ok () s' → ∃ ts, Token.tokenize text = .ok ts ∧ CellGrammar.Cell ts) ∧
      ∀ ts e s', Token.tokenize text = .ok ts → CellGrammar.Cell ts → cell here text s = .error e s' →
        (∃ fault, e = .shape here fault) ∨
          e = .grammar here .attributeOfGlobal ∧ s.LastGlobal ∧
            ∃ tables list name value rest, Clause.ofTokens ts = tables ++ .attr list name value :: rest ∧
              ∀ c ∈ tables, ∃ table, c = .table table := by
  have hread : ∀ {ts}, Token.tokenize text = .ok ts → clauseTokens here text = .ok ts := by
    intro ts hts
    unfold clauseTokens
    rw [hts]
    exact if_neg hcolumn
  constructor
  · intro s' h
    obtain ⟨ts, s₁, hlook, hclauses⟩ := bind_eq_ok h
    obtain ⟨htokens, rfl⟩ := look_eq_ok hlook
    cases htokenize : Token.tokenize text with
    | error e =>
      unfold clauseTokens at htokens
      rw [htokenize] at htokens
      cases htokens
    | ok ts' =>
      obtain rfl : ts' = ts := Except.ok.inj ((hread htokenize).symm.trans htokens)
      have hproper := Token.proper_of_tokenize htokenize
      exact ⟨ts', rfl, (Clause.cell_iff_faultless hproper).2 (fault?_of_clauses hclauses)⟩
  · intro ts e s' htokenize hcell h
    have hfault := (Clause.cell_iff_faultless (Token.proper_of_tokenize htokenize)).1 hcell
    rcases bind_eq_error h with hlook | ⟨ts', s₁, hlook, hclauses⟩
    · have hfails : FailsWith (fun _ => False) (look fun _ => clauseTokens here text) :=
        failsWith_look fun s e he => by
          rw [hread htokenize] at he
          cases he
      exact ((hfails.error hlook).2).elim
    · obtain ⟨htokens, rfl⟩ := look_eq_ok hlook
      obtain rfl : ts = ts' := Except.ok.inj ((hread htokenize).symm.trans htokens)
      exact clauses_eq_error hcolumn hfault (fun c hc parts => Clause.ofTokens_ne_nil hc) hclauses

/-- A cell of five items, and the attribute of a literal of column 0, which the grammar does not rule out. -/
theorem cell_grammar_attribute :
    let here : Location := ⟨"a.csv", "a", 0, 1⟩
    let s : HeaderState := ⟨none, some ⟨.global, "sample", "weight"⟩, [], [], none⟩
    here.column ≠ 0 ∧
      (∃ ts, Token.tokenize "#table=plot; *#.tags=#%unit+\"x\", #.id" = .ok ts ∧ CellGrammar.Cell ts) ∧
      cell here "#table=plot; #%unit" s = .error (.grammar here .attributeOfGlobal)
        ⟨some "plot", some ⟨.global, "sample", "weight"⟩, [], [], none⟩ := by
  intro here s
  have hok : cell here "#table=plot; *#.tags=#%unit+\"x\", #.id" s = .ok ()
      ⟨some "plot", some ⟨.recipe 0, "plot", "id"⟩,
        [⟨"plot", [⟨"tags", [.reference ⟨"sample", "weight%unit", 1⟩, .literal "x"], true, 1⟩,
          ⟨"id", [.column 1], false, 1⟩], none⟩], [], none⟩ := by
    decide +kernel
  exact ⟨by decide, (cell_grammar (by decide) s _).1 _ hok, by decide +kernel⟩

end HeaderState
end TagHarvest
