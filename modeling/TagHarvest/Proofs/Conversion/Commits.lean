/-
What the groups of a conversion program do to a store. All they ever write is the outcome of a directive's
edits, in the place of the record that it matched: a `Commit`. A run of groups, whether it ends or fails,
takes the store through a sequence of commits, and it fails for no other reason than a required group or
directive, or edits that have no outcome.
-/
import TagHarvest.Conversion.Run
import TagHarvest.Proofs.Effects
import Mathlib.Logic.Relation

namespace TagHarvest

/-- A directive of the program is carried out on one record. -/
inductive Commit (m : Matchers) (p : ConversionProgram) : Store → Store → Prop
  | edit {s : Store} {g : DirectiveGroup} {d : CompiledDirective} {key : String} {r r' : Record} :
      g ∈ p.groups → d ∈ g.directives → s.record? g.table key = some r →
      (Edit.applyAll m p.cache d.edits r).2 = .done r' →
      Commit m p s (s.updateRecord g.table key fun _ => r')

/-- The store is reached by commits. -/
abbrev Commits (m : Matchers) (p : ConversionProgram) : Store → Store → Prop :=
  Relation.ReflTransGen (Commit m p)

/-- Why the groups of a program fail, and the store in which they do. -/
inductive GroupFailure (m : Matchers) (p : ConversionProgram) : Store → DirectiveError → Prop
  | missing {s : Store} {g : DirectiveGroup} {target : MissingTarget} :
      g ∈ p.groups → g.isRequired = true → GroupFailure m p s (.missingTarget target)
  | failed {s : Store} {g : DirectiveGroup} {d : CompiledDirective} {message : String} :
      g ∈ p.groups → d ∈ g.directives → d.required = true →
      GroupFailure m p s (.failed g.table g.field d.key message)
  | aborted {s : Store} {g : DirectiveGroup} {d : CompiledDirective} {key : String} {r : Record} :
      g ∈ p.groups → d ∈ g.directives → s.record? g.table key = some r →
      (Edit.applyAll m p.cache d.edits r).2 = .aborted → GroupFailure m p s .aborted

namespace Run

variable {m : Matchers} {p : ConversionProgram}

/-- The store of the second state is reached from that of the first by commits. -/
def Advances (m : Matchers) (p : ConversionProgram) (σ σ' : RunState) : Prop :=
  Commits m p σ.store σ'.store

instance : IsPreorder RunState (Advances m p) where
  refl _ := .refl
  trans _ _ _ := .trans

/-- A part of a run that commits edits and fails for the reasons of the groups. -/
abbrev Committing (m : Matchers) (p : ConversionProgram) {α : Type} (x : Run α) : Prop :=
  Meets (Advances m p) (fun _ => True) (fun σ e => GroupFailure m p σ.store e) x

/-! ## Steps that leave the store -/

theorem committing_modify {f : RunState → RunState} (h : ∀ σ, (f σ).store = σ.store) :
    Committing m p (modify f) := by
  refine Meets.modify fun σ => ?_
  unfold Advances
  rw [h]

theorem committing_warn (message : String) : Committing m p (warn message) :=
  committing_modify fun _ => rfl

theorem committing_report {required : Bool} {e : DirectiveError}
    (h : required = true → ∀ s, GroupFailure m p s e) : Committing m p (report required e) := by
  unfold report
  refine Meets.seq (committing_modify fun _ => rfl) ?_
  cases required with
  | false => exact Meets.pure trivial
  | true => exact Meets.throw fun σ => h rfl σ.store

theorem committing_candidates (g : DirectiveGroup) (unique : Bool) :
    Committing m p (candidates g unique) :=
  Meets.get.bind fun _ _ => Meets.pure trivial

/-- The diagnostics after some more warnings. -/
def warned (log : Diagnostics) (messages : List String) : Diagnostics :=
  { log with entries := log.entries ++ messages.map (⟨.warning, ·⟩) }

theorem forM_warn_apply {α : Type} (message : α → String) (l : List α) (σ : RunState) :
    (l.forM fun a => warn (message a)) σ =
      .ok () { σ with diagnostics := warned σ.diagnostics (l.map message) } := by
  induction l generalizing σ with
  | nil => simp [warned, pure, EStateM.pure]
  | cons a l ih =>
    have hrest := ih { σ with diagnostics := σ.diagnostics.warn (message a) }
    have hlog : warned (σ.diagnostics.warn (message a)) (l.map message) =
        warned σ.diagnostics ((a :: l).map message) := by
      simp [warned, Diagnostics.warn, Diagnostics.add]
    rw [hlog] at hrest
    exact hrest

/-- Warnings change nothing but the diagnostics. -/
theorem forM_warn {α : Type} (message : α → String) (l : List α) (σ : RunState) :
    ∃ diagnostics, (l.forM fun a => warn (message a)) σ = .ok () { σ with diagnostics } :=
  ⟨_, forM_warn_apply message l σ⟩

/-! ## Applying a directive -/

/-- What applying a directive comes to, once its edits have come to `outcome`. -/
def concluded (g : DirectiveGroup) (d : CompiledDirective) (found : RecordMatch) (σ : RunState) :
    EditOutcome → EStateM.Result DirectiveError RunState Bool
  | .done r => .ok true { σ with store := σ.store.updateRecord g.table found.id fun _ => r }
  | .failed f =>
    let e := .failed g.table g.field d.key s!"record '{found.id}': {f.message}"
    if d.required then .error e σ else .ok false σ
  | .skipped _ => .ok false σ
  | .aborted => .error .aborted σ

theorem applyDirective_of_none {cache : PatternCache} {g : DirectiveGroup} {d : CompiledDirective}
    {found : RecordMatch} {σ : RunState} (h : σ.store.record? g.table found.id = none) :
    applyDirective m cache g d found σ = .ok false σ := by
  unfold applyDirective
  rw [get_bind_apply, h]
  rfl

/-- The warning for an edit that was skipped. -/
def skipMessage (g : DirectiveGroup) (d : CompiledDirective) (found : RecordMatch) (s : Skip) : String :=
  s!"{g.table}.{g.field} = '{d.key}' on record '{found.id}': {s.message}"

/-- The failure of a directive one of whose edits fails. -/
def failureOf (g : DirectiveGroup) (d : CompiledDirective) (found : RecordMatch) (f : EditFailure) :
    DirectiveError :=
  .failed g.table g.field d.key s!"record '{found.id}': {f.message}"

/-- The diagnostics after a directive's edits: a warning for each one skipped, and then the failure. -/
def logAfter (g : DirectiveGroup) (d : CompiledDirective) (found : RecordMatch) (log : Diagnostics)
    (skips : List Skip) : EditOutcome → Diagnostics
  | .failed f =>
    (warned log (skips.map (skipMessage g d found))).report d.required (failureOf g d found f).message
  | _ => warned log (skips.map (skipMessage g d found))

/-- The edits are carried out on the record that is there. -/
theorem applyDirective_apply (m : Matchers) (cache : PatternCache) (d : CompiledDirective)
    {g : DirectiveGroup} {found : RecordMatch} {σ : RunState} {r : Record} {skips : List Skip}
    {outcome : EditOutcome} (h : σ.store.record? g.table found.id = some r)
    (he : Edit.applyAll m cache d.edits r = (skips, outcome)) :
    applyDirective m cache g d found σ =
      concluded g d found { σ with diagnostics := logAfter g d found σ.diagnostics skips outcome } outcome := by
  unfold applyDirective
  rw [get_bind_apply]
  simp only [bind, EStateM.bind, h, he]
  have hw := forM_warn_apply
    (fun s : Skip => s!"{g.table}.{g.field} = '{d.key}' on record '{found.id}': {s.message}") skips σ
  rw [hw]
  dsimp only
  -- the skipped edits have been reported by now, and only a failure reports once more
  cases outcome with
  | done r' => rfl
  | failed f =>
    simp only [concluded, logAfter]
    cases hd : d.required with
    | true => rfl
    | false => rfl
  | skipped s => rfl
  | aborted => rfl

/-- Beside the record that is there only the diagnostics change. -/
theorem applyDirective_of_some (m : Matchers) (cache : PatternCache) (d : CompiledDirective)
    {g : DirectiveGroup} {found : RecordMatch} {σ : RunState} {r : Record}
    (h : σ.store.record? g.table found.id = some r) :
    ∃ diagnostics, applyDirective m cache g d found σ =
      concluded g d found { σ with diagnostics } (Edit.applyAll m cache d.edits r).2 :=
  ⟨_, applyDirective_apply m cache d h rfl⟩

theorem committing_applyDirective {g : DirectiveGroup} {d : CompiledDirective} (hg : g ∈ p.groups)
    (hd : d ∈ g.directives) (found : RecordMatch) :
    Committing m p (applyDirective m p.cache g d found) := by
  intro σ
  cases hr : σ.store.record? g.table found.id with
  | none =>
    rw [applyDirective_of_none hr]
    exact ⟨.refl, trivial⟩
  | some r =>
    obtain ⟨diagnostics, h⟩ := applyDirective_of_some m p.cache d hr
    rw [h]
    cases ho : (Edit.applyAll m p.cache d.edits r).2 with
    | done r' => exact ⟨.single (.edit hg hd hr ho), trivial⟩
    | failed f =>
      unfold concluded
      cases hreq : d.required with
      | true => exact ⟨.refl, .failed hg hd hreq⟩
      | false => exact ⟨.refl, trivial⟩
    | skipped s => exact ⟨.refl, trivial⟩
    | aborted => exact ⟨.refl, .aborted hg hd hr ho⟩

/-! ## Passes and groups -/

section Group

variable {g : DirectiveGroup} (hg : g ∈ p.groups)

include hg

theorem committing_applyCounted {d : CompiledDirective} (hd : d ∈ g.directives) (found : RecordMatch) :
    Committing m p (applyCounted m p.cache g d found) := by
  refine (committing_applyDirective hg hd found).bind fun changed _ => ?_
  cases changed with
  | true => exact committing_modify fun _ => rfl
  | false => exact Meets.pure trivial

theorem committing_runDirective {d : CompiledDirective} {i : Nat} (hd : d ∈ g.directives) :
    Committing m p (runDirective m p.cache g (d, i)) := by
  refine (committing_candidates g _).bind fun cs _ => ?_
  cases matchesOf m p.cache d cs with
  | nil => exact Meets.pure trivial
  | cons found more =>
    refine Meets.seq (committing_modify fun _ => rfl) ?_
    have apply_one := committing_applyCounted (m := m) hg hd
    cases d.comparison.unique with
    | true =>
      have consume_one : Committing m p (do consume found.value; applyCounted m p.cache g d found) :=
        Meets.seq (committing_modify fun _ => rfl) (apply_one found)
      cases hm : more.isEmpty with
      | true => exact consume_one
      | false => exact Meets.seq (committing_warn _) consume_one
    | false => exact Meets.forM _ fun found _ => apply_one found

theorem committing_runNearest {pass : List IndexedDirective}
    (hpass : ∀ d ∈ pass, d.1 ∈ g.directives) (pair : Nat × RecordMatch) :
    Committing m p (runNearest m p.cache g pass pair) := by
  unfold runNearest
  cases hp : pass[pair.1]? with
  | none => exact Meets.pure trivial
  | some di =>
    obtain ⟨d, i⟩ := di
    have apply_one := committing_applyCounted (m := m) hg (hpass _ (List.mem_of_getElem? hp)) pair.2
    refine Meets.seq (committing_modify fun _ => rfl) ?_
    dsimp only
    cases d.comparison.unique with
    | true => exact Meets.seq (committing_modify fun _ => rfl) apply_one
    | false => exact apply_one

theorem committing_runPass (c : Comparison) : Committing m p (runPass m p.cache g c) := by
  have hpass : ∀ d ∈ g.directives.zipIdx.filter (fun d => d.1.comparison = c), d.1 ∈ g.directives := by
    intro d hd
    exact List.fst_mem_of_mem_zipIdx (List.mem_filter.1 hd).1
  unfold runPass
  dsimp only
  -- of the pass it only matters that its directives are the group's
  generalize g.directives.zipIdx.filter (fun d => d.1.comparison = c) = pass at hpass ⊢
  split
  · split
    · exact Meets.pure trivial
    · refine (committing_candidates g _).bind fun cs _ => ?_
      exact Meets.forM _ fun pair _ => committing_runNearest hg hpass pair
  · exact Meets.forM _ fun d hd => committing_runDirective hg (hpass d hd)

theorem committing_runGroup : Committing m p (runGroup m p.cache g) :=
  Meets.seq (committing_modify fun _ => rfl) (Meets.forM _ fun c _ => committing_runPass hg c)

theorem committing_convertGroup : Committing m p (convertGroup m p.cache g) := by
  -- what follows in both cases: the unused directives are reported
  have tail : Committing m p (do
      let unused := unusedOf g (← get).used
      unused.forM fun u => warn s!"Unused conversion directive: {u.display}"
      return unused) :=
    Meets.get.bind fun _ _ => Meets.seq (Meets.forM _ fun _ _ => committing_warn _) (Meets.pure trivial)
  unfold convertGroup
  refine Meets.get.bind fun σ _ => ?_
  cases missingTarget? g σ.store with
  | none => exact Meets.seq (committing_runGroup hg) tail
  | some target =>
    refine Meets.seq (committing_report fun h _ => .missing hg h) ?_
    exact Meets.seq (committing_modify fun _ => rfl) tail

end Group

/-- The groups of a program one after the other, before renames are carried through. -/
abbrev groups (m : Matchers) (p : ConversionProgram) : Run (List (List UnusedDirective)) :=
  p.groups.mapM (convertGroup m p.cache)

theorem committing_groups : Committing m p (groups m p) :=
  (Meets.mapM p.groups fun _ hg => committing_convertGroup hg).mono fun _ _ => trivial

theorem propagate_of_ok {σ : RunState} {store : Store} {renames : List Rename}
    (h : σ.store.propagateRenames = (store, .ok renames)) :
    propagate σ = .ok renames { σ with store } := by
  unfold propagate
  rw [get_bind_apply]
  simp only [bind, EStateM.bind, h]
  rfl

theorem propagate_of_error {σ : RunState} {store : Store} {e : DirectiveError}
    (h : σ.store.propagateRenames = (store, .error e)) :
    propagate σ = .error e { σ with store } := by
  unfold propagate
  rw [get_bind_apply]
  simp only [bind, EStateM.bind, h]
  rfl

end Run

namespace Store

variable {m : Matchers} {s : Store} {p : ConversionProgram} {diagnostics : Diagnostics}

/-- A failure of the groups is that of the conversion. -/
theorem convert_of_error {e : DirectiveError} {σ : RunState}
    (h : Run.groups m p { store := s, diagnostics } = .error e σ) :
    (s.convert m p diagnostics).result = .error e := by
  unfold convert Run.program
  simp only [bind, EStateM.bind, h]

/-- Once the groups have ended, a conversion is the carrying through of renames. -/
theorem convert_of_ok {unused : List (List UnusedDirective)} {σ : RunState}
    (h : Run.groups m p { store := s, diagnostics } = .ok unused σ) :
    (s.convert m p diagnostics).result =
        σ.store.propagateRenames.2.map (⟨σ.applied, ·, unused.flatten⟩) ∧
      (s.convert m p diagnostics).store = σ.store.propagateRenames.1 := by
  unfold convert Run.program
  simp only [bind, EStateM.bind, h]
  cases hr : σ.store.propagateRenames with
  | mk store r =>
    cases r with
    | ok renames => rw [Run.propagate_of_ok hr]; exact ⟨rfl, rfl⟩
    | error e => rw [Run.propagate_of_error hr]; exact ⟨rfl, rfl⟩

end Store
end TagHarvest
