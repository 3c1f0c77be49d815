/-
Directives that match nothing. The report of a conversion lists exactly the directives without a match, group
by group. Those that compare exactly or by a pattern leave no trace in the run: without a match they take no
value and change no record, so the run without them goes through twin states, which have the same store,
the same count and the same taken values. Directives that compare by distance are another matter, since a
key that matches nothing may still keep other keys from matching.
-/
import Mathlib.Data.List.Flatten
import TagHarvest.Proofs.Conversion.Lockstep
import TagHarvest.Proofs.Conversion.Verdict

namespace TagHarvest

/-! ## Twin states -/

namespace Run

/-- States that are the same apart from diagnostics and marks. -/
structure Twins (σ τ : RunState) : Prop where
  store : τ.store = σ.store
  applied : τ.applied = σ.applied
  consumed : τ.consumed = σ.consumed

/-- Twins take the same steps, also if the second numbers the directives in another way. -/
theorem steady_twins (g : DirectiveGroup) : Steady g (fun _ _ => True) Twins where
  table ht := by rw [ht.store]
  consumed ht := ht.consumed
  report _ _ ht := ⟨ht.store, ht.applied, ht.consumed⟩
  mark _ ht := ⟨ht.store, ht.applied, ht.consumed⟩
  consume value ht := ⟨ht.store, ht.applied, congrArg (value :: ·) ht.consumed⟩
  count ht := ⟨ht.store, congrArg (· + 1) ht.applied, ht.consumed⟩
  commit _ _ ht := ⟨congrArg (Store.updateRecord · _ _ _) ht.store, ht.applied, ht.consumed⟩

theorem forall₂_of_map_fst {pass pass' : List IndexedDirective} (h : pass'.map Prod.fst = pass.map Prod.fst) :
    List.Forall₂ (fun d d' => d'.1 = d.1 ∧ True) pass pass' := by
  have hsame : List.Forall₂ (fun a b => b = a) (pass.map Prod.fst) (pass'.map Prod.fst) := by
    rw [h]
    exact List.forall₂_same.2 fun _ _ => rfl
  rw [List.forall₂_map_left_iff, List.forall₂_map_right_iff] at hsame
  exact hsame.imp fun _ _ hd => ⟨hd, trivial⟩

end Run

/-! ## Groups with fewer directives -/

/-- Whether a directive has one of some matches of its group. -/
def DirectiveMatch.matched (xs : List DirectiveMatch) (d : IndexedDirective) : Bool :=
  xs.any fun x => x.index == d.2

/-- Whether a directive is kept: it has a match, or compares by distance. -/
def DirectiveMatch.kept (xs : List DirectiveMatch) (d : IndexedDirective) : Bool :=
  d.1.comparison.kind = .levenshtein || matched xs d

namespace DirectiveGroup

/-- The group with the directives that are to be kept. -/
def keeping (g : DirectiveGroup) (keep : IndexedDirective → Bool) : DirectiveGroup :=
  { g with directives := (g.directives.zipIdx.filter keep).map Prod.fst }

/-- The group without the directives that compare exactly or by a pattern and have no match. -/
def pruned (g : DirectiveGroup) (xs : List DirectiveMatch) : DirectiveGroup :=
  g.keeping (DirectiveMatch.kept xs)

/-- How a directive of a group is reported. -/
def reported (g : DirectiveGroup) (d : CompiledDirective) : UnusedDirective :=
  ⟨g.table, g.field, d.comparison, d.key⟩

/-- The directives of a group that have no match, in their order. -/
def unmatched (g : DirectiveGroup) (xs : List DirectiveMatch) : List UnusedDirective :=
  (g.directives.zipIdx.filter fun d => !DirectiveMatch.matched xs d).map fun d => g.reported d.1

theorem isRequired_of_keeping {g : DirectiveGroup} {keep : IndexedDirective → Bool}
    (h : (g.keeping keep).isRequired = true) : g.isRequired = true := by
  obtain ⟨d, hd, hrequired⟩ := List.any_eq_true.1 h
  obtain ⟨di, hdi, rfl⟩ := List.mem_map.1 hd
  exact List.any_eq_true.2 ⟨di.1, List.fst_mem_of_mem_zipIdx (List.mem_filter.1 hdi).1, hrequired⟩

end DirectiveGroup

theorem map_fst_filter_zipIdx {α : Type} (q : α → Bool) (l : List α) :
    (l.zipIdx.filter fun d => q d.1).map Prod.fst = l.filter q := by
  have h := List.filter_map (p := q) (f := Prod.fst) (l := l.zipIdx)
  rw [List.zipIdx_map_fst] at h
  exact h.symm

theorem map_zipIdx_fst {α β : Type} (f : α → β) (l : List α) : (l.zipIdx.map fun d => f d.1) = l.map f := by
  have h := congrArg (List.map f) (List.zipIdx_map_fst 0 l)
  rwa [List.map_map] at h

namespace Run

open DirectiveMatch

variable {m : Matchers} {cache : PatternCache} {g : DirectiveGroup} {keep : IndexedDirective → Bool}
variable {σ τ σ' : RunState}

theorem map_fst_passOf_keeping (c : Comparison) :
    (passOf (g.keeping keep) c).map Prod.fst = ((passOf g c).filter keep).map Prod.fst := by
  have hpass : ∀ l : List CompiledDirective, (l.zipIdx.filter fun d => d.1.comparison = c).map Prod.fst =
      l.filter fun d => d.comparison = c :=
    fun l => map_fst_filter_zipIdx (fun d : CompiledDirective => decide (d.comparison = c)) l
  unfold passOf DirectiveGroup.keeping
  rw [hpass, List.filter_map, List.filter_filter, List.filter_filter]
  refine congrArg (List.map Prod.fst) (List.filter_congr fun d _ => ?_)
  exact Bool.and_comm _ _

/-- A directive without a match leaves the run as it is. -/
theorem runDirective_of_unmatched {d : IndexedDirective} (h : directiveMatches m cache g d σ = []) :
    runDirective m cache g d σ = .ok () σ := by
  refine runDirective_of_nil ?_
  unfold directiveMatches at h
  cases hfound : matchesOf m cache d.1 (pool g d.1.comparison.unique σ) with
  | nil => rfl
  | cons found more =>
    rw [hfound] at h
    cases hunique : d.1.comparison.unique <;> rw [hunique] at h <;> cases h

/-- Directives that are run without some that have no match. -/
theorem twins_forM_runDirective {l l' : List IndexedDirective}
    (hl : l'.map Prod.fst = (l.filter keep).map Prod.fst)
    (hkeep : ∀ x ∈ matchesAlong (runDirective m cache g) (directiveMatches m cache g) l σ,
      keep x.directive = true)
    (ht : Twins σ τ) (h : l.forM (runDirective m cache g) σ = .ok () σ') :
    ∃ τ', l'.forM (runDirective m cache g) τ = .ok () τ' ∧ Twins σ' τ' := by
  induction l generalizing l' σ τ with
  | nil =>
    cases h
    rw [List.filter_nil, List.map_nil, List.map_eq_nil_iff] at hl
    rw [hl]
    exact ⟨τ, rfl, ht⟩
  | cons d l ih =>
    obtain ⟨_, σ₁, hd, hrest⟩ := bind_eq_ok (x := runDirective m cache g d)
      (f := fun _ => l.forM (runDirective m cache g)) h
    rw [matchesAlong, hd] at hkeep
    have hkeep' := fun x hx => hkeep x (List.mem_append_right _ hx)
    cases hk : keep d with
    | true =>
      rw [List.filter_cons_of_pos hk, List.map_cons, List.map_eq_cons_iff] at hl
      obtain ⟨⟨d', j⟩, l'', rfl, hd', hl⟩ := hl
      obtain ⟨d₀, i⟩ := d
      obtain rfl : d' = d₀ := hd'
      obtain ⟨τ₁, hτ, ht₁⟩ :=
        (inStep_runDirective (steady_twins g) (.refl cache d') trivial σ τ ht).exists_ok hd
      obtain ⟨τ', hτ', ht'⟩ := ih hl hkeep' ht₁ hrest
      exact ⟨τ', (bind_apply_of_ok hτ).trans hτ', ht'⟩
    | false =>
      rw [List.filter_cons_of_neg (by rw [hk]; exact Bool.false_ne_true)] at hl
      have hnone : directiveMatches m cache g d σ = [] := by
        rw [List.eq_nil_iff_forall_not_mem]
        intro x hx
        have hx' := hkeep x (List.mem_append_left _ hx)
        rw [directive_of_mem_directiveMatches hx, hk] at hx'
        cases hx'
      rw [runDirective_of_unmatched hnone] at hd
      cases hd
      exact ih hl hkeep' ht hrest

theorem twins_runPass
    (hdistance : ∀ d : IndexedDirective, d.1.comparison.kind = .levenshtein → keep d = true)
    {c : Comparison} (hkeep : ∀ x ∈ passMatches m cache g c σ, keep x.directive = true) (ht : Twins σ τ)
    (h : runPass m cache g c σ = .ok () σ') :
    ∃ τ', runPass m cache (g.keeping keep) c τ = .ok () τ' ∧ Twins σ' τ' := by
  have hpass : (passOf (g.keeping keep) c).map Prod.fst = ((passOf g c).filter keep).map Prod.fst :=
    map_fst_passOf_keeping c
  change (if c.kind = .levenshtein then
    if (passOf g c).isEmpty then Pure.pure () else runDistancePass m cache g c.unique (passOf g c)
    else (passOf g c).forM (runDirective m cache g)) σ = _ at h
  change ∃ τ', (if c.kind = .levenshtein then
    if (passOf (g.keeping keep) c).isEmpty then Pure.pure ()
    else runDistancePass m cache g c.unique (passOf (g.keeping keep) c)
    else (passOf (g.keeping keep) c).forM (runDirective m cache g)) τ = _ ∧ _
  unfold passMatches at hkeep
  by_cases hkind : c.kind = .levenshtein
  · -- the pass keeps all of its directives, whose indices alone have changed
    rw [if_pos hkind] at h ⊢
    rw [List.filter_eq_self.2 fun d hd => hdistance d (by rw [(mem_passOf.1 hd).2, hkind])] at hpass
    have hempty : (passOf (g.keeping keep) c).isEmpty = (passOf g c).isEmpty := by
      rw [← List.isEmpty_map (f := Prod.fst), hpass, List.isEmpty_map]
    rw [hempty]
    cases he : (passOf g c).isEmpty with
    | true =>
      rw [he] at h
      cases h
      exact ⟨τ, rfl, ht⟩
    | false =>
      rw [he] at h
      have hagree : ∀ d ∈ passOf g c, d.1.Agrees cache cache := fun d _ => .refl cache d.1
      exact (inStep_runDistancePass (steady_twins g) hagree (forall₂_of_map_fst hpass) c.unique
        σ τ ht).exists_ok h
  · rw [if_neg hkind] at h hkeep ⊢
    exact twins_forM_runDirective hpass hkeep ht h

theorem twins_passes
    (hdistance : ∀ d : IndexedDirective, d.1.comparison.kind = .levenshtein → keep d = true)
    {cs : List Comparison}
    (hkeep : ∀ x ∈ matchesAlong (runPass m cache g) (passMatches m cache g) cs σ, keep x.directive = true)
    (ht : Twins σ τ) (h : cs.forM (runPass m cache g) σ = .ok () σ') :
    ∃ τ', cs.forM (runPass m cache (g.keeping keep)) τ = .ok () τ' ∧ Twins σ' τ' := by
  induction cs generalizing σ τ with
  | nil =>
    cases h
    exact ⟨τ, rfl, ht⟩
  | cons c cs ih =>
    obtain ⟨_, σ₁, hc, hrest⟩ := bind_eq_ok (x := runPass m cache g c)
      (f := fun _ => cs.forM (runPass m cache g)) h
    rw [matchesAlong, hc] at hkeep
    obtain ⟨τ₁, hτ, ht₁⟩ :=
      twins_runPass hdistance (fun x hx => hkeep x (List.mem_append_left _ hx)) ht hc
    obtain ⟨τ', hτ', ht'⟩ := ih (fun x hx => hkeep x (List.mem_append_right _ hx)) ht₁ hrest
    exact ⟨τ', (bind_apply_of_ok hτ).trans hτ', ht'⟩

/-! ## Whole groups -/

/-- States with the same store and the same count, which is what one group hands on to the next. -/
structure Peers (σ τ : RunState) : Prop where
  store : τ.store = σ.store
  applied : τ.applied = σ.applied

theorem runGroup_pruned (h : runGroup m cache g σ = .ok () σ') (hp : Peers σ τ) :
    ∃ τ', runGroup m cache (g.pruned (groupMatches m cache g σ)) τ = .ok () τ' ∧ Peers σ' τ' := by
  have hkeep : ∀ x ∈ groupMatches m cache g σ, kept (groupMatches m cache g σ) x.directive = true := by
    intro x hx
    unfold kept
    rw [Bool.or_eq_true]
    exact .inr (List.any_eq_true.2 ⟨x, hx, beq_self_eq_true _⟩)
  have hdistance : ∀ d : IndexedDirective, d.1.comparison.kind = .levenshtein →
      kept (groupMatches m cache g σ) d = true := by
    intro d hd
    unfold kept
    rw [hd]
    rfl
  have htwins : Twins (entered σ) (entered τ) := ⟨hp.store, hp.applied, rfl⟩
  obtain ⟨τ', hτ, ht⟩ := twins_passes hdistance hkeep htwins h
  exact ⟨τ', hτ, ht.store, ht.applied⟩

/-- What the directives of a group match; none of them does if the target is not there. -/
def targetMatches (m : Matchers) (cache : PatternCache) (g : DirectiveGroup) (σ : RunState) :
    List DirectiveMatch :=
  if (missingTarget? g σ.store).isSome then [] else groupMatches m cache g σ

/-- A run of a group marks the directives that match. -/
theorem contains_used_of_runGroup (h : runGroup m cache g σ = .ok () σ') (d : IndexedDirective) :
    σ'.used.contains d.2 = matched (groupMatches m cache g σ) d := by
  have haccounts : Accounts m cache g (groupMatches m cache g σ) (entered σ) σ' :=
    accounts_along (fun c _ => (acts_runPass c).accounts) h
  rw [Bool.eq_iff_iff, List.contains_iff_mem, haccounts.used]
  unfold matched
  simp only [List.any_eq_true, beq_iff_eq]
  exact or_iff_left List.not_mem_nil

/-- Reporting the unused directives changes the diagnostics only. -/
theorem report_unused (g : DirectiveGroup) (σ : RunState) :
    ∃ diagnostics, (do
      let unused := unusedOf g (← get).used
      unused.forM fun u => warn s!"Unused conversion directive: {u.display}"
      return unused : Run (List UnusedDirective)) σ = .ok (unusedOf g σ.used) { σ with diagnostics } := by
  obtain ⟨diagnostics, h⟩ :=
    forM_warn (fun u : UnusedDirective => s!"Unused conversion directive: {u.display}") (unusedOf g σ.used) σ
  refine ⟨diagnostics, ?_⟩
  rw [get_bind_apply]
  exact bind_apply_of_ok h

theorem convertGroup_of_missing (m : Matchers) (cache : PatternCache) {target : MissingTarget}
    (h : missingTarget? g σ.store = some target) (hrequired : g.isRequired = false) :
    ∃ diagnostics, convertGroup m cache g σ = .ok (unusedOf g []) { σ with diagnostics, used := [] } := by
  obtain ⟨diagnostics, hunused⟩ := report_unused g { σ with
    diagnostics := σ.diagnostics.report false (DirectiveError.missingTarget target).message, used := [] }
  refine ⟨diagnostics, ?_⟩
  unfold convertGroup
  rw [get_bind_apply, h]
  dsimp only
  rw [hrequired]
  exact hunused

theorem convertGroup_of_run {σ₁ : RunState} (h : missingTarget? g σ.store = none)
    (hrun : runGroup m cache g σ = .ok () σ₁) :
    ∃ diagnostics, convertGroup m cache g σ = .ok (unusedOf g σ₁.used) { σ₁ with diagnostics } := by
  obtain ⟨diagnostics, hunused⟩ := report_unused g σ₁
  refine ⟨diagnostics, ?_⟩
  unfold convertGroup
  rw [get_bind_apply, h]
  exact (bind_apply_of_ok hrun).trans hunused

/-- A group that succeeds is optional if its target is missing, and otherwise has run. -/
theorem convertGroup_eq_ok {us : List UnusedDirective} (h : convertGroup m cache g σ = .ok us σ') :
    ((missingTarget? g σ.store).isSome ∧ g.isRequired = false ∧ us = unusedOf g [] ∧ Peers σ σ') ∨
      (missingTarget? g σ.store = none ∧ ∃ σ₁, runGroup m cache g σ = .ok () σ₁ ∧
        us = unusedOf g σ₁.used ∧ Peers σ₁ σ') := by
  cases htarget : missingTarget? g σ.store with
  | some target =>
    left
    cases hrequired : g.isRequired with
    | true =>
      unfold convertGroup at h
      rw [get_bind_apply, htarget] at h
      dsimp only at h
      rw [hrequired] at h
      cases h
    | false =>
      obtain ⟨diagnostics, hc⟩ := convertGroup_of_missing m cache htarget hrequired
      rw [hc] at h
      cases h
      exact ⟨rfl, rfl, rfl, rfl, rfl⟩
  | none =>
    right
    refine ⟨rfl, ?_⟩
    have hrun : ∃ σ₁, runGroup m cache g σ = .ok () σ₁ := by
      unfold convertGroup at h
      rw [get_bind_apply, htarget] at h
      obtain ⟨_, σ₁, hrun, -⟩ := bind_eq_ok h
      exact ⟨σ₁, hrun⟩
    obtain ⟨σ₁, hrun⟩ := hrun
    obtain ⟨diagnostics, hc⟩ := convertGroup_of_run htarget hrun
    rw [hc] at h
    cases h
    exact ⟨σ₁, hrun, rfl, rfl, rfl⟩

theorem unusedOf_eq_unmatched {used : List Nat} {xs : List DirectiveMatch}
    (h : ∀ d : IndexedDirective, used.contains d.2 = matched xs d) : unusedOf g used = g.unmatched xs := by
  unfold unusedOf DirectiveGroup.unmatched
  exact congrArg (List.map _) (List.filter_congr fun d _ => by rw [h d])

/--
A group that succeeds tells the directives without a match, and the group without those of them that compare
exactly or by a pattern succeeds from a peer as well.
-/
theorem convertGroup_pruned {us : List UnusedDirective} (h : convertGroup m cache g σ = .ok us σ')
    (hp : Peers σ τ) :
    us = g.unmatched (targetMatches m cache g σ) ∧
      ∃ us' τ', convertGroup m cache (g.pruned (targetMatches m cache g σ)) τ = .ok us' τ' ∧ Peers σ' τ' := by
  have htarget : missingTarget? (g.pruned (targetMatches m cache g σ)) τ.store =
      missingTarget? g σ.store := by
    rw [hp.store]
    rfl
  unfold targetMatches at htarget ⊢
  rcases convertGroup_eq_ok h with ⟨hmissing, hrequired, rfl, hσ⟩ | ⟨hthere, σ₁, hrun, rfl, hσ⟩
  · rw [if_pos hmissing] at htarget ⊢
    refine ⟨unusedOf_eq_unmatched fun _ => rfl, ?_⟩
    obtain ⟨target, ht⟩ := Option.isSome_iff_exists.1 hmissing
    have hrequired' : (g.pruned []).isRequired = false := by
      by_contra hne
      rw [Bool.not_eq_false] at hne
      rw [DirectiveGroup.isRequired_of_keeping hne] at hrequired
      cases hrequired
    obtain ⟨diagnostics, hc⟩ :=
      convertGroup_of_missing m cache (htarget.trans ht) hrequired'
    exact ⟨_, _, hc, hp.store.trans hσ.store.symm, hp.applied.trans hσ.applied.symm⟩
  · rw [hthere] at htarget ⊢
    refine ⟨unusedOf_eq_unmatched (contains_used_of_runGroup hrun), ?_⟩
    obtain ⟨τ₁, hτ, hp₁⟩ := runGroup_pruned hrun hp
    obtain ⟨diagnostics, hc⟩ := convertGroup_of_run htarget hτ
    exact ⟨_, _, hc, hp₁.store.trans hσ.store.symm, hp₁.applied.trans hσ.applied.symm⟩

/-- A group without directives only passes the state on. -/
theorem convertGroup_of_isEmpty (h : g.directives = []) (m : Matchers) (cache : PatternCache) (σ : RunState) :
    ∃ us σ', convertGroup m cache g σ = .ok us σ' ∧ Peers σ σ' := by
  obtain ⟨table, field, directives⟩ := g
  obtain rfl : directives = [] := h
  cases htarget : missingTarget? ⟨table, field, []⟩ σ.store with
  | some target =>
    obtain ⟨diagnostics, hc⟩ := convertGroup_of_missing m cache htarget rfl
    exact ⟨_, _, hc, rfl, rfl⟩
  | none =>
    have hrun : runGroup m cache ⟨table, field, []⟩ σ = .ok () (entered σ) := rfl
    obtain ⟨diagnostics, hc⟩ := convertGroup_of_run htarget hrun
    exact ⟨_, _, hc, rfl, rfl⟩

/-! ## Programs -/

/-- The groups of a run with what their directives match; a group that fails is the last. -/
def matchesByGroup (m : Matchers) (cache : PatternCache) :
    List DirectiveGroup → RunState → List (DirectiveGroup × List DirectiveMatch)
  | [], _ => []
  | g :: gs, σ =>
    (g, targetMatches m cache g σ) :: match convertGroup m cache g σ with
      | .ok _ σ' => matchesByGroup m cache gs σ'
      | .error _ _ => []

/-- The groups without their unmatched directives, as far as they have directives left. -/
def prunedGroups (ms : List (DirectiveGroup × List DirectiveMatch)) : List DirectiveGroup :=
  (ms.map fun e => e.1.pruned e.2).filter fun g => !g.directives.isEmpty

theorem mapM_convertGroup {gs : List DirectiveGroup} {uss : List (List UnusedDirective)}
    (h : gs.mapM (convertGroup m cache) σ = .ok uss σ') (hp : Peers σ τ) :
    (matchesByGroup m cache gs σ).map Prod.fst = gs ∧
      uss = (matchesByGroup m cache gs σ).map (fun e => e.1.unmatched e.2) ∧
      ∃ uss' τ', (prunedGroups (matchesByGroup m cache gs σ)).mapM (convertGroup m cache) τ = .ok uss' τ' ∧
        Peers σ' τ' := by
  induction gs generalizing σ τ uss with
  | nil =>
    cases h
    exact ⟨rfl, rfl, [], τ, rfl, hp⟩
  | cons g gs ih =>
    rw [List.mapM_cons] at h
    obtain ⟨us, σ₁, hg, h⟩ := bind_eq_ok h
    obtain ⟨uss₁, σ₂, hgs, h⟩ := bind_eq_ok h
    cases h
    obtain ⟨rfl, us', τ₁, hτ, hp₁⟩ := convertGroup_pruned hg hp
    rw [matchesByGroup, hg, List.map_cons, List.map_cons]
    dsimp only
    by_cases hempty : (g.pruned (targetMatches m cache g σ)).directives = []
    · -- the group is dropped, which makes no difference as it has nothing to do
      obtain ⟨_, τ₁', hτ', hp'⟩ := convertGroup_of_isEmpty hempty m cache τ
      rw [hτ] at hτ'
      cases hτ'
      have hp₁' : Peers σ₁ τ := ⟨hp'.store.symm.trans hp₁.store, hp'.applied.symm.trans hp₁.applied⟩
      obtain ⟨hfst, rfl, uss', τ', hrest, hp''⟩ := ih hgs hp₁'
      refine ⟨by rw [hfst], rfl, uss', τ', ?_, hp''⟩
      unfold prunedGroups
      rw [List.map_cons, List.filter_cons_of_neg (by simpa using hempty)]
      exact hrest
    · obtain ⟨hfst, rfl, uss', τ', hrest, hp''⟩ := ih hgs hp₁
      refine ⟨by rw [hfst], rfl, us' :: uss', τ', ?_, hp''⟩
      unfold prunedGroups
      rw [List.map_cons, List.filter_cons_of_pos (by simpa using hempty), List.mapM_cons]
      exact (bind_apply_of_ok hτ).trans (bind_apply_of_ok hrest)

end Run

/-! ## Unused directives by name -/

/-- Where an unused directive stands. -/
def UnusedDirective.label (u : UnusedDirective) : DirectiveLabel := (⟨u.table, u.field, u.key⟩, u.comparison)

/--
The program without some directives, of those that compare exactly or by a pattern, and without the groups
that have none left.
-/
def ConversionProgram.without (p : ConversionProgram) (us : List UnusedDirective) : ConversionProgram where
  groups := (p.groups.map fun g => { g with
    directives := g.directives.filter fun d => d.comparison.kind = .levenshtein || !us.contains (g.reported d)
    }).filter fun g => !g.directives.isEmpty
  cache := p.cache

section Names

variable {ms : List (DirectiveGroup × List DirectiveMatch)} {p : ConversionProgram}

theorem labels_eq_map_reported (g : DirectiveGroup) :
    g.labels = (g.directives.map g.reported).map UnusedDirective.label := by
  unfold DirectiveGroup.labels
  rw [List.map_map]
  rfl

theorem sublist_labels_unmatched (g : DirectiveGroup) (xs : List DirectiveMatch) :
    ((g.unmatched xs).map UnusedDirective.label).Sublist g.labels := by
  rw [labels_eq_map_reported]
  refine List.Sublist.map _ ?_
  unfold DirectiveGroup.unmatched
  rw [← map_zipIdx_fst g.reported]
  exact List.filter_sublist.map _

/-- Unused directives come in the order of the groups and of the directives in them. -/
theorem sublist_labels_unused (h : ms.map Prod.fst = p.groups) :
    ((ms.flatMap fun e => e.1.unmatched e.2).map UnusedDirective.label).Sublist p.labels := by
  unfold ConversionProgram.labels
  rw [← h, List.flatMap_map, List.map_flatMap]
  exact List.Sublist.flatMap_right ms fun e _ => sublist_labels_unmatched e.1 e.2

/-- If every directive stands at a label of its own, a reported one is one without a match. -/
theorem contains_unused (h : ms.map Prod.fst = p.groups) (hn : p.labels.Nodup)
    {e : DirectiveGroup × List DirectiveMatch} (he : e ∈ ms) {d : IndexedDirective}
    (hd : d ∈ e.1.directives.zipIdx) :
    (ms.flatMap fun e => e.1.unmatched e.2).contains (e.1.reported d.1) = !DirectiveMatch.matched e.2 d := by
  -- every directive of the groups, and whether it has a match
  let flat := ms.flatMap fun e => e.1.directives.zipIdx.map fun d =>
    (e.1.reported d.1, DirectiveMatch.matched e.2 d)
  have hnodup : (flat.map Prod.fst).Nodup := by
    refine List.Nodup.of_map UnusedDirective.label ?_
    convert hn using 1
    unfold flat ConversionProgram.labels
    rw [← h, List.flatMap_map, List.map_flatMap, List.map_flatMap]
    refine List.flatMap_congr fun e _ => ?_
    rw [labels_eq_map_reported, ← map_zipIdx_fst e.1.reported, List.map_map, List.map_map, List.map_map]
    rfl
  have hmem : (e.1.reported d.1, DirectiveMatch.matched e.2 d) ∈ flat :=
    List.mem_flatMap.2 ⟨e, he, List.mem_map_of_mem hd⟩
  rw [Bool.eq_iff_iff, List.contains_iff_mem, Bool.not_eq_true']
  constructor
  · intro hused
    obtain ⟨e', he', hu⟩ := List.mem_flatMap.1 hused
    obtain ⟨d', hd', heq⟩ := List.mem_map.1 hu
    obtain ⟨hd', hno⟩ := List.mem_filter.1 hd'
    have hmem' : (e'.1.reported d'.1, DirectiveMatch.matched e'.2 d') ∈ flat :=
      List.mem_flatMap.2 ⟨e', he', List.mem_map_of_mem hd'⟩
    have hsame := List.inj_on_of_nodup_map hnodup hmem hmem' heq.symm
    rw [(Prod.mk.inj hsame).2]
    simpa using hno
  · intro hno
    exact List.mem_flatMap.2 ⟨e, he, List.mem_map.2 ⟨d, List.mem_filter.2 ⟨hd, by rw [hno]; rfl⟩, rfl⟩⟩

/-- Taking out the unmatched directives is taking out the reported ones by their names. -/
theorem prunedGroups_eq_without (h : ms.map Prod.fst = p.groups) (hn : p.labels.Nodup) :
    (⟨Run.prunedGroups ms, p.cache⟩ : ConversionProgram) =
      p.without (ms.flatMap fun e => e.1.unmatched e.2) := by
  unfold ConversionProgram.without Run.prunedGroups
  refine congrArg (fun gs => (⟨List.filter _ gs, p.cache⟩ : ConversionProgram)) ?_
  rw [← h, List.map_map]
  refine List.map_congr_left fun e he => ?_
  unfold DirectiveGroup.pruned DirectiveGroup.keeping
  refine congrArg (fun ds => ({ e.1 with directives := ds } : DirectiveGroup)) ?_
  rw [← map_fst_filter_zipIdx _ e.1.directives]
  refine congrArg (List.map Prod.fst) (List.filter_congr fun d hd => ?_)
  rw [contains_unused h hn he hd, Bool.not_not]
  rfl

end Names

namespace Store

/--
The report of a conversion that succeeds lists the directives that match no record, each once, in the order of
the groups and of the directives in them. The program without those of them that compare exactly or by a
pattern converts the store to the same store, with as many applications and the same renames. In a program
that has been compiled from a document the groups are in the order of the passes and the reported
directives can be taken out by their names.
-/
theorem convert_unused [PatternSyntax] {m : Matchers} {s : Store} {p : ConversionProgram}
    {diagnostics : Diagnostics} {report : ConversionReport} (h : (s.convert m p diagnostics).result = .ok report) :
    let ms := Run.matchesByGroup m p.cache p.groups { store := s, diagnostics }
    let pruned : ConversionProgram := ⟨Run.prunedGroups ms, p.cache⟩
    ms.map Prod.fst = p.groups ∧ report.unused = ms.flatMap (fun e => e.1.unmatched e.2) ∧
      (∀ diagnostics', ∃ again, (s.convert m pruned diagnostics').result = .ok again ∧
        again.applied = report.applied ∧ again.renames = report.renames ∧
        (s.convert m pruned diagnostics').store = (s.convert m p diagnostics).store) ∧
      ∀ d before after, ConversionProgram.compile d before = (.ok p, after) →
        report.unused.Nodup ∧
        (report.unused.map UnusedDirective.label).Sublist (d.arranged.placed.map PlacedEdits.label) ∧
        pruned = p.without report.unused := by
  intro ms pruned
  cases hgroups : Run.groups m p { store := s, diagnostics } with
  | error e σ =>
    rw [convert_of_error hgroups] at h
    cases h
  | ok uss σ =>
    obtain ⟨hresult, hstore⟩ := convert_of_ok hgroups
    rw [hresult] at h
    cases hr : σ.store.propagateRenames.2 with
    | error e =>
      rw [hr] at h
      cases h
    | ok renames =>
      rw [hr] at h
      cases h
      have hrefl : ∀ diagnostics', Run.Peers { store := s, diagnostics }
          { store := s, diagnostics := diagnostics' } := fun _ => ⟨rfl, rfl⟩
      obtain ⟨hfst, huss, -⟩ := Run.mapM_convertGroup hgroups (hrefl diagnostics)
      have hunused : uss.flatten = ms.flatMap fun e => e.1.unmatched e.2 := by
        rw [huss, List.flatMap_def]
      refine ⟨hfst, hunused, ?_, ?_⟩
      · intro diagnostics'
        obtain ⟨-, -, uss', τ, hτ, hp⟩ := Run.mapM_convertGroup hgroups (hrefl diagnostics')
        have hgroups' : Run.groups m pruned { store := s, diagnostics := diagnostics' } = .ok uss' τ := hτ
        obtain ⟨hresult', hstore'⟩ := convert_of_ok hgroups'
        rw [hp.store] at hresult' hstore'
        rw [hr] at hresult'
        exact ⟨_, hresult', hp.applied, rfl, hstore'.trans hstore.symm⟩
      · intro d before after hc
        obtain ⟨skipped, hcovers, -⟩ := ConversionProgram.covers_of_compile hc
        have hn := hcovers.nodup_labels
        dsimp only
        rw [hunused]
        have hsublist := sublist_labels_unused hfst
        exact ⟨(hn.sublist hsublist).of_map _, hsublist.trans hcovers.ordered,
          prunedGroups_eq_without hfst hn⟩

/-- Three samples of different colors. -/
def palette : Store :=
  .ofList [("sample", .ofList [
    ("S1", .ofList [("id", .scalar "S1"), ("color", .scalar "red")]),
    ("S2", .ofList [("id", .scalar "S2"), ("color", .scalar "grey")]),
    ("S3", .ofList [("id", .scalar "S3"), ("color", .scalar "blue")])])]

/-- Directives on two fields, one of which no sample has. -/
def retouch : ConversionDirectives :=
  .ofList [("sample", .ofList [
    ("color", .ofList [
      (⟨.levenshtein, false⟩, .ofList [("blu", { append := .ofList [("color", .scalar "ish")] })]),
      (⟨.exact, true⟩, .ofList [
        ("pink", { delete := ["color"] }),
        ("red", { assign := .ofList [("id", .scalar "R#id#")] })]),
      (⟨.regex, false⟩, .ofList [
        ("^gr[ae]y$", { append := .ofList [("color", .scalar "!")] }),
        ("x+", { delete := ["color"] })])]),
    ("size", .ofList [(⟨.exact, false⟩, .ofList [("huge", {})])])])]

theorem convert_unused_retouch :
    ∃ (p : ConversionProgram) (report : ConversionReport),
      ConversionProgram.compile retouch {} = (.ok p, {}) ∧
      (palette.convert .standard p {}).result = .ok report ∧ report.applied = 5 ∧
      report.unused.map (fun u => (u.field, u.comparison.name, u.key)) =
        [("color", "exact-unique", "pink"), ("color", "regex", "x+"), ("size", "exact", "huge")] ∧
      ∃ again, (palette.convert .standard (p.without report.unused) {}).result = .ok again ∧
        again.applied = 5 ∧
        (palette.convert .standard (p.without report.unused) {}).store =
          (palette.convert .standard p {}).store := by
  have hsilent : (ConversionProgram.compile retouch {}).2 = {} := by decide +kernel
  have hrun : (palette.applyConversion .standard retouch {}).result.toOption.map
      (fun r => (r.applied, r.unused.map fun u => (u.field, u.comparison.name, u.key))) =
        some (5,
          [("color", "exact-unique", "pink"), ("color", "regex", "x+"), ("size", "exact", "huge")]) := by
    decide +kernel
  unfold applyConversion at hrun
  cases hc : ConversionProgram.compile retouch {} with
  | mk result after =>
    rw [hc] at hsilent hrun
    obtain rfl : after = {} := hsilent
    cases result with
    | error e => cases hrun
    | ok p =>
      dsimp only at hrun
      cases h : (palette.convert .standard p {}).result with
      | error e =>
        rw [h] at hrun
        cases hrun
      | ok report =>
        rw [h] at hrun
        obtain ⟨happlied, hunused⟩ := Prod.mk.inj (Option.some.inj hrun)
        obtain ⟨-, -, hagain, hnames⟩ := convert_unused h
        rw [(hnames _ _ _ hc).2.2] at hagain
        obtain ⟨again, hok, hcount, -, hstore⟩ := hagain {}
        exact ⟨p, report, rfl, h, happlied, hunused, again, hok, hcount.trans happlied, hstore⟩

end Store
end TagHarvest
