/-
Two runs of one group. What a group does depends on its own table and on the values that its unique directives
have taken, and all it changes is that table, these values, its marks, the count and the diagnostics. So a
relation between states that fixes the first two and outlasts the changes is `Steady`, and from states that are
related so every step of the group has the same outcome. Indices of directives only end up in marks, so the two
runs may number their directives differently; and they may read patterns in two caches that agree on them.
-/
import TagHarvest.Proofs.Conversion.Matches

namespace TagHarvest

/-- A directive finds and edits the same with both caches. -/
structure CompiledDirective.Agrees (cache cache' : PatternCache) (d : CompiledDirective) : Prop where
  matchesOf : ∀ m cs, Run.matchesOf m cache' d cs = Run.matchesOf m cache d cs
  applyAll : ∀ m r, Edit.applyAll m cache' d.edits r = Edit.applyAll m cache d.edits r

/-- So do all directives of a group. -/
def DirectiveGroup.Agrees (cache cache' : PatternCache) (g : DirectiveGroup) : Prop :=
  ∀ d ∈ g.directives, d.Agrees cache cache'

theorem CompiledDirective.Agrees.refl (cache : PatternCache) (d : CompiledDirective) : d.Agrees cache cache :=
  ⟨fun _ _ => rfl, fun _ _ => rfl⟩

theorem DirectiveGroup.Agrees.refl (cache : PatternCache) (g : DirectiveGroup) : g.Agrees cache cache :=
  fun d _ => .refl cache d

namespace Run

variable {m : Matchers} {cache cache' : PatternCache} {g : DirectiveGroup} {d : CompiledDirective}
variable {I : Nat → Nat → Prop} {R : RunState → RunState → Prop}

/--
A relation between states that no step of a group breaks, when the indices of its directives are related by `I`.
-/
structure Steady (g : DirectiveGroup) (I : Nat → Nat → Prop) (R : RunState → RunState → Prop) : Prop where
  table : ∀ {σ τ}, R σ τ → τ.store.table? g.table = σ.store.table? g.table
  consumed : ∀ {σ τ}, R σ τ → τ.consumed = σ.consumed
  report : ∀ {σ τ} (d d' : Diagnostics), R σ τ → R { σ with diagnostics := d } { τ with diagnostics := d' }
  mark : ∀ {σ τ} {i j : Nat}, I i j → R σ τ →
    R { σ with used := i :: σ.used } { τ with used := j :: τ.used }
  consume : ∀ {σ τ} (value : String), R σ τ →
    R { σ with consumed := value :: σ.consumed } { τ with consumed := value :: τ.consumed }
  count : ∀ {σ τ}, R σ τ → R { σ with applied := σ.applied + 1 } { τ with applied := τ.applied + 1 }
  commit : ∀ {σ τ} (key : String) (r : Record), R σ τ →
    R { σ with store := σ.store.updateRecord g.table key fun _ => r }
      { τ with store := τ.store.updateRecord g.table key fun _ => r }

section Steps

variable (hR : Steady g I R)

include hR

theorem Steady.pool {σ τ : RunState} (h : R σ τ) (unique : Bool) : pool g unique τ = pool g unique σ := by
  unfold Run.pool
  rw [hR.table h, hR.consumed h]

theorem Steady.record? {σ τ : RunState} (h : R σ τ) (key : String) :
    τ.store.record? g.table key = σ.store.record? g.table key := by
  unfold Store.record?
  rw [hR.table h]

/-! ## Steps of a directive -/

theorem inStep_warn (message message' : String) : InStep R (warn message) (warn message') :=
  InStep.modify fun _ _ h => hR.report _ _ h

theorem inStep_markUsed {i j : Nat} (hij : I i j) : InStep R (markUsed i) (markUsed j) :=
  InStep.modify fun _ _ h => hR.mark hij h

theorem inStep_consume (value : String) : InStep R (consume value) (consume value) :=
  InStep.modify fun _ _ h => hR.consume value h

theorem inStep_candidates (unique : Bool) : InStep R (candidates g unique) (candidates g unique) := by
  intro σ τ h
  rw [candidates_apply, candidates_apply, hR.pool h]
  exact .ok h

/-- Both records that are found are the same, and so is what the edits make of them. -/
theorem inStep_applyDirective (hd : d.Agrees cache cache') (found : RecordMatch) :
    InStep R (applyDirective m cache g d found) (applyDirective m cache' g d found) := by
  intro σ τ h
  cases hr : σ.store.record? g.table found.id with
  | none =>
    rw [applyDirective_of_none hr, applyDirective_of_none ((hR.record? h _).trans hr)]
    exact .ok h
  | some r =>
    obtain ⟨_, hσ⟩ := applyDirective_of_some m cache d hr
    obtain ⟨_, hτ⟩ := applyDirective_of_some m cache' d ((hR.record? h _).trans hr)
    rw [hσ, hτ, hd.applyAll]
    cases (Edit.applyAll m cache d.edits r).2 with
    | done r' => exact .ok (hR.report _ _ (hR.commit found.id r' h))
    | failed f =>
      unfold concluded
      cases d.required with
      | true => exact .error (hR.report _ _ h)
      | false => exact .ok (hR.report _ _ h)
    | skipped s => exact .ok (hR.report _ _ h)
    | aborted => exact .error (hR.report _ _ h)

theorem inStep_applyCounted (hd : d.Agrees cache cache') (found : RecordMatch) :
    InStep R (applyCounted m cache g d found) (applyCounted m cache' g d found) := by
  refine (inStep_applyDirective hR hd found).bind fun changed => ?_
  cases changed with
  | true => exact InStep.modify fun _ _ h => hR.count h
  | false => exact InStep.pure ()

theorem inStep_runDirective (hd : d.Agrees cache cache') {i j : Nat} (hij : I i j) :
    InStep R (runDirective m cache g (d, i)) (runDirective m cache' g (d, j)) := by
  refine (inStep_candidates hR _).bind fun cs => ?_
  rw [hd.matchesOf]
  cases matchesOf m cache d cs with
  | nil => exact InStep.pure ()
  | cons found more =>
    refine (inStep_markUsed hR hij).seq ?_
    cases d.comparison.unique with
    | true =>
      have happly : InStep R (do consume found.value; applyCounted m cache g d found)
          (do consume found.value; applyCounted m cache' g d found) :=
        (inStep_consume hR _).seq (inStep_applyCounted hR hd found)
      cases more.isEmpty with
      | true => exact happly
      | false => exact (inStep_warn hR _ _).seq happly
    | false => exact InStep.forM _ fun found _ => inStep_applyCounted hR hd found

/-! ## Passes -/

theorem inStep_runNearest {pass pass' : List IndexedDirective} (hds : ∀ d ∈ pass, d.1.Agrees cache cache')
    (hpass : List.Forall₂ (fun d d' => d'.1 = d.1 ∧ I d.2 d'.2) pass pass') (pair : Nat × RecordMatch) :
    InStep R (runNearest m cache g pass pair) (runNearest m cache' g pass' pair) := by
  unfold runNearest
  cases hd : pass[pair.1]? with
  | none =>
    rw [List.getElem?_eq_none_iff, hpass.length_eq, ← List.getElem?_eq_none_iff] at hd
    rw [hd]
    exact InStep.pure ()
  | some di =>
    obtain ⟨d, i⟩ := di
    obtain ⟨⟨d', j⟩, hd', hsame, hij⟩ := exists_getElem?_of_forall₂ hpass hd
    obtain rfl : d' = d := hsame
    have hagrees := hds _ (List.mem_of_getElem? hd)
    rw [hd']
    refine (inStep_markUsed hR hij).seq ?_
    cases d'.comparison.unique with
    | true => exact (inStep_consume hR _).seq (inStep_applyCounted hR hagrees pair.2)
    | false => exact inStep_applyCounted hR hagrees pair.2

theorem inStep_runDistancePass {pass pass' : List IndexedDirective}
    (hds : ∀ d ∈ pass, d.1.Agrees cache cache')
    (hpass : List.Forall₂ (fun d d' => d'.1 = d.1 ∧ I d.2 d'.2) pass pass') (unique : Bool) :
    InStep R (runDistancePass m cache g unique pass) (runDistancePass m cache' g unique pass') := by
  have hkeys : pass'.map (fun d => d.1.key) = pass.map fun d => d.1.key := by
    have hsame : List.Forall₂ (fun a b => a = b) (pass.map fun d => d.1.key) (pass'.map fun d => d.1.key) := by
      rw [List.forall₂_map_left_iff, List.forall₂_map_right_iff]
      exact hpass.imp fun _ _ h => congrArg CompiledDirective.key h.1.symm
    rw [List.forall₂_eq_eq_eq] at hsame
    exact hsame.symm
  unfold runDistancePass
  refine (inStep_candidates hR unique).bind fun cs => ?_
  rw [hkeys]
  exact InStep.forM _ fun pair _ => inStep_runNearest hR hds hpass pair

theorem inStep_runPass (hg : g.Agrees cache cache') (hI : ∀ i, I i i) (c : Comparison) :
    InStep R (runPass m cache g c) (runPass m cache' g c) := by
  have hds : ∀ d ∈ g.directives.zipIdx.filter fun d => d.1.comparison = c, d.1.Agrees cache cache' :=
    fun d hd => hg d.1 (List.fst_mem_of_mem_zipIdx (List.mem_of_mem_filter hd))
  unfold runPass
  dsimp only
  split
  · split
    · exact InStep.pure ()
    · exact inStep_runDistancePass hR hds (List.forall₂_same.2 fun d _ => ⟨rfl, hI d.2⟩) _
  · exact InStep.forM _ fun d hd => inStep_runDirective hR (hds d hd) (hI d.2)

/-- A group has the same outcome from states that are related once they have been entered. -/
theorem paired_runGroup (hg : g.Agrees cache cache') (hI : ∀ i, I i i) {σ τ : RunState}
    (h : R (entered σ) (entered τ)) : Paired R (runGroup m cache g σ) (runGroup m cache' g τ) :=
  InStep.forM Comparison.passes (fun c _ => inStep_runPass hR hg hI c) (entered σ) (entered τ) h

end Steps

end Run
end TagHarvest
