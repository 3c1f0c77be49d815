/-
The order of the groups of a conversion. A group reads and changes no table but its own: from two states with
the same such table it has the same outcome, and the other tables stay as they are. So two groups of different
tables may change places, and only the order of the groups of each table matters.
-/
import TagHarvest.Proofs.Conversion.Frame
import TagHarvest.Proofs.Conversion.Lockstep
import TagHarvest.Proofs.Conversion.Unused

namespace TagHarvest

namespace Run

variable {m : Matchers} {cache cache' : PatternCache} {g g' : DirectiveGroup} {σ τ σ₁ σ₂ σ' : RunState}
variable {us us' : List UnusedDirective}

/-! ## One group in two stores -/

/-- States with the same table `name`, the same marks and values taken, and counts that differ by `k` and `l`. -/
structure Beside (name : String) (k l : Nat) (σ τ : RunState) : Prop where
  table : τ.store.table? name = σ.store.table? name
  applied : τ.applied + k = σ.applied + l
  consumed : τ.consumed = σ.consumed
  used : τ.used = σ.used

theorem steady_beside (g : DirectiveGroup) (k l : Nat) : Steady g Eq (Beside g.table k l) where
  table h := h.table
  consumed h := h.consumed
  report _ _ h := ⟨h.table, h.applied, h.consumed, h.used⟩
  mark hij h := ⟨h.table, h.applied, h.consumed, by rw [hij, h.used]⟩
  consume _ h := ⟨h.table, h.applied, by rw [h.consumed], h.used⟩
  count h := by
    refine ⟨h.table, ?_, h.consumed, h.used⟩
    have := h.applied
    dsimp only
    omega
  commit _ _ h := by
    refine ⟨?_, h.applied, h.consumed, h.used⟩
    dsimp only
    rw [Store.table?_updateRecord_self, Store.table?_updateRecord_self, h.table]

/-- A group does the same wherever its table is the same. -/
theorem convertGroup_beside (hg : g.Agrees cache cache')
    (htable : τ.store.table? g.table = σ.store.table? g.table) (h : convertGroup m cache g σ = .ok us σ') :
    ∃ τ', convertGroup m cache' g τ = .ok us τ' ∧ τ'.store.table? g.table = σ'.store.table? g.table ∧
      τ'.applied + σ.applied = σ'.applied + τ.applied := by
  have htarget : missingTarget? g τ.store = missingTarget? g σ.store := by
    unfold missingTarget?
    rw [htable]
  rcases convertGroup_eq_ok h with ⟨hmissing, hrequired, rfl, hσ⟩ | ⟨hthere, σ₁, hrun, rfl, hσ⟩
  · obtain ⟨target, ht⟩ := Option.isSome_iff_exists.1 hmissing
    obtain ⟨diagnostics, hc⟩ := convertGroup_of_missing m cache' (htarget.trans ht) hrequired
    refine ⟨_, hc, by rw [hσ.store, htable], ?_⟩
    rw [hσ.applied]
    exact Nat.add_comm _ _
  · have hentered : Beside g.table σ.applied τ.applied (entered σ) (entered τ) :=
      ⟨htable, Nat.add_comm _ _, rfl, rfl⟩
    obtain ⟨τ₁, hτ, hbeside⟩ :=
      (paired_runGroup (steady_beside g _ _) hg (fun _ => rfl) hentered).exists_ok hrun
    obtain ⟨diagnostics, hc⟩ := convertGroup_of_run (htarget.trans hthere) hτ
    refine ⟨_, by rw [hc, hbeside.used], ?_, ?_⟩
    · rw [hσ.store, ← hbeside.table]
    · rw [hσ.applied]
      exact hbeside.applied

/-- A group leaves the other tables as they are, and every table in its place. -/
theorem convertGroup_frame (h : convertGroup m cache g σ = .ok us σ') :
    σ'.store.keys = σ.store.keys ∧ ∀ name, g.table ≠ name → σ'.store.table? name = σ.store.table? name := by
  have hg : g ∈ (⟨[g], cache⟩ : ConversionProgram).groups := List.mem_singleton_self g
  obtain ⟨hcommits, -⟩ := (committing_convertGroup hg).ok h
  refine ⟨Commits.keys hcommits, fun name hname => Commits.table?_of_unnamed hcommits ?_⟩
  exact List.forall_mem_singleton.2 hname

/-- A group does the same from a peer, and leaves peers. -/
theorem convertGroup_peers (hg : g.Agrees cache cache') (hp : Peers σ τ)
    (h : convertGroup m cache g σ = .ok us σ') :
    ∃ τ', convertGroup m cache' g τ = .ok us τ' ∧ Peers σ' τ' := by
  obtain ⟨τ', hτ, htable, happlied⟩ := convertGroup_beside (τ := τ) hg (by rw [hp.store]) h
  obtain ⟨hkeys, hothers⟩ := convertGroup_frame h
  obtain ⟨hkeys', hothers'⟩ := convertGroup_frame hτ
  refine ⟨τ', hτ, OrderedMap.ext_get? ?_ fun name => ?_, ?_⟩
  · rw [hkeys', hkeys, hp.store]
  · show τ'.store.table? name = σ'.store.table? name
    by_cases hname : g.table = name
    · rw [← hname]
      exact htable
    · rw [hothers' name hname, hothers name hname, hp.store]
  · have := hp.applied
    omega

theorem mapM_peers {gs : List DirectiveGroup} {uss : List (List UnusedDirective)}
    (hgs : ∀ g ∈ gs, g.Agrees cache cache') (hp : Peers σ τ)
    (h : gs.mapM (convertGroup m cache) σ = .ok uss σ') :
    ∃ τ', gs.mapM (convertGroup m cache') τ = .ok uss τ' ∧ Peers σ' τ' := by
  induction gs generalizing σ τ uss with
  | nil =>
    cases h
    exact ⟨τ, rfl, hp⟩
  | cons g gs ih =>
    rw [List.mapM_cons] at h
    obtain ⟨us, σ₁, hg, h⟩ := bind_eq_ok h
    obtain ⟨uss₁, σ₂, hrest, h⟩ := bind_eq_ok h
    cases h
    obtain ⟨hagrees, hgs⟩ := List.forall_mem_cons.1 hgs
    obtain ⟨τ₁, hτ₁, hp₁⟩ := convertGroup_peers hagrees hp hg
    obtain ⟨τ₂, hτ₂, hp₂⟩ := ih hgs hp₁ hrest
    refine ⟨τ₂, ?_, hp₂⟩
    rw [List.mapM_cons]
    exact (bind_apply_of_ok hτ₁).trans (bind_apply_of_ok hτ₂)

/-! ## Groups that change places -/

/-- Groups of different tables may change places. -/
theorem convertGroup_comm (hne : g.table ≠ g'.table) (h : convertGroup m cache g σ = .ok us σ₁)
    (h' : convertGroup m cache g' σ₁ = .ok us' σ₂) :
    ∃ τ₁ τ₂, convertGroup m cache g' σ = .ok us' τ₁ ∧ convertGroup m cache g τ₁ = .ok us τ₂ ∧ Peers σ₂ τ₂ := by
  -- each of the two finds its table as it does in the other order
  obtain ⟨hkeys, hothers⟩ := convertGroup_frame h
  obtain ⟨hkeys', hothers'⟩ := convertGroup_frame h'
  obtain ⟨τ₁, hτ₁, htable', happlied'⟩ := convertGroup_beside (τ := σ) (.refl _ _) (hothers _ hne).symm h'
  obtain ⟨tkeys', tothers'⟩ := convertGroup_frame hτ₁
  obtain ⟨τ₂, hτ₂, htable, happlied⟩ := convertGroup_beside (τ := τ₁) (.refl _ _) (tothers' _ hne.symm) h
  obtain ⟨tkeys, tothers⟩ := convertGroup_frame hτ₂
  refine ⟨τ₁, τ₂, hτ₁, hτ₂, OrderedMap.ext_get? ?_ fun name => ?_, by omega⟩
  · rw [tkeys, tkeys', hkeys', hkeys]
  · show τ₂.store.table? name = σ₂.store.table? name
    by_cases hname : g.table = name
    · subst hname
      rw [htable, hothers' _ hne.symm]
    · rw [tothers name hname]
      by_cases hname' : g'.table = name
      · subst hname'
        exact htable'
      · rw [tothers' name hname', hothers' name hname', hothers name hname]

/-- A group may go before groups of other tables. -/
theorem mapM_to_front {before after : List DirectiveGroup} (hbefore : ∀ b ∈ before, b.table ≠ g.table)
    {uss : List (List UnusedDirective)}
    (h : (before ++ g :: after).mapM (convertGroup m cache) σ = .ok uss σ') :
    ∃ uss' τ', (g :: (before ++ after)).mapM (convertGroup m cache) σ = .ok uss' τ' ∧ Peers σ' τ' ∧
      uss'.Perm uss := by
  induction before generalizing σ uss with
  | nil => exact ⟨uss, σ', h, ⟨rfl, rfl⟩, .refl _⟩
  | cons b before ih =>
    obtain ⟨hb, hbefore⟩ := List.forall_mem_cons.1 hbefore
    rw [List.cons_append, List.mapM_cons] at h
    obtain ⟨us, σ₁, hfirst, h⟩ := bind_eq_ok h
    obtain ⟨uss₁, σ₂, hrest, h⟩ := bind_eq_ok h
    cases h
    -- the group goes to the front of the others, and then changes places with the first
    obtain ⟨uss', τ', hmoved, hp, hperm⟩ := ih hbefore hrest
    rw [List.mapM_cons] at hmoved
    obtain ⟨us', τ₁, hg, hmoved⟩ := bind_eq_ok hmoved
    obtain ⟨uss₂, τ₂, hothers, hmoved⟩ := bind_eq_ok hmoved
    cases hmoved
    obtain ⟨ρ₁, ρ₂, hg', hb', hp'⟩ := convertGroup_comm hb hfirst hg
    obtain ⟨ρ', hothers', hp''⟩ := mapM_peers (fun _ _ => .refl _ _) hp' hothers
    refine ⟨us' :: us :: uss₂, ρ', ?_, ⟨hp''.store.trans hp.store, hp''.applied.trans hp.applied⟩, ?_⟩
    · rw [List.mapM_cons, List.cons_append, List.mapM_cons]
      exact (bind_apply_of_ok hg').trans
        (bind_apply_of_ok ((bind_apply_of_ok hb').trans (bind_apply_of_ok hothers')))
    · exact (List.Perm.swap us us' uss₂).trans (hperm.cons us)

end Run

/-! ## Programs with their groups in another order -/

/-- The groups in another order, in which those of each table come one after the other as before. -/
structure Regrouped (gs gs' : List DirectiveGroup) : Prop where
  perm : gs'.Perm gs
  order : ∀ name, gs'.filter (fun g => g.table = name) = gs.filter (fun g => g.table = name)

namespace Regrouped

variable {gs gs' : List DirectiveGroup} {g : DirectiveGroup}

theorem symm (h : Regrouped gs gs') : Regrouped gs' gs := ⟨h.perm.symm, fun name => (h.order name).symm⟩

/-- The first group stands behind groups of other tables, and without it the rest are regrouped too. -/
theorem exists_of_cons (h : Regrouped gs (g :: gs')) :
    ∃ before after, gs = before ++ g :: after ∧ (∀ b ∈ before, b.table ≠ g.table) ∧
      Regrouped (before ++ after) gs' := by
  have hown := h.order g.table
  rw [List.filter_cons_of_pos (by simp), eq_comm, List.filter_eq_cons_iff] at hown
  obtain ⟨before, after, rfl, hbefore, -, -⟩ := hown
  refine ⟨before, after, rfl, fun b hb => by simpa using hbefore b hb, ?_, fun name => ?_⟩
  · exact (h.perm.trans List.perm_middle).cons_inv
  · have horder := h.order name
    have hnone : ∀ b ∈ before, b.table ≠ g.table := fun b hb => by simpa using hbefore b hb
    rw [List.filter_append] at horder ⊢
    by_cases hname : g.table = name
    · have hempty : before.filter (fun g => g.table = name) = [] :=
        List.filter_eq_nil_iff.2 fun b hb => by simpa [← hname] using hnone b hb
      rw [hempty, List.nil_append] at horder ⊢
      rw [List.filter_cons_of_pos (by simpa using hname), List.filter_cons_of_pos (by simpa using hname)]
        at horder
      exact (List.cons.inj horder).2
    · rwa [List.filter_cons_of_neg (by simpa using hname), List.filter_cons_of_neg (by simpa using hname)]
        at horder

/-- Groups that succeed do so in any such order, with the same store, as many applications and the same reports. -/
theorem mapM_convertGroup {m : Matchers} {cache : PatternCache} (h : Regrouped gs gs') {σ σ' : RunState}
    {uss : List (List UnusedDirective)} (hrun : gs.mapM (Run.convertGroup m cache) σ = .ok uss σ') :
    ∃ uss' τ', gs'.mapM (Run.convertGroup m cache) σ = .ok uss' τ' ∧ Run.Peers σ' τ' ∧ uss'.Perm uss := by
  induction gs' generalizing gs σ σ' uss with
  | nil =>
    obtain rfl := h.perm.nil_eq
    exact ⟨uss, σ', hrun, ⟨rfl, rfl⟩, .refl _⟩
  | cons g gs' ih =>
    obtain ⟨before, after, rfl, hbefore, hrest⟩ := h.exists_of_cons
    obtain ⟨uss₁, τ₁, hmoved, hp, hperm⟩ := Run.mapM_to_front hbefore hrun
    rw [List.mapM_cons] at hmoved
    obtain ⟨us, σ₁, hg, hmoved⟩ := bind_eq_ok hmoved
    obtain ⟨uss₂, σ₂, hothers, hmoved⟩ := bind_eq_ok hmoved
    cases hmoved
    obtain ⟨uss', τ', hrun', hp', hperm'⟩ := ih hrest hothers
    refine ⟨us :: uss', τ', ?_, ⟨hp'.store.trans hp.store, hp'.applied.trans hp.applied⟩,
      (hperm'.cons us).trans hperm⟩
    rw [List.mapM_cons]
    exact (bind_apply_of_ok hg).trans (bind_apply_of_ok hrun')

end Regrouped

/-! ## Conversions with the same effect -/

namespace Conversion

/--
Conversions that both fail, or both succeed with the same store, the same renames, as many applications and, up
to the order, the same unused directives.
-/
inductive Alike (c c' : Conversion) : Prop
  | ok {report report' : ConversionReport} (result : c.result = .ok report) (result' : c'.result = .ok report')
    (store : c'.store = c.store) (renames : report'.renames = report.renames)
    (applied : report'.applied = report.applied) (unused : report'.unused.Perm report.unused)
  | error {e e' : DirectiveError} (result : c.result = .error e) (result' : c'.result = .error e')

/-- It is enough to show that where one of two conversions succeeds the other does the same. -/
theorem Alike.of_ok {c c' : Conversion} (h : ∀ report, c.result = .ok report → Alike c c')
    (h' : ∀ report, c'.result = .ok report → Alike c' c) : Alike c c' := by
  cases hc : c.result with
  | ok report => exact h report hc
  | error e =>
    cases hc' : c'.result with
    | error e' => exact .error hc hc'
    | ok report =>
      -- then the first succeeds too
      cases h' report hc' with
      | ok _ hok => rw [hc] at hok; cases hok
      | error herror => rw [hc'] at herror; cases herror

end Conversion

namespace Store

variable {m : Matchers} {p p' : ConversionProgram} {s : Store} {diagnostics diagnostics' : Diagnostics}

/-- A conversion that succeeds does so with its groups in another order, and with a cache that agrees. -/
theorem convert_of_regrouped (h : Regrouped p.groups p'.groups)
    (hcache : ∀ g ∈ p.groups, g.Agrees p.cache p'.cache) {report : ConversionReport}
    (hok : (s.convert m p diagnostics).result = .ok report) :
    (s.convert m p diagnostics).Alike (s.convert m p' diagnostics') := by
  cases hgroups : Run.groups m p { store := s, diagnostics } with
  | error e σ =>
    rw [convert_of_error hgroups] at hok
    cases hok
  | ok uss σ =>
    obtain ⟨hresult, hstore⟩ := convert_of_ok hgroups
    obtain ⟨uss', τ, hmoved, hp, hperm⟩ := h.mapM_convertGroup hgroups
    have hagrees : ∀ g ∈ p'.groups, g.Agrees p.cache p'.cache := fun g hg => hcache g (h.perm.subset hg)
    have hstart : Run.Peers { store := s, diagnostics } { store := s, diagnostics := diagnostics' } := ⟨rfl, rfl⟩
    obtain ⟨τ', hgroups', hp'⟩ := Run.mapM_peers hagrees hstart hmoved
    obtain ⟨hresult', hstore'⟩ := convert_of_ok (p := p') hgroups'
    rw [hp'.store, hp.store] at hresult' hstore'
    cases hr : σ.store.propagateRenames.2 with
    | error e =>
      rw [hresult, hr] at hok
      cases hok
    | ok renames =>
      rw [hr] at hresult hresult'
      exact .ok hresult hresult' (hstore'.trans hstore.symm) rfl (hp'.applied.trans hp.applied) hperm.flatten

/-- So programs with regrouped groups and agreeing caches have the same effect. -/
theorem convert_alike (h : Regrouped p.groups p'.groups) (hcache : ∀ g ∈ p.groups, g.Agrees p.cache p'.cache)
    (hcache' : ∀ g ∈ p'.groups, g.Agrees p'.cache p.cache) :
    (s.convert m p diagnostics).Alike (s.convert m p' diagnostics') :=
  .of_ok (fun _ => convert_of_regrouped h hcache) fun _ => convert_of_regrouped h.symm hcache'

end Store
end TagHarvest
