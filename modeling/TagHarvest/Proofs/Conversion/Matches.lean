/-
What the directives of a group match, in the order in which the run acts on it. A run that succeeds does to
the store what carrying out its matches one after the other does, marks the directives that matched, and
takes the values of the unique ones. Unique directives read only what has not been taken, so no value is
matched by two of them and each of them is carried out on one record at most, also where all of them see
the same candidates.
-/
import TagHarvest.Proofs.Conversion.Commits
import TagHarvest.Proofs.Conversion.Nearest

namespace TagHarvest

/-- A directive of a group in its place, and a record that it matched. -/
structure DirectiveMatch where
  directive : IndexedDirective
  found : RecordMatch

namespace DirectiveMatch

def isUnique (x : DirectiveMatch) : Bool := x.directive.1.comparison.unique

def index (x : DirectiveMatch) : Nat := x.directive.2

def value (x : DirectiveMatch) : String := x.found.value

/-- Matches of unique directives are of different directives and by different values. -/
def Apart (x y : DirectiveMatch) : Prop :=
  x.isUnique = true → y.isUnique = true → x.index ≠ y.index ∧ x.value ≠ y.value

/-- The values of the unique directives among some matches. -/
def taken (xs : List DirectiveMatch) : List String := (xs.filter isUnique).map value

theorem mem_taken {xs : List DirectiveMatch} {v : String} :
    v ∈ taken xs ↔ ∃ x ∈ xs, x.isUnique = true ∧ x.value = v := by
  simp [taken, and_assoc]

theorem taken_append (xs ys : List DirectiveMatch) : taken (xs ++ ys) = taken xs ++ taken ys := by
  simp [taken]

/-- A store after a directive has been carried out on the record it matched. -/
def carriedOut (m : Matchers) (cache : PatternCache) (g : DirectiveGroup) (s : Store)
    (x : DirectiveMatch) : Store :=
  match s.record? g.table x.found.id with
  | none => s
  | some r =>
    match (Edit.applyAll m cache x.directive.1.edits r).2 with
    | .done r => s.updateRecord g.table x.found.id fun _ => r
    | _ => s

end DirectiveMatch

namespace Run

open DirectiveMatch

section

variable (m : Matchers) (cache : PatternCache) (g : DirectiveGroup)

/-- The candidates that directives read in a state. -/
def pool (unique : Bool) (σ : RunState) : List Candidate :=
  ((σ.store.table? g.table).map fun t =>
    t.candidates g.field fun v => !unique || !σ.consumed.contains v).getD []

/-- What a directive that compares exactly or by its pattern is carried out on. -/
def directiveMatches (d : IndexedDirective) (σ : RunState) : List DirectiveMatch :=
  let found := matchesOf m cache d.1 (pool g d.1.comparison.unique σ)
  (if d.1.comparison.unique then found.take 1 else found).map (⟨d, ·⟩)

/-- What pairs of keys and records come to, the keys being those of a pass. -/
def pairMatches (pass : List IndexedDirective) (pairs : List (Nat × RecordMatch)) :
    List DirectiveMatch :=
  pairs.filterMap fun pair => pass[pair.1]?.map (⟨·, pair.2⟩)

/-- What the directives of a pass that compares by distance are carried out on. -/
def distanceMatches (unique : Bool) (pass : List IndexedDirective) (σ : RunState) :
    List DirectiveMatch :=
  let cs := pool g unique σ
  let keys := pass.map fun d => d.1.key
  pairMatches pass
    (if unique then mutualMatches m.distance keys cs else nearestMatches m.distance keys cs)

/-- The matches of steps that are taken one after the other; a step that fails is the last. -/
def matchesAlong {α : Type} (f : α → Run Unit) (found : α → RunState → List DirectiveMatch) :
    List α → RunState → List DirectiveMatch
  | [], _ => []
  | a :: l, σ =>
    found a σ ++ match f a σ with
      | .ok _ σ' => matchesAlong f found l σ'
      | .error _ _ => []

/-- The directives of a group that compare in one way, with their indices. -/
def passOf (c : Comparison) : List IndexedDirective :=
  g.directives.zipIdx.filter fun d => d.1.comparison = c

def passMatches (c : Comparison) (σ : RunState) : List DirectiveMatch :=
  if c.kind = .levenshtein then distanceMatches m g c.unique (passOf g c) σ
  else matchesAlong (runDirective m cache g) (directiveMatches m cache g) (passOf g c) σ

/-- A state as a group finds it. -/
def entered (σ : RunState) : RunState := { σ with consumed := [], used := [] }

/-- All that the directives of a group are carried out on, in turn. -/
def groupMatches (σ : RunState) : List DirectiveMatch :=
  matchesAlong (runPass m cache g) (passMatches m cache g) Comparison.passes (entered σ)

/-- One state comes from another by carrying out some matches. -/
structure Accounts (xs : List DirectiveMatch) (σ σ' : RunState) : Prop where
  store : σ'.store = xs.foldl (carriedOut m cache g) σ.store
  consumed : ∀ v, v ∈ σ'.consumed ↔ v ∈ taken xs ∨ v ∈ σ.consumed
  used : ∀ i, i ∈ σ'.used ↔ (∃ x ∈ xs, x.index = i) ∨ i ∈ σ.used

/-- A part of a run that acts on some matches, whose unique ones are apart and by values not taken. -/
structure Acts (x : Run Unit) (found : RunState → List DirectiveMatch) : Prop where
  accounts : ∀ σ σ', x σ = .ok () σ' → Accounts m cache g (found σ) σ σ'
  fresh : ∀ σ, ∀ v ∈ taken (found σ), v ∉ σ.consumed
  apart : ∀ σ, (found σ).Pairwise Apart

end

variable {m : Matchers} {cache : PatternCache} {g : DirectiveGroup}

/-! ## Accounts of a run -/

theorem Accounts.nil {σ σ' : RunState} (hs : σ'.store = σ.store) (hc : σ'.consumed = σ.consumed)
    (hu : σ'.used = σ.used) : Accounts m cache g [] σ σ' :=
  ⟨hs, fun v => by simp [hc, taken], fun i => by simp [hu]⟩

theorem Accounts.append {xs ys : List DirectiveMatch} {σ σ₁ σ₂ : RunState}
    (h₁ : Accounts m cache g xs σ σ₁) (h₂ : Accounts m cache g ys σ₁ σ₂) :
    Accounts m cache g (xs ++ ys) σ σ₂ where
  store := by rw [h₂.store, h₁.store, List.foldl_append]
  consumed v := by
    rw [h₂.consumed, h₁.consumed, taken_append, List.mem_append]
    exact or_left_comm.trans or_assoc.symm
  used i := by
    rw [h₂.used, h₁.used]
    simp only [List.mem_append, or_and_right, exists_or]
    exact or_left_comm.trans or_assoc.symm

/-- Applying a directive changes the store as carrying it out does, and nothing of what has been taken. -/
theorem applyCounted_eq_ok {d : CompiledDirective} {i : Nat} {found : RecordMatch} {σ σ' : RunState}
    (h : applyCounted m cache g d found σ = .ok () σ') :
    σ'.store = carriedOut m cache g σ.store ⟨(d, i), found⟩ ∧ σ'.consumed = σ.consumed ∧
      σ'.used = σ.used := by
  obtain ⟨changed, σ₁, happly, hrest⟩ := bind_eq_ok h
  -- counting touches none of the three
  have hcount : σ'.store = σ₁.store ∧ σ'.consumed = σ₁.consumed ∧ σ'.used = σ₁.used := by
    cases changed <;> cases hrest <;> exact ⟨rfl, rfl, rfl⟩
  rw [hcount.1, hcount.2.1, hcount.2.2]
  unfold carriedOut
  dsimp only
  cases hr : σ.store.record? g.table found.id with
  | none =>
    rw [applyDirective_of_none hr] at happly
    cases happly
    exact ⟨rfl, rfl, rfl⟩
  | some r =>
    obtain ⟨diagnostics, heq⟩ := applyDirective_of_some m cache d hr
    rw [heq] at happly
    dsimp only
    cases ho : (Edit.applyAll m cache d.edits r).2 with
    | done r' =>
      rw [ho] at happly
      cases happly
      exact ⟨rfl, rfl, rfl⟩
    | failed f =>
      rw [ho] at happly
      simp only [concluded] at happly
      split at happly <;> cases happly
      exact ⟨rfl, rfl, rfl⟩
    | skipped s =>
      rw [ho] at happly
      cases happly
      exact ⟨rfl, rfl, rfl⟩
    | aborted =>
      rw [ho] at happly
      cases happly

/-- A directive that is marked, takes its value if it is unique, and is applied. -/
theorem accounts_applyCounted {d : CompiledDirective} {i : Nat} {found : RecordMatch} {σ σ₁ σ' : RunState}
    (h : applyCounted m cache g d found σ₁ = .ok () σ') (hs : σ₁.store = σ.store)
    (hc : σ₁.consumed = if d.comparison.unique then found.value :: σ.consumed else σ.consumed)
    (hu : σ₁.used = i :: σ.used) : Accounts m cache g [⟨(d, i), found⟩] σ σ' := by
  obtain ⟨hstore, hconsumed, hused⟩ := applyCounted_eq_ok (i := i) h
  refine ⟨by rw [hstore, hs]; rfl, fun v => ?_, fun j => ?_⟩
  · rw [hconsumed, hc]
    cases hunique : d.comparison.unique <;> simp [taken, isUnique, value, hunique]
  · rw [hused, hu]
    simp [index, eq_comm]

/-! ## Steps one after the other -/

section Along

variable {α : Type} {f : α → Run Unit} {found : α → RunState → List DirectiveMatch}

theorem accounts_along {l : List α} {σ σ' : RunState}
    (hf : ∀ a ∈ l, ∀ σ σ', f a σ = .ok () σ' → Accounts m cache g (found a σ) σ σ')
    (h : l.forM f σ = .ok () σ') : Accounts m cache g (matchesAlong f found l σ) σ σ' := by
  induction l generalizing σ with
  | nil =>
    cases h
    exact .nil rfl rfl rfl
  | cons a l ih =>
    obtain ⟨_, σ₁, ha, hl⟩ := bind_eq_ok (x := f a) (f := fun _ => l.forM f) h
    rw [matchesAlong, ha]
    exact (hf a List.mem_cons_self σ σ₁ ha).append
      (ih (fun b hb => hf b (List.mem_cons_of_mem a hb)) hl)

theorem mem_matchesAlong {l : List α} {σ : RunState} {x : DirectiveMatch}
    (h : x ∈ matchesAlong f found l σ) : ∃ a ∈ l, ∃ τ, x ∈ found a τ := by
  induction l generalizing σ with
  | nil => cases h
  | cons a l ih =>
    rw [matchesAlong, List.mem_append] at h
    rcases h with h | h
    · exact ⟨a, List.mem_cons_self, σ, h⟩
    · split at h
      · obtain ⟨b, hb, hx⟩ := ih h
        exact ⟨b, List.mem_cons_of_mem a hb, hx⟩
      · cases h

/-- Values that later steps match have not been taken before, since what is taken stays so. -/
theorem fresh_along {l : List α} (hf : ∀ a ∈ l, Acts m cache g (f a) (found a)) (σ : RunState) :
    ∀ v ∈ taken (matchesAlong f found l σ), v ∉ σ.consumed := by
  induction l generalizing σ with
  | nil => exact nofun
  | cons a l ih =>
    have ha := hf a List.mem_cons_self
    intro v hv
    rw [matchesAlong, taken_append, List.mem_append] at hv
    rcases hv with hv | hv
    · exact ha.fresh σ v hv
    · split at hv
      · rename_i σ₁ hσ₁
        have hnot := ih (fun b hb => hf b (List.mem_cons_of_mem a hb)) σ₁ v hv
        exact fun hmem => hnot (((ha.accounts σ σ₁ hσ₁).consumed v).2 (.inr hmem))
      · cases hv

/-- Steps of different directives act together on what each of them acts on. -/
theorem Acts.along {l : List α} (hf : ∀ a ∈ l, Acts m cache g (f a) (found a))
    (hl : l.Pairwise fun a b => ∀ σ τ, ∀ x ∈ found a σ, ∀ y ∈ found b τ, x.index ≠ y.index) :
    Acts m cache g (l.forM f) (matchesAlong f found l) where
  accounts σ σ' := accounts_along fun a ha => (hf a ha).accounts
  fresh := fresh_along hf
  apart := by
    induction l with
    | nil => exact fun _ => .nil
    | cons a l ih =>
      intro σ
      have ha := hf a List.mem_cons_self
      have hrest : ∀ b ∈ l, Acts m cache g (f b) (found b) := fun b hb => hf b (List.mem_cons_of_mem a hb)
      obtain ⟨hindex, hl⟩ := List.pairwise_cons.1 hl
      rw [matchesAlong]
      cases hσ : f a σ with
      | error e σ₁ => exact List.pairwise_append.2 ⟨ha.apart σ, .nil, fun _ _ => nofun⟩
      | ok _ σ₁ =>
        refine List.pairwise_append.2 ⟨ha.apart σ, ih hrest hl σ₁, fun x hx y hy hxu hyu => ⟨?_, ?_⟩⟩
        · obtain ⟨b, hb, τ, hy⟩ := mem_matchesAlong hy
          exact hindex b hb σ τ x hx y hy
        · -- the value of the first has been taken when the second is found
          have htaken : x.value ∈ σ₁.consumed :=
            ((ha.accounts σ σ₁ hσ).consumed _).2 (.inl (mem_taken.2 ⟨x, hx, hxu, rfl⟩))
          intro heq
          exact fresh_along hrest σ₁ y.value (mem_taken.2 ⟨y, hy, hyu, rfl⟩) (heq ▸ htaken)

end Along

/-! ## Directives that compare exactly or by a pattern -/

theorem mem_values_of_pool {c : Candidate} {σ : RunState} (h : c ∈ pool g true σ) :
    ∀ v ∈ c.values, v ∉ σ.consumed := by
  unfold pool Table.candidates at h
  cases ht : σ.store.table? g.table with
  | none =>
    rw [ht] at h
    cases h
  | some t =>
    rw [ht] at h
    obtain ⟨e, -, he⟩ := List.mem_filterMap.1 h
    obtain ⟨w, -, hw⟩ := Option.bind_eq_some_iff.1 he
    unfold Candidate.of? at hw
    split at hw
    · cases hw
    · cases hw
      intro v hv
      simpa using (List.mem_filter.1 hv).2

theorem mem_of_matchesBy {test : String → Bool} {cs : List Candidate} {found : RecordMatch}
    (h : found ∈ matchesBy test cs) : ∃ c ∈ cs, found.value ∈ c.values := by
  obtain ⟨c, hc, hfound⟩ := List.mem_filterMap.1 h
  obtain ⟨v, hv, rfl⟩ := Option.map_eq_some_iff.1 hfound
  exact ⟨c, hc, List.mem_of_find?_eq_some hv⟩

theorem mem_of_matchesOf {d : CompiledDirective} {cs : List Candidate} {found : RecordMatch}
    (h : found ∈ matchesOf m cache d cs) : ∃ c ∈ cs, found.value ∈ c.values := by
  unfold matchesOf at h
  split at h
  · split at h
    · exact mem_of_matchesBy h
    · cases h
  · exact mem_of_matchesBy h

theorem directive_of_mem_directiveMatches {d : IndexedDirective} {σ : RunState} {x : DirectiveMatch}
    (h : x ∈ directiveMatches m cache g d σ) : x.directive = d := by
  obtain ⟨found, -, rfl⟩ := List.mem_map.1 h
  rfl

/-- The matches of a directive that is not unique, once it is marked. -/
theorem accounts_forM_applyCounted {d : CompiledDirective} {i : Nat} (hd : d.comparison.unique = false)
    {l : List RecordMatch} {σ σ' : RunState} (hi : i ∈ σ.used)
    (h : l.forM (applyCounted m cache g d) σ = .ok () σ') :
    Accounts m cache g (l.map (⟨(d, i), ·⟩)) σ σ' := by
  induction l generalizing σ with
  | nil =>
    cases h
    exact .nil rfl rfl rfl
  | cons found l ih =>
    obtain ⟨_, σ₁, ha, hl⟩ :=
      bind_eq_ok (x := applyCounted m cache g d found) (f := fun _ => l.forM (applyCounted m cache g d)) h
    obtain ⟨hstore, hconsumed, hused⟩ := applyCounted_eq_ok (i := i) ha
    have hone : Accounts m cache g [⟨(d, i), found⟩] σ σ₁ := by
      refine ⟨hstore, fun v => ?_, fun j => ?_⟩
      · rw [hconsumed]
        simp [taken, isUnique, hd]
      · rw [hused]
        simp only [List.mem_singleton, exists_eq_left, index]
        exact ⟨.inr, fun hj => hj.elim (· ▸ hi) id⟩
    exact hone.append (ih (hused ▸ hi) hl)

theorem candidates_apply (unique : Bool) (σ : RunState) :
    candidates g unique σ = .ok (pool g unique σ) σ := rfl

theorem runDirective_of_nil {d : CompiledDirective} {i : Nat} {σ : RunState}
    (h : matchesOf m cache d (pool g d.comparison.unique σ) = []) :
    runDirective m cache g (d, i) σ = .ok () σ := by
  unfold runDirective
  dsimp only
  rw [bind_apply_of_ok (candidates_apply d.comparison.unique σ), h]
  rfl

/-- A directive that is not unique is marked and applied to all that it matches. -/
theorem runDirective_of_cons {d : CompiledDirective} {i : Nat} {σ : RunState} {found : RecordMatch}
    {more : List RecordMatch}
    (h : matchesOf m cache d (pool g d.comparison.unique σ) = found :: more)
    (hunique : d.comparison.unique = false) :
    runDirective m cache g (d, i) σ =
      (found :: more).forM (applyCounted m cache g d) { σ with used := i :: σ.used } := by
  unfold runDirective
  dsimp only
  rw [bind_apply_of_ok (candidates_apply d.comparison.unique σ), h, hunique]
  rfl

/-- A unique directive is marked, takes the value of its first match, and is applied to that. -/
theorem runDirective_of_unique {d : CompiledDirective} {i : Nat} {σ : RunState} {found : RecordMatch}
    {more : List RecordMatch}
    (h : matchesOf m cache d (pool g d.comparison.unique σ) = found :: more)
    (hunique : d.comparison.unique = true) :
    ∃ diagnostics, runDirective m cache g (d, i) σ =
      applyCounted m cache g d found
        { σ with diagnostics, consumed := found.value :: σ.consumed, used := i :: σ.used } := by
  unfold runDirective
  dsimp only
  rw [bind_apply_of_ok (candidates_apply d.comparison.unique σ), h, hunique]
  cases more with
  | nil => exact ⟨σ.diagnostics, rfl⟩
  | cons next more => exact ⟨_, rfl⟩

theorem acts_runDirective (d : IndexedDirective) :
    Acts m cache g (runDirective m cache g d) (directiveMatches m cache g d) where
  accounts σ σ' h := by
    obtain ⟨d, i⟩ := d
    unfold directiveMatches
    dsimp only
    cases hfound : matchesOf m cache d (pool g d.comparison.unique σ) with
    | nil =>
      rw [runDirective_of_nil hfound] at h
      cases h
      cases d.comparison.unique <;> exact .nil rfl rfl rfl
    | cons found more =>
      cases hunique : d.comparison.unique with
      | false =>
        rw [runDirective_of_cons hfound hunique] at h
        have hall := accounts_forM_applyCounted (i := i) hunique List.mem_cons_self h
        refine ⟨hall.store, hall.consumed, fun j => ?_⟩
        rw [hall.used]
        constructor
        · rintro (hj | hj)
          · exact .inl hj
          · rcases List.mem_cons.1 hj with rfl | hj
            · exact .inl ⟨⟨(d, j), found⟩, List.mem_cons_self, rfl⟩
            · exact .inr hj
        · exact Or.imp_right fun hj => List.mem_cons_of_mem i hj
      | true =>
        obtain ⟨diagnostics, heq⟩ := runDirective_of_unique (i := i) hfound hunique
        rw [heq] at h
        exact accounts_applyCounted h rfl (by rw [hunique]; rfl) rfl
  fresh σ v hv := by
    obtain ⟨x, hx, hunique, rfl⟩ := mem_taken.1 hv
    have hd : d.1.comparison.unique = true := directive_of_mem_directiveMatches hx ▸ hunique
    unfold directiveMatches at hx
    obtain ⟨found, hfound, rfl⟩ := List.mem_map.1 hx
    rw [hd, if_pos rfl] at hfound
    obtain ⟨c, hc, hvalue⟩ := mem_of_matchesOf (List.mem_of_mem_take hfound)
    exact mem_values_of_pool hc _ hvalue
  apart σ := by
    unfold directiveMatches
    dsimp only
    rw [List.pairwise_map]
    cases hunique : d.1.comparison.unique with
    | false =>
      refine List.pairwise_of_forall fun a b ha => ?_
      exact absurd (hunique.symm.trans ha) Bool.false_ne_true
    | true =>
      -- of a unique directive there is one match at most
      cases matchesOf m cache d.1 (pool g true σ) with
      | nil => exact .nil
      | cons found more => exact List.pairwise_singleton _ found

/-! ## Directives that compare by distance -/

theorem mem_of_mutualMatches {distance : String → String → Nat} {keys : List String} {cs : List Candidate}
    {pair : Nat × RecordMatch} (h : pair ∈ mutualMatches distance keys cs) :
    ∃ c ∈ cs, pair.2.value ∈ c.values := by
  obtain ⟨⟨key, i⟩, -, hpair⟩ := List.mem_filterMap.1 h
  obtain ⟨a, c, -, hc, -, rfl⟩ := mutualMatch_eq_some hpair
  exact ⟨c, List.mem_of_getElem? hc, (c.closest_mem distance key).1⟩

theorem mem_pairMatches {pass : List IndexedDirective} {pairs : List (Nat × RecordMatch)}
    {x : DirectiveMatch} (h : x ∈ pairMatches pass pairs) :
    ∃ pair ∈ pairs, pass[pair.1]? = some x.directive ∧ x.found = pair.2 := by
  obtain ⟨pair, hpair, hx⟩ := List.mem_filterMap.1 h
  obtain ⟨d, hd, rfl⟩ := Option.map_eq_some_iff.1 hx
  exact ⟨pair, hpair, hd, rfl⟩

theorem accounts_runNearest {pass : List IndexedDirective} {pair : Nat × RecordMatch} {σ σ' : RunState}
    (h : runNearest m cache g pass pair σ = .ok () σ') :
    Accounts m cache g (pairMatches pass [pair]) σ σ' := by
  unfold runNearest at h
  unfold pairMatches
  cases hd : pass[pair.1]? with
  | none =>
    rw [hd] at h
    cases h
    simp only [List.filterMap_cons, hd, Option.map_none, List.filterMap_nil]
    exact .nil rfl rfl rfl
  | some di =>
    obtain ⟨d, i⟩ := di
    rw [hd] at h
    simp only [List.filterMap_cons, hd, Option.map_some, List.filterMap_nil]
    dsimp only at h
    cases hunique : d.comparison.unique with
    | false =>
      rw [hunique] at h
      exact accounts_applyCounted h rfl (by rw [hunique]; rfl) rfl
    | true =>
      rw [hunique] at h
      exact accounts_applyCounted h rfl (by rw [hunique]; rfl) rfl

theorem accounts_forM_runNearest {pass : List IndexedDirective} {pairs : List (Nat × RecordMatch)}
    {σ σ' : RunState} (h : pairs.forM (runNearest m cache g pass) σ = .ok () σ') :
    Accounts m cache g (pairMatches pass pairs) σ σ' := by
  induction pairs generalizing σ with
  | nil =>
    cases h
    exact .nil rfl rfl rfl
  | cons pair pairs ih =>
    obtain ⟨_, σ₁, hpair, hrest⟩ := bind_eq_ok (x := runNearest m cache g pass pair)
      (f := fun _ => pairs.forM (runNearest m cache g pass)) h
    have hsplit : pairMatches pass (pair :: pairs) = pairMatches pass [pair] ++ pairMatches pass pairs :=
      List.filterMap_append (l := [pair])
    rw [hsplit]
    exact (accounts_runNearest hpair).append (ih hrest)

theorem acts_runDistancePass {unique : Bool} {pass : List IndexedDirective}
    (hpass : ∀ d ∈ pass, d.1.comparison.unique = unique) (hplaces : (pass.map Prod.snd).Nodup) :
    Acts m cache g (runDistancePass m cache g unique pass) (distanceMatches m g unique pass) where
  accounts σ σ' h := accounts_forM_runNearest h
  fresh σ v hv := by
    obtain ⟨x, hx, hunique, rfl⟩ := mem_taken.1 hv
    obtain ⟨pair, hpair, hd, hfound⟩ := mem_pairMatches hx
    have : unique = true := (hpass _ (List.mem_of_getElem? hd)).symm.trans hunique
    subst this
    obtain ⟨c, hc, hvalue⟩ := mem_of_mutualMatches hpair
    have hfresh := mem_values_of_pool hc _ hvalue
    rw [← hfound] at hfresh
    exact hfresh
  apart σ := by
    unfold distanceMatches pairMatches
    dsimp only
    cases unique with
    | false =>
      refine List.pairwise_filterMap.2 (List.pairwise_of_forall fun p q x hx => ?_)
      obtain ⟨d, hd, rfl⟩ := Option.map_eq_some_iff.1 hx
      intro _ _ hunique
      exact absurd ((hpass d (List.mem_of_getElem? hd)).symm.trans hunique) Bool.false_ne_true
    | true =>
      rw [if_pos rfl, List.pairwise_filterMap]
      refine (pairwise_mutualMatches m.distance _ _).imp fun {p q} hpq x hx y hy => ?_
      obtain ⟨d, hd, rfl⟩ := Option.map_eq_some_iff.1 hx
      obtain ⟨d', hd', rfl⟩ := Option.map_eq_some_iff.1 hy
      refine fun _ _ => ⟨fun hindex => hpq.1 ?_, hpq.2⟩
      -- different keys of the pass belong to directives with different indices
      obtain ⟨hp, hpd⟩ := List.getElem?_eq_some_iff.1 hd
      obtain ⟨hq, hqd⟩ := List.getElem?_eq_some_iff.1 hd'
      have hp' : p.1 < (pass.map Prod.snd).length := by rwa [List.length_map]
      have hq' : q.1 < (pass.map Prod.snd).length := by rwa [List.length_map]
      have hplace : (pass.map Prod.snd)[p.1] = (pass.map Prod.snd)[q.1] := by
        rw [List.getElem_map, List.getElem_map, hpd, hqd]
        exact hindex
      exact hplaces.getElem_inj_iff.1 hplace

/-! ## Passes and groups -/

theorem mem_passOf {c : Comparison} {d : IndexedDirective} :
    d ∈ passOf g c ↔ g.directives[d.2]? = some d.1 ∧ d.1.comparison = c := by
  unfold passOf
  rw [List.mem_filter, List.mem_zipIdx_iff_getElem?, decide_eq_true_iff]

theorem nodup_passOf (g : DirectiveGroup) (c : Comparison) : ((passOf g c).map Prod.snd).Nodup :=
  (List.nodup_zipIdx_map_snd g.directives).sublist (List.filter_sublist.map _)

theorem mem_passMatches {c : Comparison} {σ : RunState} {x : DirectiveMatch}
    (h : x ∈ passMatches m cache g c σ) : x.directive ∈ passOf g c := by
  unfold passMatches at h
  split at h
  · obtain ⟨pair, -, hd, -⟩ := mem_pairMatches h
    exact List.mem_of_getElem? hd
  · obtain ⟨d, hd, τ, hx⟩ := mem_matchesAlong h
    rw [directive_of_mem_directiveMatches hx]
    exact hd

theorem acts_runPass (c : Comparison) :
    Acts m cache g (runPass m cache g c) (passMatches m cache g c) := by
  have hunique : ∀ d ∈ passOf g c, d.1.comparison.unique = c.unique :=
    fun d hd => congrArg Comparison.unique (mem_passOf.1 hd).2
  have hsteps : Acts m cache g ((passOf g c).forM (runDirective m cache g))
      (matchesAlong (runDirective m cache g) (directiveMatches m cache g) (passOf g c)) := by
    refine Acts.along (fun d _ => acts_runDirective d) ?_
    refine (List.pairwise_map.1 (nodup_passOf g c)).imp fun {d d'} hne σ τ x hx y hy => ?_
    unfold index
    rw [directive_of_mem_directiveMatches hx, directive_of_mem_directiveMatches hy]
    exact hne
  unfold runPass passMatches
  change Acts m cache g (if c.kind = .levenshtein then
    if (passOf g c).isEmpty then _ else runDistancePass m cache g c.unique (passOf g c)
    else (passOf g c).forM _) _
  by_cases hkind : c.kind = .levenshtein
  · simp only [hkind, if_true]
    cases hempty : (passOf g c).isEmpty with
    | false => exact acts_runDistancePass hunique (nodup_passOf g c)
    | true =>
      have hnone : ∀ pairs, pairMatches (passOf g c) pairs = [] := fun pairs => by
        simp [pairMatches, List.isEmpty_iff.1 hempty]
      simp only [distanceMatches, hnone]
      exact ⟨fun σ σ' h => by cases h; exact .nil rfl rfl rfl, fun _ => nofun, fun _ => .nil⟩
  · simp only [hkind, if_false]
    exact hsteps

/--
A run of a group that succeeds comes from carrying out its matches one after the other, and it notes which
directives matched and which values unique directives took. The unique directives of the group, of all its
passes together, match pairwise different values, and none of them is carried out twice.
-/
theorem runGroup_apart (m : Matchers) (cache : PatternCache) (g : DirectiveGroup) (σ σ' : RunState)
    (h : runGroup m cache g σ = .ok () σ') :
    Accounts m cache g (groupMatches m cache g σ) (entered σ) σ' ∧
      (∀ x ∈ groupMatches m cache g σ, g.directives[x.index]? = some x.directive.1) ∧
      (groupMatches m cache g σ).Pairwise Apart := by
  have hpasses : Comparison.passes.Pairwise (· ≠ ·) := by decide
  have hacts : Acts m cache g (Comparison.passes.forM (runPass m cache g))
      (matchesAlong (runPass m cache g) (passMatches m cache g) Comparison.passes) := by
    refine Acts.along (fun c _ => acts_runPass c) (hpasses.imp fun {c c'} hne σ τ x hx y hy hindex => hne ?_)
    obtain ⟨hd, hc⟩ := mem_passOf.1 (mem_passMatches hx)
    obtain ⟨hd', hc'⟩ := mem_passOf.1 (mem_passMatches hy)
    -- one index belongs to one directive, which compares in one way
    have hindex' : x.directive.2 = y.directive.2 := hindex
    rw [hindex', hd'] at hd
    rw [← hc, ← hc', Option.some.inj hd]
  refine ⟨hacts.accounts _ _ h, fun x hx => ?_, hacts.apart _⟩
  obtain ⟨c, -, τ, hx⟩ := mem_matchesAlong hx
  exact (mem_passOf.1 (mem_passMatches hx)).1

/-- Two samples with one name in common, the second under a further name. -/
def namesakes : Store :=
  .ofList [("sample", .ofList [
    ("S1", .ofList [("id", .scalar "S1"), ("name", .scalar "liver")]),
    ("S2", .ofList [("id", .scalar "S2"), ("name", .list ["liver", "kidny"])])])]

/-- Two unique directives, the second by distance, and one for all livers. -/
def tagging : DirectiveGroup :=
  ⟨"sample", "name", [
    ⟨⟨.exact, true⟩, "liver", [.assign "tag" (.expression ⟨"first", [.literal "first"]⟩)], false⟩,
    ⟨⟨.levenshtein, true⟩, "liver", [.assign "tag" (.expression ⟨"second", [.literal "second"]⟩)], false⟩,
    ⟨⟨.exact, false⟩, "liver", [.delete "note"], false⟩]⟩

theorem runGroup_apart_namesakes :
    ∃ σ', runGroup .standard .empty tagging { store := namesakes, diagnostics := {} } = .ok () σ' ∧
      (groupMatches .standard .empty tagging { store := namesakes, diagnostics := {} }).map
          (fun x => (x.index, x.found.id, x.value)) =
        [(0, "S1", "liver"), (1, "S2", "kidny"), (2, "S1", "liver"), (2, "S2", "liver")] ∧
      (groupMatches .standard .empty tagging { store := namesakes, diagnostics := {} }).Pairwise Apart := by
  have hrun : ∃ σ', runGroup .standard .empty tagging { store := namesakes, diagnostics := {} } =
      .ok () σ' := ⟨_, rfl⟩
  obtain ⟨σ', h⟩ := hrun
  exact ⟨σ', h, by rfl, (runGroup_apart .standard .empty tagging _ σ' h).2.2⟩

end Run
end TagHarvest
