/-
A directive on a record: all of its edits or none of them. Edits are carried out in turn, each on what
those before it left, and an edit that is skipped leaves the record as it is. The store takes the record
that the last of them leaves, and only then; a directive that stops at an edit, wherever that stands,
leaves the whole store as it was. What it adds to the diagnostics is told in full: a warning for each
edit that was skipped, and for a failure one entry more.
-/
import TagHarvest.Proofs.Conversion.Commits
import TagHarvest.Proofs.Record.Identity

namespace TagHarvest

/-! ## Edits in turn -/

namespace Edit

section Runs

variable {m : Matchers} {cache : PatternCache}

/-- All edits are done or skipped, one after the other, and lead from the first record to the second. -/
inductive Runs (m : Matchers) (cache : PatternCache) : List Edit → Record → List Skip → Record → Prop
  | nil {r : Record} : Runs m cache [] r [] r
  | done {e : Edit} {es : List Edit} {r r₁ r' : Record} {skips : List Skip} :
      e.apply m cache r = .done r₁ → Runs m cache es r₁ skips r' → Runs m cache (e :: es) r skips r'
  | skipped {e : Edit} {es : List Edit} {r r' : Record} {s : Skip} {skips : List Skip} :
      e.apply m cache r = .skipped s → Runs m cache es r skips r' →
      Runs m cache (e :: es) r (s :: skips) r'

/-- The outcome is of an edit after which no other is carried out. -/
def Stops : EditOutcome → Prop
  | .failed _ | .aborted => True
  | .done _ | .skipped _ => False

/-- The edits before one of them run, and this one stops with the outcome. -/
def StopsAt (m : Matchers) (cache : PatternCache) (edits : List Edit) (r : Record) (skips : List Skip)
    (outcome : EditOutcome) : Prop :=
  ∃ before e after r₁, edits = before ++ e :: after ∧ Runs m cache before r skips r₁ ∧
    e.apply m cache r₁ = outcome ∧ Stops outcome

variable {edits : List Edit} {r r' : Record} {skips : List Skip} {outcome : EditOutcome}

/-- Once some edits have run, the others decide. -/
theorem Runs.applyAll_append (h : Runs m cache edits r skips r') (rest : List Edit) :
    applyAll m cache (edits ++ rest) r =
      (skips ++ (applyAll m cache rest r').1, (applyAll m cache rest r').2) := by
  induction h with
  | nil => rfl
  | done he _ ih =>
    rw [List.cons_append, applyAll, he]
    exact ih
  | skipped he _ ih =>
    rw [List.cons_append, applyAll, he]
    dsimp only
    rw [ih]
    rfl

theorem applyAll_of_stops {e : Edit} (h : e.apply m cache r = outcome) (hs : Stops outcome) (es : List Edit) :
    applyAll m cache (e :: es) r = ([], outcome) := by
  rw [applyAll, h]
  cases outcome with
  | done r' => exact hs.elim
  | skipped s => exact hs.elim
  | failed f => rfl
  | aborted => rfl

theorem StopsAt.stops (h : StopsAt m cache edits r skips outcome) : Stops outcome := by
  obtain ⟨_, _, _, _, -, -, -, hs⟩ := h
  exact hs

theorem StopsAt.applyAll_eq (h : StopsAt m cache edits r skips outcome) :
    applyAll m cache edits r = (skips, outcome) := by
  obtain ⟨before, e, after, r₁, rfl, hruns, he, hs⟩ := h
  rw [hruns.applyAll_append, applyAll_of_stops he hs, List.append_nil]

theorem Runs.applyAll_eq (h : Runs m cache edits r skips r') :
    applyAll m cache edits r = (skips, .done r') := by
  have happly := h.applyAll_append []
  rw [List.append_nil] at happly
  rw [happly, applyAll, List.append_nil]

/-- Edits run to their end or stop at one of them. -/
theorem applyAll_cases (h : applyAll m cache edits r = (skips, outcome)) :
    (∃ r', outcome = .done r' ∧ Runs m cache edits r skips r') ∨ StopsAt m cache edits r skips outcome := by
  induction edits generalizing r skips with
  | nil =>
    cases h
    exact .inl ⟨r, rfl, .nil⟩
  | cons e es ih =>
    have here (hs : Stops outcome) (he : e.apply m cache r = outcome) :
        StopsAt m cache (e :: es) r [] outcome :=
      ⟨[], e, es, r, rfl, .nil, he, hs⟩
    rw [applyAll] at h
    cases he : e.apply m cache r with
    | done r₁ =>
      rw [he] at h
      rcases ih h with ⟨r', ho, hruns⟩ | ⟨before, x, after, r₂, rfl, hruns, hx⟩
      · exact .inl ⟨r', ho, .done he hruns⟩
      · exact .inr ⟨e :: before, x, after, r₂, rfl, .done he hruns, hx⟩
    | skipped s =>
      rw [he] at h
      dsimp only at h
      cases h
      rcases ih rfl with ⟨r', ho, hruns⟩ | ⟨before, x, after, r₂, rfl, hruns, hx⟩
      · exact .inl ⟨r', ho, .skipped he hruns⟩
      · exact .inr ⟨e :: before, x, after, r₂, rfl, .skipped he hruns, hx⟩
    | failed f =>
      rw [he] at h
      cases h
      exact .inr (here trivial he)
    | aborted =>
      rw [he] at h
      cases h
      exact .inr (here trivial he)

end Runs
end Edit

/-! ## One record replaced -/

/-- The store `s'` is `s` with `r` in the place of the record under `key`; nothing else differs. -/
structure Store.Replaces (s s' : Store) (table key : String) (r : Record) : Prop where
  tables : s'.keys = s.keys
  records : ∀ name, (s'.table? name).map OrderedMap.keys = (s.table? name).map OrderedMap.keys
  here : s'.record? table key = some r
  elsewhere : ∀ name k, ¬ (table = name ∧ key = k) → s'.record? name k = s.record? name k

theorem Store.replaces_updateRecord {s : Store} {table key : String} {r₀ : Record}
    (h : s.record? table key = some r₀) (r : Record) :
    s.Replaces (s.updateRecord table key fun _ => r) table key r where
  tables := keys_updateRecord _
  records name := by
    by_cases hn : table = name
    · subst hn
      rw [table?_updateRecord_self, Option.map_map]
      exact congrArg (Option.map · (s.table? table)) (funext fun t => OrderedMap.keys_modify t key _)
    · rw [table?_updateRecord_of_ne _ hn]
  here := by
    rw [record?_updateRecord, if_pos ⟨rfl, rfl⟩, h]
    rfl
  elsewhere name k hat := by rw [record?_updateRecord, if_neg hat]

/-! ## Applying a directive -/

namespace Run

variable {m : Matchers} {cache : PatternCache} {g : DirectiveGroup} {d : CompiledDirective}
  {found : RecordMatch} {σ : RunState} {r r' : Record} {skips : List Skip}

/-- The diagnostics after a warning for each edit that was skipped. -/
def skipLog (g : DirectiveGroup) (d : CompiledDirective) (found : RecordMatch) (σ : RunState)
    (skips : List Skip) : Diagnostics :=
  warned σ.diagnostics (skips.map (skipMessage g d found))

theorem applyDirective_of_runs (hr : σ.store.record? g.table found.id = some r)
    (h : Edit.Runs m cache d.edits r skips r') :
    applyDirective m cache g d found σ =
      .ok true { σ with
        store := σ.store.updateRecord g.table found.id fun _ => r'
        diagnostics := skipLog g d found σ skips } :=
  applyDirective_apply m cache d hr h.applyAll_eq

theorem applyDirective_of_failed {f : EditFailure} (hr : σ.store.record? g.table found.id = some r)
    (h : Edit.StopsAt m cache d.edits r skips (.failed f)) :
    applyDirective m cache g d found σ =
      if d.required then
        .error (failureOf g d found f)
          { σ with diagnostics := (skipLog g d found σ skips).error (failureOf g d found f).message }
      else
        .ok false
          { σ with diagnostics := (skipLog g d found σ skips).warn (failureOf g d found f).message } := by
  rw [applyDirective_apply m cache d hr h.applyAll_eq]
  unfold concluded logAfter Diagnostics.report
  cases d.required with
  | true => rfl
  | false => rfl

theorem applyDirective_of_aborted (hr : σ.store.record? g.table found.id = some r)
    (h : Edit.StopsAt m cache d.edits r skips .aborted) :
    applyDirective m cache g d found σ =
      .error .aborted { σ with diagnostics := skipLog g d found σ skips } :=
  applyDirective_apply m cache d hr h.applyAll_eq

/-- How applying a directive can end. -/
inductive Ends (m : Matchers) (cache : PatternCache) (g : DirectiveGroup) (d : CompiledDirective)
    (found : RecordMatch) (σ : RunState) : EStateM.Result DirectiveError RunState Bool → Prop
  | absent : σ.store.record? g.table found.id = none → Ends m cache g d found σ (.ok false σ)
  | committed {r r' : Record} {skips : List Skip} {s' : Store} :
      σ.store.record? g.table found.id = some r → Edit.Runs m cache d.edits r skips r' →
      σ.store.Replaces s' g.table found.id r' →
      Ends m cache g d found σ (.ok true { σ with store := s', diagnostics := skipLog g d found σ skips })
  | optional {r : Record} {skips : List Skip} {f : EditFailure} :
      σ.store.record? g.table found.id = some r → Edit.StopsAt m cache d.edits r skips (.failed f) →
      d.required = false →
      Ends m cache g d found σ (.ok false
        { σ with diagnostics := (skipLog g d found σ skips).warn (failureOf g d found f).message })
  | required {r : Record} {skips : List Skip} {f : EditFailure} :
      σ.store.record? g.table found.id = some r → Edit.StopsAt m cache d.edits r skips (.failed f) →
      d.required = true →
      Ends m cache g d found σ (.error (failureOf g d found f)
        { σ with diagnostics := (skipLog g d found σ skips).error (failureOf g d found f).message })
  | aborted {r : Record} {skips : List Skip} :
      σ.store.record? g.table found.id = some r → Edit.StopsAt m cache d.edits r skips .aborted →
      Ends m cache g d found σ (.error .aborted { σ with diagnostics := skipLog g d found σ skips })

theorem ends_applyDirective (m : Matchers) (cache : PatternCache) (g : DirectiveGroup)
    (d : CompiledDirective) (found : RecordMatch) (σ : RunState) :
    Ends m cache g d found σ (applyDirective m cache g d found σ) := by
  cases hr : σ.store.record? g.table found.id with
  | none =>
    rw [applyDirective_of_none hr]
    exact .absent hr
  | some r =>
    cases ha : Edit.applyAll m cache d.edits r with
    | mk skips outcome =>
      rcases Edit.applyAll_cases ha with ⟨r', rfl, hruns⟩ | hstops
      · rw [applyDirective_of_runs hr hruns]
        exact .committed hr hruns (Store.replaces_updateRecord hr r')
      · have hs := hstops.stops
        cases outcome with
        | done r' => exact hs.elim
        | skipped s => exact hs.elim
        | failed f =>
          rw [applyDirective_of_failed hr hstops]
          cases hd : d.required with
          | true => exact .required hr hstops hd
          | false => exact .optional hr hstops hd
        | aborted =>
          rw [applyDirective_of_aborted hr hstops]
          exact .aborted hr hstops

/--
A directive changes the store exactly if the record it matched is there and all of its edits run on it in
turn. Then this record is replaced by what the edits lead to, and nothing else in the store changes. In
every other case the store is as it was. An edit that fails, in whatever place, is the failure of a
directive that is required, and one warning of one that is optional.
-/
theorem applyDirective_atomic (m : Matchers) (cache : PatternCache) (g : DirectiveGroup)
    (d : CompiledDirective) (found : RecordMatch) (σ : RunState) :
    ((∃ σ', applyDirective m cache g d found σ = .ok true σ') ↔
      ∃ r skips r', σ.store.record? g.table found.id = some r ∧ Edit.Runs m cache d.edits r skips r') ∧
    (∀ r skips r', σ.store.record? g.table found.id = some r → Edit.Runs m cache d.edits r skips r' →
      ∃ s', σ.store.Replaces s' g.table found.id r' ∧ applyDirective m cache g d found σ =
        .ok true { σ with store := s', diagnostics := skipLog g d found σ skips }) ∧
    (∀ r skips f, σ.store.record? g.table found.id = some r →
      Edit.StopsAt m cache d.edits r skips (.failed f) →
      applyDirective m cache g d found σ =
        if d.required then
          .error (failureOf g d found f)
            { σ with diagnostics := (skipLog g d found σ skips).error (failureOf g d found f).message }
        else
          .ok false
            { σ with diagnostics := (skipLog g d found σ skips).warn (failureOf g d found f).message }) ∧
    (∀ σ', applyDirective m cache g d found σ = .ok false σ' → σ'.store = σ.store) ∧
    ∀ e σ', applyDirective m cache g d found σ = .error e σ' → σ'.store = σ.store := by
  have hends := ends_applyDirective m cache g d found σ
  refine ⟨⟨?_, ?_⟩, ?_, fun r skips f => applyDirective_of_failed, ?_, ?_⟩
  · rintro ⟨σ', h⟩
    rw [h] at hends
    cases hends with
    | committed hr hruns _ => exact ⟨_, _, _, hr, hruns⟩
  · rintro ⟨r, skips, r', hr, hruns⟩
    exact ⟨_, applyDirective_of_runs hr hruns⟩
  · intro r skips r' hr hruns
    exact ⟨_, Store.replaces_updateRecord hr r', applyDirective_of_runs hr hruns⟩
  · intro σ' h
    rw [h] at hends
    cases hends with
    | absent _ => rfl
    | optional _ _ _ => rfl
  · intro e σ' h
    rw [h] at hends
    cases hends with
    | required _ _ _ => rfl
    | aborted _ _ => rfl

/-- A sample of two organs. -/
def organs : Record := .ofList [("id", .scalar "S1"), ("organ", .list ["liver", "lung"])]

/-- Two samples, of which the first has two organs. -/
def sampled : RunState where
  store := .ofList [("sample", .ofList [("S1", organs), ("S2", .ofList [("id", .scalar "S2")])])]
  diagnostics := {}

/-- Gives a sample a mark, takes its note away and writes something after its organs. -/
def marking (suffix : FieldValue) (required : Bool) : CompiledDirective :=
  ⟨⟨.exact, true⟩, "liver",
    [.assign "mark" (.list ["x"]), .delete "note", .append "organ" suffix], required⟩

theorem applyDirective_atomic_marking :
    let g : DirectiveGroup := ⟨"sample", "organ", []⟩
    let found : RecordMatch := ⟨"S1", "liver"⟩
    let message := "Directive sample.organ = 'liver' failed: record 'S1': field 'organ': list lengths differ (2 vs 1)"
    let noNote : Diagnostic :=
      ⟨.warning, "sample.organ = 'liver' on record 'S1': field 'note' to delete is missing"⟩
    (∃ s', sampled.store.Replaces s' "sample" "S1" (.ofList
        [("id", .scalar "S1"), ("organ", .list ["liver!", "lung!"]), ("mark", .list ["x"])]) ∧
      applyDirective .standard .empty g (marking (.scalar "!") true) found sampled =
        .ok true { sampled with store := s', diagnostics := ⟨false, [noNote]⟩ }) ∧
    applyDirective .standard .empty g (marking (.list ["!"]) false) found sampled =
      .ok false { sampled with diagnostics := ⟨false, [noNote, ⟨.warning, message⟩]⟩ } ∧
    applyDirective .standard .empty g (marking (.list ["!"]) true) found sampled =
      .error (.failed "sample" "organ" "liver" "record 'S1': field 'organ': list lengths differ (2 vs 1)")
        { sampled with diagnostics := ⟨false, [noNote, ⟨.error, message⟩]⟩ } := by
  intro g found message noNote
  have hr : sampled.store.record? "sample" "S1" = some organs := by decide
  have hruns : Edit.Runs .standard .empty (marking (.scalar "!") true).edits organs [.missingToDelete "note"]
      (.ofList [("id", .scalar "S1"), ("organ", .list ["liver!", "lung!"]), ("mark", .list ["x"])]) :=
    .done rfl (.skipped rfl (.done rfl .nil))
  have hstops (required : Bool) : Edit.StopsAt .standard .empty (marking (.list ["!"]) required).edits organs
      [.missingToDelete "note"] (.failed (.shape "organ" (.lengths 2 1))) :=
    ⟨[.assign "mark" (.list ["x"]), .delete "note"], .append "organ" (.list ["!"]), [], _, rfl,
      .done rfl (.skipped rfl .nil), rfl, trivial⟩
  obtain ⟨-, hcommits, -⟩ := applyDirective_atomic .standard .empty g (marking (.scalar "!") true) found sampled
  obtain ⟨-, -, hfails, -⟩ := applyDirective_atomic .standard .empty g (marking (.list ["!"]) false) found sampled
  obtain ⟨-, -, hthrows, -⟩ := applyDirective_atomic .standard .empty g (marking (.list ["!"]) true) found sampled
  obtain ⟨s', hreplaces, hcommits⟩ := hcommits _ _ _ hr hruns
  exact ⟨⟨s', hreplaces, hcommits⟩, hfails _ _ _ hr (hstops false), hthrows _ _ _ hr (hstops true)⟩

end Run
end TagHarvest
