/-
Failures of conversions that require nothing. Such a conversion compiles, and it fails in three ways: two
records of a table come to share an id, the last field of a record is renamed to another one that is there,
or a record is left without an id. No assignment, joining, deletion or renaming can do the last, and no
record is left with a list as its id; but a pattern edit can replace an id by the empty text, and the whole
run then ends with an invalid id.
-/
import TagHarvest.Proofs.Conversion.Compilation
import TagHarvest.Proofs.Conversion.Frame

namespace TagHarvest

/-! ## Tables that cannot be keyed -/

namespace Table

/-- The record under `key` is the first one without an id. -/
def FirstWithoutId (t : Table) (key : String) : Prop :=
  ∃ earlier r later, t.entries = earlier ++ (key, r) :: later ∧
    (∀ e ∈ earlier, ∃ id, Record.HasId e.2 id) ∧ ∀ id, ¬ Record.HasId r id

/-- Two records have the same id, and the later one stands under `key`. -/
def Shared (t : Table) (key id : String) : Prop :=
  ∃ earlier other r later, t.entries = earlier ++ (key, r) :: later ∧ other ∈ earlier ∧
    Record.HasId other.2 id ∧ Record.HasId r id

theorem invalidId?_eq_some_iff {t : Table} {key : String} :
    t.invalidId? = some key ↔ t.FirstWithoutId key := by
  unfold invalidId? FirstWithoutId
  rw [Option.map_eq_some_iff]
  constructor
  · rintro ⟨⟨k, r⟩, hf, rfl⟩
    obtain ⟨hr, earlier, later, he, hbefore⟩ := List.find?_eq_some_iff_append.1 hf
    refine ⟨earlier, r, later, he, fun e hm => ?_, ?_⟩
    · have hsome := hbefore e hm
      rw [Bool.not_eq_true'] at hsome
      exact Record.isNone_usableId?_eq_false_iff.1 hsome
    · exact Record.usableId?_eq_none_iff.1 (Option.isNone_iff_eq_none.1 hr)
  · rintro ⟨earlier, r, later, he, hbefore, hr⟩
    have hnone := Option.isNone_iff_eq_none.2 (Record.usableId?_eq_none_iff.2 hr)
    refine ⟨(key, r), List.find?_eq_some_iff_append.2 ⟨hnone, earlier, later, he, fun e hm => ?_⟩, rfl⟩
    rw [Bool.not_eq_true']
    exact Record.isNone_usableId?_eq_false_iff.2 (hbefore e hm)

/-- A collision is with an id that was seen before or with that of an earlier record. -/
theorem collision?_eq_some {seen : List String} {es : List (String × Record)} {key id : String}
    (h : collision? seen es = some (key, id)) :
    ∃ earlier r later, es = earlier ++ (key, r) :: later ∧ idOf (key, r) = id ∧
      (id ∈ seen ∨ id ∈ earlier.map idOf) := by
  induction es generalizing seen with
  | nil => cases h
  | cons e es ih =>
    obtain ⟨k, r⟩ := e
    change (if idOf (k, r) ∈ seen then some (k, idOf (k, r)) else
      collision? (idOf (k, r) :: seen) es) = some (key, id) at h
    by_cases hs : idOf (k, r) ∈ seen
    · rw [if_pos hs] at h
      cases h
      exact ⟨[], r, es, rfl, rfl, .inl hs⟩
    · rw [if_neg hs] at h
      obtain ⟨earlier, r', later, rfl, hid, hseen⟩ := ih h
      refine ⟨(k, r) :: earlier, r', later, rfl, hid, ?_⟩
      rw [List.mem_cons] at hseen
      rw [List.map_cons, List.mem_cons]
      rcases hseen with (hk | hs') | hm
      · exact .inr (.inl hk)
      · exact .inl hs'
      · exact .inr (.inr hm)

theorem shared_of_collision {t : Table} {key id : String} (hid : t.invalidId? = none)
    (h : collision? [] t.entries = some (key, id)) : t.Shared key id := by
  have hall := invalidId?_eq_none_iff.1 hid
  obtain ⟨earlier, r, later, he, hr, hseen⟩ := collision?_eq_some h
  rw [he, List.forall_mem_append, List.forall_mem_cons] at hall
  obtain ⟨other, hmem, ho⟩ := List.mem_map.1 (hseen.resolve_left List.not_mem_nil)
  exact ⟨earlier, other, r, later, he, hmem, ho ▸ hasId_idOf (hall.1 other hmem), hr ▸ hasId_idOf hall.2.1⟩

/-- A table cannot be keyed because of a record without an id or because of a shared id. -/
theorem rekey_eq_error {name : String} {t : Table} {e : DirectiveError} (h : t.rekey name = .error e) :
    (∃ key, t.FirstWithoutId key ∧ e = .invalidId name key) ∨
      ∃ key id, t.Shared key id ∧ e = .idCollision name key id := by
  unfold rekey at h
  cases hi : t.invalidId? with
  | some key =>
    rw [hi] at h
    cases h
    exact .inl ⟨key, invalidId?_eq_some_iff.1 hi, rfl⟩
  | none =>
    rw [hi] at h
    dsimp only at h
    split at h
    · cases h
    · split at h
      · rename_i key id hc
        cases h
        exact .inr ⟨key, id, shared_of_collision hi hc, rfl⟩
      · cases h

theorem rekey_of_firstWithoutId {name : String} {t : Table} {key : String} (h : t.FirstWithoutId key) :
    t.rekey name = .error (.invalidId name key) := by
  unfold rekey
  rw [invalidId?_eq_some_iff.2 h]

end Table

namespace Store

/-- All tables before the named one can be keyed, and `key` is its first without an id. -/
def FirstWithoutId (s : Store) (table key : String) : Prop :=
  ∃ before t after, s.entries = before ++ (table, t) :: after ∧
    (∀ e ∈ before, Table.Keyable e.2) ∧ Table.FirstWithoutId t key

/-- Two records of the table have the same id, and the later one stands under `key`. -/
def Shared (s : Store) (table key id : String) : Prop :=
  ∃ t, s.table? table = some t ∧ Table.Shared t key id

/-- The tables are keyed up to the first one that cannot be. -/
theorem rekeyTables_eq_error {ts : List (String × Table)} {s s' : Store} {e : DirectiveError}
    (h : rekeyTables ts s = (s', .error e)) :
    ∃ before name t after, ts = before ++ (name, t) :: after ∧ (∀ x ∈ before, Table.Keyable x.2) ∧
      Table.rekey name t = .error e := by
  induction ts generalizing s s' with
  | nil => cases h
  | cons x ts ih =>
    obtain ⟨name, t⟩ := x
    rw [rekeyTables] at h
    cases hr : Table.rekey name t with
    | error e' =>
      rw [hr] at h
      cases h
      exact ⟨[], name, t, ts, rfl, fun x hx => absurd hx List.not_mem_nil, hr⟩
    | ok u =>
      obtain ⟨t', here⟩ := u
      rw [hr] at h
      dsimp only at h
      cases hrest : rekeyTables ts (s.insert name t') with
      | mk s₁ r =>
        rw [hrest] at h
        cases r with
        | ok rest => cases h
        | error e' =>
          cases h
          obtain ⟨before, n, u, after, rfl, hk, he⟩ := ih hrest
          exact ⟨(name, t) :: before, n, u, after, rfl,
            List.forall_mem_cons.2 ⟨(Table.rekey_eq_ok_iff.1 hr).1, hk⟩, he⟩

/-- Tables before one that cannot be keyed have been keyed. -/
theorem rekeyTables_of_error {before after : List (String × Table)} {name : String} {t : Table}
    {e : DirectiveError} (hk : ∀ x ∈ before, Table.Keyable x.2) (he : Table.rekey name t = .error e)
    (s : Store) : rekeyTables (before ++ (name, t) :: after) s =
      (s.insertAll (before.map fun x => (x.1, Table.keyedById x.2)), .error e) := by
  induction before generalizing s with
  | nil =>
    rw [List.nil_append, rekeyTables, he]
    rfl
  | cons x before ih =>
    rw [List.forall_mem_cons] at hk
    rw [List.cons_append, rekeyTables, Table.rekey_eq_ok_iff.2 ⟨hk.1, rfl, rfl⟩]
    dsimp only
    rw [ih hk.2]
    rfl

theorem propagateRenames_eq_error_iff {s : Store} {e : DirectiveError} :
    s.propagateRenames.2 = .error e ↔ (rekeyTables s.entries s).2 = .error e := by
  unfold propagateRenames
  split
  · rename_i h
    rw [h]
  · rename_i h
    rw [h]

/-- Renames cannot be carried through because of a record without an id or because of a shared id. -/
theorem propagateRenames_eq_error {s : Store} {e : DirectiveError} (h : s.propagateRenames.2 = .error e) :
    (∃ table key, s.FirstWithoutId table key ∧ e = .invalidId table key) ∨
      ∃ table key id, s.Shared table key id ∧ e = .idCollision table key id := by
  obtain ⟨before, name, t, after, hs, hk, he⟩ :=
    rekeyTables_eq_error (Prod.ext rfl (propagateRenames_eq_error_iff.1 h))
  rcases Table.rekey_eq_error he with ⟨key, hfirst, rfl⟩ | ⟨key, id, hshared, rfl⟩
  · exact .inl ⟨name, key, ⟨before, t, after, hs, hk, hfirst⟩, rfl⟩
  · refine .inr ⟨name, key, id, ⟨t, ?_, hshared⟩, rfl⟩
    exact OrderedMap.get?_of_mem (e := (name, t)) (hs ▸ List.mem_append_right _ List.mem_cons_self)

theorem propagateRenames_invalidId_iff {s : Store} {table key : String} :
    s.propagateRenames.2 = .error (.invalidId table key) ↔ s.FirstWithoutId table key := by
  constructor
  · intro h
    rcases propagateRenames_eq_error h with ⟨table', key', hfirst, he⟩ | ⟨table', key', id, -, he⟩
    · cases he
      exact hfirst
    · cases he
  · rintro ⟨before, t, after, hs, hk, hfirst⟩
    rw [propagateRenames_eq_error_iff, hs, rekeyTables_of_error hk (Table.rekey_of_firstWithoutId hfirst)]

end Store

/-! ## Emptied ids -/

section Emptied

variable {m : Matchers} {p : ConversionProgram} {s s' : Store}

/--
On the way from one store to another a directive was carried out on the record, and one of its edits is a
pattern edit that emptied the id.
-/
def IdEmptied (m : Matchers) (p : ConversionProgram) (s s' : Store) (table key : String) : Prop :=
  ∃ s₁, ∃ g ∈ p.groups, ∃ d ∈ g.directives, ∃ r r', Commits m p s s₁ ∧ g.table = table ∧
    s₁.record? table key = some r ∧ Edit.EmptyIdOf m p.cache d.edits r ∧
    (Edit.applyAll m p.cache d.edits r).2 = .done r' ∧
    Commits m p (s₁.updateRecord table key fun _ => r') s'

theorem IdEmptied.tail {s₂ : Store} {table key : String} (h : IdEmptied m p s s' table key)
    (hc : Commit m p s' s₂) : IdEmptied m p s s₂ table key := by
  obtain ⟨s₁, g, hg, d, hd, r, r', hs₁, ht, hr, hempty, hdone, hs'⟩ := h
  exact ⟨s₁, g, hg, d, hd, r, r', hs₁, ht, hr, hempty, hdone, hs'.tail hc⟩

/--
As long as edits spare the id, every record has a scalar one, and it is empty only where a pattern edit
emptied it.
-/
theorem Commits.scalarId (hs : s.KeyedById)
    (hp : ∀ g ∈ p.groups, ∀ d ∈ g.directives, ∀ e ∈ d.edits, e.SparesId) (h : Commits m p s s')
    {table key : String} {r : Record} (hr : s'.record? table key = some r) :
    ∃ id, r.get? idField = some (.scalar id) ∧ (id = "" → IdEmptied m p s s' table key) := by
  induction h generalizing r with
  | refl => exact ⟨key, (hs.hasId hr).1, fun he => absurd he (hs.hasId hr).2⟩
  | @tail s₁ s₂ hcs hc ih =>
    cases hc with
    | @edit g d k r₁ r₂ hg hd hr₁ hdone =>
      rw [Store.record?_updateRecord] at hr
      split at hr
      · rename_i hat
        obtain ⟨rfl, rfl⟩ := hat
        rw [hr₁] at hr
        cases hr
        obtain ⟨id₁, hid₁, hempty₁⟩ := ih hr₁
        obtain ⟨id, hid, hempty⟩ := Edit.applyAll_scalarId (hp g hg d hd) hid₁ hdone
        refine ⟨id, hid, fun he => ?_⟩
        -- empty before these edits, or emptied by one of them
        rcases hempty he with hbefore | hhere
        · exact (hempty₁ hbefore).tail (.edit hg hd hr₁ hdone)
        · exact ⟨s₁, g, hg, d, hd, r₁, r₂, hcs, rfl, hr₁, hhere, hdone, .refl⟩
      · obtain ⟨id, hid, hempty⟩ := ih hr
        exact ⟨id, hid, fun he => (hempty he).tail (.edit hg hd hr₁ hdone)⟩

end Emptied

/-- Why a conversion fails that requires nothing: in the store `s'` that its commits reach from `s`. -/
inductive ConversionFailure (m : Matchers) (p : ConversionProgram) (s s' : Store) : DirectiveError → Prop
  | invalidId {table key : String} {r : Record} :
      s'.FirstWithoutId table key → s'.record? table key = some r →
      OrderedMap.get? r idField = some (.scalar "") → IdEmptied m p s s' table key →
      ConversionFailure m p s s' (.invalidId table key)
  | idCollision {table key id : String} :
      s'.Shared table key id → ConversionFailure m p s s' (.idCollision table key id)
  | aborted {g : DirectiveGroup} {d : CompiledDirective} {key : String} {r : Record} :
      g ∈ p.groups → d ∈ g.directives → s'.record? g.table key = some r →
      Edit.RenamesLast m p.cache d.edits r → ConversionFailure m p s s' .aborted

namespace Store

variable {m : Matchers} {s : Store} {p : ConversionProgram} {diagnostics : Diagnostics}

theorem FirstWithoutId.record? {table key : String} (h : s.FirstWithoutId table key) :
    ∃ r, s.record? table key = some r ∧ ∀ id, ¬ Record.HasId r id := by
  obtain ⟨before, t, after, hs, -, earlier, r, later, ht, -, hr⟩ := h
  refine ⟨r, record?_eq_some_iff.2 ⟨t, ?_, ?_⟩, hr⟩
  · exact OrderedMap.get?_of_mem (e := (table, t)) (hs ▸ List.mem_append_right _ List.mem_cons_self)
  · exact OrderedMap.get?_of_mem (e := (key, r)) (ht ▸ List.mem_append_right _ List.mem_cons_self)

/-- A record without an id at the end of the groups is one whose id was emptied. -/
theorem failure_of_firstWithoutId (hs : s.KeyedById)
    (hp : ∀ g ∈ p.groups, ∀ x ∈ g.directives, ConversionProgram.Harmless x) {s' : Store}
    (hc : Commits m p s s') {table key : String} (h : s'.FirstWithoutId table key) :
    ConversionFailure m p s s' (.invalidId table key) := by
  obtain ⟨r, hr, hno⟩ := h.record?
  obtain ⟨id, hid, hempty⟩ := hc.scalarId hs (fun g hg d hd => (hp g hg d hd).spares) hr
  have he : id = "" := by
    by_contra hne
    exact hno id ⟨hid, hne⟩
  exact .invalidId h hr (he ▸ hid) (hempty he)

/-- Once the groups have ended, a conversion fails as the carrying through of renames does. -/
theorem convert_error_iff {unused : List (List UnusedDirective)} {σ : RunState} {e : DirectiveError}
    (h : Run.groups m p { store := s, diagnostics } = .ok unused σ) :
    (s.convert m p diagnostics).result = .error e ↔ σ.store.propagateRenames.2 = .error e := by
  rw [(convert_of_ok h).1]
  cases σ.store.propagateRenames.2 with
  | ok renames => exact ⟨nofun, nofun⟩
  | error e' => exact Iff.of_eq (by simp [Except.map])

/-- The failures of a compiled conversion whose directives are optional and spare the id. -/
theorem convert_failure (hs : s.KeyedById)
    (hp : ∀ g ∈ p.groups, ∀ x ∈ g.directives, ConversionProgram.Harmless x) {e : DirectiveError}
    (h : (s.convert m p diagnostics).result = .error e) :
    ∃ s', Commits m p s s' ∧ ConversionFailure m p s s' e := by
  cases hrun : Run.groups m p { store := s, diagnostics } with
  | error e' σ =>
    rw [convert_of_error hrun] at h
    cases h
    obtain ⟨hc, hfail⟩ := Run.committing_groups.error hrun
    refine ⟨σ.store, hc, ?_⟩
    generalize σ.store = s' at hfail
    cases hfail with
    | missing hg hreq =>
      -- a group is required only if one of its directives is
      obtain ⟨d, hd, hreq⟩ := List.any_eq_true.1 hreq
      rw [(hp _ hg d hd).optional] at hreq
      cases hreq
    | failed hg hd hreq =>
      rw [(hp _ hg _ hd).optional] at hreq
      cases hreq
    | aborted hg hd hr ha => exact .aborted hg hd hr (Edit.applyAll_aborted ha)
  | ok unused σ =>
    have hc : Commits m p s σ.store := (Run.committing_groups.ok hrun).1
    rw [convert_error_iff hrun] at h
    refine ⟨σ.store, hc, ?_⟩
    rcases propagateRenames_eq_error h with ⟨table, key, hfirst, rfl⟩ | ⟨table, key, id, hsh, rfl⟩
    · exact failure_of_firstWithoutId hs hp hc hfirst
    · exact .idCollision hsh

/-- A compiled conversion ends with an invalid id exactly if its groups leave a record without one. -/
theorem convert_invalidId_iff {table key : String} :
    (s.convert m p diagnostics).result = .error (.invalidId table key) ↔
      ∃ unused σ, Run.groups m p { store := s, diagnostics } = .ok unused σ ∧
        σ.store.FirstWithoutId table key := by
  cases hrun : Run.groups m p { store := s, diagnostics } with
  | error e σ =>
    rw [convert_of_error hrun]
    refine ⟨fun h => ?_, fun ⟨_, _, h, _⟩ => nomatch h⟩
    -- the groups themselves never fail in this way
    cases h
    cases (Run.committing_groups.error hrun).2
  | ok unused σ =>
    rw [convert_error_iff hrun, propagateRenames_invalidId_iff]
    constructor
    · exact fun h => ⟨unused, σ, rfl, h⟩
    · rintro ⟨_, _, he, h⟩
      cases he
      exact h

/--
A conversion that requires nothing fails with an invalid id exactly if its groups end in a store where the
id of a record has been emptied by a pattern edit, the first record there without an id; without edits that
empty ids it never does. Its other failures are a shared id and a rename of the last field of a record to
another one that is there.
-/
theorem applyConversion_invalidId_iff [PatternSyntax] (m : Matchers) (s : Store) (d : ConversionDirectives)
    (diagnostics : Diagnostics) (hs : s.KeyedById) (hd : d.NoneRequired) :
    ∃ p diagnostics', ConversionProgram.compile d diagnostics = (.ok p, diagnostics') ∧
      (∀ table key, (s.applyConversion m d diagnostics).result = .error (.invalidId table key) ↔
        ∃ unused σ, Run.groups m p { store := s, diagnostics := diagnostics' } = .ok unused σ ∧
          ConversionFailure m p s σ.store (.invalidId table key)) ∧
      ((∀ g ∈ p.groups, ∀ x ∈ g.directives, ∀ e ∈ x.edits, ∀ id, id ≠ "" → ¬ e.EmptiesId m p.cache id) →
        ∀ table key, (s.applyConversion m d diagnostics).result ≠ .error (.invalidId table key)) ∧
      ∀ e, (s.applyConversion m d diagnostics).result = .error e →
        ∃ s', Commits m p s s' ∧ ConversionFailure m p s s' e := by
  obtain ⟨p, diagnostics', hcompile, hp⟩ := ConversionProgram.compile_harmless hd diagnostics
  have hrun : s.applyConversion m d diagnostics = s.convert m p diagnostics' := by
    unfold applyConversion
    rw [hcompile]
  have hfails : ∀ e, (s.convert m p diagnostics').result = .error e →
      ∃ s', Commits m p s s' ∧ ConversionFailure m p s s' e := fun e => convert_failure hs hp
  rw [hrun]
  refine ⟨p, diagnostics', hcompile, fun table key => ?_, fun hno table key h => ?_, hfails⟩
  · rw [convert_invalidId_iff]
    constructor
    · rintro ⟨unused, σ, hg, hfirst⟩
      exact ⟨unused, σ, hg, failure_of_firstWithoutId hs hp (Run.committing_groups.ok hg).1 hfirst⟩
    · rintro ⟨unused, σ, hg, hfirst, -, -, -⟩
      exact ⟨unused, σ, hg, hfirst⟩
  · obtain ⟨s', -, hfail⟩ := hfails _ h
    cases hfail with
    | invalidId _ _ _ hempty =>
      obtain ⟨_, g, hg, x, hx, _, _, -, -, -, hedit, -⟩ := hempty
      obtain ⟨before, e, after, _, id, hedits, -, hid, he⟩ := hedit
      exact hno g hg x hx e (hedits ▸ List.mem_append_right _ List.mem_cons_self) id hid.2 he

/-- One sample. -/
def lone : Store :=
  .ofList [("sample", .ofList [("S1", .ofList [("id", .scalar "S1")])])]

/-- Replaces the text `S1` by nothing in the id of the sample `S1`. -/
def blanking : ConversionDirectives :=
  .ofList [("sample", .ofList [("id", .ofList [(⟨.exact, true⟩,
    .ofList [("S1", { regex := .ofList [("id", ["S1", ""])] })])])])]

theorem applyConversion_invalidId_blanking :
    lone.KeyedById ∧ blanking.NoneRequired ∧
      (lone.applyConversion .standard blanking {}).result = .error (.invalidId "sample" "S1") ∧
      ∃ p s', Commits .standard p lone s' ∧
        ConversionFailure .standard p lone s' (.invalidId "sample" "S1") := by
  have hs : lone.KeyedById := by decide
  have hd : blanking.NoneRequired := by decide
  have h : (lone.applyConversion .standard blanking {}).result = .error (.invalidId "sample" "S1") := by
    decide +kernel
  obtain ⟨p, _, -, -, -, hfails⟩ := applyConversion_invalidId_iff .standard lone blanking {} hs hd
  exact ⟨hs, hd, h, p, hfails _ h⟩

end Store
end TagHarvest
