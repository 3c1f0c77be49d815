/-
The order of the tables of a document. The directives of a table compile alike wherever the table stands, since
all they find of the other tables is the cache, and a sound cache tells nothing that is not told by the
patterns themselves. So the programs of two documents that differ in the order of their tables have the same
groups in an order that keeps those of each table together, and the same effect.
-/
import TagHarvest.Proofs.Conversion.Regrouping
import TagHarvest.Proofs.Conversion.Verdict

namespace TagHarvest

section

variable [PatternSyntax]

/-! ## Compilation with two caches -/

/-- Caches which both have every text with the pattern it is read as. -/
def BothSound (cache cache' : PatternCache) : Prop := cache.Sound ∧ cache'.Sound

theorem inStep_require (text : String) :
    InStep BothSound (PatternCache.require text) (PatternCache.require text) := by
  rintro cache cache' ⟨hs, hs'⟩
  have h := decides_require text cache hs
  have h' := decides_require text cache' hs'
  generalize PatternCache.require text cache = outcome, PatternCache.require text cache' = outcome' at h h' ⊢
  -- a text that fails with one of the caches is a bad pattern, which fails with the other too
  match outcome, outcome', h, h' with
  | .ok () _, .ok () _, h, h' => exact .ok ⟨h.1.sound, h'.1.sound⟩
  | .error _ _, .error _ _, h, h' => exact .error ⟨h.1.sound, h'.1.sound⟩
  | .ok () _, .error e _, h, h' => exact absurd h'.2 (h.2.1 e)
  | .error e _, .ok () _, h, h' => exact absurd h.2 (h'.2.1 e)

namespace Edits

theorem inStep_compileAssign (field : String) (v : FieldValue) :
    InStep BothSound (compileAssign field v) (compileAssign field v) := by
  unfold compileAssign
  repeat' split
  · exact .pure _
  · exact .pure _
  · exact .throw _ _
  · exact .throw _ _

theorem inStep_compileRegex (field : String) (pair : List String) :
    InStep BothSound (compileRegex field pair) (compileRegex field pair) := by
  unfold compileRegex
  split
  · exact (inStep_require _).seq (.pure _)
  · exact .throw _ _

theorem inStep_compileDelete (place : DirectivePlace) (field : String) :
    InStep BothSound (compileDelete place field) (compileDelete place field) := by
  unfold compileDelete
  split
  · exact .throw _ _
  · exact .pure _

theorem inStep_compileRename (place : DirectivePlace) (source target : String) :
    InStep BothSound (compileRename place source target) (compileRename place source target) := by
  unfold compileRename
  split
  · exact .throw _ _
  · exact .pure _

theorem inStep_compile (place : DirectivePlace) (e : Edits) :
    InStep BothSound (e.compile place) (e.compile place) := by
  unfold compile
  refine (InStep.mapM _ fun a _ => inStep_compileAssign a.1 a.2).bind fun assigns => ?_
  refine (InStep.mapM _ fun a _ => inStep_compileRegex a.1 a.2).bind fun regexes => ?_
  refine (InStep.mapM _ fun field _ => inStep_compileDelete place field).bind fun deletes => ?_
  exact (InStep.mapM _ fun a _ => inStep_compileRename place a.1 a.2).bind fun renames => .pure _

end Edits

namespace ConversionProgram

theorem inStep_compileDirective (place : DirectivePlace) (c : Comparison) (e : Edits) :
    InStep BothSound (compileDirective place c e) (compileDirective place c e) := by
  have hedits : InStep BothSound (do return ⟨c, place.key, ← e.compile place, e.required⟩)
      (do return ⟨c, place.key, ← e.compile place, e.required⟩ : CompileEdits CompiledDirective) :=
    (Edits.inStep_compile place e).bind fun edits => .pure _
  unfold compileDirective
  split
  · exact (inStep_require place.key).seq hedits
  · exact hedits

/-- States of compilations with sound caches. -/
def StatesSound (s s' : State) : Prop := BothSound s.cache s'.cache

theorem inStep_directive? (place : DirectivePlace) (c : Comparison) (e : Edits) :
    InStep StatesSound (directive? place c e) (directive? place c e) := by
  intro s s' hs
  have h := inStep_compileDirective place c e s.cache s'.cache hs
  unfold directive?
  rw [get_bind_apply, get_bind_apply]
  generalize compileDirective place c e s.cache = outcome,
    compileDirective place c e s'.cache = outcome' at h ⊢
  cases h with
  | ok hR => exact .ok hR
  | error hR =>
    dsimp only
    cases e.required with
    | true => exact .error hR
    | false => exact .ok hR

theorem inStep_keyed (table field : String) (c : Comparison) (es : List (String × Edits)) :
    InStep StatesSound (keyed table field c es) (keyed table field c es) := by
  unfold keyed
  exact (InStep.mapM es fun e _ => inStep_directive? ⟨table, field, e.1⟩ c e.2).bind fun ds => .pure _

theorem inStep_group (table field : String) (fd : FieldDirectives) :
    InStep StatesSound (group table field fd) (group table field fd) := by
  unfold group
  refine (InStep.mapM _ fun c _ => ?_).bind fun passes => .pure _
  split
  · exact inStep_keyed table field c _
  · exact .pure _

theorem inStep_tableGroups (table : String) (td : TableDirectives) :
    InStep StatesSound (tableGroups table td) (tableGroups table td) := by
  unfold tableGroups
  exact (InStep.mapM td.entries fun f _ => inStep_group table f.1 f.2).bind fun groups => .pure _

/-! ## Groups by table -/

/-- The groups of a table in the order of its fields; none if a required directive does not compile. -/
def groups? (e : String × TableDirectives) : Option (List DirectiveGroup) :=
  match tableGroups e.1 e.2 {} with
  | .ok gs _ => some gs
  | .error _ _ => none

/-- What a table compiles to does not depend on what has been compiled before. -/
theorem tableGroups_eq (e : String × TableDirectives) {s : State} (hs : s.cache.Sound) :
    match tableGroups e.1 e.2 s with
    | .ok gs s' => groups? e = some gs ∧ s'.cache.Sound
    | .error _ _ => groups? e = none := by
  have h := inStep_tableGroups e.1 e.2 s {} ⟨hs, PatternCache.sound_empty⟩
  unfold groups?
  generalize tableGroups e.1 e.2 s = outcome, tableGroups e.1 e.2 {} = outcome' at h ⊢
  cases h with
  | ok hR => exact ⟨rfl, hR.1⟩
  | error => rfl

theorem mapM_tableGroups (es : List (String × TableDirectives)) {s : State} (hs : s.cache.Sound) :
    match es.mapM (fun e => tableGroups e.1 e.2) s with
    | .ok gss _ => (∀ e ∈ es, groups? e ≠ none) ∧ gss.flatten = es.flatMap fun e => (groups? e).getD []
    | .error _ _ => ∃ e ∈ es, groups? e = none := by
  induction es generalizing s with
  | nil => exact ⟨nofun, rfl⟩
  | cons e es ih =>
    have h := tableGroups_eq e hs
    rw [List.mapM_cons]
    cases hfirst : tableGroups e.1 e.2 s with
    | error err s₁ =>
      rw [hfirst] at h
      rw [bind_apply_of_error hfirst]
      exact ⟨e, List.mem_cons_self, h⟩
    | ok gs s₁ =>
      rw [hfirst] at h
      obtain ⟨hgs, hs₁⟩ := h
      have hrest := ih hs₁
      rw [bind_apply_of_ok hfirst]
      cases hothers : es.mapM (fun e => tableGroups e.1 e.2) s₁ with
      | error err s₂ =>
        rw [hothers] at hrest
        rw [bind_apply_of_error hothers]
        obtain ⟨e', he', hnone⟩ := hrest
        exact ⟨e', List.mem_cons_of_mem e he', hnone⟩
      | ok gss s₂ =>
        rw [hothers] at hrest
        rw [bind_apply_of_ok hothers]
        obtain ⟨hall, hgss⟩ := hrest
        refine ⟨List.forall_mem_cons.2 ⟨by rw [hgs]; exact Option.some_ne_none _, hall⟩, ?_⟩
        rw [List.flatten_cons, List.flatMap_cons, hgss, hgs]
        rfl

/-- A document compiles if each of its tables does, to the groups of all of them. -/
theorem compile_groups (d : ConversionDirectives) (diagnostics : Diagnostics) :
    match (compile d diagnostics).1 with
    | .ok p => (∀ e ∈ d.entries, groups? e ≠ none) ∧ p.groups = d.entries.flatMap fun e => (groups? e).getD []
    | .error _ => ∃ e ∈ d.entries, groups? e = none := by
  have h := mapM_tableGroups d.entries (s := { diagnostics }) PatternCache.sound_empty
  unfold compile groupsOf
  cases hrun : d.entries.mapM (fun e => tableGroups e.1 e.2) { diagnostics } with
  | error err s =>
    rw [hrun] at h
    rw [bind_apply_of_error hrun]
    exact h
  | ok gss s =>
    rw [hrun] at h
    rw [bind_apply_of_ok hrun]
    exact h

theorem table_of_groups? {e : String × TableDirectives} {g : DirectiveGroup}
    (hg : g ∈ (groups? e).getD []) : g.table = e.1 := by
  unfold groups? at hg
  cases h : tableGroups e.1 e.2 {} with
  | error err s =>
    rw [h] at hg
    cases hg
  | ok gs s =>
    rw [h] at hg
    obtain ⟨f, -, htarget⟩ := List.mem_map.1 ((targets_of_tableGroups h).1.subset (List.mem_map_of_mem hg))
    exact (congrArg Prod.fst htarget).symm

/-- Documents with the same tables in some order have the same groups, those of each table in one order. -/
theorem regrouped_of_get?_eq {d d' : ConversionDirectives} (h : ∀ table, d'.get? table = d.get? table) :
    Regrouped (d.entries.flatMap fun e => (groups? e).getD [])
      (d'.entries.flatMap fun e => (groups? e).getD []) := by
  refine ⟨(OrderedMap.perm_entries h).flatMap_right _, fun name => ?_⟩
  have hother : ∀ e : String × TableDirectives, e.1 ≠ name →
      ((groups? e).getD []).filter (fun g => g.table = name) = [] := by
    intro e he
    refine List.filter_eq_nil_iff.2 fun g hg => ?_
    rw [table_of_groups? hg]
    simpa using he
  rw [List.filter_flatMap, List.filter_flatMap, OrderedMap.flatMap_entries_of_key fun e _ => hother e,
    OrderedMap.flatMap_entries_of_key fun e _ => hother e, h name]

end ConversionProgram

/-! ## Caches that agree -/

/-- A cached text has one pattern, whichever cache it is in. -/
theorem PatternCache.Holds.get?_eq {cache cache' : PatternCache} {text : String} (h : cache.Holds text)
    (h' : cache'.Holds text) : cache'.get? text = cache.get? text := by
  obtain ⟨p, hc, hp⟩ := h
  obtain ⟨p', hc', hp'⟩ := h'
  rw [hc] at hc'
  cases hc'
  rw [hp, hp']

theorem Edit.apply_eq_of_holds {cache cache' : PatternCache} {edit : Edit}
    (h : ∀ t ∈ edit.pattern?, cache.Holds t) (h' : ∀ t ∈ edit.pattern?, cache'.Holds t) (m : Matchers)
    (r : Record) : edit.apply m cache' r = edit.apply m cache r := by
  cases edit with
  | regex field pattern replacement =>
    show applyRegex m cache' r field pattern replacement = applyRegex m cache r field pattern replacement
    unfold applyRegex
    rw [(h pattern rfl).get?_eq (h' pattern rfl)]
  | assign field value => rfl
  | append field value => rfl
  | prepend field value => rfl
  | delete field => rfl
  | rename source target => rfl

theorem Edit.applyAll_eq_of_holds {cache cache' : PatternCache} {edits : List Edit}
    (h : ∀ edit ∈ edits, ∀ t ∈ edit.pattern?, cache.Holds t)
    (h' : ∀ edit ∈ edits, ∀ t ∈ edit.pattern?, cache'.Holds t) (m : Matchers) (r : Record) :
    applyAll m cache' edits r = applyAll m cache edits r := by
  induction edits generalizing r with
  | nil => rfl
  | cons edit edits ih =>
    obtain ⟨hone, hrest⟩ := List.forall_mem_cons.1 h
    obtain ⟨hone', hrest'⟩ := List.forall_mem_cons.1 h'
    unfold applyAll
    rw [apply_eq_of_holds hone hone']
    cases edit.apply m cache r with
    | done r' => exact ih hrest hrest' r'
    | skipped reason =>
      dsimp only
      rw [ih hrest hrest' r]
    | failed f => rfl
    | aborted => rfl

theorem CompiledDirective.Ready.agrees {cache cache' : PatternCache} {d : CompiledDirective}
    (h : d.Ready cache) (h' : d.Ready cache') : d.Agrees cache cache' where
  matchesOf m cs := by
    unfold Run.matchesOf
    split
    · rename_i hkind
      rw [(h.key hkind).get?_eq (h'.key hkind)]
    · rfl
  applyAll := Edit.applyAll_eq_of_holds h.edits h'.edits

/-! ## Tables in another order -/

namespace ConversionProgram

/-- Documents with the same tables in some order both compile or both do not. -/
theorem compile_of_get?_eq {d d' : ConversionDirectives} (h : ∀ table, d'.get? table = d.get? table)
    (diagnostics : Diagnostics) :
    match (compile d diagnostics).1, (compile d' diagnostics).1 with
    | .ok p, .ok p' => Regrouped p.groups p'.groups
    | .error _, .error _ => True
    | _, _ => False := by
  have hgroups := compile_groups d diagnostics
  have hgroups' := compile_groups d' diagnostics
  have hentries : ∀ e, e ∈ d'.entries ↔ e ∈ d.entries := fun e => (OrderedMap.perm_entries h).mem_iff
  generalize (compile d diagnostics).1 = outcome, (compile d' diagnostics).1 = outcome' at hgroups hgroups' ⊢
  match outcome, outcome', hgroups, hgroups' with
  | .ok p, .ok p', ⟨_, hp⟩, ⟨_, hp'⟩ =>
    dsimp only
    rw [hp, hp']
    exact regrouped_of_get?_eq h
  | .error _, .error _, _, _ => trivial
  | .ok p, .error _, ⟨hall, _⟩, ⟨e, he, hnone⟩ => exact hall e ((hentries e).1 he) hnone
  | .error _, .ok p', ⟨e, he, hnone⟩, ⟨hall, _⟩ => exact hall e ((hentries e).2 he) hnone

end ConversionProgram

end

namespace Store

/--
A conversion has the same effect with its groups in any order that keeps the order of those of each table: it
fails in both or succeeds in both, with the same store, the same renames and as many applications. So the
order in which a document lists its tables makes no difference.
-/
theorem convert_regrouped [PatternSyntax] (m : Matchers) (s : Store) (diagnostics : Diagnostics) :
    (∀ p gs, Regrouped p.groups gs →
        (s.convert m p diagnostics).Alike (s.convert m ⟨gs, p.cache⟩ diagnostics)) ∧
      ∀ d d' : ConversionDirectives, (∀ table, d'.get? table = d.get? table) →
        (s.applyConversion m d diagnostics).Alike (s.applyConversion m d' diagnostics) := by
  constructor
  · intro p gs h
    exact convert_alike h (fun g _ => .refl p.cache g) fun g _ => .refl p.cache g
  · intro d d' h
    have hcompile := ConversionProgram.compile_of_get?_eq h diagnostics
    unfold applyConversion
    cases hc : ConversionProgram.compile d diagnostics with
    | mk outcome after =>
      cases hc' : ConversionProgram.compile d' diagnostics with
      | mk outcome' after' =>
        rw [hc, hc'] at hcompile
        cases outcome with
        | error e =>
          cases outcome' with
          | error e' => exact .error rfl rfl
          | ok p' => exact hcompile.elim
        | ok p =>
          cases outcome' with
          | error e' => exact hcompile.elim
          | ok p' =>
            obtain ⟨_, hcovers, -⟩ := ConversionProgram.covers_of_compile hc
            obtain ⟨_, hcovers', -⟩ := ConversionProgram.covers_of_compile hc'
            have hready := fun g hg => hcovers.ready g (hcompile.perm.subset hg)
            have hready' := fun g hg => hcovers'.ready g (hcompile.perm.symm.subset hg)
            exact convert_alike hcompile
              (fun g hg x hx => (hcovers.ready g hg x hx).agrees (hready' g hg x hx))
              (fun g hg x hx => (hcovers'.ready g hg x hx).agrees (hready g hg x hx))

/-- A sample that refers to a protocol. -/
def labelled : Store :=
  .ofList [
    ("protocol", .ofList [("P1", .ofList [("id", .scalar "P1")])]),
    ("sample", .ofList [("S1", .ofList [("id", .scalar "S1"), ("protocol.id", .scalar "P1")])])]

/-- The protocol gets another id. -/
def relabelling : TableDirectives :=
  .ofList [("id", .ofList [(⟨.exact, true⟩, .ofList [("P1", { append := .ofList [("id", .scalar "a")] })])])]

/-- The reference to the protocol is matched by the old id. -/
def noting : TableDirectives :=
  .ofList [("protocol.id", .ofList [
    (⟨.regex, false⟩, .ofList [("^P1$", { assign := .ofList [("seen", .scalar "yes")], required := true })])])]

/-- The protocols' group of the two. -/
def relabellingGroup : DirectiveGroup :=
  ⟨"protocol", "id", [⟨⟨.exact, true⟩, "P1", [.append "id" (.scalar "a")], false⟩]⟩

/-- The samples' group of the two. -/
def notingGroup : DirectiveGroup :=
  ⟨"sample", "protocol.id", [⟨⟨.exact, false⟩, "P1", [.assign "seen" (.list ["yes"])], true⟩]⟩

theorem convert_regrouped_labelled :
    Regrouped [relabellingGroup, notingGroup] [notingGroup, relabellingGroup] ∧
      (labelled.convert .standard ⟨[relabellingGroup, notingGroup], .empty⟩ {}).Alike
        (labelled.convert .standard ⟨[notingGroup, relabellingGroup], .empty⟩ {}) ∧
      (labelled.applyConversion .standard (.ofList [("protocol", relabelling), ("sample", noting)]) {}).Alike
        (labelled.applyConversion .standard (.ofList [("sample", noting), ("protocol", relabelling)]) {}) ∧
      (labelled.applyConversion .standard (.ofList [("sample", noting), ("protocol", relabelling)])
        {}).result.toOption.map (·.renames) = some [⟨"protocol", "P1", "P1a"⟩] := by
  have hregrouped : Regrouped [relabellingGroup, notingGroup] [notingGroup, relabellingGroup] := by
    refine ⟨.swap _ _ _, fun name => ?_⟩
    by_cases h : "protocol" = name
    · subst h
      rfl
    · have hfirst : relabellingGroup.table ≠ name := h
      simp [hfirst, List.filter_cons]
  refine ⟨hregrouped, ?_, ?_, by decide +kernel⟩
  · exact (convert_regrouped .standard labelled {}).1 ⟨[relabellingGroup, notingGroup], .empty⟩ _ hregrouped
  · refine (convert_regrouped .standard labelled {}).2 _ _ fun table => ?_
    simp only [OrderedMap.ofList, OrderedMap.insertAll, List.foldl_cons, List.foldl_nil, OrderedMap.get?_insert]
    by_cases h : "protocol" = table
    · subst h
      rfl
    · rw [if_neg h, if_neg h]

end Store
end TagHarvest
