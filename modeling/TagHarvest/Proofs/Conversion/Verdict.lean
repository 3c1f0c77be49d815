/-
What compilation makes of a whole document. Each directive gets one verdict: it is compiled into the group of
its field, or it is left out with a warning that names one of its faults. Compilation goes through the
document with the comparisons of each field arranged in the order of the passes, so the groups are in this
order whatever the order of the document. It fails only on a directive that is required and has a fault. What
is compiled finds all of its patterns in the cache.
-/
import TagHarvest.Proofs.Conversion.Fault

namespace TagHarvest

/-! ## The directives of a document -/

/-- The directives of a field, in the order of the document. -/
def FieldDirectives.placed (table field : String) (d : FieldDirectives) : List PlacedEdits :=
  d.entries.flatMap fun (c, es) => es.entries.map fun (key, e) => ⟨⟨table, field, key⟩, c, e⟩

/-- The directives of a table, in the order of the document. -/
def TableDirectives.placed (table : String) (d : TableDirectives) : List PlacedEdits :=
  d.entries.flatMap fun (field, fd) => FieldDirectives.placed table field fd

namespace ConversionDirectives

/-- The directives of a document, in its order. -/
def placed (d : ConversionDirectives) : List PlacedEdits :=
  d.entries.flatMap fun (table, td) => TableDirectives.placed table td

/-- The document with the comparisons of each field in the order of the passes. -/
def arranged (d : ConversionDirectives) : ConversionDirectives :=
  d.mapValues fun _ td => td.mapValues fun _ fd => fd.arrange Comparison.passes

end ConversionDirectives

theorem flatMap_filterMap {α β γ : Type} (f : α → Option β) (g : β → List γ) (l : List α) :
    (l.filterMap f).flatMap g = l.flatMap fun a => ((f a).map g).getD [] := by
  induction l with
  | nil => rfl
  | cons a l ih => cases h : f a <;> simp [h, ih]

theorem Comparison.nodup_passes : passes.Nodup := by decide

theorem Comparison.mem_passes (c : Comparison) : c ∈ passes := by
  obtain ⟨kind, unique⟩ := c
  cases kind <;> cases unique <;> decide

namespace ConversionDirectives

variable (d : ConversionDirectives)

/-- A document has one directive at each label. -/
theorem nodup_labels : (d.placed.map PlacedEdits.label).Nodup := by
  unfold placed
  refine OrderedMap.nodup_flatMap_entries (fun l => l.1.table) ?_ fun t _ => ?_
  · simp only [TableDirectives.placed, FieldDirectives.placed, List.mem_flatMap, List.mem_map]
    rintro t - x ⟨f, -, c, -, k, -, rfl⟩
    rfl
  unfold TableDirectives.placed
  refine OrderedMap.nodup_flatMap_entries (fun l => l.1.field) ?_ fun f _ => ?_
  · simp only [FieldDirectives.placed, List.mem_flatMap, List.mem_map]
    rintro f - x ⟨c, -, k, -, rfl⟩
    rfl
  unfold FieldDirectives.placed
  refine OrderedMap.nodup_flatMap_entries (fun l => l.2) ?_ fun c _ => ?_
  · simp only [List.mem_map]
    rintro c - x ⟨k, -, rfl⟩
    rfl
  rw [List.map_map]
  refine List.Nodup.of_map (fun l : DirectiveLabel => l.1.key) ?_
  rw [List.map_map]
  exact c.2.nodup

/-- Arranging a document keeps its directives. -/
theorem perm_placed_arranged : d.arranged.placed.Perm d.placed := by
  have hfield : ∀ (table field : String) (fd : FieldDirectives),
      (FieldDirectives.placed table field (fd.arrange Comparison.passes)).Perm
        (FieldDirectives.placed table field fd) := by
    intro table field fd
    refine (OrderedMap.perm_entries fun c => ?_).flatMap_right _
    exact OrderedMap.get?_arrange Comparison.nodup_passes (fun c _ => Comparison.mem_passes c) c
  unfold placed arranged
  simp only [OrderedMap.mapValues, TableDirectives.placed, List.flatMap_map]
  refine List.Perm.flatMap_left _ fun t _ => ?_
  exact List.Perm.flatMap_left _ fun f _ => hfield t.1 f.1 f.2

end ConversionDirectives

/-! ## Verdicts -/

/-- A compiled directive with its place in the document. -/
abbrev PlacedDirective := DirectivePlace × CompiledDirective

/-- A directive of a document and what becomes of it: it is compiled, or left out for a reason. -/
abbrev Verdict := PlacedEdits × Except DirectiveError CompiledDirective

namespace Verdict

/-- The directive as compiled, with its place. -/
def compiled? (v : Verdict) : Option PlacedDirective :=
  v.2.toOption.map (v.1.place, ·)

/-- The directive as left out, with the reason. -/
def skipped? : Verdict → Option (PlacedEdits × DirectiveError)
  | (_, .ok _) => none
  | (x, .error e) => some (x, e)

theorem mem_compiled_iff {vs : List Verdict} {x : PlacedDirective} :
    x ∈ vs.filterMap compiled? ↔ ∃ y : PlacedEdits, (y, .ok x.2) ∈ vs ∧ y.place = x.1 := by
  rw [List.mem_filterMap]
  constructor
  · rintro ⟨⟨y, e | d⟩, hv, hx⟩
    · cases hx
    · cases hx
      exact ⟨y, hv, rfl⟩
  · rintro ⟨y, hv, hplace⟩
    exact ⟨_, hv, congrArg (fun place => some (place, x.2)) hplace⟩

variable [PatternSyntax]

/--
A right verdict: what is compiled has no fault and finds its patterns in the cache, and what is left out is
optional and has the fault that is given.
-/
def Right (cache : PatternCache) : Verdict → Prop
  | (x, .ok d) => (∀ e, ¬ x.Fault e) ∧ (∀ t, x.Needs t → t ∈ cache.keys) ∧ x.Gives d
  | (x, .error e) => x.edits.required = false ∧ x.Fault e

theorem Right.grown {cache after : PatternCache} (hg : cache.Grown after) :
    ∀ {v : Verdict}, v.Right cache → v.Right after
  | (_, .ok _), ⟨hno, hneeds, hgives⟩ => ⟨hno, fun t ht => hg.mem_keys (hneeds t ht), hgives⟩
  | (_, .error _), h => h

end Verdict

/-- The warning about a directive that is left out. -/
def warningOf (x : PlacedEdits × DirectiveError) : Diagnostic := ⟨.warning, x.2.message⟩

/-- Compiled directives of a field, with their places. -/
def inField (table field : String) (ds : List CompiledDirective) : List PlacedDirective :=
  ds.map fun d => (⟨table, field, d.key⟩, d)

/-- The table and the field of a group. -/
def DirectiveGroup.target (g : DirectiveGroup) : String × String := (g.table, g.field)

/-- The directives of a group, with their places. -/
def DirectiveGroup.placed (g : DirectiveGroup) : List PlacedDirective :=
  inField g.table g.field g.directives

section

variable [PatternSyntax]

/--
From a sound cache the program gives each directive of a list its verdict. It ends with a result that goes
with the compiled ones, as `Q` tells, and with a warning for each of the others; or else a required one has
a fault.
-/
def Settles {α : Type} (xs : List PlacedEdits) (Q : α → List PlacedDirective → Prop)
    (x : ConversionProgram.Compiling α) : Prop :=
  ∀ s : ConversionProgram.State, s.cache.Sound → match x s with
    | .ok a s' => s.cache.Grown s'.cache ∧ ∃ vs : List Verdict, vs.map Prod.fst = xs ∧
        (∀ v ∈ vs, v.Right s'.cache) ∧ Q a (vs.filterMap Verdict.compiled?) ∧
        s'.diagnostics = { s.diagnostics with
          entries := s.diagnostics.entries ++ (vs.filterMap Verdict.skipped?).map warningOf }
    | .error _ _ => ∃ x ∈ xs, x.edits.required = true ∧ ∃ e, x.Fault e

namespace Settles

variable {α β : Type} {xs ys : List PlacedEdits}
variable {Q : α → List PlacedDirective → Prop}
variable {Q' : β → List PlacedDirective → Prop}

theorem pure {a : α} (h : Q a []) : Settles [] Q (Pure.pure a : ConversionProgram.Compiling α) := by
  intro s hs
  refine ⟨.refl hs, [], rfl, List.forall_mem_nil _, h, ?_⟩
  simp

theorem bind {x : ConversionProgram.Compiling α} {f : α → ConversionProgram.Compiling β} (hx : Settles xs Q x)
    (hf : ∀ a ds, Q a ds → Settles ys (fun b ds' => Q' b (ds ++ ds')) (f a)) :
    Settles (xs ++ ys) Q' (x >>= f) := by
  intro s hs
  replace hx := hx s hs
  cases h : x s with
  | error e s₁ =>
    rw [h] at hx
    obtain ⟨z, hz, hfault⟩ := hx
    rw [bind_apply_of_error h]
    exact ⟨z, List.mem_append_left ys hz, hfault⟩
  | ok a s₁ =>
    rw [h] at hx
    obtain ⟨hg, vs, hvs, hright, hQ, hdiag⟩ := hx
    replace hf := hf a _ hQ s₁ hg.sound
    rw [bind_apply_of_ok h]
    cases h' : f a s₁ with
    | error e s₂ =>
      rw [h'] at hf
      obtain ⟨z, hz, hfault⟩ := hf
      exact ⟨z, List.mem_append_right xs hz, hfault⟩
    | ok b s₂ =>
      rw [h'] at hf
      obtain ⟨hg', ws, hws, hright', hQ', hdiag'⟩ := hf
      refine ⟨hg.trans hg', vs ++ ws, by rw [List.map_append, hvs, hws], ?_, ?_, ?_⟩
      · intro v hv
        rcases List.mem_append.1 hv with hv | hv
        · exact (hright v hv).grown hg'
        · exact hright' v hv
      · rw [List.filterMap_append]
        exact hQ'
      · rw [hdiag', hdiag, List.filterMap_append, List.map_append, List.append_assoc]

/-- A result that is only put in another form. -/
theorem map {x : ConversionProgram.Compiling α} {f : α → β} (hx : Settles xs Q x)
    (hf : ∀ a ds, Q a ds → Q' (f a) ds) :
    Settles xs Q' (x >>= fun a => (Pure.pure (f a) : ConversionProgram.Compiling β)) := by
  rw [← List.append_nil xs]
  refine hx.bind fun a ds h => pure ?_
  rw [List.append_nil]
  exact hf a ds h

/-- Programs for each member of a list, whose results list what they compile. -/
theorem mapM {f : α → ConversionProgram.Compiling β} {g : α → List PlacedEdits}
    (listed : β → List PlacedDirective) :
    ∀ l : List α, (∀ a ∈ l, Settles (g a) (fun b ds => ds = listed b) (f a)) →
      Settles (l.flatMap g) (fun bs ds => ds = bs.flatMap listed) (l.mapM f)
  | [], _ => by
    rw [List.mapM_nil]
    exact pure rfl
  | a :: l, h => by
    rw [List.mapM_cons, List.flatMap_cons]
    refine (h a List.mem_cons_self).bind fun b ds hb => ?_
    refine (mapM listed l fun c hc => h c (List.mem_cons_of_mem a hc)).map fun bs ds' hbs => ?_
    rw [hb, hbs, List.flatMap_cons]

end Settles

namespace ConversionProgram

theorem settles_directive? (table field key : String) (c : Comparison) (e : Edits) :
    Settles [⟨⟨table, field, key⟩, c, e⟩] (fun d ds => ds = inField table field d.toList)
      (directive? ⟨table, field, key⟩ c e) := by
  intro s hs
  have hdecides := decides_compileDirective ⟨⟨table, field, key⟩, c, e⟩ s.cache hs
  unfold directive?
  rw [get_bind_apply]
  dsimp only at hdecides ⊢
  cases hc : compileDirective ⟨table, field, key⟩ c e s.cache with
  | ok d cache =>
    rw [hc] at hdecides
    obtain ⟨hg, hno, hneeds, hgives⟩ := hdecides
    refine ⟨hg, [(⟨⟨table, field, key⟩, c, e⟩, .ok d)], rfl, ?_, ?_, ?_⟩
    · rintro v hv
      obtain rfl := List.mem_singleton.1 hv
      exact ⟨hno, hneeds, hgives⟩
    · show [(_, d)] = [(_, d)]
      rw [hgives.key]
    · exact (congrArg (fun es => { s.diagnostics with entries := es }) (List.append_nil _)).symm
  | error failure cache =>
    rw [hc] at hdecides
    obtain ⟨hg, hfault⟩ := hdecides
    dsimp only
    cases hrequired : e.required with
    | true => exact ⟨_, List.mem_singleton_self _, hrequired, failure, hfault⟩
    | false =>
      refine ⟨hg, [(⟨⟨table, field, key⟩, c, e⟩, .error failure)], rfl, ?_, rfl, ?_⟩
      · rintro v hv
        obtain rfl := List.mem_singleton.1 hv
        exact ⟨hrequired, hfault⟩
      · rfl

theorem settles_keyed (table field : String) (c : Comparison) (es : List (String × Edits)) :
    Settles (es.map fun (key, e) => ⟨⟨table, field, key⟩, c, e⟩) (fun ds ds' => ds' = inField table field ds)
      (keyed table field c es) := by
  unfold keyed
  rw [List.map_eq_flatMap]
  refine (Settles.mapM _ es fun e _ => settles_directive? table field e.1 c e.2).map ?_
  rintro os _ rfl
  unfold inField
  induction os with
  | nil => rfl
  | cons o os ih => cases o <;> simp [ih]

theorem settles_group (table field : String) (fd : FieldDirectives) :
    Settles (FieldDirectives.placed table field (fd.arrange Comparison.passes)) (fun g ds => ds = g.placed)
      (group table field fd) := by
  unfold group FieldDirectives.placed
  rw [OrderedMap.entries_arrange Comparison.nodup_passes, flatMap_filterMap]
  refine (Settles.mapM (inField table field) Comparison.passes fun c _ => ?_).map ?_
  · cases hc : fd.get? c with
    | none => exact Settles.pure rfl
    | some es => exact settles_keyed table field c es.entries
  · rintro dss _ rfl
    unfold DirectiveGroup.placed inField
    rw [List.map_flatten, List.flatMap_def]

theorem settles_tableGroups (table : String) (td : TableDirectives) :
    Settles (TableDirectives.placed table (td.mapValues fun _ fd => fd.arrange Comparison.passes))
      (fun gs ds => ds = gs.flatMap DirectiveGroup.placed) (tableGroups table td) := by
  unfold tableGroups TableDirectives.placed OrderedMap.mapValues
  rw [List.flatMap_map]
  refine (Settles.mapM _ td.entries fun f _ => settles_group table f.1 f.2).map ?_
  rintro gs _ rfl
  -- a group without directives lists nothing
  induction gs with
  | nil => rfl
  | cons g gs ih =>
    rw [List.flatMap_cons, ih]
    by_cases h : g.directives = [] <;> simp [h, DirectiveGroup.placed, inField]

theorem settles_groupsOf (d : ConversionDirectives) :
    Settles d.arranged.placed (fun gs ds => ds = gs.flatMap DirectiveGroup.placed) (groupsOf d) := by
  unfold groupsOf ConversionDirectives.placed ConversionDirectives.arranged OrderedMap.mapValues
  rw [List.flatMap_map]
  refine (Settles.mapM _ d.entries fun t _ => settles_tableGroups t.1 t.2).map ?_
  rintro gss _ rfl
  rw [List.flatten_eq_flatMap, List.flatMap_assoc]
  rfl

/-! ## Groups -/

theorem targets_of_tableGroups {table : String} {td : TableDirectives} {gs : List DirectiveGroup}
    {s s' : State} (h : tableGroups table td s = .ok gs s') :
    (gs.map DirectiveGroup.target).Sublist (td.keys.map (table, ·)) ∧ ∀ g ∈ gs, g.directives ≠ [] := by
  obtain ⟨gs₀, s₁, h₀, h⟩ := bind_eq_ok h
  cases h
  have htargets : List.Forall₂ (fun f g => (table, f.1) = g.target) td.entries gs₀ := by
    refine forall₂_of_mapM (fun f g s₁ s₂ hg => ?_) h₀
    obtain ⟨passes, _, -, hg⟩ := bind_eq_ok hg
    cases hg
    rfl
  have hmap : td.keys.map (table, ·) = gs₀.map DirectiveGroup.target := by
    unfold OrderedMap.keys
    rw [List.map_map, ← List.forall₂_eq_eq_eq, List.forall₂_map_left_iff, List.forall₂_map_right_iff]
    exact htargets
  rw [hmap]
  refine ⟨List.filter_sublist.map _, fun g hg => ?_⟩
  simpa using (List.mem_filter.1 hg).2

/-- There is one group for each field at most, and none without directives. -/
theorem targets_of_groupsOf {d : ConversionDirectives} {gs : List DirectiveGroup} {s s' : State}
    (h : groupsOf d s = .ok gs s') :
    (gs.map DirectiveGroup.target).Nodup ∧ ∀ g ∈ gs, g.directives ≠ [] := by
  unfold groupsOf at h
  obtain ⟨gss, s₁, hgss, h⟩ := bind_eq_ok h
  cases h
  have htables : List.Forall₂ (fun t gs => (gs.map DirectiveGroup.target).Sublist
      ((OrderedMap.keys t.2).map (t.1, ·)) ∧ ∀ g ∈ gs, g.directives ≠ []) d.entries gss := by
    refine forall₂_of_mapM ?_ hgss
    rintro ⟨table, td⟩ gs s₁ s₂ ht
    exact targets_of_tableGroups ht
  constructor
  · have hsublist : (gss.flatten.map DirectiveGroup.target).Sublist
        (d.entries.flatMap fun t => (OrderedMap.keys t.2).map (t.1, ·)) := by
      rw [List.map_flatten]
      exact sublist_flatMap_of_forall₂ (htables.imp fun _ _ ht => ht.1)
    refine hsublist.nodup ?_
    rw [← List.map_id (d.entries.flatMap _)]
    refine OrderedMap.nodup_flatMap_entries Prod.fst ?_ fun t _ => ?_
    · rintro t - _ hx
      obtain ⟨_, -, rfl⟩ := List.mem_map.1 hx
      rfl
    · rw [List.map_id]
      exact (OrderedMap.nodup_keys t.2).map fun _ _ h => congrArg Prod.snd h
  · intro g hg
    obtain ⟨gs', hgs', hg⟩ := List.mem_flatten.1 hg
    obtain ⟨t, -, ht⟩ := exists_of_mem_forall₂ htables hgs'
    exact ht.2 g hg

end ConversionProgram

/-! ## The whole document -/

/-- Where the directives of a group stand. -/
def DirectiveGroup.labels (g : DirectiveGroup) : List DirectiveLabel :=
  g.directives.map fun x => (⟨g.table, g.field, x.key⟩, x.comparison)

/-- Where the directives of a program stand, in the order of its groups. -/
def ConversionProgram.labels (p : ConversionProgram) : List DirectiveLabel :=
  p.groups.flatMap DirectiveGroup.labels

/--
A program is what a document compiles to, apart from the directives that are left out: each directive is there
or left out, once; the faultless ones are there as the document has them, in the order of the passes and in
one group for each field; and they find their patterns.
-/
structure ConversionProgram.Covers (p : ConversionProgram) (d : ConversionDirectives)
    (skipped : List (PlacedEdits × DirectiveError)) : Prop where
  once : (p.labels ++ skipped.map fun z => z.1.label).Perm (d.placed.map PlacedEdits.label)
  faultless : ∀ x ∈ d.placed, x.label ∈ p.labels ↔ ∀ e, ¬ x.Fault e
  given : ∀ g ∈ p.groups, ∀ x ∈ g.directives, ∃ y ∈ d.placed,
    y.place = ⟨g.table, g.field, x.key⟩ ∧ y.Gives x
  faulty : ∀ z ∈ skipped, z.1 ∈ d.placed ∧ z.1.edits.required = false ∧ z.1.Fault z.2
  ordered : p.labels.Sublist (d.arranged.placed.map PlacedEdits.label)
  grouped : (p.groups.map DirectiveGroup.target).Nodup
  filled : ∀ g ∈ p.groups, g.directives ≠ []
  ready : ∀ g ∈ p.groups, ∀ x ∈ g.directives, x.Ready p.cache

theorem ConversionProgram.Covers.nodup_labels {p : ConversionProgram} {d : ConversionDirectives}
    {skipped : List (PlacedEdits × DirectiveError)} (h : p.Covers d skipped) : p.labels.Nodup :=
  (List.nodup_append.1 (h.once.nodup_iff.2 d.nodup_labels)).1

/-- The label of a compiled directive in its place. -/
def labelOf (x : PlacedDirective) : DirectiveLabel := (x.1, x.2.comparison)

namespace Verdict

variable {cache : PatternCache} {vs : List Verdict}

theorem Right.labelOf_eq {v : Verdict} (h : v.Right cache) {x : PlacedDirective}
    (hx : v.compiled? = some x) : labelOf x = v.1.label := by
  obtain ⟨y, _ | d⟩ := v
  · cases hx
  · cases hx
    exact congrArg (y.place, ·) h.2.2.comparison

theorem Right.ready {x : PlacedEdits} {d : CompiledDirective} (h : Right cache (x, .ok d))
    (hs : cache.Sound) : d.Ready cache := by
  obtain ⟨-, hneeds, hgives⟩ := h
  constructor
  · intro hkind
    rw [hgives.comparison] at hkind
    exact hs.holds (hneeds d.key (.inl ⟨hkind, hgives.key⟩))
  · intro edit hedit t ht
    exact hs.holds (hneeds t (.inr (Edits.hasPattern_of_gives hgives.edits hedit ht)))

/-- Each directive is compiled or left out. -/
theorem perm_labels (h : ∀ v ∈ vs, v.Right cache) :
    ((vs.filterMap compiled?).map labelOf ++ (vs.filterMap skipped?).map fun z => z.1.label).Perm
      (vs.map fun v => v.1.label) := by
  induction vs with
  | nil => exact .refl _
  | cons v vs ih =>
    replace ih := ih fun w hw => h w (List.mem_cons_of_mem v hw)
    obtain ⟨x, e | d⟩ := v
    · exact List.perm_middle.trans (ih.cons x.label)
    · show (labelOf (x.place, d) :: _).Perm _
      rw [(h _ List.mem_cons_self).labelOf_eq (x := (x.place, d)) rfl]
      exact ih.cons x.label

theorem sublist_labels (h : ∀ v ∈ vs, v.Right cache) :
    ((vs.filterMap compiled?).map labelOf).Sublist (vs.map fun v => v.1.label) := by
  induction vs with
  | nil => exact .refl _
  | cons v vs ih =>
    replace ih := ih fun w hw => h w (List.mem_cons_of_mem v hw)
    obtain ⟨x, e | d⟩ := v
    · exact ih.cons x.label
    · show (labelOf (x.place, d) :: _).Sublist _
      rw [(h _ List.mem_cons_self).labelOf_eq (x := (x.place, d)) rfl]
      exact ih.cons_cons x.label

end Verdict

namespace ConversionProgram

variable {d : ConversionDirectives} {p : ConversionProgram} {diagnostics diagnostics' : Diagnostics}

/-- Verdicts on all directives of a document, in the order of the passes, and the program they make. -/
structure Judged (p : ConversionProgram) (d : ConversionDirectives) (vs : List Verdict) : Prop where
  all : vs.map Prod.fst = d.arranged.placed
  right : ∀ v ∈ vs, v.Right p.cache
  listed : vs.filterMap Verdict.compiled? = p.groups.flatMap DirectiveGroup.placed

namespace Judged

variable {vs : List Verdict}

theorem mem_placed (h : p.Judged d vs) {v : Verdict} (hv : v ∈ vs) : v.1 ∈ d.placed := by
  rw [← d.perm_placed_arranged.mem_iff, ← h.all]
  exact List.mem_map_of_mem hv

theorem exists_verdict (h : p.Judged d vs) {x : PlacedEdits} (hx : x ∈ d.placed) : ∃ r, (x, r) ∈ vs := by
  rw [← d.perm_placed_arranged.mem_iff, ← h.all] at hx
  obtain ⟨⟨_, r⟩, hv, rfl⟩ := List.mem_map.1 hx
  exact ⟨r, hv⟩

/-- A compiled directive comes from the one at its place in the document. -/
theorem exists_source (h : p.Judged d vs) {g : DirectiveGroup} (hg : g ∈ p.groups) {x : CompiledDirective}
    (hx : x ∈ g.directives) : ∃ y : PlacedEdits, (y, .ok x) ∈ vs ∧ y.place = ⟨g.table, g.field, x.key⟩ := by
  have hcompiled : (⟨g.table, g.field, x.key⟩, x) ∈ vs.filterMap Verdict.compiled? := by
    rw [h.listed]
    exact List.mem_flatMap.2 ⟨g, hg, List.mem_map_of_mem hx⟩
  exact Verdict.mem_compiled_iff.1 hcompiled

theorem labels_eq (h : p.Judged d vs) : p.labels = (vs.filterMap Verdict.compiled?).map labelOf := by
  rw [h.listed, List.map_flatMap]
  unfold labels DirectiveGroup.labels DirectiveGroup.placed inField
  simp only [List.map_map]
  rfl

theorem map_label (h : p.Judged d vs) :
    vs.map (fun v => v.1.label) = d.arranged.placed.map PlacedEdits.label := by
  rw [← h.all, List.map_map]
  rfl

theorem once (h : p.Judged d vs) :
    (p.labels ++ (vs.filterMap Verdict.skipped?).map fun z => z.1.label).Perm
      (d.placed.map PlacedEdits.label) := by
  rw [h.labels_eq]
  refine (Verdict.perm_labels h.right).trans ?_
  rw [h.map_label]
  exact d.perm_placed_arranged.map _

theorem faultless_iff (h : p.Judged d vs) {x : PlacedEdits} (hx : x ∈ d.placed) :
    x.label ∈ p.labels ↔ ∀ e, ¬ x.Fault e := by
  rw [h.labels_eq, List.mem_map]
  constructor
  · rintro ⟨⟨place, y⟩, hy, hlabel⟩
    obtain ⟨x', hv, rfl⟩ := Verdict.mem_compiled_iff.1 hy
    have hlabel' := (h.right _ hv).labelOf_eq (x := (x'.place, y)) rfl
    -- no other directive has this label
    obtain rfl := List.inj_on_of_nodup_map d.nodup_labels (h.mem_placed hv) hx (hlabel'.symm.trans hlabel)
    exact (h.right _ hv).1
  · intro hno
    obtain ⟨e | y, hv⟩ := h.exists_verdict hx
    · exact absurd (h.right _ hv).2 (hno e)
    · exact ⟨(x.place, y), Verdict.mem_compiled_iff.2 ⟨x, hv, rfl⟩, (h.right _ hv).labelOf_eq rfl⟩

end Judged

/-- What has been compiled covers the document, and the diagnostics tell what has been left out. -/
theorem covers_of_compile (h : compile d diagnostics = (.ok p, diagnostics')) :
    ∃ skipped, p.Covers d skipped ∧
      diagnostics' = { diagnostics with entries := diagnostics.entries ++ skipped.map warningOf } := by
  have hsettles := settles_groupsOf d { diagnostics } PatternCache.sound_empty
  unfold compile at h
  cases hgroups : groupsOf d { diagnostics } with
  | error e s =>
    rw [hgroups] at h
    cases h
  | ok gs s =>
    rw [hgroups] at h hsettles
    cases h
    obtain ⟨hgrown, vs, hvs, hright, hlist, hdiag⟩ := hsettles
    obtain ⟨htargets, hfilled⟩ := targets_of_groupsOf hgroups
    have hjudged : Judged ⟨gs, s.cache⟩ d vs := ⟨hvs, hright, hlist⟩
    refine ⟨vs.filterMap Verdict.skipped?, ⟨hjudged.once, fun x => hjudged.faultless_iff, ?given, ?faulty,
      ?ordered, htargets, hfilled, ?ready⟩, hdiag⟩
    case given =>
      intro g hg x hx
      obtain ⟨y, hv, hplace⟩ := hjudged.exists_source hg hx
      exact ⟨y, hjudged.mem_placed hv, hplace, (hright _ hv).2.2⟩
    case faulty =>
      intro z hz
      obtain ⟨⟨x, e | d⟩, hv, hz⟩ := List.mem_filterMap.1 hz
      · cases hz
        exact ⟨hjudged.mem_placed hv, hright _ hv⟩
      · cases hz
    case ordered =>
      rw [hjudged.labels_eq, ← hjudged.map_label]
      exact Verdict.sublist_labels hright
    case ready =>
      intro g hg x hx
      obtain ⟨y, hv, -⟩ := hjudged.exists_source hg hx
      exact (hright _ hv).ready hgrown.sound

/-- Compilation fails only if a required directive has a fault. -/
theorem fault_of_compile {e : DirectiveError} (h : compile d diagnostics = (.error e, diagnostics')) :
    ∃ x ∈ d.placed, x.edits.required = true ∧ ∃ e, x.Fault e := by
  have hsettles := settles_groupsOf d { diagnostics } PatternCache.sound_empty
  unfold compile at h
  cases hgroups : groupsOf d { diagnostics } with
  | ok gs s =>
    rw [hgroups] at h
    cases h
  | error e s =>
    rw [hgroups] at hsettles
    obtain ⟨x, hx, hfault⟩ := hsettles
    exact ⟨x, d.perm_placed_arranged.mem_iff.1 hx, hfault⟩

end ConversionProgram

namespace PlacedEdits

/-- Whether a directive compiles when it is the first. -/
def compiles (x : PlacedEdits) : Bool :=
  match ConversionProgram.compileDirective x.place x.comparison x.edits .empty with
  | .ok _ _ => true
  | .error _ _ => false

theorem compiles_iff (x : PlacedEdits) : x.compiles = true ↔ ∀ e, ¬ x.Fault e := by
  have hdecides := ConversionProgram.decides_compileDirective x .empty PatternCache.sound_empty
  unfold compiles
  cases hc : ConversionProgram.compileDirective x.place x.comparison x.edits .empty with
  | ok d cache =>
    rw [hc] at hdecides
    exact iff_of_true rfl hdecides.2.1
  | error e cache =>
    rw [hc] at hdecides
    exact iff_of_false Bool.false_ne_true fun hno => hno e hdecides.2

instance (x : PlacedEdits) : Decidable (∀ e, ¬ x.Fault e) := decidable_of_iff _ x.compiles_iff

end PlacedEdits

end

namespace ConversionProgram

/--
A document whose required directives have no fault compiles, whatever texts are patterns. Every directive of
it, each at a label of its own, is compiled with all of its edits into the group of its field or is reported in
a warning, and not both; the groups are in the order of the passes, whatever the order of the comparisons in
the document. No lookup of a pattern fails when the program runs.
-/
theorem compile_covers [PatternSyntax] {d : ConversionDirectives}
    (h : ∀ x ∈ d.placed, x.edits.required = true → ∀ e, ¬ x.Fault e) (diagnostics : Diagnostics) :
    ∃ p skipped,
      compile d diagnostics =
        (.ok p, { diagnostics with entries := diagnostics.entries ++ skipped.map warningOf }) ∧
      (d.placed.map PlacedEdits.label).Nodup ∧ p.Covers d skipped ∧
      ∀ g ∈ p.groups, ∀ x ∈ g.directives, ∀ m,
        (x.comparison.kind = .regex → ∃ q, PatternSyntax.compile x.key = .ok q ∧
          ∀ cs, Run.matchesOf m p.cache x cs = matchesBy (m.finds q) cs) ∧
        ∀ r text, (Edit.applyAll m p.cache x.edits r).2 ≠ .failed (.notCompiled text) := by
  cases hc : compile d diagnostics with
  | mk result diagnostics' =>
    cases result with
    | error e =>
      obtain ⟨x, hx, hrequired, e, hfault⟩ := fault_of_compile hc
      exact absurd hfault (h x hx hrequired e)
    | ok p =>
      obtain ⟨skipped, hcovers, rfl⟩ := covers_of_compile hc
      refine ⟨p, skipped, rfl, d.nodup_labels, hcovers, ?_⟩
      intro g hg x hx m
      have hready := hcovers.ready g hg x hx
      exact ⟨hready.matchesOf_eq m, Edit.applyAll_ne_notCompiled hready.edits m⟩

/-- A field with its comparisons against the order of the passes, and three directives that do not compile. -/
def scattered : ConversionDirectives :=
  .ofList [("sample", .ofList [("color", .ofList [
    (⟨.levenshtein, false⟩, .ofList [("blue", { delete := ["note"] })]),
    (⟨.regex, true⟩, .ofList [
      ("r(e", { append := .ofList [("color", .scalar "!")] }),
      ("[rR]ed", { regex := .ofList [("color", ["e+", "E"])], required := true })]),
    (⟨.exact, true⟩, .ofList [
      ("red", { regex := .ofList [("color", ["x+", "y"]), ("note", ["lone"])] }),
      ("green", { delete := ["id"] }),
      ("white", { rename := .ofList [("note", "remark")] })])])])]

theorem compile_covers_scattered :
    (∀ x ∈ scattered.placed, x.edits.required = true → ∀ e, ¬ x.Fault e) ∧
      ∃ (p : ConversionProgram) (skipped : List (PlacedEdits × DirectiveError)), p.Covers scattered skipped ∧
        p.labels.map (fun l => (l.2.name, l.1.key)) =
          [("exact-unique", "white"), ("regex-unique", "[rR]ed"), ("levenshtein", "blue")] ∧
        (p.groups.flatMap (·.directives)).map (fun x => (x.required, x.edits.length)) =
          [(false, 1), (true, 1), (false, 1)] ∧
        (compile scattered {}).2.entries = skipped.map warningOf ∧
        (compile scattered {}).2.entries.map Diagnostic.message = [
          "Malformed regex pair for field 'note': expected [pattern, replacement], found 1 element(s)",
          "Directive for sample.color = 'green' tries to delete the id field",
          "Invalid regular expression 'r(e': regex parse error: the pattern is malformed"] := by
  have h : ∀ x ∈ scattered.placed, x.edits.required = true → ∀ e, ¬ x.Fault e := by decide +kernel
  obtain ⟨p, skipped, hp, -, hcovers, -⟩ := compile_covers h {}
  have hlabels : (compile scattered {}).1.toOption.map
      (fun p => p.labels.map fun l => (l.2.name, l.1.key)) =
        some [("exact-unique", "white"), ("regex-unique", "[rR]ed"), ("levenshtein", "blue")] := by
    decide +kernel
  have hedits : (compile scattered {}).1.toOption.map
      (fun p => (p.groups.flatMap (·.directives)).map fun x => (x.required, x.edits.length)) =
        some [(false, 1), (true, 1), (false, 1)] := by
    decide +kernel
  rw [hp] at hlabels hedits
  refine ⟨h, p, skipped, hcovers, Option.some.inj hlabels, Option.some.inj hedits, ?_, by decide +kernel⟩
  rw [hp]
  rfl

end ConversionProgram
end TagHarvest
