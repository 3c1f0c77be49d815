/-
Why a directive does not compile. The faults of a directive are told from its key and its edits alone: a
pattern or an expression that cannot be read, a pair that is none, an edit of the id. Compilation reads
patterns into a cache that earlier directives have filled, also those that failed half way. This makes no
difference to the outcome, as every cached text has the pattern it is read as: a directive compiles if it
has no fault, with all its patterns in the cache, and otherwise fails with one of its faults. A directive
whose patterns are in the cache never misses one when it runs.
-/
import TagHarvest.Conversion.Run
import TagHarvest.Proofs.Effects
import TagHarvest.Proofs.OrderedMap

namespace TagHarvest

/-! ## Caches -/

namespace PatternCache

variable [PatternSyntax]

/-- Every cached text has the pattern it is read as. -/
def Sound (cache : PatternCache) : Prop :=
  ∀ text p, cache.get? text = some p → PatternSyntax.compile text = .ok p

theorem sound_empty : Sound .empty := nofun

/-- A sound cache that has everything an earlier one has. -/
structure Grown (before after : PatternCache) : Prop where
  sound : after.Sound
  keeps : ∀ text p, before.get? text = some p → after.get? text = some p

variable {cache before after last : PatternCache}

theorem Grown.refl (h : cache.Sound) : Grown cache cache := ⟨h, fun _ _ => id⟩

theorem Grown.trans (h : Grown before after) (h' : Grown after last) : Grown before last :=
  ⟨h'.sound, fun text p hp => h'.keeps text p (h.keeps text p hp)⟩

theorem Grown.mem_keys (h : Grown before after) {text : String} (ht : text ∈ before.keys) :
    text ∈ after.keys := by
  rw [← OrderedMap.contains_eq_true_iff] at ht
  obtain ⟨p, hp⟩ := Option.isSome_iff_exists.1 ht
  exact OrderedMap.mem_keys_of_get? (h.keeps text p hp)

theorem Sound.insert (h : cache.Sound) {text : String} {p : Pattern} (hp : PatternSyntax.compile text = .ok p) :
    Sound (cache.insert text p) := by
  intro text' q hq
  rw [OrderedMap.get?_insert] at hq
  split at hq
  · rename_i heq
    cases hq
    exact heq ▸ hp
  · exact h text' q hq

end PatternCache

variable [PatternSyntax]

/-! ## Programs that read patterns -/

/--
From a sound cache the program either fails with one of `faults`, or there is none of them, and it ends
with all of `texts` in the cache and a result that satisfies `Q`.
-/
def Decides {α : Type} (faults : DirectiveError → Prop) (texts : String → Prop) (Q : α → Prop)
    (x : CompileEdits α) : Prop :=
  ∀ cache : PatternCache, cache.Sound → match x cache with
    | .ok a after => cache.Grown after ∧ (∀ e, ¬ faults e) ∧ (∀ t, texts t → t ∈ after.keys) ∧ Q a
    | .error e after => cache.Grown after ∧ faults e

namespace Decides

variable {α β : Type} {F F' : DirectiveError → Prop} {T T' : String → Prop} {Q : α → Prop} {Q' : β → Prop}
variable {x : CompileEdits α} {cache after : PatternCache}

theorem ok (h : Decides F T Q x) (hs : cache.Sound) {a : α} (hx : x cache = .ok a after) :
    cache.Grown after ∧ (∀ e, ¬ F e) ∧ (∀ t, T t → t ∈ after.keys) ∧ Q a := by
  have := h cache hs
  rw [hx] at this
  exact this

theorem error (h : Decides F T Q x) (hs : cache.Sound) {e : DirectiveError} (hx : x cache = .error e after) :
    cache.Grown after ∧ F e := by
  have := h cache hs
  rw [hx] at this
  exact this

theorem congr {Q₂ : α → Prop} (h : Decides F T Q x) (hF : ∀ e, F e ↔ F' e) (hT : ∀ t, T' t → T t)
    (hQ : ∀ a, Q a → Q₂ a) : Decides F' T' Q₂ x := by
  intro cache hs
  cases hx : x cache with
  | ok a after =>
    obtain ⟨hg, hno, htexts, ha⟩ := h.ok hs hx
    exact ⟨hg, fun e he => hno e ((hF e).2 he), fun t ht => htexts t (hT t ht), hQ a ha⟩
  | error e after =>
    obtain ⟨hg, he⟩ := h.error hs hx
    exact ⟨hg, (hF e).1 he⟩

theorem pure {a : α} (h : Q a) :
    Decides (fun _ => False) (fun _ => False) Q (Pure.pure a : CompileEdits α) :=
  fun _ hs => ⟨.refl hs, fun _ => id, fun _ => False.elim, h⟩

theorem throw {e : DirectiveError} (h : F e) : Decides F T Q (MonadExcept.throw e : CompileEdits α) :=
  fun _ hs => ⟨.refl hs, h⟩

theorem bind {f : α → CompileEdits β} (hx : Decides F T Q x) (hf : ∀ a, Q a → Decides F' T' Q' (f a)) :
    Decides (fun e => F e ∨ F' e) (fun t => T t ∨ T' t) Q' (x >>= f) := by
  intro cache hs
  cases h : x cache with
  | error e after =>
    obtain ⟨hg, he⟩ := hx.error hs h
    rw [bind_apply_of_error h]
    exact ⟨hg, .inl he⟩
  | ok a after =>
    obtain ⟨hg, hno, htexts, ha⟩ := hx.ok hs h
    rw [bind_apply_of_ok h]
    cases h' : f a after with
    | error e last =>
      obtain ⟨hg', he⟩ := (hf a ha).error hg.sound h'
      exact ⟨hg.trans hg', .inr he⟩
    | ok b last =>
      obtain ⟨hg', hno', htexts', hb⟩ := (hf a ha).ok hg.sound h'
      refine ⟨hg.trans hg', fun e => not_or.2 ⟨hno e, hno' e⟩, ?_, hb⟩
      rintro t (ht | ht)
      · exact hg'.mem_keys (htexts t ht)
      · exact htexts' t ht

/-- What comes of each member of a list, one after the other. -/
theorem mapM {f : α → CompileEdits β} {F : α → DirectiveError → Prop} {T : α → String → Prop}
    {R : α → β → Prop} :
    ∀ l : List α, (∀ a ∈ l, Decides (F a) (T a) (R a) (f a)) →
      Decides (fun e => ∃ a ∈ l, F a e) (fun t => ∃ a ∈ l, T a t) (List.Forall₂ R l) (l.mapM f)
  | [], _ => by
    rw [List.mapM_nil]
    exact (pure .nil).congr (by simp) (by simp) fun _ => id
  | a :: l, h => by
    rw [List.mapM_cons]
    have hrest := mapM l fun c hc => h c (List.mem_cons_of_mem a hc)
    refine ((h a List.mem_cons_self).bind fun b hb => hrest.bind fun bs hbs =>
      pure (List.Forall₂.cons hb hbs)).congr ?_ ?_ fun _ => id
    · simp
    · simp

end Decides

/-- A text that cannot be read as a pattern, and the reason. -/
def BadPattern (text : String) (e : DirectiveError) : Prop :=
  ∃ cause, PatternSyntax.compile text = .error cause ∧ e = .badPattern text cause

theorem decides_require (text : String) :
    Decides (BadPattern text) (· = text) (fun _ => True) (PatternCache.require text) := by
  intro cache hs
  unfold PatternCache.require
  rw [get_bind_apply]
  cases hc : cache.contains text with
  | true =>
    have hmem : text ∈ cache.keys := OrderedMap.contains_eq_true_iff.1 hc
    obtain ⟨p, hp⟩ := Option.isSome_iff_exists.1 hc
    -- a cached pattern is no fault, as the cache is sound
    refine ⟨.refl hs, ?_, fun t ht => ht ▸ hmem, trivial⟩
    rintro e ⟨cause, hbad, -⟩
    rw [hs text p hp] at hbad
    cases hbad
  | false =>
    have hnone : cache.get? text = none := by simpa [OrderedMap.contains] using hc
    rw [if_neg Bool.false_ne_true]
    cases hp : PatternSyntax.compile text with
    | error cause => exact ⟨.refl hs, cause, hp, rfl⟩
    | ok p =>
      refine ⟨⟨hs.insert hp, ?_⟩, ?_, ?_, trivial⟩
      · intro text' q hq
        rw [OrderedMap.get?_insert_of_ne]
        · exact hq
        · rintro rfl
          rw [hnone] at hq
          cases hq
      · rintro e ⟨cause, hbad, -⟩
        rw [hp] at hbad
        cases hbad
      · rintro t rfl
        exact OrderedMap.mem_keys_of_get? (OrderedMap.get?_insert_self cache t p)

/-! ## Edits -/

/-- The pattern that an edit looks up when it is carried out. -/
def Edit.pattern? : Edit → Option String
  | .regex _ pattern _ => some pattern
  | .assign _ _ | .append _ _ | .prepend _ _ | .delete _ | .rename _ _ => none

namespace Edits

/-- The patterns of the edits that replace matches. -/
def HasPattern (e : Edits) (text : String) : Prop :=
  ∃ field replacement, (field, [text, replacement]) ∈ e.regex.entries

/-- What is wrong with the edits of a directive. -/
inductive Fault (place : DirectivePlace) (e : Edits) : DirectiveError → Prop where
  | expression {field text : String} {cause : Pattern.Error} (h : (field, .scalar text) ∈ e.assign.entries)
    (hc : Expression.compile text = .error (.malformed text cause)) : Fault place e (.badPattern text cause)
  | pair {field : String} {pair : List String} (h : (field, pair) ∈ e.regex.entries)
    (hn : pair.length ≠ 2) : Fault place e (.malformedPair field (.count pair.length))
  | pattern {text : String} {cause : Pattern.Error} (h : e.HasPattern text)
    (hc : PatternSyntax.compile text = .error cause) : Fault place e (.badPattern text cause)
  | deletesId (h : idField ∈ e.delete) : Fault place e (.deletesId place.table place.field place.key)
  | renamesId {source target : String} (h : (source, target) ∈ e.rename.entries)
    (hid : source = idField ∨ target = idField) :
    Fault place e (.renamesId place.table place.field place.key)

/-- An entry of the edits of a directive, as the document has it. -/
inductive Entry where
  | assign (field : String) (v : FieldValue)
  | append (field : String) (v : FieldValue)
  | prepend (field : String) (v : FieldValue)
  | regex (field : String) (pair : List String)
  | delete (field : String)
  | rename (source target : String)

/-- The entries in the order in which their edits are applied. -/
def entries (e : Edits) : List Entry :=
  e.assign.entries.map (fun a => .assign a.1 a.2) ++ e.append.entries.map (fun a => .append a.1 a.2) ++
    e.prepend.entries.map (fun a => .prepend a.1 a.2) ++ e.regex.entries.map (fun a => .regex a.1 a.2) ++
    e.delete.map .delete ++ e.rename.entries.map fun a => .rename a.1 a.2

/--
The edit that an entry gives. A text to be assigned is read as an expression, a replacement is normalized, and
everything else is as it stands in the document.
-/
inductive Entry.Gives : Entry → Edit → Prop
  | expression {field text : String} {x : Expression} (h : Expression.compile text = .ok x) :
    Gives (.assign field (.scalar text)) (.assign field (.expression x))
  | list (field : String) (items : List String) :
    Gives (.assign field (.list items)) (.assign field (.list items))
  | append (field : String) (v : FieldValue) : Gives (.append field v) (.append field v)
  | prepend (field : String) (v : FieldValue) : Gives (.prepend field v) (.prepend field v)
  | regex (field pattern replacement : String) :
    Gives (.regex field [pattern, replacement]) (.regex field pattern (Pattern.normalize replacement))
  | delete {field : String} (h : field ≠ idField) : Gives (.delete field) (.delete field)
  | rename {source target : String} (hs : source ≠ idField) (ht : target ≠ idField) :
    Gives (.rename source target) (.rename source target)

theorem Entry.Gives.pattern?_eq {a : Entry} {x : Edit} (h : a.Gives x) {text : String}
    (ht : x.pattern? = some text) : ∃ field replacement, a = .regex field [text, replacement] := by
  cases h with
  | regex field pattern replacement =>
    cases ht
    exact ⟨field, replacement, rfl⟩
  | expression | list | append | prepend | delete | rename => cases ht

/-- An edit that its entry gives looks up patterns of the directive only. -/
theorem hasPattern_of_gives {e : Edits} {edits : List Edit} (h : List.Forall₂ Entry.Gives e.entries edits)
    {x : Edit} (hx : x ∈ edits) {text : String} (ht : x.pattern? = some text) : e.HasPattern text := by
  obtain ⟨a, ha, hgives⟩ := exists_of_mem_forall₂ h hx
  obtain ⟨field, replacement, rfl⟩ := hgives.pattern?_eq ht
  exact ⟨field, replacement, by simpa [entries] using ha⟩

theorem compile_expression_eq_error {text : String} {err : ExpressionError}
    (h : Expression.compile text = .error err) : ∃ cause, err = .malformed text cause := by
  unfold Expression.compile at h
  split at h
  · cases h
  · cases h
    exact ⟨_, rfl⟩

theorem decides_compileAssign (field : String) (v : FieldValue) :
    Decides
      (fun err => ∃ text cause, v = .scalar text ∧
        Expression.compile text = .error (.malformed text cause) ∧ err = .badPattern text cause)
      (fun _ => False) (Entry.assign field v).Gives (compileAssign field v) := by
  unfold compileAssign
  cases v with
  | list items => exact (Decides.pure (.list field items)).congr (by simp) (fun _ => id) fun _ => id
  | scalar text =>
    dsimp only
    cases hc : Expression.compile text with
    | ok x =>
      refine (Decides.pure (.expression hc)).congr (fun err => iff_of_false id ?_) (fun _ => id) fun _ => id
      rintro ⟨text', cause, heq, hbad, -⟩
      cases heq
      rw [hc] at hbad
      cases hbad
    | error err =>
      obtain ⟨cause, rfl⟩ := compile_expression_eq_error hc
      exact Decides.throw ⟨text, cause, rfl, hc, rfl⟩

theorem decides_compileRegex (field : String) (pair : List String) :
    Decides
      (fun err => (pair.length ≠ 2 ∧ err = .malformedPair field (.count pair.length)) ∨
        ∃ text replacement, pair = [text, replacement] ∧ BadPattern text err)
      (fun t => ∃ replacement, pair = [t, replacement]) (Entry.regex field pair).Gives
      (compileRegex field pair) := by
  unfold compileRegex
  split
  · rename_i text replacement
    refine ((decides_require text).bind fun _ _ => Decides.pure (.regex field text replacement)).congr ?_ ?_
      fun _ => id
    · intro err
      simp
    · rintro t ⟨_, heq⟩
      cases heq
      exact .inl rfl
  · rename_i hpair
    refine Decides.throw (.inl ⟨?_, rfl⟩)
    intro hlength
    obtain ⟨a, b, rfl⟩ := List.length_eq_two.1 hlength
    exact hpair a b rfl

theorem decides_compileDelete (place : DirectivePlace) (field : String) :
    Decides (fun err => field = idField ∧ err = .deletesId place.table place.field place.key)
      (fun _ => False) (Entry.delete field).Gives (compileDelete place field) := by
  unfold compileDelete
  split
  · rename_i h
    exact Decides.throw ⟨h, rfl⟩
  · rename_i h
    exact (Decides.pure (.delete h)).congr (by simp [h]) (fun _ => id) fun _ => id

theorem decides_compileRename (place : DirectivePlace) (source target : String) :
    Decides
      (fun err => (source = idField ∨ target = idField) ∧
        err = .renamesId place.table place.field place.key)
      (fun _ => False) (Entry.rename source target).Gives (compileRename place source target) := by
  unfold compileRename
  split
  · rename_i h
    exact Decides.throw ⟨h, rfl⟩
  · rename_i h
    exact (Decides.pure (.rename (not_or.1 h).1 (not_or.1 h).2)).congr (by simp [h]) (fun _ => id) fun _ => id

/--
Edits compile if they have no fault: each entry gives its edit, in the order in which they are applied, and
the patterns are in the cache then.
-/
theorem decides_compile (place : DirectivePlace) (e : Edits) :
    Decides (e.Fault place) e.HasPattern (List.Forall₂ Entry.Gives e.entries) (e.compile place) := by
  have hassigns := Decides.mapM e.assign.entries fun a _ => decides_compileAssign a.1 a.2
  have hregexes := Decides.mapM e.regex.entries fun a _ => decides_compileRegex a.1 a.2
  have hdeletes := Decides.mapM e.delete fun f _ => decides_compileDelete place f
  have hrenames := Decides.mapM e.rename.entries fun a _ => decides_compileRename place a.1 a.2
  unfold compile
  refine (hassigns.bind fun assigns ha => hregexes.bind fun regexes hr => hdeletes.bind fun deletes hd =>
    hrenames.bind fun renames hn => Decides.pure ?gives).congr ?faults ?texts fun _ => id
  case gives =>
    have happends : List.Forall₂ Entry.Gives (e.append.entries.map fun a => .append a.1 a.2)
        (e.append.entries.map fun a => .append a.1 a.2) := by
      rw [List.forall₂_map_left_iff, List.forall₂_map_right_iff]
      exact List.forall₂_same.2 fun a _ => .append a.1 a.2
    have hprepends : List.Forall₂ Entry.Gives (e.prepend.entries.map fun a => .prepend a.1 a.2)
        (e.prepend.entries.map fun a => .prepend a.1 a.2) := by
      rw [List.forall₂_map_left_iff, List.forall₂_map_right_iff]
      exact List.forall₂_same.2 fun a _ => .prepend a.1 a.2
    have hfirst := List.rel_append (List.rel_append (List.forall₂_map_left_iff.2 ha) happends) hprepends
    have hlast := List.rel_append (List.rel_append hfirst (List.forall₂_map_left_iff.2 hr))
      (List.forall₂_map_left_iff.2 hd)
    exact List.rel_append hlast (List.forall₂_map_left_iff.2 hn)
  case faults =>
    intro err
    constructor
    · rintro (⟨⟨field, v⟩, h, text, cause, rfl, hc, rfl⟩ | ⟨⟨field, pair⟩, h, hpair⟩ | ⟨field, h, rfl, rfl⟩ |
        ⟨⟨source, target⟩, h, hid, rfl⟩ | h)
      · exact .expression h hc
      · rcases hpair with ⟨hn, rfl⟩ | ⟨text, replacement, rfl, cause, hc, rfl⟩
        · exact .pair h hn
        · exact .pattern ⟨field, replacement, h⟩ hc
      · exact .deletesId h
      · exact .renamesId h hid
      · exact h.elim
    · rintro (⟨h, hc⟩ | ⟨h, hn⟩ | ⟨⟨field, replacement, h⟩, hc⟩ | h | ⟨h, hid⟩)
      · exact .inl ⟨_, h, _, _, rfl, hc, rfl⟩
      · exact .inr (.inl ⟨_, h, .inl ⟨hn, rfl⟩⟩)
      · exact .inr (.inl ⟨_, h, .inr ⟨_, _, rfl, _, hc, rfl⟩⟩)
      · exact .inr (.inr (.inl ⟨_, h, rfl, rfl⟩))
      · exact .inr (.inr (.inr (.inl ⟨_, h, hid, rfl⟩)))
  case texts =>
    rintro t ⟨field, replacement, h⟩
    exact .inr (.inl ⟨_, h, replacement, rfl⟩)

end Edits

/-! ## Directives -/

/-- The edits of a directive with its place in the document and its comparison. -/
structure PlacedEdits where
  place : DirectivePlace
  comparison : Comparison
  edits : Edits

/-- Where a directive stands: its table, field, comparison and key. -/
abbrev DirectiveLabel := DirectivePlace × Comparison

namespace PlacedEdits

def label (x : PlacedEdits) : DirectiveLabel := (x.place, x.comparison)

/-- What is wrong with a directive: its key, if that is a pattern, or its edits. -/
inductive Fault (x : PlacedEdits) : DirectiveError → Prop where
  | key {cause : Pattern.Error} (h : x.comparison.kind = .regex)
    (hc : PatternSyntax.compile x.place.key = .error cause) : Fault x (.badPattern x.place.key cause)
  | edits {e : DirectiveError} (h : x.edits.Fault x.place e) : Fault x e

/-- The patterns that a directive needs. -/
def Needs (x : PlacedEdits) (text : String) : Prop :=
  (x.comparison.kind = .regex ∧ text = x.place.key) ∨ x.edits.HasPattern text

/-- A compiled directive as the document has it, with one edit for each entry. -/
structure Gives (x : PlacedEdits) (d : CompiledDirective) : Prop where
  comparison : d.comparison = x.comparison
  key : d.key = x.place.key
  required : d.required = x.edits.required
  edits : List.Forall₂ Edits.Entry.Gives x.edits.entries d.edits

end PlacedEdits

/-- A directive compiles if it has no fault, and all its patterns are in the cache then. -/
theorem ConversionProgram.decides_compileDirective (x : PlacedEdits) :
    Decides x.Fault x.Needs x.Gives (compileDirective x.place x.comparison x.edits) := by
  have hedits : Decides (x.edits.Fault x.place) x.edits.HasPattern x.Gives
      (do return ⟨x.comparison, x.place.key, ← x.edits.compile x.place, x.edits.required⟩) := by
    refine ((Edits.decides_compile x.place x.edits).bind fun edits hedits => Decides.pure
      ⟨rfl, rfl, rfl, hedits⟩).congr ?_ ?_ fun _ => id
    · simp
    · exact fun t => .inl
  unfold compileDirective
  split
  · rename_i hkind
    refine ((decides_require x.place.key).bind fun _ _ => hedits).congr ?_ ?_ fun _ => id
    · intro e
      constructor
      · rintro (⟨cause, hc, rfl⟩ | h)
        · exact .key hkind hc
        · exact .edits h
      · rintro (⟨-, hc⟩ | h)
        · exact .inl ⟨_, hc, rfl⟩
        · exact .inr h
    · rintro t (⟨-, ht⟩ | ht)
      · exact .inl ht
      · exact .inr ht
  · rename_i hkind
    refine hedits.congr ?_ ?_ fun _ => id
    · intro e
      constructor
      · exact .edits
      · rintro (⟨hregex, -⟩ | h)
        · exact absurd hregex hkind
        · exact h
    · rintro t (⟨hregex, -⟩ | ht)
      · exact absurd hregex hkind
      · exact ht

/-! ## Patterns at run time -/

/-- A text is cached with the pattern it is read as. -/
def PatternCache.Holds (cache : PatternCache) (text : String) : Prop :=
  ∃ p, PatternSyntax.compile text = .ok p ∧ cache.get? text = some p

/-- All patterns that a compiled directive looks up are there. -/
structure CompiledDirective.Ready (cache : PatternCache) (x : CompiledDirective) : Prop where
  key : x.comparison.kind = .regex → cache.Holds x.key
  edits : ∀ edit ∈ x.edits, ∀ t ∈ edit.pattern?, cache.Holds t

theorem PatternCache.Sound.holds {cache : PatternCache} (h : cache.Sound) {text : String}
    (ht : text ∈ cache.keys) : cache.Holds text := by
  rw [← OrderedMap.contains_eq_true_iff] at ht
  obtain ⟨p, hp⟩ := Option.isSome_iff_exists.1 ht
  exact ⟨p, h text p hp, hp⟩

theorem CompiledDirective.Ready.matchesOf_eq {cache : PatternCache} {x : CompiledDirective}
    (h : x.Ready cache) (m : Matchers) (hkind : x.comparison.kind = .regex) :
    ∃ p, PatternSyntax.compile x.key = .ok p ∧ ∀ cs, Run.matchesOf m cache x cs = matchesBy (m.finds p) cs := by
  obtain ⟨p, hc, hp⟩ := h.key hkind
  refine ⟨p, hc, fun cs => ?_⟩
  unfold Run.matchesOf
  rw [if_pos hkind, hp]

theorem Edit.apply_ne_notCompiled {cache : PatternCache} {edit : Edit}
    (h : ∀ t ∈ edit.pattern?, cache.Holds t) (m : Matchers) (r : Record) (text : String) :
    edit.apply m cache r ≠ .failed (.notCompiled text) := by
  cases edit with
  | regex field pattern replacement =>
    obtain ⟨p, -, hp⟩ := h pattern rfl
    show applyRegex m cache r field pattern replacement ≠ _
    unfold applyRegex
    rw [hp]
    dsimp only
    repeat' split
    all_goals
      intro hf
      cases hf
  | assign field value =>
    show applyAssign m r field value ≠ _
    unfold applyAssign
    dsimp only
    repeat' split
    all_goals
      intro hf
      cases hf
  | append field value | prepend field value =>
    show applyJoin r field _ ≠ _
    unfold applyJoin
    repeat' split
    all_goals
      intro hf
      cases hf
  | delete field =>
    show applyDelete r field ≠ _
    unfold applyDelete
    split
    all_goals
      intro hf
      cases hf
  | rename source target =>
    show applyRename r source target ≠ _
    unfold applyRename
    repeat' split
    all_goals
      intro hf
      cases hf

theorem Edit.applyAll_ne_notCompiled {cache : PatternCache} {edits : List Edit}
    (h : ∀ edit ∈ edits, ∀ t ∈ edit.pattern?, cache.Holds t) (m : Matchers) (r : Record) (text : String) :
    (applyAll m cache edits r).2 ≠ .failed (.notCompiled text) := by
  induction edits generalizing r with
  | nil => exact nofun
  | cons edit edits ih =>
    have hone := apply_ne_notCompiled (h edit List.mem_cons_self) m r text
    replace ih := fun r => ih (fun e he => h e (List.mem_cons_of_mem edit he)) r
    unfold applyAll
    cases ho : edit.apply m cache r with
    | done r' => exact ih r'
    | skipped reason => exact ih r
    | failed f =>
      rw [ho] at hone
      exact hone
    | aborted => exact nofun

end TagHarvest
