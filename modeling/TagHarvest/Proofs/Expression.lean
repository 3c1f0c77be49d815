/-
Expressions say all of their source. Each segment is written in one way, a pattern in one of two quotes, and
the segments of an expression, written one after the other, are its source: a `#` that opens no placeholder
stays in the text, which is never empty and never next to another text. So a value is the source with what
its placeholders stand for in their places, and there is one exactly when each of them stands for something.
-/
import TagHarvest.Expression
import TagHarvest.Proofs.Effects
import TagHarvest.Proofs.OrderedMap
import Mathlib.Data.List.Chain
import Mathlib.Data.List.TakeWhile

namespace TagHarvest

namespace Segment

/-- The ways in which a segment is written. -/
inductive Written : Segment → List Char → Prop
  | literal (text : String) : Written (.literal text) text.toList
  | field (name : String) : Written (.field name) ('#' :: (name.toList ++ ['#']))
  | pattern (p : Pattern) {quote : Char} (hquote : quote ∈ ['"', '\'']) :
    Written (.pattern p) ('#' :: 'r' :: quote :: (p.text.toList ++ [quote, '#']))

/-- A segment as an expression can hold it. -/
def Proper [PatternSyntax] : Segment → Prop
  | literal text => text ≠ ""
  | field name => name ≠ "" ∧ ∀ c ∈ name.toList, c ≠ '#' ∧ Text.isBlank c = false
  | pattern p => PatternSyntax.compile p.text = .ok p

/-- True of a segment that is text. -/
def IsLiteral : Segment → Prop
  | literal _ => True
  | _ => False

/-- What a segment stands for on a record: a text, the value of a field, or that of the only field found. -/
inductive Resolves (finds : Pattern → String → Bool) (r : Record) : Segment → FieldValue → Prop
  | literal (text : String) : Resolves finds r (.literal text) (.scalar text)
  | field {name : String} {v : FieldValue} (h : r.get? name = some v) : Resolves finds r (.field name) v
  | pattern {p : Pattern} {name : String} {v : FieldValue} (h : r.get? name = some v)
    (honly : ∀ other ∈ r.keys, finds p other = true ↔ other = name) : Resolves finds r (.pattern p) v

end Segment

namespace Expression

open Segment

/-! ## Placeholders -/

theorem eq_of_patternBody? {quote : Char} {cs text rest : List Char}
    (h : patternBody? quote cs = some (text, rest)) : cs = text ++ quote :: '#' :: rest := by
  induction cs generalizing text with
  | nil => cases h
  | cons c cs ih =>
    have hstep (h : (patternBody? quote cs).map (fun p => (c :: p.1, p.2)) = some (text, rest)) :
        c :: cs = text ++ quote :: '#' :: rest := by
      obtain ⟨⟨t, r⟩, hbody, heq⟩ := Option.map_eq_some_iff.1 h
      cases heq
      rw [ih hbody, List.cons_append]
    unfold patternBody? at h
    split at h
    · split at h
      · rename_i hquote
        cases h
        rw [hquote, List.nil_append]
      · exact hstep h
    · exact hstep h

theorem eq_of_fieldBody? {cs name rest : List Char} (h : fieldBody? cs = some (name, rest)) :
    cs = name ++ '#' :: rest ∧ name ≠ [] ∧ ∀ c ∈ name, c ≠ '#' ∧ Text.isBlank c = false := by
  unfold fieldBody? at h
  dsimp only at h
  split at h
  · rename_i rest' hdrop
    split at h
    · cases h
    · rename_i hname
      cases h
      rw [Bool.or_eq_true, not_or, List.isEmpty_iff, List.any_eq_true, not_exists] at hname
      refine ⟨?_, hname.1, fun c hc => ⟨by simpa using List.mem_takeWhile_imp hc, ?_⟩⟩
      · rw [← hdrop, List.takeWhile_append_dropWhile]
      · exact Bool.not_eq_true _ ▸ fun hblank => hname.2 c ⟨hc, hblank⟩
  · cases h

section

variable [PatternSyntax]

/-- A placeholder stands at the front of the text after its `#`, as its segment is written. -/
theorem written_of_placeholder? {cs rest : List Char} {o : Opened} {s : Segment}
    (h : placeholder? cs = some (o, rest)) (hs : o.segment = .ok s) :
    (∃ spelling, s.Written ('#' :: spelling) ∧ cs = spelling ++ rest) ∧ s.Proper ∧ ¬ s.IsLiteral := by
  have hpattern {quote : Char} {body : List Char} (hquote : quote ∈ ['"', '\''])
      (h : (patternBody? quote body).map (fun p => (Opened.pattern p.1, p.2)) = some (o, rest)) :
      (∃ spelling, s.Written ('#' :: spelling) ∧ 'r' :: quote :: body = spelling ++ rest) ∧ s.Proper ∧
        ¬ s.IsLiteral := by
    obtain ⟨⟨text, rest'⟩, hbody, heq⟩ := Option.map_eq_some_iff.1 h
    cases heq
    cases hp : PatternSyntax.compile (String.ofList text) with
    | error e =>
      simp only [Opened.segment, hp] at hs
      cases hs
    | ok p =>
      simp only [Opened.segment, hp] at hs
      cases hs
      have htext := PatternSyntax.text_of_compile hp
      refine ⟨⟨_, .pattern p hquote, ?_⟩, ?_, id⟩
      · rw [eq_of_patternBody? hbody, htext, String.toList_ofList]
        simp
      · rw [← htext] at hp
        exact hp
  unfold placeholder? at h
  split at h
  · exact hpattern List.mem_cons_self h
  · exact hpattern (by decide) h
  · obtain ⟨⟨name, rest'⟩, hbody, heq⟩ := Option.map_eq_some_iff.1 h
    cases heq
    cases hs
    obtain ⟨rfl, hname, hall⟩ := eq_of_fieldBody? hbody
    refine ⟨⟨_, .field _, ?_⟩, ⟨by simpa using hname, by simpa using hall⟩, id⟩
    rw [String.toList_ofList, List.append_assoc, List.singleton_append]

/-! ## The source of an expression -/

/-- Segments that say all of a text, each as an expression can hold it and no two texts in a row. -/
structure Says (segments : List Segment) (source : List Char) : Prop where
  written : ∃ spellings, List.Forall₂ Written segments spellings ∧ source = spellings.flatten
  proper : ∀ s ∈ segments, s.Proper
  apart : segments.IsChain fun s t => ¬ (s.IsLiteral ∧ t.IsLiteral)

namespace Says

variable {segments : List Segment} {source spelling : List Char} {s : Segment}

theorem cons (h : Says segments source) (hs : s.Written spelling) (hproper : s.Proper)
    (hfirst : ∀ t ∈ segments.head?, ¬ (s.IsLiteral ∧ t.IsLiteral)) :
    Says (s :: segments) (spelling ++ source) := by
  obtain ⟨spellings, hwritten, rfl⟩ := h.written
  exact ⟨⟨spelling :: spellings, .cons hs hwritten, rfl⟩, List.forall_mem_cons.2 ⟨hproper, h.proper⟩,
    List.isChain_cons.2 ⟨hfirst, h.apart⟩⟩

/-- A text in front of what starts with no text. -/
theorem withLiteral (h : Says segments source) (hfirst : ∀ t ∈ segments.head?, ¬ t.IsLiteral)
    (text : List Char) : Says (withLiteral text segments) (text ++ source) := by
  unfold Expression.withLiteral
  split
  · rename_i hempty
    rw [List.isEmpty_iff.1 hempty]
    exact h
  · rename_i hfilled
    have hwritten := Written.literal (String.ofList text)
    rw [String.toList_ofList] at hwritten
    refine h.cons hwritten ?_ fun t ht hboth => hfirst t ht hboth.2
    simpa [Proper] using hfilled

end Says

/-- What is read of a text: the text in front, and segments that say the rest and start with no text. -/
def Reads (cs text : List Char) (segments : List Segment) : Prop :=
  ∃ rest, cs = text ++ rest ∧ Says segments rest ∧ ∀ s ∈ segments.head?, ¬ s.IsLiteral

theorem Reads.cons {cs text : List Char} {segments : List Segment} (h : Reads cs text segments) (c : Char) :
    Reads (c :: cs) (c :: text) segments := by
  obtain ⟨rest, rfl, hmeant, hfirst⟩ := h
  exact ⟨rest, rfl, hmeant, hfirst⟩

/-- A placeholder in front of what is read of the text after it. -/
theorem Reads.placeholder {cs rest text : List Char} {segments : List Segment} {o : Opened} {s : Segment}
    (h : Reads rest text segments) (hopen : placeholder? cs = some (o, rest)) (hs : o.segment = .ok s) :
    Reads ('#' :: cs) [] (s :: Expression.withLiteral text segments) := by
  obtain ⟨after, rfl, hmeant, hfirst⟩ := h
  obtain ⟨⟨spelling, hwritten, rfl⟩, hproper, hplaceholder⟩ := written_of_placeholder? hopen hs
  refine ⟨'#' :: spelling ++ (text ++ after), rfl, ?_, ?_⟩
  · exact (hmeant.withLiteral hfirst text).cons hwritten hproper fun t _ hboth => hplaceholder hboth.1
  · rintro t ⟨⟩
    exact hplaceholder

theorem reads_of_scan {cs text : List Char} {segments : List Segment} (h : scan cs = .ok (text, segments)) :
    Reads cs text segments := by
  induction cs using scan.induct generalizing text segments with
  | case1 =>
    rw [scan] at h
    cases h
    exact ⟨[], rfl, ⟨⟨[], .nil, rfl⟩, nofun, .nil⟩, nofun⟩
  | case2 cs o rest hopen _ ih =>
    rw [scan.eq_def] at h
    dsimp only at h
    rw [if_pos rfl] at h
    split at h
    · rename_i o' rest' hopen'
      rw [hopen] at hopen'
      cases hopen'
      obtain ⟨s, hs, h⟩ := except_bind_eq_ok h
      obtain ⟨⟨text', segments'⟩, hscan, h⟩ := except_bind_eq_ok h
      cases h
      exact (ih hscan).placeholder hopen hs
    · rename_i hopen'
      rw [hopen] at hopen'
      cases hopen'
  | case3 cs hopen ih =>
    rw [scan.eq_def] at h
    dsimp only at h
    rw [if_pos rfl] at h
    split at h
    · rename_i o' rest' hopen'
      rw [hopen] at hopen'
      cases hopen'
    · obtain ⟨⟨text', segments'⟩, hscan, h⟩ := except_bind_eq_ok h
      cases h
      exact (ih hscan).cons '#'
  | case4 c cs hc ih =>
    rw [scan.eq_def] at h
    dsimp only at h
    rw [if_neg hc] at h
    obtain ⟨⟨text', segments'⟩, hscan, h⟩ := except_bind_eq_ok h
    cases h
    exact (ih hscan).cons c

/-- The segments of an expression say its source. -/
theorem says_of_compile {source : String} {e : Expression} (h : compile source = .ok e) :
    e.source = source ∧ Says e.segments source.toList := by
  unfold compile at h
  split at h
  · rename_i text segments hscan
    cases h
    obtain ⟨rest, hsource, hmeant, hfirst⟩ := reads_of_scan hscan
    refine ⟨rfl, ?_⟩
    rw [hsource]
    exact hmeant.withLiteral hfirst text
  · cases h

end

/-! ## Values -/

end Expression

/-- One entry passes a test of the keys exactly when its key is the only one that does. -/
theorem OrderedMap.filter_entries_eq_singleton_iff {α β : Type} [DecidableEq α] {m : OrderedMap α β}
    {p : α → Bool} {e : α × β} :
    m.entries.filter (fun e => p e.1) = [e] ↔
      m.get? e.1 = some e.2 ∧ ∀ k ∈ m.keys, p k = true ↔ k = e.1 := by
  constructor
  · intro h
    have hmem (e' : α × β) : e' ∈ m.entries ∧ p e'.1 = true ↔ e' = e :=
      calc e' ∈ m.entries ∧ p e'.1 = true
          ↔ e' ∈ m.entries.filter fun e => p e.1 := by rw [List.mem_filter]
        _ ↔ e' = e := by rw [h, List.mem_singleton]
    obtain ⟨he, hp⟩ := (hmem e).2 rfl
    refine ⟨get?_of_mem he, fun k hk => ⟨fun hpk => ?_, fun hkey => hkey ▸ hp⟩⟩
    obtain ⟨e', he', rfl⟩ := List.mem_map.1 hk
    rw [(hmem e').1 ⟨he', hpk⟩]
  · rintro ⟨hget, honly⟩
    have he : e ∈ m.entries := get?_eq_some_iff.1 hget
    have hnodup : (m.entries.filter fun e => p e.1).Nodup := (List.Nodup.of_map _ m.nodup).filter _
    refine List.perm_singleton.1 ((List.perm_ext_iff_of_nodup hnodup (List.nodup_singleton e)).2 fun e' => ?_)
    rw [List.mem_filter, List.mem_singleton]
    constructor
    · rintro ⟨he', hp⟩
      have hkey := (honly e'.1 (List.mem_map_of_mem he')).1 hp
      exact List.inj_on_of_nodup_map m.nodup he' he hkey
    · rintro rfl
      exact ⟨he, (honly e'.1 (List.mem_map_of_mem he)).2 rfl⟩

namespace Expression

open Segment

section Values

variable {finds : Pattern → String → Bool} {r : Record} {s : Segment} {v : FieldValue}

theorem resolve_eq_ok_iff : resolve finds r s = .ok v ↔ s.Resolves finds r v := by
  cases s with
  | literal text =>
    constructor
    · rintro ⟨⟩
      exact .literal text
    · rintro ⟨⟩
      rfl
  | field name =>
    dsimp only [resolve]
    cases hget : r.get? name with
    | none =>
      refine ⟨nofun, ?_⟩
      rintro (_ | ⟨h⟩)
      rw [hget] at h
      cases h
    | some w =>
      constructor
      · rintro ⟨⟩
        exact .field hget
      · rintro (_ | ⟨h⟩)
        rw [hget] at h
        cases h
        rfl
  | pattern p =>
    dsimp only [resolve]
    constructor
    · intro h
      split at h
      · rename_i e hfilter
        cases h
        obtain ⟨hget, honly⟩ := OrderedMap.filter_entries_eq_singleton_iff.1 hfilter
        exact .pattern hget honly
      · cases h
      · cases h
    · rintro (_ | _ | ⟨hget, honly⟩)
      rw [OrderedMap.filter_entries_eq_singleton_iff (e := (_, v)).2 ⟨hget, honly⟩]

/-- What a segment stands for is there unless it names no field, or a pattern not exactly one. -/
theorem exists_resolves_iff :
    (∃ v, s.Resolves finds r v) ↔
      (∀ name, s = .field name → name ∈ r.keys) ∧
        ∀ p, s = .pattern p → ∃! name, name ∈ r.keys ∧ finds p name = true := by
  cases s with
  | literal text => exact ⟨fun _ => ⟨nofun, nofun⟩, fun _ => ⟨_, .literal text⟩⟩
  | field name =>
    constructor
    · rintro ⟨v, h⟩
      cases h with
      | field h =>
        refine ⟨?_, nofun⟩
        rintro _ ⟨⟩
        exact OrderedMap.mem_keys_of_get? h
    · rintro ⟨hfield, -⟩
      obtain ⟨e, he, hname⟩ := List.mem_map.1 (hfield name rfl)
      exact ⟨e.2, .field (hname ▸ OrderedMap.get?_of_mem he)⟩
  | pattern p =>
    constructor
    · rintro ⟨v, h⟩
      cases h with
      | pattern h honly =>
        refine ⟨nofun, ?_⟩
        rintro _ ⟨⟩
        have hkey := OrderedMap.mem_keys_of_get? h
        refine ⟨_, ⟨hkey, (honly _ hkey).2 rfl⟩, ?_⟩
        rintro other ⟨hother, hfinds⟩
        exact (honly other hother).1 hfinds
    · rintro ⟨-, hpattern⟩
      obtain ⟨name, ⟨hkey, hfinds⟩, hunique⟩ := hpattern p rfl
      obtain ⟨e, he, rfl⟩ := List.mem_map.1 hkey
      refine ⟨e.2, .pattern (OrderedMap.get?_of_mem he) fun other hother => ?_⟩
      refine ⟨fun h => hunique other ⟨hother, h⟩, ?_⟩
      rintro rfl
      exact hfinds

/-- The texts of a value joined with commas. -/
def joined (v : FieldValue) : String := ",".intercalate v.texts

theorem segmentText_eq_ok_iff {text : String} :
    segmentText finds r s = .ok text ↔ ∃ v, s.Resolves finds r v ∧ text = joined v := by
  unfold segmentText
  constructor
  · intro h
    cases hv : resolve finds r s with
    | error e =>
      rw [hv] at h
      cases h
    | ok v =>
      rw [hv] at h
      cases h
      exact ⟨v, resolve_eq_ok_iff.1 hv, rfl⟩
  · rintro ⟨v, hv, rfl⟩
    rw [resolve_eq_ok_iff.2 hv]
    rfl

/-- The texts of segments inside a longer text. -/
theorem mapM_segmentText_eq_ok_iff {segments : List Segment} {texts : List String} :
    segments.mapM (segmentText finds r) = .ok texts ↔
      ∃ values, List.Forall₂ (Resolves finds r) segments values ∧ texts = values.map joined := by
  induction segments generalizing texts with
  | nil =>
    rw [List.mapM_nil]
    constructor
    · rintro ⟨⟩
      exact ⟨[], .nil, rfl⟩
    · rintro ⟨_, ⟨⟩, rfl⟩
      rfl
  | cons s segments ih =>
    rw [List.mapM_cons]
    constructor
    · intro h
      obtain ⟨text, htext, h⟩ := except_bind_eq_ok h
      obtain ⟨texts', htexts, h⟩ := except_bind_eq_ok h
      cases h
      obtain ⟨v, hv, rfl⟩ := segmentText_eq_ok_iff.1 htext
      obtain ⟨values, hvalues, rfl⟩ := ih.1 htexts
      exact ⟨v :: values, .cons hv hvalues, rfl⟩
    · rintro ⟨_, hall, rfl⟩
      cases hall with
      | cons hv hvalues =>
        rw [segmentText_eq_ok_iff.2 ⟨_, hv, rfl⟩, ih.2 ⟨_, hvalues, rfl⟩]
        rfl

/-- A segment that is all of an expression and no text. -/
def Lone (segments : List Segment) (s : Segment) : Prop := segments = [s] ∧ ¬ s.IsLiteral

/-- The value of a lone placeholder is what it stands for. -/
theorem evaluate_of_lone {e : Expression} (h : Lone e.segments s) :
    evaluate finds e r = .ok v ↔ s.Resolves finds r v := by
  unfold evaluate
  rw [h.1]
  exact resolve_eq_ok_iff

/-- Any other value is the text of the segments with what they stand for in their places. -/
theorem evaluate_of_not_lone {e : Expression} (h : ∀ s, ¬ Lone e.segments s) :
    evaluate finds e r = .ok v ↔ ∃ values, List.Forall₂ (Resolves finds r) e.segments values ∧
      v = .scalar (String.join (values.map joined)) := by
  unfold evaluate
  split
  · rename_i s hsegments
    rw [hsegments, resolve_eq_ok_iff]
    cases s with
    | literal text =>
      -- a text alone is joined from itself
      have hjoin : String.join ([FieldValue.scalar text].map joined) = text := by
        simp [joined, FieldValue.texts, String.join]
      constructor
      · rintro ⟨⟩
        exact ⟨[.scalar text], .cons (.literal text) .nil, by rw [hjoin]⟩
      · rintro ⟨values, hvalues, rfl⟩
        cases hvalues with
        | cons hv hrest =>
          cases hrest
          cases hv
          rw [hjoin]
          exact .literal text
    | field name => exact absurd ⟨hsegments, id⟩ (h _)
    | pattern p => exact absurd ⟨hsegments, id⟩ (h _)
  · constructor
    · intro heval
      cases htexts : e.segments.mapM (segmentText finds r) with
      | error _ =>
        rw [htexts] at heval
        cases heval
      | ok texts =>
        rw [htexts] at heval
        cases heval
        obtain ⟨values, hvalues, rfl⟩ := mapM_segmentText_eq_ok_iff.1 htexts
        exact ⟨values, hvalues, rfl⟩
    · rintro ⟨values, hvalues, rfl⟩
      rw [mapM_segmentText_eq_ok_iff.2 ⟨values, hvalues, rfl⟩]
      rfl

/-- There is a value exactly when each segment stands for something. -/
theorem exists_evaluate_iff {e : Expression} :
    (∃ v, evaluate finds e r = .ok v) ↔ ∀ s ∈ e.segments, ∃ v, s.Resolves finds r v := by
  by_cases hlone : ∃ s, Lone e.segments s
  · obtain ⟨s, hlone⟩ := hlone
    rw [hlone.1, List.forall_mem_singleton]
    exact exists_congr fun v => evaluate_of_lone hlone
  · rw [← exists_forall₂_iff]
    constructor
    · rintro ⟨v, hv⟩
      obtain ⟨values, hvalues, -⟩ := (evaluate_of_not_lone (not_exists.1 hlone)).1 hv
      exact ⟨values, hvalues⟩
    · rintro ⟨values, hvalues⟩
      exact ⟨_, (evaluate_of_not_lone (not_exists.1 hlone)).2 ⟨values, hvalues, rfl⟩⟩

end Values

theorem hasPlaceholders_eq_false_iff {e : Expression} :
    e.hasPlaceholders = false ↔ ∀ s ∈ e.segments, s.IsLiteral := by
  unfold hasPlaceholders
  rw [List.any_eq_false]
  refine forall₂_congr fun s _ => ?_
  cases s <;> simp [IsLiteral]

/-- Without placeholders there is one text at most, which is all of the source. -/
theorem evaluate_of_no_placeholders [PatternSyntax] {source : String} {e : Expression}
    (h : Says e.segments source.toList) (hplain : e.hasPlaceholders = false) (finds : Pattern → String → Bool)
    (r : Record) :
    evaluate finds e r = .ok (.scalar source) := by
  obtain ⟨spellings, hwritten, hsource⟩ := h.written
  have hliteral := hasPlaceholders_eq_false_iff.1 hplain
  have hapart := h.apart
  unfold evaluate
  generalize e.segments = segments at hwritten hliteral hapart
  match segments with
  | [] =>
    cases hwritten
    rw [String.toList_eq_nil_iff.1 hsource]
    rfl
  | [.literal text] =>
    obtain ⟨spelling, rest, htext, hrest, rfl⟩ := List.forall₂_cons_left_iff.1 hwritten
    cases htext
    cases hrest
    rw [List.flatten_singleton, String.toList_inj] at hsource
    rw [hsource]
    rfl
  | [.field name] => exact (hliteral _ List.mem_cons_self).elim
  | [.pattern p] => exact (hliteral _ List.mem_cons_self).elim
  | s :: t :: rest =>
    have hpair := (List.isChain_cons.1 hapart).1 t rfl
    exact absurd ⟨hliteral s (by simp), hliteral t (by simp)⟩ hpair

/--
The segments of an expression say its source: written one after the other they are the source, with no empty
text and no two texts in a row. On a record it has a value exactly when each field placeholder names a field
and each pattern finds exactly one; a lone placeholder has the value of its field, and any other expression
the text of its source with the texts of what they stand for in the places of the placeholders.
-/
theorem compile_faithful [PatternSyntax] {source : String} {e : Expression} (h : compile source = .ok e) :
    Says e.segments source.toList ∧ ∀ (finds : Pattern → String → Bool) (r : Record),
      ((∃ v, evaluate finds e r = .ok v) ↔
        (∀ name, .field name ∈ e.segments → name ∈ r.keys) ∧
          ∀ p, .pattern p ∈ e.segments → ∃! name, name ∈ r.keys ∧ finds p name = true) ∧
      (∀ s v, Lone e.segments s → (evaluate finds e r = .ok v ↔ s.Resolves finds r v)) ∧
      (∀ v, (∀ s, ¬ Lone e.segments s) → (evaluate finds e r = .ok v ↔
        ∃ values, List.Forall₂ (Resolves finds r) e.segments values ∧
          v = .scalar (String.join (values.map joined)))) ∧
      (e.hasPlaceholders = false → evaluate finds e r = .ok (.scalar source)) := by
  obtain ⟨-, hmeant⟩ := says_of_compile h
  refine ⟨hmeant, fun finds r => ⟨?_, fun s v hlone => evaluate_of_lone hlone,
    fun v hlone => evaluate_of_not_lone hlone, fun hplain => evaluate_of_no_placeholders hmeant hplain finds r⟩⟩
  rw [exists_evaluate_iff]
  constructor
  · intro hall
    exact ⟨fun name hmem => (exists_resolves_iff.1 (hall _ hmem)).1 name rfl,
      fun p hmem => (exists_resolves_iff.1 (hall _ hmem)).2 p rfl⟩
  · rintro ⟨hfields, hpatterns⟩ s hs
    refine exists_resolves_iff.2 ⟨?_, ?_⟩
    · rintro name rfl
      exact hfields name hs
    · rintro p rfl
      exact hpatterns p hs

/-- A sign that is text, a field, and a pattern in single quotes. -/
theorem compile_faithful_mixed :
    let source := "# #id#: #r'^w'#"
    let r : Record := ⟨[("id", .scalar "S1"), ("w", .list ["5", "6"])], by decide⟩
    ∃ e, compile source = .ok e ∧ Says e.segments source.toList ∧
      evaluate Pattern.finds e r = .ok (.scalar "# S1: 5,6") ∧
      ∀ p, .pattern p ∈ e.segments → ∃! name, name ∈ r.keys ∧ p.finds name = true := by
  intro source r
  have hvalue : (compile source).toOption.map (evaluate Pattern.finds · r) = some (.ok (.scalar "# S1: 5,6")) := by
    decide +kernel
  obtain ⟨e, he, hvalue⟩ := Option.map_eq_some_iff.1 hvalue
  have hcompile : compile source = .ok e := by
    cases hsource : compile source with
    | error _ =>
      rw [hsource] at he
      cases he
    | ok e' =>
      rw [hsource] at he
      cases he
      rfl
  obtain ⟨hmeant, hevaluate⟩ := compile_faithful hcompile
  exact ⟨e, hcompile, hmeant, hvalue, ((hevaluate Pattern.finds r).1.1 ⟨_, hvalue⟩).2⟩

end Expression
end TagHarvest
