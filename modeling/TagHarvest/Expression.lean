/-
Expressions: texts with placeholders that a record fills in. `#name#` stands for the field of that name,
and `#r"pattern"#` or `#r'pattern'#` for the only field whose name matches. A `#` that opens no
placeholder is text.
-/
import TagHarvest.Pattern.Syntax
import TagHarvest.Record.Store
import TagHarvest.Text.Quoted

namespace TagHarvest

/-- One piece of an expression. -/
inductive Segment where
  | literal (text : String)
  | field (name : String)
  | pattern (p : Pattern)

/-- Why an expression cannot be read, or not be evaluated on a record. -/
inductive ExpressionError where
  | malformed (source : String) (cause : Pattern.Error)
  | missingField (name : String)
  | noFieldMatch (pattern : String)
  | ambiguousFieldMatch (pattern : String) (fields : List String)
  deriving DecidableEq, Repr

namespace ExpressionError

def message : ExpressionError → String
  | malformed source cause => "Malformed expression '" ++ source ++ "': " ++ cause.message
  | missingField name => "Field '" ++ name ++ "' is not present in the record"
  | noFieldMatch p => "Pattern '" ++ p ++ "' matches no field in the record"
  | ambiguousFieldMatch p fields =>
    "Pattern '" ++ p ++ "' matches more than one field: " ++ Text.quotedList fields

end ExpressionError

structure Expression where
  source : String
  segments : List Segment

namespace Expression

/-- The text between a quote and the next pair of that quote and a `#`, and what follows the pair. -/
def patternBody? (quote : Char) : List Char → Option (List Char × List Char)
  | [] => none
  | c :: cs =>
    match cs with
    | '#' :: rest =>
      if c = quote then some ([], rest)
      else (patternBody? quote cs).map fun (t, r) => (c :: t, r)
    | _ => (patternBody? quote cs).map fun (t, r) => (c :: t, r)

/-- A name between two `#`, and what follows; it is not empty and has no blank. -/
def fieldBody? (cs : List Char) : Option (List Char × List Char) :=
  let name := cs.takeWhile (· != '#')
  match cs.dropWhile (· != '#') with
  | '#' :: rest => if name.isEmpty || name.any Text.isBlank then none else some (name, rest)
  | _ => none

/-- What a `#` opens, told from the text after it. -/
inductive Opened where
  | field (name : List Char)
  | pattern (text : List Char)

/-- The placeholder that a `#` opens, and what follows it; none if the `#` is text. -/
def placeholder? : List Char → Option (Opened × List Char)
  | 'r' :: '"' :: cs => (patternBody? '"' cs).map fun (t, r) => (.pattern t, r)
  | 'r' :: '\'' :: cs => (patternBody? '\'' cs).map fun (t, r) => (.pattern t, r)
  | cs => (fieldBody? cs).map fun (t, r) => (.field t, r)

theorem length_patternBody? {q : Char} {cs t r : List Char} (h : patternBody? q cs = some (t, r)) :
    r.length < cs.length := by
  induction cs generalizing t with
  | nil => simp [patternBody?] at h
  | cons c cs ih =>
    have step : ∀ {t}, (patternBody? q cs).map (fun (t, r) => (c :: t, r)) = some (t, r) →
        r.length < (c :: cs).length := by
      intro t ht
      simp only [Option.map_eq_some_iff, Prod.exists, Prod.mk.injEq] at ht
      obtain ⟨a, b, ht, rfl, rfl⟩ := ht
      have := ih ht
      simp only [List.length_cons]; omega
    unfold patternBody? at h
    split at h
    · split at h
      · simp only [Option.some.injEq, Prod.mk.injEq] at h
        obtain ⟨rfl, rfl⟩ := h
        simp only [List.length_cons]; omega
      · exact step h
    · exact step h

theorem length_fieldBody? {cs t r : List Char} (h : fieldBody? cs = some (t, r)) :
    r.length < cs.length := by
  unfold fieldBody? at h
  have := (List.dropWhile_sublist (l := cs) (· != '#')).length_le
  simp only at h
  split at h
  · rename_i rest hd
    rw [hd] at this
    split at h
    · cases h
    · simp only [Option.some.injEq, Prod.mk.injEq] at h
      obtain ⟨-, rfl⟩ := h
      simp only [List.length_cons] at this; omega
  · cases h

theorem length_placeholder? {cs r : List Char} {o : Opened} (h : placeholder? cs = some (o, r)) :
    r.length < cs.length := by
  unfold placeholder? at h
  split at h
  · simp only [Option.map_eq_some_iff, Prod.exists, Prod.mk.injEq] at h
    obtain ⟨a, b, h, -, rfl⟩ := h
    have := length_patternBody? h
    simp only [List.length_cons]; omega
  · simp only [Option.map_eq_some_iff, Prod.exists, Prod.mk.injEq] at h
    obtain ⟨a, b, h, -, rfl⟩ := h
    have := length_patternBody? h
    simp only [List.length_cons]; omega
  · simp only [Option.map_eq_some_iff, Prod.exists, Prod.mk.injEq] at h
    obtain ⟨a, b, h, -, rfl⟩ := h
    exact length_fieldBody? h

/-- Segments with a literal text put in front, if it has characters. -/
def withLiteral (text : List Char) (segments : List Segment) : List Segment :=
  if text.isEmpty then segments else .literal (String.ofList text) :: segments

section

variable [PatternSyntax]

/-- The segment of an opened placeholder. -/
def Opened.segment : Opened → Except Pattern.Error Segment
  | field name => .ok (.field (String.ofList name))
  | pattern text => (PatternSyntax.compile (String.ofList text)).map .pattern

/-- The literal text at the front of a source, and the segments after it. -/
def scan : List Char → Except Pattern.Error (List Char × List Segment)
  | [] => .ok ([], [])
  | c :: cs =>
    if c = '#' then
      match h : placeholder? cs with
      | some (o, rest) =>
        have := length_placeholder? h
        do
          let s ← o.segment
          let (text, segments) ← scan rest
          return ([], s :: withLiteral text segments)
      | none => do
        let (text, segments) ← scan cs
        return (c :: text, segments)
    else do
      let (text, segments) ← scan cs
      return (c :: text, segments)
termination_by cs => cs.length
decreasing_by all_goals simp only [List.length_cons] at *; omega

/-- Reads an expression, which fails only on a malformed pattern. -/
def compile (source : String) : Except ExpressionError Expression :=
  match scan source.toList with
  | .ok (text, segments) => .ok ⟨source, withLiteral text segments⟩
  | .error e => .error (.malformed source e)

end

/-- The placeholders are the segments that are not literal. -/
def hasPlaceholders (e : Expression) : Bool :=
  e.segments.any fun | .literal _ => false | _ => true

/-- The names of the field placeholders, in order. -/
def fieldNames (e : Expression) : List String :=
  e.segments.filterMap fun | .field name => some name | _ => none

/-- The value that a segment stands for; `finds` tells whether a pattern matches a field's name. -/
def resolve (finds : Pattern → String → Bool) (r : Record) :
    Segment → Except ExpressionError FieldValue
  | .literal text => .ok (.scalar text)
  | .field name =>
    match r.get? name with
    | some v => .ok v
    | none => .error (.missingField name)
  | .pattern p =>
    match r.entries.filter fun e => finds p e.1 with
    | [e] => .ok e.2
    | [] => .error (.noFieldMatch p.text)
    | es => .error (.ambiguousFieldMatch p.text (es.map Prod.fst))

/-- The text of a segment inside a longer one: the texts of its value joined by commas. -/
def segmentText (finds : Pattern → String → Bool) (r : Record) (s : Segment) :
    Except ExpressionError String :=
  (resolve finds r s).map fun v => ",".intercalate v.texts

/-- The value on a record: that of a lone placeholder unchanged, otherwise a text. -/
def evaluate (finds : Pattern → String → Bool) (e : Expression) (r : Record) :
    Except ExpressionError FieldValue :=
  match e.segments with
  | [s] => resolve finds r s
  | segments => (segments.mapM (segmentText finds r)).map fun ts => .scalar (String.join ts)

end Expression
end TagHarvest
