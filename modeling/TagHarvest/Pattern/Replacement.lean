/-
Replacements. In a replacement text `$n` and `${n}` stand for a group by its number or name, and `$$` for
a dollar sign; a group that is unknown or took no part is empty. `normalize` turns a reference written as
a backslash and digits into one in braces.
-/
import TagHarvest.Pattern.Search

namespace TagHarvest.Pattern

/-- True of a character that an unbraced group name may contain. -/
def isGroupChar (c : Char) : Bool := c.isAlphanum || c == '_'

/-- A piece of a replacement text. -/
inductive Template where
  | text (c : Char)
  | group (name : List Char)
  deriving DecidableEq, Repr

theorem length_dropWhile (p : Char → Bool) (cs : List Char) :
    (cs.dropWhile p).length ≤ cs.length :=
  (List.dropWhile_sublist p).length_le

theorem length_of_dropWhile {p : Char → Bool} {cs rest : List Char} {c : Char}
    (h : cs.dropWhile p = c :: rest) : rest.length < cs.length := by
  have := length_dropWhile p cs
  rw [h] at this
  exact this

/-- The pieces of a replacement text. -/
def template : List Char → List Template
  | [] => []
  | '$' :: '$' :: cs => .text '$' :: template cs
  | '$' :: '{' :: cs =>
    match h : cs.dropWhile (· != '}') with
    | '}' :: rest =>
      have := length_of_dropWhile h
      .group (cs.takeWhile (· != '}')) :: template rest
    | _ => .text '$' :: template ('{' :: cs)
  | '$' :: c :: cs =>
    if isGroupChar c then
      have := length_dropWhile isGroupChar cs
      .group (c :: cs.takeWhile isGroupChar) :: template (cs.dropWhile isGroupChar)
    else .text '$' :: template (c :: cs)
  | c :: cs => .text c :: template cs
termination_by cs => cs.length
decreasing_by all_goals simp only [List.length_cons] at *; omega

/-- The number that a group name writes, if it is one of at most 64 bits. -/
def groupNumber? (name : List Char) : Option Nat :=
  let ds := match name with | '+' :: ds => ds | ds => ds
  if ds.isEmpty || !ds.all Char.isDigit then none
  else
    let n := ds.foldl (fun n c => n * 10 + (c.toNat - 48)) 0
    if n < 0x10000000000000000 then some n else none

/-- A template with the text of each group put in. -/
def fill (group : List Char → List Char) (ts : List Template) : List Char :=
  ts.flatMap fun
    | .text c => [c]
    | .group name => group name

/-- The text of a group in a match, by its number or name. -/
def groupText (p : Pattern) (text : List Char) (m : Match) (name : List Char) : List Char :=
  let index? := match groupNumber? name with
    | some n => some n
    | none => p.names.lookup (String.ofList name)
  match index?.bind m.group? with
  | some (a, b) => (text.take b).drop a
  | none => []

/-- The text with the matches of a list replaced, from `index` on. -/
def replaceMatches (p : Pattern) (text : List Char) (ts : List Template) (index : Nat) :
    List Match → List Char
  | [] => text.drop index
  | m :: ms =>
    (text.take m.start).drop index ++ fill (p.groupText text m) ts ++
      replaceMatches p text ts m.stop ms

/-- The text with every match replaced. -/
def replaceAll (p : Pattern) (replacement text : String) : String :=
  let cs := text.toList
  String.ofList (p.replaceMatches cs (template replacement.toList) 0 (p.allMatches cs))

/-- Writes every backslash followed by decimal digits as a group in braces. -/
def normalizeChars : List Char → List Char
  | [] => []
  | '\\' :: c :: cs =>
    if Text.isDecimalDigit c then
      have := (List.dropWhile_sublist (l := cs) Text.isDecimalDigit).length_le
      '$' :: '{' :: c :: cs.takeWhile Text.isDecimalDigit ++
        '}' :: normalizeChars (cs.dropWhile Text.isDecimalDigit)
    else '\\' :: normalizeChars (c :: cs)
  | c :: cs => c :: normalizeChars cs
termination_by cs => cs.length

/-- Writes references of the form `\1` as `${1}`. -/
def normalize (replacement : String) : String :=
  String.ofList (normalizeChars replacement.toList)

end TagHarvest.Pattern
