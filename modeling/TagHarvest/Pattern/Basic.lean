/-
Patterns as trees. A tree says which texts match and in which order the ways to match are tried: of two
alternatives the left one first, of a repetition the longer way first unless it is lazy. `inSequence`,
`inChoice` and `repeated` make the simplest tree; a sequence or choice made by them has no sequence or
choice as its left part.
-/
import TagHarvest.Pattern.Class

namespace TagHarvest.Pattern

/-- Conditions on a position between two characters. -/
inductive Look where
  | textStart
  | textEnd
  | lineStart
  | lineEnd
  /-- As the two before, with a carriage return before the line feed counting as part of the break. -/
  | breakStart
  | breakEnd
  | wordBoundary (ascii : Bool)
  | noWordBoundary (ascii : Bool)
  | wordStart (ascii : Bool)
  | wordEnd (ascii : Bool)
  /-- No word character before. -/
  | noWordBefore (ascii : Bool)
  /-- No word character after. -/
  | noWordAfter (ascii : Bool)
  deriving DecidableEq, Repr

namespace Look

/-- True of a neighbour that is a word character; there is none at either end of the text. -/
def isWord (ascii : Bool) : Option Char → Bool
  | none => false
  | some c => if ascii then CharClass.asciiWord.contains c else Text.isWordChar c

/-- True if the condition holds between two neighbours. -/
def holds (before after : Option Char) : Look → Bool
  | textStart => before.isNone
  | textEnd => after.isNone
  | lineStart => before.isNone || before == some '\n'
  | lineEnd => after.isNone || after == some '\n'
  | breakStart => before.isNone || before == some '\n' || (before == some '\r' && after != some '\n')
  | breakEnd => after.isNone || after == some '\r' || (after == some '\n' && before != some '\r')
  | wordBoundary ascii => isWord ascii before != isWord ascii after
  | noWordBoundary ascii => isWord ascii before == isWord ascii after
  | wordStart ascii => !isWord ascii before && isWord ascii after
  | wordEnd ascii => isWord ascii before && !isWord ascii after
  | noWordBefore ascii => !isWord ascii before
  | noWordAfter ascii => !isWord ascii after

end Look

inductive Tree where
  | empty
  /-- A text of at least one character. -/
  | text (cs : List Char)
  /-- One character of a set; nothing matches if the set is empty. -/
  | oneOf (s : Text.RangeSet)
  | look (l : Look)
  /-- A part whose match is noted under a number. -/
  | group (index : Nat) (t : Tree)
  | sequence (a b : Tree)
  | choice (a b : Tree)
  /-- From `least` to `most` times, without a limit if there is no `most`. -/
  | times (least : Nat) (most : Option Nat) (isLazy : Bool) (t : Tree)
  deriving DecidableEq, Repr

namespace Tree

/-- True if every match is of the empty text. -/
def onlyEmpty : Tree → Bool
  | empty => true
  | text _ => false
  | oneOf _ => false
  | look _ => true
  | group _ t => t.onlyEmpty
  | sequence a b => a.onlyEmpty && b.onlyEmpty
  | choice a b => a.onlyEmpty && b.onlyEmpty
  | times _ most _ t => most == some 0 || t.onlyEmpty

/-- The least number of characters of a match, none if some part cannot match at all. -/
def leastLength? : Tree → Option Nat
  | empty => some 0
  | text cs => some cs.length
  | oneOf s => if s.isEmpty then none else some 1
  | look _ => some 0
  | group _ t => t.leastLength?
  | sequence a b => a.leastLength?.bind fun m => b.leastLength?.map (m + ·)
  | choice a b => a.leastLength?.bind fun m => b.leastLength?.map (min m)
  | times least _ _ t => t.leastLength?.map (least * ·)

/-- True if it is known that every match takes a character. -/
def takesCharacter (t : Tree) : Bool := t.leastLength?.any (0 < ·)

/-! ## Trees in their simplest form -/

/-- The parts of a sequence. -/
def toSequence : Tree → List Tree
  | empty => []
  | sequence a b => a :: b.toSequence
  | t => [t]

def ofSequence : List Tree → Tree
  | [] => empty
  | [t] => t
  | t :: ts => sequence t (ofSequence ts)

/-- The alternatives of a choice. -/
def toChoice : Tree → List Tree
  | choice a b => a :: b.toChoice
  | t => [t]

def isChoice : Tree → Bool
  | choice _ _ => true
  | _ => false

/-- Nothing matches the choice between no alternatives. -/
def ofChoice : List Tree → Tree
  | [] => oneOf []
  | [t] => t
  | t :: ts => choice t (ofChoice ts)

/-- Parts of a sequence with texts next to each other made one. -/
def joinTexts : List Tree → List Tree
  | [] => []
  | text cs :: ts =>
    match joinTexts ts with
    | text ds :: ts => text (cs ++ ds) :: ts
    | ts => text cs :: ts
  | t :: ts => t :: joinTexts ts

/-- One part after the other. -/
def inSequence (ts : List Tree) : Tree := ofSequence (joinTexts (ts.flatMap toSequence))

/-- A character of a set. -/
def ofSet (s : Text.RangeSet) : Tree :=
  match s.single? with
  | some c => text [c]
  | none => oneOf s

/-- The set of a tree that is one character as a text. -/
def character? : Tree → Option Text.RangeSet
  | text [c] => some [(c.toNat, c.toNat)]
  | _ => none

def set? : Tree → Option Text.RangeSet
  | oneOf s => some s
  | _ => none

/-- Alternatives that are all characters, or all sets of them, as one set. -/
def mergeSets (ts : List Tree) : Option Tree :=
  (ts.mapM character? <|> ts.mapM set?).map fun sets => ofSet (sets.foldl Text.RangeSet.union [])

/-- One of several, none of which is a choice. -/
def ofAlternatives (ts : List Tree) : Tree :=
  if ts.length < 2 then ofChoice ts else (mergeSets ts).getD (ofChoice ts)

/-- The beginning that two lists share. -/
def shared : List Tree → List Tree → List Tree
  | t :: ts, u :: us => if t = u then t :: shared ts us else []
  | _, _ => []

/-- The parts with which all of several sequences of at least two parts begin. -/
def commonStart : List Tree → List Tree
  | [] => []
  | t :: ts =>
    if (t :: ts).all (·.toSequence.length ≥ 2) then
      ts.foldl (fun start u => shared start u.toSequence) t.toSequence
    else []

/--
One of several. Alternatives that are all one character become a set, and parts with which all of them
begin come in front of the choice.
-/
def inChoice (ts : List Tree) : Tree :=
  let ts := ts.flatMap toChoice
  let start := if ts.length < 2 ∨ (mergeSets ts).isSome then [] else commonStart ts
  if start.isEmpty then ofAlternatives ts
  else
    let ends := ts.map fun t => inSequence (t.toSequence.drop start.length)
    inSequence (start ++ [ofAlternatives (ends.flatMap toChoice)])

/--
A repetition. What matches the empty text only is repeated once at most; a part that is there no times is
empty, and one that is there once is itself.
-/
def repeated (least : Nat) (most : Option Nat) (isLazy : Bool) (t : Tree) : Tree :=
  let (least, most) :=
    if t.onlyEmpty then (min least 1, some (min (most.getD 1) 1)) else (least, most)
  if most = some 0 then empty
  else if least = 1 ∧ most = some 1 then t
  else times least most isLazy t

end Tree
end TagHarvest.Pattern
