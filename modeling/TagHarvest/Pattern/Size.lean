/-
The size of a pattern. Whether a pattern is too large does not depend on how it is searched for: its size
is that of two machines that read the octets of a text, one of them backwards, and neither may pass the
limit. The machines are not built, their states are only counted: a state takes 32 bytes, each range of
octets in a state for several of them 8, and each way on from a state with several ways 4. Counting stops
at the limit, so that it takes no longer than that many states do.
-/
import Std.Data.HashMap
import TagHarvest.Pattern.Basic
import TagHarvest.Text.OctetRanges

namespace TagHarvest.Pattern

/-- What has been counted so far. -/
structure Count where
  states : Nat := 0
  /-- The bytes that the states take besides their own. -/
  lists : Nat := 0
  /--
  The states that may be used again, by the place that their description gives. A place holds the last
  of them only.
  -/
  known : Std.HashMap Nat (List Nat × Nat) := {}

/-- A step of counting, which fails where the limit is passed. -/
abbrev Counting := StateT Count Option

namespace Counting

/-- The bytes that a machine may take. -/
def limit : Nat := 10485760

/-- The bytes of a state. -/
def stateBytes : Nat := 32

/-- The bytes of a range of octets, in a state that has a list of them. -/
def rangeBytes : Nat := 8

/-- The bytes of a way on, in a state that has several. -/
def wayBytes : Nat := 4

/-- Counts states and the bytes they take besides their own. -/
def pay (states lists : Nat) : Counting Unit := fun c =>
  let states := c.states + states
  let lists := c.lists + lists
  if limit < stateBytes * states + lists then none else some ((), { c with states, lists })

/-- Counts a state and tells its number. -/
def state (lists : Nat) : Counting Nat := do
  let n := (← get).states
  pay 1 lists
  return n

/-- A number of times the same. -/
def inRow (body : Counting Unit) : Nat → Counting Unit
  | 0 => pure ()
  | n + 1 => do
    body
    inRow body n

/-! ## Characters -/

/-- The place of a description among `size` places, found by mixing its numbers. -/
def place (size : Nat) (description : List Nat) : Nat :=
  let mix (h : UInt64) (n : Nat) : UInt64 := (h ^^^ n.toUInt64) * 0x100000001B3
  (description.foldl mix 0xCBF29CE484222325).toNat % size

/-- The state of a description, which is counted unless it is known. -/
def sharedState (size : Nat) (description : List Nat) (lists : Nat) : Counting Nat := do
  let p := place size description
  match (← get).known[p]? with
  | some (d, n) => if d = description then return n else make p
  | none => make p
where
  make (p : Nat) : Counting Nat := do
    let n ← state lists
    modify fun c => { c with known := c.known.insert p (description, n) }
    return n

/--
The state from which octets lead to `target` as the pieces say. Pieces with the same first octets go
through one state, and so do those with the same last ones as far as their states are known.
-/
def forwards (target : Nat) : (longest : Nat) → List Text.OctetRanges → Counting Nat
  | 0, _ => pure target
  | longest + 1, pieces => do
    let groups := pieces.splitBy fun p q => p.head? == q.head?
    let ways ← groups.mapM fun group => do
      let next ←
        if group.all (·.length < 2) then pure target
        else forwards target longest (group.map (·.drop 1))
      match group with
      | ((a, b) :: _) :: _ => return [a, b, next]
      | _ => return []
    sharedState 10000 ways.flatten (rangeBytes * ways.length)

/-- Counts the states that read a piece from its last octet to the first, which leads to `target`. -/
def backwards (target : Nat) : Text.OctetRanges → Counting Unit
  | [] => pure ()
  | (a, b) :: rest => do backwards (← sharedState 1000 [target, a, b] 0) rest

/-- Counts the states that read a character of a set. -/
def oneOf (backward : Bool) (s : Text.RangeSet) : Counting Unit := do
  if s.isAscii then pay 2 (rangeBytes * s.length)
  else
    let pieces := Text.OctetRanges.ofSet s
    modify ({ · with known := {} })
    if backward then
      pay 1 (wayBytes * pieces.length)
      let target ← state 0
      for p in pieces do backwards target p
    else
      let target ← state 0
      let _ ← forwards target 4 pieces

/-! ## Texts -/

/-- The octets of a text. -/
def octets (cs : List Char) : List Nat :=
  cs.flatMap fun c => (String.utf8EncodeChar c).map UInt8.toNat

/-- Texts cut at the empty ones among them. -/
def cutAtEnds : List (List Nat) → List (List (List Nat))
  | [] => [[]]
  | [] :: ts => [] :: cutAtEnds ts
  | t :: ts =>
    match cutAtEnds ts with
    | part :: parts => (t :: part) :: parts
    | [] => [[t]]

/--
Counts the states that read one of several texts, those that begin alike together. An empty text is an
end: the texts before it are preferred to it and those after it are not. Ends in front of all texts count
once.
-/
def together : (longest : Nat) → List (List Nat) → Counting Unit
  | 0, _ => pure ()
  | longest + 1, texts => do
    let later := texts.dropWhile List.isEmpty
    let parts := (if later.length < texts.length then [[]] else []) ++ cutAtEnds later
    parts.forM fun part => do
      let firsts := (part.filterMap List.head?).eraseDups
      if firsts.length = 1 then pay 1 0
      else if 1 < firsts.length then pay 1 (rangeBytes * firsts.length)
      firsts.forM fun n => do
        let rests := (part.filter (·.head? == some n)).map (·.drop 1)
        if rests.any (!·.isEmpty) then together longest rests
    let ways := (parts.filter (!·.isEmpty)).length + (parts.length - 1)
    if 1 < ways then pay 1 (wayBytes * ways)

/-! ## Trees -/

/-- Counts a repetition of a body; `takes` says that every match of the body takes a character. -/
def times (least : Nat) (most : Option Nat) (takes : Bool) (body : Counting Unit) : Counting Unit := do
  let fork := pay 1 (2 * wayBytes)
  match least, most with
  | 0, none =>
    if takes then
      fork
      body
    else
      body
      fork
      fork
      pay 1 0
  | n + 1, none =>
    inRow body (n + 1)
    fork
  | 0, some 1 =>
    fork
    body
    pay 1 0
  | n, some m =>
    if n = 0 then pay 1 0 else inRow body n
    if n < m then
      pay 1 0
      inRow (do fork; body) (m - n)

/-- Where a tree stands among the alternatives of a choice. -/
inductive Place where
  /-- In none, or in front. -/
  | first
  | second
  | later
  deriving DecidableEq

/-- The alternatives of a tree, if they are all texts. -/
def texts? (t : Tree) : Option (List (List Char)) :=
  t.toChoice.mapM fun
    | .text cs => some cs
    | _ => none

/-- Counts the states of a tree. The fork of a choice comes after its second alternative. -/
def tree (backward : Bool) : Place → Tree → Counting Unit
  | _, .empty => pay 1 0
  | _, .text cs => pay (octets cs).length 0
  | _, .oneOf s => oneOf backward s
  | _, .look _ => pay 1 0
  | _, .group _ t =>
    if backward then tree backward .first t
    else do
      pay 1 0
      tree backward .first t
      pay 1 0
  | _, .sequence a b =>
    if backward then do
      tree backward .first b
      tree backward .first a
    else do
      tree backward .first a
      tree backward .first b
  | place, .choice a b =>
    match if place = .first then texts? (.choice a b) else none with
    | some texts => do
      let texts := texts.map fun cs => if backward then (octets cs).reverse else octets cs
      pay 1 0
      together ((texts.map List.length).foldl max 0) texts
    | none => do
      let fork := pay 2 wayBytes
      tree backward .first a
      pay 0 wayBytes
      if place = .second then fork
      if b.isChoice then tree backward (if place = .first then .second else .later) b
      else do
        tree backward .first b
        if place = .first then fork
  | _, .times least most _ t => times least most t.takesCharacter (tree backward .first t)

/-- True if every match begins where the condition holds, as far as the tree tells. -/
def startsAt (l : Look) : Tree → Bool
  | .look m => m = l
  | .group _ t => startsAt l t
  | .sequence a b => startsAt l a || (a.onlyEmpty && startsAt l b)
  | .choice a b => startsAt l a && startsAt l b
  | .times least _ _ t => 0 < least && startsAt l t
  | _ => false

/-- True if every match ends where the condition holds, as far as the tree tells. -/
def endsAt (l : Look) : Tree → Bool
  | .look m => m = l
  | .group _ t => endsAt l t
  | .sequence a b => endsAt l b || (b.onlyEmpty && endsAt l a)
  | .choice a b => endsAt l a && endsAt l b
  | .times least _ _ t => 0 < least && endsAt l t
  | _ => false

/--
Counts the states of a machine: those that pass over octets before a match, unless it can start in one
place only, and those of the pattern. The machine that reads forwards also notes the ends of the match.
-/
def machine (backward : Bool) (t : Tree) : Counting Unit := do
  let fixed := if backward then endsAt .textEnd t else startsAt .textStart t
  if fixed then pay 1 0 else pay 3 (2 * wayBytes + rangeBytes)
  if backward then tree backward .first t
  else do
    pay 1 0
    tree backward .first t
    pay 1 0
  pay 1 0

end Counting

/-- True if one of the machines of a tree takes more than the limit. -/
def Tree.isTooLarge (t : Tree) : Bool :=
  [false, true].any fun backward => ((Counting.machine backward t).run {}).isNone

end TagHarvest.Pattern
