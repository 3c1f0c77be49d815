/-
Searching for a pattern. A search follows all ways to match at once, one character after the other, with
the preferred ways first; no step is entered twice at one position. The leftmost match wins, and of those
that start there the most preferred.
-/
import TagHarvest.Pattern.Program
import TagHarvest.Pattern.Reader
import TagHarvest.Pattern.Size

namespace TagHarvest

namespace Pattern

/-- Positions noted so far, by slot. -/
abbrev Slots := Array (Option Nat)

/-- A way to match that has reached a step. -/
structure Thread where
  step : Nat
  slots : Slots

/-- Where a search stands: the characters on both sides and the number of those before. -/
structure Position where
  before : Option Char
  after : Option Char
  index : Nat

/-- Threads that wait for a character, the preferred ones first, and which steps have been entered. -/
structure Threads where
  waiting : Array Thread
  entered : Array Bool

namespace Program

/-- No threads. -/
def noThreads (p : Program) : Threads := ⟨#[], Array.replicate p.steps.size false⟩

/--
Enters steps, the first of a list first, and goes on through those that take no character. A step is
entered once and leads to two at most, so twice their number is `fuel` enough.
-/
def follow (p : Program) (at_ : Position) : (fuel : Nat) → List Thread → Threads → Threads
  | 0, _, ts => ts
  | _ + 1, [], ts => ts
  | fuel + 1, t :: rest, ts =>
    if ts.entered.getD t.step true then p.follow at_ fuel rest ts
    else
      let ts := { ts with entered := ts.entered.set! t.step true }
      match p.steps[t.step]? with
      | none => p.follow at_ fuel rest ts
      | some (.look l next) =>
        if l.holds at_.before at_.after then p.follow at_ fuel (⟨next, t.slots⟩ :: rest) ts
        else p.follow at_ fuel rest ts
      | some (.note slot next) =>
        p.follow at_ fuel (⟨next, t.slots.setIfInBounds slot (some at_.index)⟩ :: rest) ts
      | some (.fork first second) =>
        p.follow at_ fuel (⟨first, t.slots⟩ :: ⟨second, t.slots⟩ :: rest) ts
      | some _ => p.follow at_ fuel rest { ts with waiting := ts.waiting.push t }

/-- Enters a step and all that it leads to without a character. -/
def enter (p : Program) (at_ : Position) (t : Thread) (ts : Threads) : Threads :=
  p.follow at_ (2 * p.steps.size + 2) [t] ts

/--
Lets the threads take the next character. The first thread that is done is the match so far, and the
less preferred ones after it are given up.
-/
def advance (p : Program) (here next : Position) : List Thread → Threads → Threads × Option Slots
  | [], ts => (ts, none)
  | t :: rest, ts =>
    match p.steps[t.step]? with
    | some .done => (ts, some t.slots)
    | some (.char s n) =>
      match here.after with
      | some c =>
        if Text.inRanges s c.toNat then p.advance here next rest (p.enter next ⟨n, t.slots⟩ ts)
        else p.advance here next rest ts
      | none => p.advance here next rest ts
    | _ => p.advance here next rest ts

/-- Runs the threads over a text; until something has matched, a new one starts at each position. -/
def run (p : Program) (slots : Slots) :
    (before : Option Char) → (index : Nat) → List Char → Threads → Option Slots → Option Slots
  | before, index, text, ts, best =>
    let here : Position := ⟨before, text.head?, index⟩
    let ts := if best.isNone then p.enter here ⟨p.entry, slots⟩ ts else ts
    match text with
    | [] => (p.advance here here ts.waiting.toList p.noThreads).2 <|> best
    | c :: rest =>
      let next : Position := ⟨some c, rest.head?, index + 1⟩
      let (moved, hit) := p.advance here next ts.waiting.toList p.noThreads
      let best := hit <|> best
      if moved.waiting.isEmpty && best.isSome then best
      else run p slots (some c) (index + 1) rest moved best

end Program

/-- Why a text is no pattern. -/
inductive Error where
  | malformed (explanation : String)
  /-- It takes more than so many bytes. -/
  | tooLarge (limit : Nat)
  deriving DecidableEq, Repr

namespace Error

def message : Error → String
  | malformed explanation => explanation
  | tooLarge limit => s!"Compiled regex exceeds size limit of {limit} bytes."

end Error
end Pattern

/-- A pattern ready to be searched for. -/
structure Pattern where
  /-- The text it was read from. -/
  text : String
  groups : Nat
  names : List (String × Nat)
  program : Pattern.Program

namespace Pattern

/-- Reads a pattern and builds its program. -/
def compile (text : String) : Except Error Pattern :=
  match read? text with
  | none => .error (.malformed "regex parse error: the pattern is malformed")
  | some s =>
    if s.tree.isTooLarge then .error (.tooLarge Counting.limit)
    else .ok ⟨text, s.groups, s.names, .ofTree s.tree⟩

/-- A match: its ends, and the ends of the groups that took part, counted in characters. -/
structure Match where
  slots : Slots

namespace Match

/-- The ends of a group, the whole match being group 0. -/
def group? (m : Match) (i : Nat) : Option (Nat × Nat) :=
  match (m.slots[2 * i]?).join, (m.slots[2 * i + 1]?).join with
  | some a, some b => some (a, b)
  | _, _ => none

def start (m : Match) : Nat := ((m.group? 0).map Prod.fst).getD 0
def stop (m : Match) : Nat := ((m.group? 0).map Prod.snd).getD 0

end Match

/-- The first match that starts `index` characters into a text or later; `rest` is what is left there. -/
def searchFrom (p : Pattern) (before : Option Char) (index : Nat) (rest : List Char) : Option Match :=
  (p.program.run (Array.replicate (2 * (p.groups + 1)) none) before index rest p.program.noThreads none).map .mk

/-- True if some part of the text matches. -/
def finds (p : Pattern) (text : String) : Bool :=
  (p.searchFrom none 0 text.toList).isSome

/-- The first part of the text that matches. -/
def first? (p : Pattern) (text : String) : Option String :=
  (p.searchFrom none 0 text.toList).map fun m =>
    String.ofList ((text.toList.take m.stop).drop m.start)

/--
All matches from a place on, none overlapping another. An empty match directly after the last one is
passed over, and the search goes on one character later.
-/
def matchesFrom (p : Pattern) (text : List Char) :
    (fuel : Nat) → (index : Nat) → (last : Option Nat) → List Match
  | 0, _, _ => []
  | fuel + 1, index, last =>
    let search (i : Nat) : Option Match :=
      if i ≤ text.length then
        p.searchFrom (if i = 0 then none else text[i - 1]?) i (text.drop i)
      else none
    let hit := match search index with
      | some m => if m.start = m.stop ∧ last = some m.stop then search (m.stop + 1) else some m
      | none => none
    match hit with
    | none => []
    | some m => m :: matchesFrom p text fuel m.stop (some m.stop)

/-- All matches in a text, from left to right. -/
def allMatches (p : Pattern) (text : List Char) : List Match :=
  p.matchesFrom text (text.length + 1) 0 none

end Pattern
end TagHarvest
