/-
Reading patterns. A pattern is refused as a whole if any part of it is malformed: an unclosed group or
class, a repetition of nothing, an unknown escape, a reference to a group, a look ahead or behind, or
parts in parts more than 250 deep. Flags hold from where they are set to the end of their group. Classes
by a Unicode property (`\p`, `\P`) are not read: a pattern with one is refused here.
-/
import TagHarvest.Pattern.Basic
import TagHarvest.Text.Letter

namespace TagHarvest.Pattern

/-- What the flags of a pattern may change. -/
structure Flags where
  /-- `i` -/
  anyCase : Bool := false
  /-- `m`: anchors hold at line breaks. -/
  lines : Bool := false
  /-- `s`: the dot matches line breaks. -/
  dotAll : Bool := false
  /-- `U`: repetitions are lazy unless marked. -/
  swapGreed : Bool := false
  /-- `x`: blanks and comments in the pattern are skipped. -/
  spaced : Bool := false
  /-- `R`: a carriage return is part of a line break. -/
  carriage : Bool := false
  /-- The contrary of `u`: classes and boundaries know ASCII only. -/
  ascii : Bool := false
  deriving DecidableEq, Repr

/-- What is left to read, and what has been seen. -/
structure Reading where
  rest : List Char
  /-- The number of groups so far. -/
  groups : Nat := 0
  names : List (String × Nat) := []
  flags : Flags := {}

/-- A step that reads, or refuses the pattern. -/
abbrev Read := StateT Reading Option

/--
A part of a pattern and how deep parts stand in parts there. Groups, repetitions, classes in brackets,
and sequences, choices and unions of at least two parts go one deeper.
-/
structure Nested (α : Type) where
  value : α
  depth : Nat

/-- How deep parts may stand in parts. -/
def Nested.limit : Nat := 250

/-- The depth of several parts together. -/
def Nested.depthOfAll (depths : List Nat) : Nat :=
  match depths with
  | [d] => d
  | [] => 0
  | ds => ds.foldl max 0 + 1

/-- A part of a sequence: flags cannot be repeated, everything else can. -/
inductive Piece where
  | tree (t : Nested Tree)
  | flags

namespace Piece

def depth : Piece → Nat
  | tree t => t.depth
  | flags => 0

def tree? : Piece → Option Tree
  | tree t => some t.value
  | flags => none

end Piece

/-- What an escape or a plain character stands for. -/
inductive Primitive where
  | char (c : Char)
  | cls (k : CharClass)
  | look (l : Look)

namespace Read

def refuse {α : Type} : Read α := fun _ => none

/-- Refuses the pattern unless a condition holds. -/
def check (b : Bool) : Read Unit := if b then pure () else refuse

def rest : Read (List Char) := do return (← get).rest

def flags : Read Flags := do return (← get).flags

def setRest (cs : List Char) : Read Unit := modify fun s => { s with rest := cs }

/-- The next character, which stays. -/
def peek? : Read (Option Char) := do return (← rest).head?

/-- Takes the next character. -/
def next : Read Char := do
  match ← rest with
  | [] => refuse
  | c :: cs => setRest cs; return c

/-- Takes a given text, if it is next. -/
def take? (text : String) : Read Bool := do
  match text.toList.isPrefixOf? (← rest) with
  | some cs => setRest cs; return true
  | none => return false

/-- What follows blanks and comments; a comment goes from `#` to the end of the line. -/
def afterSpace (comment : Bool) : List Char → List Char
  | [] => []
  | c :: cs =>
    if comment then afterSpace (c != '\n') cs
    else if Text.isBlank c then afterSpace false cs
    else if c = '#' then afterSpace true cs
    else c :: cs

/-- Skips blanks and comments where the flags say so. -/
def space : Read Unit := do
  if (← flags).spaced then setRest (afterSpace false (← rest))

/-- Takes the next character and skips blanks after it. -/
def nextSpaced : Read Char := do
  let c ← next
  space
  return c

/-! ## Escapes -/

def hexDigit? (c : Char) : Option Nat :=
  if '0' ≤ c ∧ c ≤ '9' then some (c.toNat - 48)
  else if 'a' ≤ c ∧ c ≤ 'f' then some (c.toNat - 87)
  else if 'A' ≤ c ∧ c ≤ 'F' then some (c.toNat - 55)
  else none

/-- The number that hexadecimal digits write. -/
def hexNumber? (cs : List Char) : Option Nat :=
  cs.foldlM (fun n c => (hexDigit? c).map (n * 16 + ·)) 0

/-- The character of a code point, which must be one of a character. -/
def charOf (n : Nat) : Read Char :=
  if n < 0xD800 ∨ (0xDFFF < n ∧ n < 0x110000) then pure (Char.ofNat n) else refuse

/-- Takes a number of characters, skipping blanks between them. -/
def nextMany : Nat → Read (List Char)
  | 0 => pure []
  | n + 1 => do
    let c ← nextSpaced
    return c :: (← nextMany n)

/-- Takes the characters up to a closing brace. -/
def upToBrace : (fuel : Nat) → Read (List Char)
  | 0 => refuse
  | fuel + 1 => do
    let c ← nextSpaced
    if c = '}' then return [] else return c :: (← upToBrace fuel)

/--
A character written by its code point, after `x`, `u` or `U`. Two digits write an octet where patterns
know ASCII only, so that it must be below 128.
-/
def hexChar (width : Nat) : Read Char := do
  space
  if (← peek?) = some '{' then
    let _ ← nextSpaced
    let ds ← upToBrace ((← rest).length + 1)
    check !ds.isEmpty
    match hexNumber? ds with
    | some n => charOf n
    | none => refuse
  else
    match hexNumber? (← nextMany width) with
    | some n =>
      check (!(← flags).ascii || width != 2 || n < 128)
      charOf n
    | none => refuse

/-- What `\b` means: a word boundary, or the one that a name in braces says. -/
def boundary : Read Look := do
  let s ← get
  let ascii := s.flags.ascii
  let isNameChar (c : Char) : Bool := c.isAlpha || c = '-'
  if (← peek?) != some '{' then return .wordBoundary ascii
  else do
    let _ ← nextSpaced
    match ← peek? with
    | none => refuse
    | some c =>
      if !isNameChar c then
        set s
        return .wordBoundary ascii
      else
        let name ← upToBrace ((← rest).length + 1)
        check (name.all isNameChar)
        match String.ofList name with
        | "start" => return .wordStart ascii
        | "end" => return .wordEnd ascii
        | "start-half" => return .noWordBefore ascii
        | "end-half" => return .noWordAfter ascii
        | _ => refuse

/--
A class that has a letter of its own, or its complement under the capital letter. Where patterns know
ASCII only, there is no complement, since it would hold octets that are no characters.
-/
def lettered (f : Flags) (c : Char) : Option CharClass :=
  let pick (all ascii : CharClass) := if f.ascii then ascii else all
  let other (k : CharClass) := if f.ascii then none else some (CharClass.complement k)
  match c with
  | 'd' => some (pick .digit CharClass.asciiDigit)
  | 's' => some (pick .space CharClass.asciiSpace)
  | 'w' => some (pick .word CharClass.asciiWord)
  | 'D' => other .digit
  | 'S' => other .space
  | 'W' => other .word
  | _ => none

/-- True of a character that stands for itself after a backslash. -/
def isEscapable (c : Char) : Bool :=
  c.toNat < 128 && !c.isAlphanum && c != '<' && c != '>'

/-- What follows a backslash. -/
def escape : Read Primitive := do
  let f ← flags
  let c ← next
  match lettered f c with
  | some k => return .cls k
  | none =>
    if isEscapable c then return .char c
    else match c with
    | 'x' => return .char (← hexChar 2)
    | 'u' => return .char (← hexChar 4)
    | 'U' => return .char (← hexChar 8)
    | 'a' => return .char '\x07'
    | 'f' => return .char '\x0c'
    | 't' => return .char '\t'
    | 'n' => return .char '\n'
    | 'r' => return .char '\r'
    | 'v' => return .char '\x0b'
    | 'A' => return .look .textStart
    | 'z' => return .look .textEnd
    | 'b' => return .look (← boundary)
    | 'B' => return .look (.noWordBoundary f.ascii)
    | '<' => return .look (.wordStart f.ascii)
    | '>' => return .look (.wordEnd f.ascii)
    | _ => refuse

/-! ## Classes -/

/-- A class closed under case where the flags say so. -/
def folded (f : Flags) (k : CharClass) : CharClass :=
  if f.anyCase then
    if f.ascii then .both (.anyCase k) (.range 0 127) else .anyCase k
  else k

/--
A class as the flags want it: closed under case, and then perhaps the complement. Where patterns know
ASCII only, nothing else may be in it.
-/
def finish (f : Flags) (negated : Bool) (k : CharClass) : Read CharClass := do
  let k := if negated then .complement (folded f k) else folded f k
  check (!f.ascii || k.ranges.isAscii)
  return k

/-- A named class at the front, `[:name:]` or `[:^name:]`. -/
def namedClass? : Read (Option CharClass) := do
  match ← rest with
  | '[' :: ':' :: cs =>
    let (negated, cs) := match cs with | '^' :: cs => (true, cs) | cs => (false, cs)
    let name := cs.takeWhile (· != ':')
    match cs.dropWhile (· != ':'), CharClass.named? (String.ofList name) with
    | ':' :: ']' :: after, some k =>
      setRest after
      return some (← finish (← flags) negated k)
    | _, _ => return none
  | _ => return none

/-- A character or class inside brackets. -/
def classItem : Read Primitive := do
  let c ← next
  let item ← if c = '\\' then escape else pure (.char c)
  match item with
  | .char c => check (!(← flags).ascii || c.toNat < 128)
  | _ => pure ()
  return item

/-- The first two characters that are left, blanks between them skipped. -/
def peekTwo : Read (Option Char × Option Char) := do
  let s ← get
  match s.rest with
  | [] => return (none, none)
  | c :: cs =>
    let cs := if s.flags.spaced then afterSpace false cs else cs
    return (some c, cs.head?)

/-- A range, a character or a class inside brackets. -/
def classRange : Read CharClass := do
  let first ← classItem
  space
  match ← peekTwo with
  | (none, _) => refuse
  | (some c, after) =>
    if c != '-' || after = some ']' || after = some '-' then
      match first with
      | .char c => return .single c
      | .cls k => return k
      | .look _ => refuse
    else
      let _ ← nextSpaced
      match first, ← classItem with
      | .char a, .char b =>
        check (a.toNat ≤ b.toNat)
        return .range a.toNat b.toNat
      | _, _ => refuse

/-- The number of literal hyphens at the beginning of a class. -/
def hyphens : (fuel : Nat) → Read Nat
  | 0 => return 0
  | fuel + 1 => do
    if (← peek?) = some '-' then
      let _ ← nextSpaced
      check !(← rest).isEmpty
      return (← hyphens fuel) + 1
    else return 0

inductive ClassOp where
  | both
  | without
  | either

/-- An operation that waits for its right side. -/
structure Waiting where
  op : ClassOp
  left : Nested CharClass

/-- Items of a class so far. -/
structure Items where
  union : CharClass := .none
  depths : List Nat := []

def Items.add (items : Items) (k : Nested CharClass) : Items :=
  ⟨.union items.union k.value, k.depth :: items.depths⟩

/-- The items together, with the operation that waits for them carried out. -/
def applyOp (f : Flags) (waiting : Option Waiting) (items : Items) : Nested CharClass :=
  let right : Nested CharClass := ⟨items.union, Nested.depthOfAll items.depths⟩
  match waiting with
  | none => right
  | some ⟨op, left⟩ =>
    let l := folded f left.value
    let r := folded f right.value
    let k := match op with
      | .both => .both l r
      | .without => .without l r
      | .either => .union (.without l r) (.without r l)
    ⟨k, max left.depth right.depth + 1⟩

mutual
/-- A class from its opening bracket to the closing one. Every call takes a character of the text. -/
def bracketed : (fuel : Nat) → Read (Nested CharClass)
  | 0 => refuse
  | fuel + 1 => do
    let _ ← nextSpaced
    let negated := (← peek?) = some '^'
    if negated then let _ ← nextSpaced
    check !(← rest).isEmpty
    let count ← hyphens ((← rest).length)
    let items : Items := ⟨if 0 < count then .single '-' else .none, List.replicate count 0⟩
    let items ←
      if count = 0 && (← peek?) = some ']' then do
        let _ ← nextSpaced
        check !(← rest).isEmpty
        pure (items.add ⟨.single ']', 0⟩)
      else pure items
    let k ← classItems fuel none items
    return ⟨← finish (← flags) negated k.value, k.depth + 1⟩

/-- The items of a class up to its closing bracket, after those already read. -/
def classItems : (fuel : Nat) → Option Waiting → Items → Read (Nested CharClass)
  | 0, _, _ => refuse
  | fuel + 1, waiting, items => do
    space
    let f ← flags
    match ← rest with
    | [] => refuse
    | ']' :: cs =>
      setRest cs
      return applyOp f waiting items
    | '[' :: _ =>
      match ← namedClass? with
      | some k => classItems fuel waiting (items.add ⟨k, 0⟩)
      | none => do
        let k ← bracketed fuel
        classItems fuel waiting (items.add k)
    | '&' :: '&' :: cs =>
      setRest cs
      classItems fuel (some ⟨.both, applyOp f waiting items⟩) {}
    | '-' :: '-' :: cs =>
      setRest cs
      classItems fuel (some ⟨.without, applyOp f waiting items⟩) {}
    | '~' :: '~' :: cs =>
      setRest cs
      classItems fuel (some ⟨.either, applyOp f waiting items⟩) {}
    | _ =>
      let k ← classRange
      classItems fuel waiting (items.add ⟨k, 0⟩)
end

/-! ## Repetitions -/

/-- Decimal digits with blanks around them. -/
def decimal? : Read (Option Nat) := do
  setRest ((← rest).dropWhile Text.isBlank)
  let ds ← digits (← rest).length
  setRest ((← rest).dropWhile Text.isBlank)
  space
  if ds.isEmpty then return none
  else
    let n := ds.foldl (fun n c => n * 10 + (c.toNat - 48)) 0
    check (n < 0x100000000)
    return some n
where
  digits : Nat → Read (List Char)
    | 0 => pure []
    | fuel + 1 => do
      match ← peek? with
      | some c =>
        if c.isDigit then do
          let _ ← nextSpaced
          return c :: (← digits fuel)
        else return []
      | none => return []

/-- The bounds of a repetition in braces, from the opening brace on. -/
def bounds : Read (Nat × Option Nat) := do
  let _ ← nextSpaced
  check !(← rest).isEmpty
  match ← decimal? with
  | none => refuse
  | some least =>
    let most ←
      if (← peek?) = some ',' then do
        let _ ← nextSpaced
        if (← peek?) = some '}' then pure none
        else match ← decimal? with
        | none => refuse
        | some most => pure (some most)
      else pure (some least)
    check ((← next) == '}')
    match most with
    | some m => check (least ≤ m)
    | none => pure ()
    return (least, most)

/-- The last piece of a sequence, repeated. -/
def repeated (pieces : List Piece) (least : Nat) (most : Option Nat) (spaced : Bool) :
    Read (List Piece) := do
  match pieces with
  | .tree t :: before =>
    if spaced then space
    let marked ← take? "?"
    let isLazy := marked != (← flags).swapGreed
    return .tree ⟨.repeated least most isLazy t.value, t.depth + 1⟩ :: before
  | _ => refuse

/-! ## Groups -/

/-- The flags after `(?`, up to the colon or bracket that ends them, and that character. -/
def flagItems : (fuel : Nat) → (seen : List Char) → (negative : Bool) → Flags → Read (Flags × Char)
  | 0, _, _, _ => refuse
  | fuel + 1, seen, negative, f => do
    let c ← next
    if c = ':' ∨ c = ')' then
      check (seen.head? != some '-' && (c = ':' || !seen.isEmpty))
      return (f, c)
    else
      check (!seen.contains c && !(← rest).isEmpty)
      let on := !negative
      match c with
      | '-' => flagItems fuel (c :: seen) true f
      | 'i' => flagItems fuel (c :: seen) negative { f with anyCase := on }
      | 'm' => flagItems fuel (c :: seen) negative { f with lines := on }
      | 's' => flagItems fuel (c :: seen) negative { f with dotAll := on }
      | 'U' => flagItems fuel (c :: seen) negative { f with swapGreed := on }
      | 'x' => flagItems fuel (c :: seen) negative { f with spaced := on }
      | 'R' => flagItems fuel (c :: seen) negative { f with carriage := on }
      | 'u' => flagItems fuel (c :: seen) negative { f with ascii := negative }
      | _ => refuse

/-- True of a character that a group's name may start with, or contain. -/
def isNameChar (first : Bool) (c : Char) : Bool :=
  if first then c == '_' || Text.isLetter c
  else c == '_' || c == '.' || c == '[' || c == ']' || Text.isLetter c || Text.isNumber c

/-- The name of a group, up to the bracket that closes it. -/
def groupName : Read String := do
  let cs ← rest
  let name := cs.takeWhile (· != '>')
  match cs.dropWhile (· != '>'), name with
  | '>' :: cs, c :: more =>
    check (isNameChar true c && more.all (isNameChar false))
    setRest cs
    return String.ofList name
  | _, _ => refuse

/-- Counts a group and notes its name, which must be new. -/
def newGroup (name : Option String) : Read Nat := do
  let s ← get
  let index := s.groups + 1
  match name with
  | none => set { s with groups := index }
  | some n =>
    check ((s.names.lookup n).isNone)
    set { s with groups := index, names := s.names ++ [(n, index)] }
  return index

/-- How a group starts: it sets flags, or has a body under flags and perhaps a number. -/
inductive Opening where
  | flags (f : Flags)
  | body (f : Flags) (index : Option Nat)

/-- The start of a group after its bracket. -/
def opening : Read Opening := do
  space
  let f ← flags
  for lookAround in ["?=", "?!", "?<=", "?<!"] do
    check !(lookAround.toList.isPrefixOf (← rest))
  if (← take? "?P<") then
    return .body f (some (← newGroup (some (← groupName))))
  else if (← take? "?<") then
    return .body f (some (← newGroup (some (← groupName))))
  else if (← take? "?") then
    let (g, c) ← flagItems ((← rest).length + 1) [] false f
    return if c = ')' then .flags g else .body g none
  else return .body f (some (← newGroup none))

/-! ## Whole patterns -/

/-- The tree of a primitive under the flags. -/
def primitive (f : Flags) : Primitive → Tree
  | .char c =>
    if f.ascii && 128 ≤ c.toNat then .text [c] else .ofSet (folded f (.single c)).ranges
  | .cls k => .ofSet k.ranges
  | .look l => .look l

/-- What the dot stands for. -/
def dot (f : Flags) : CharClass :=
  if f.dotAll then .range 0 0x10FFFF
  else if f.carriage then .complement (.union (.single '\n') (.single '\r'))
  else .complement (.single '\n')

def caret (f : Flags) : Look :=
  if f.lines then (if f.carriage then .breakStart else .lineStart) else .textStart

def dollar (f : Flags) : Look :=
  if f.lines then (if f.carriage then .breakEnd else .lineEnd) else .textEnd

/-- The pieces of a sequence, the last of which comes first. -/
def sequence (pieces : List Piece) : Nested Tree :=
  let pieces := pieces.reverse
  ⟨.inSequence (pieces.filterMap Piece.tree?), Nested.depthOfAll (pieces.map Piece.depth)⟩

/-- One of several alternatives. -/
def choice (ts : List (Nested Tree)) : Nested Tree :=
  ⟨.inChoice (ts.map (·.value)), Nested.depthOfAll (ts.map (·.depth))⟩

mutual
/-- The alternatives up to the end of a group, which stays. Every call takes a character of the text. -/
def alternatives : (fuel : Nat) → Read (List (Nested Tree))
  | 0 => refuse
  | fuel + 1 => do
    let t ← pieces fuel []
    match ← peek? with
    | some '|' =>
      let _ ← next
      return t :: (← alternatives fuel)
    | _ => return [t]

/-- One alternative, after the pieces already read. -/
def pieces : (fuel : Nat) → List Piece → Read (Nested Tree)
  | 0, _ => refuse
  | fuel + 1, before => do
    space
    let f ← flags
    let add (t : Tree) : Read (Nested Tree) := pieces fuel (.tree ⟨t, 0⟩ :: before)
    match ← peek? with
    | none => return sequence before
    | some '|' => return sequence before
    | some ')' => return sequence before
    | some '(' =>
      let _ ← next
      match ← opening with
      | .flags g =>
        modify fun s => { s with flags := g }
        pieces fuel (.flags :: before)
      | .body g index =>
        modify fun s => { s with flags := g }
        let t := choice (← alternatives fuel)
        check ((← next) == ')')
        modify fun s => { s with flags := f }
        let body := match index with | some i => .group i t.value | none => t.value
        pieces fuel (.tree ⟨body, t.depth + 1⟩ :: before)
    | some '[' => do
      let k ← bracketed ((← rest).length + 1)
      pieces fuel (.tree ⟨.ofSet k.value.ranges, k.depth⟩ :: before)
    | some '?' => do
      let _ ← next
      pieces fuel (← repeated before 0 (some 1) false)
    | some '*' => do
      let _ ← next
      pieces fuel (← repeated before 0 none false)
    | some '+' => do
      let _ ← next
      pieces fuel (← repeated before 1 none false)
    | some '{' => do
      check !before.isEmpty
      let (least, most) ← bounds
      pieces fuel (← repeated before least most true)
    | some '\\' => do
      let _ ← next
      add (primitive f (← escape))
    | some '.' => do
      let _ ← next
      check !f.ascii
      add (.ofSet (dot f).ranges)
    | some '^' => do
      let _ ← next
      add (.look (caret f))
    | some '$' => do
      let _ ← next
      add (.look (dollar f))
    | some c => do
      let _ ← next
      add (primitive f (.char c))
end

/-- The tree of a whole pattern. -/
def whole : Read Tree := do
  let t := choice (← alternatives (2 * (← rest).length + 2))
  check ((← rest).isEmpty && t.depth ≤ Nested.limit)
  return t.value

end Read

/-- A pattern that was read: its tree, the number of its groups, and their names. -/
structure Source where
  tree : Tree
  groups : Nat
  names : List (String × Nat)

/-- Reads a pattern; none if it is malformed. -/
def read? (text : String) : Option Source :=
  (Read.whole.run { rest := text.toList }).map fun (t, s) => ⟨t, s.groups, s.names⟩

end TagHarvest.Pattern
