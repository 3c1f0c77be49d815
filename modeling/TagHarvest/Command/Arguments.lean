/-
Reading the arguments of a command: words, and switches that are written `--name` or `-n`. A switch may
have its values attached (`--name=value`, `-nvalue`, `-n=value`), several one-letter switches may be
written as one, and after `--` there are words only. A run of words ends at the next switch.
-/
import TagHarvest.Text.Cut

namespace TagHarvest

/-- How many values a switch takes. -/
inductive Takes where
  | nothing
  | one
  /-- One or more, up to the next switch. -/
  | many
  deriving DecidableEq, Repr

structure Switch where
  name : String
  letter : Option Char := none
  takes : Takes := .nothing
  /-- Whether the value is a path, which must not be empty. -/
  isPath : Bool := false
  deriving DecidableEq, Repr

/-- What a command accepts. -/
structure Signature where
  switches : List Switch := []
  /-- The least number of words in a run. -/
  leastInRun : Nat := 1
  /-- The least and the greatest number of words. -/
  least : Nat := 1
  greatest : Option Nat := none
  wordsArePaths : Bool := true

/-- What is wrong with arguments. -/
inductive ArgumentFault where
  | noCommand
  | unknownCommand (name : String)
  | unknownSwitch (text : String)
  | missingValue (switch : String)
  | unexpectedValue (switch : String)
  | repeated (switch : String)
  | emptyPath
  | tooFewWords
  | tooManyWords
  deriving DecidableEq, Repr

def ArgumentFault.message : ArgumentFault → String
  | noCommand => "a command is required"
  | unknownCommand name => s!"unrecognized command '{name}'"
  | unknownSwitch text => s!"unexpected argument '{text}'"
  | missingValue switch => s!"a value is required for '--{switch}'"
  | unexpectedValue switch => s!"no value is expected for '--{switch}'"
  | repeated switch => s!"'--{switch}' cannot be used more than once"
  | emptyPath => "a path must not be empty"
  | tooFewWords => "more arguments are required"
  | tooManyWords => "fewer arguments are expected"

/-- Why arguments give no command to run. -/
inductive ArgumentStop where
  | help
  | fault (f : ArgumentFault)
  deriving DecidableEq, Repr

/-- The words and the switches that were given, the values with each use of a switch. -/
structure Arguments where
  words : List String := []
  uses : List (String × List String) := []
  deriving DecidableEq, Repr

namespace Arguments

/-- True if a switch was given. -/
def has (a : Arguments) (name : String) : Bool := a.uses.any (·.1 == name)

/-- The values of all uses of a switch. -/
def values (a : Arguments) (name : String) : List String :=
  (a.uses.filter (·.1 == name)).flatMap (·.2)

def value? (a : Arguments) (name : String) : Option String := (a.values name).head?

/-- What arguments may still be added to. -/
inductive Open where
  | nothing
  | words (run : List String)
  | values (s : Switch) (given : List String)

/-- Where reading stands. -/
structure Reading where
  arguments : Arguments := {}
  current : Open := .nothing
  /-- Whether `--` was met. -/
  wordsOnly : Bool := false

def stop {α : Type} (f : ArgumentFault) : Except ArgumentStop α := .error (.fault f)

section

variable (g : Signature)

/-- Adds a use of a switch; only a switch with many values may be used again. -/
def use (s : Switch) (given : List String) (a : Arguments) : Except ArgumentStop Arguments :=
  if s.takes != .nothing && given.isEmpty then stop (.missingValue s.name)
  else if s.takes != .many && a.has s.name then stop (.repeated s.name)
  else if s.isPath && given.contains "" then stop .emptyPath
  else .ok { a with uses := a.uses ++ [(s.name, given)] }

/-- Adds a run of words. -/
def addRun (run : List String) (a : Arguments) : Except ArgumentStop Arguments :=
  if run.length < g.leastInRun then stop .tooFewWords
  else if g.wordsArePaths && run.contains "" then stop .emptyPath
  else .ok { a with words := a.words ++ run }

/-- Ends what is still open. -/
def close (r : Reading) : Except ArgumentStop Reading := do
  let arguments ← match r.current with
    | .nothing => pure r.arguments
    | .words run => addRun g run r.arguments
    | .values s given => use s given r.arguments
  return { r with arguments, current := .nothing }

/-- Reads a word. -/
def word (w : String) (r : Reading) : Except ArgumentStop Reading := do
  let (r, run) ← match r.current with
    | .words run => pure (r, run)
    | _ => pure (← close g r, [])
  if g.greatest.any (· ≤ r.arguments.words.length + run.length) then stop .tooManyWords
  else return { r with current := .words (run ++ [w]) }

/-- Reads a switch, perhaps with an attached value. -/
def switch (s : Switch) (attached : Option String) (r : Reading) : Except ArgumentStop Reading := do
  let r ← close g r
  match s.takes, attached with
  | .nothing, some _ => stop (.unexpectedValue s.name)
  | .nothing, none => return { r with arguments := ← use s [] r.arguments }
  | _, some v => return { r with arguments := ← use s [v] r.arguments }
  | _, none => return { r with current := .values s [] }

/-- The switch that every command has. -/
def helpSwitch : Switch := { name := "help", letter := some 'h' }

/-- Reads a switch by its name, or ends with the request for help. -/
def known (s : Switch) (attached : Option String) (r : Reading) : Except ArgumentStop Reading :=
  if s = helpSwitch then
    if attached.isSome then stop (.unexpectedValue s.name)
    else do let _ ← close g r; throw .help
  else switch g s attached r

/-- Reads the text after `--`. -/
def long (text : List Char) (r : Reading) : Except ArgumentStop Reading :=
  let (name, attached) := match Text.cutAt? '=' text with
    | some (name, v) => (String.ofList name, some (String.ofList v))
    | none => (String.ofList text, none)
  match (helpSwitch :: g.switches).find? (·.name == name) with
  | some s => known g s attached r
  | none => stop (.unknownSwitch name)

/-- Reads the letters after `-`; a letter that takes a value has the rest attached. -/
def letters : List Char → Reading → Except ArgumentStop Reading
  | [], r => .ok r
  | c :: cs, r =>
    match (helpSwitch :: g.switches).find? (·.letter == some c) with
    | none => stop (.unknownSwitch (String.singleton c))
    | some s =>
      if s.takes = .nothing then do letters cs (← known g s none r)
      else match cs with
      | [] => switch g s none r
      | '=' :: v => switch g s (some (String.ofList v)) r
      | v => switch g s (some (String.ofList v)) r

/-- Reads an argument that is no switch: a value of an open switch, or a word. -/
def plain (text : String) (r : Reading) : Except ArgumentStop Reading :=
  match r.current with
  | .values s given =>
    if s.takes = .many then .ok { r with current := .values s (given ++ [text]) }
    else do return { r with arguments := ← use s [text] r.arguments, current := .nothing }
  | _ => word g text r

/-- Reads one argument. -/
def argument (text : String) (r : Reading) : Except ArgumentStop Reading :=
  if r.wordsOnly then word g text r
  else match text.toList with
  | ['-', '-'] => .ok { r with wordsOnly := true }
  | '-' :: '-' :: name => long g name r
  | '-' :: c :: cs => letters g (c :: cs) r
  | _ => plain g text r

/-- Reads the arguments of a command. -/
def read (texts : List String) : Except ArgumentStop Arguments := do
  let r ← close g (← texts.foldlM (fun r t => argument g t r) {})
  if r.arguments.words.length < g.least then stop .tooFewWords else return r.arguments

end

end Arguments
end TagHarvest
