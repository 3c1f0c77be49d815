/-
The commands: extracting sources, comparing two stores, merging stores and listing the lineages of a
store.
-/
import TagHarvest.Command.Arguments

namespace TagHarvest

/-- What is to be extracted, and what is done with the result. -/
structure ExtractCommand where
  sources : List String
  conversion : Option String
  tagging : Option String
  output : Option String
  /-- A store that the result is compared with. -/
  compareWith : Option String
  lineage : Bool
  keep : List String
  drop : List String
  propagate : Bool
  silent : Bool
  deriving DecidableEq, Repr

inductive Command where
  | extract (c : ExtractCommand)
  | compare (first second : String)
  | merge (stores : List String) (output : Option String)
  | lineage (store : String)
  deriving DecidableEq, Repr

namespace Command

def outputSwitch : Switch := { name := "output", letter := some 'o', takes := .one, isPath := true }

def extractSignature : Signature where
  switches := [
    { name := "conversion", letter := some 'c', takes := .one },
    { name := "tagging", letter := some 't', takes := .one },
    outputSwitch,
    { name := "compare", takes := .one, isPath := true },
    { name := "lineage" },
    { name := "keep", takes := .many },
    { name := "delete", takes := .many },
    { name := "no-propagate" },
    { name := "silent", letter := some 's' }]
  wordsArePaths := false

def compareSignature : Signature where
  least := 2
  greatest := some 2

/-- Each run of stores to merge has at least two. -/
def mergeSignature : Signature where
  switches := [outputSwitch]
  leastInRun := 2
  least := 2

def lineageSignature : Signature where
  greatest := some 1

def ofExtractArguments (a : Arguments) : ExtractCommand where
  sources := a.words
  conversion := a.value? "conversion"
  tagging := a.value? "tagging"
  output := a.value? "output"
  compareWith := a.value? "compare"
  lineage := a.has "lineage"
  keep := a.values "keep"
  drop := a.values "delete"
  propagate := !a.has "no-propagate"
  silent := a.has "silent"

/-- The names of the commands; `help` tells about them. -/
def names : List String := ["extract", "compare", "merge", "lineage", "help"]

/-- What `help` with some arguments stops with. -/
def help : List String → ArgumentStop
  | [] => .help
  | [name] => if names.contains name then .help else .fault (.unknownCommand name)
  | name :: other :: _ =>
    .fault (.unknownCommand (if names.contains name then other else name))

/-- The command that arguments call for. -/
def ofArguments : List String → Except ArgumentStop Command
  | [] => .error (.fault .noCommand)
  | name :: texts =>
    match name with
    | "extract" => do return extract (ofExtractArguments (← Arguments.read extractSignature texts))
    | "compare" => do
      let a ← Arguments.read compareSignature texts
      match a.words with
      | [first, second] => return compare first second
      | _ => throw (.fault .tooFewWords)
    | "merge" => do
      let a ← Arguments.read mergeSignature texts
      return merge a.words (a.value? "output")
    | "lineage" => do
      let a ← Arguments.read lineageSignature texts
      match a.words with
      | [store] => return lineage store
      | _ => throw (.fault .tooFewWords)
    | "help" => .error (help texts)
    | "--help" => .error .help
    | _ =>
      match name.toList with
      | '-' :: 'h' :: _ => .error .help
      | '-' :: _ :: _ => .error (.fault (.unknownSwitch name))
      | _ => .error (.fault (.unknownCommand name))

end Command
end TagHarvest
