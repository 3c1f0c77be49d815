/-
What a command does to the world outside: lines for the output and for the log, a file to write, and an
early end. Actions are played one after the other; the first that fails is the last.
-/
import TagHarvest.Source.FileTree

namespace TagHarvest

inductive Action where
  /-- Writes a line to the output. -/
  | print (line : String)
  /-- Writes a line to the log. -/
  | tell (line : String)
  | save (path content : String)
  /-- Writes a line to the log and ends with an exit code. -/
  | stop (code : Nat) (line : String)
  deriving DecidableEq, Repr

/-- Where actions go. -/
structure Outlets (m : Type → Type) where
  print : String → m Unit
  tell : String → m Unit
  save : String → String → m (Except FileFault Unit)

namespace Action

/-- Ends with the exit code of a failure. -/
def fail (message : String) : Action := stop 1 ("❌ Error: " ++ message)

/-- Plays actions and gives the exit code. -/
def play {m : Type → Type} [Monad m] (o : Outlets m) : List Action → m Nat
  | [] => return 0
  | print line :: rest => do
    o.print line
    play o rest
  | tell line :: rest => do
    o.tell line
    play o rest
  | save path content :: rest => do
    match ← o.save path content with
    | .ok () => play o rest
    | .error fault => do
      o.tell ("❌ Error: " ++ fault.message)
      return 1
  | stop code line :: _ => do
    o.tell line
    return code

end Action

/-- What actions leave behind: the output, the log and the files. -/
structure Transcript where
  output : String := ""
  log : String := ""
  files : FileTree
  deriving DecidableEq

namespace Transcript

/-- Outlets that write a transcript. -/
def outlets : Outlets (StateM Transcript) where
  print line := modify fun t => { t with output := t.output ++ line ++ "\n" }
  tell line := modify fun t => { t with log := t.log ++ line ++ "\n" }
  save path content := do
    let t ← get
    match t.files.write path content.toUTF8.toList with
    | .ok files =>
      set { t with files }
      return .ok ()
    | .error fault => return .error fault

/-- The exit code and the transcript of actions on a tree of files. -/
def ofActions (files : FileTree) (actions : List Action) : Nat × Transcript :=
  Action.play outlets actions { files }

end Transcript
end TagHarvest
