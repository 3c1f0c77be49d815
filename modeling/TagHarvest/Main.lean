/-
The program: it reads the files that the command may need, and plays the command's actions.
-/
import TagHarvest.Command.Run

namespace TagHarvest.Program

/-- The fault that an error of the system is. -/
def faultOf : IO.Error → FileFault
  | .noFileOrDirectory .. => .missing
  | .inappropriateType _ 21 _ => .isDirectory
  | .inappropriateType _ 20 _ => .notDirectory
  | e => .other (toString e)

def readFile (path : String) : IO (Except FileFault (List UInt8)) := do
  try
    return .ok (← IO.FS.readBinFile path).toList
  catch e => return .error (faultOf e)

def saveFile (path content : String) : IO (Except FileFault Unit) := do
  try
    return .ok (← IO.FS.writeFile path content)
  catch e => return .error (faultOf e)

/-- What was read of files. -/
def viewOf (read : List (String × Except FileFault (List UInt8))) : FileView where
  isFile path := (read.lookup path).any Except.isOk
  read path := (read.lookup path).getD (.error .missing)

def outlets : Outlets IO where
  print line := IO.println line
  tell line := IO.eprintln line
  save := saveFile

end TagHarvest.Program

open TagHarvest Program in
def main (texts : List String) : IO UInt32 := do
  let paths := ((Command.ofArguments texts).toOption.map Command.paths).getD []
  let read ← paths.mapM fun path => do return (path, ← readFile path)
  return (← Action.play outlets (Command.argumentActions (viewOf read) texts)).toUInt32
