/-
Files as a program sees them: a path is a file or not, and a file has octets or a reason why they cannot
be read.
-/

namespace TagHarvest

/-- Why a file cannot be read or written. -/
inductive FileFault where
  | missing
  | isDirectory
  | notDirectory
  /-- What was read is no text. -/
  | notText
  | other (message : String)
  deriving DecidableEq, Repr

def FileFault.message : FileFault → String
  | missing => "No such file or directory (os error 2)"
  | isDirectory => "Is a directory (os error 21)"
  | notDirectory => "Not a directory (os error 20)"
  | notText => "stream did not contain valid UTF-8"
  | other message => message

structure FileView where
  isFile : String → Bool
  read : String → Except FileFault (List UInt8)

end TagHarvest
