/-
Diagnostics: warnings and errors kept beside a result. A failure of something required is recorded as an
error and goes on to the caller; a failure of something optional becomes a warning.
-/
import TagHarvest.Json.Printer

namespace TagHarvest

inductive Level where
  | warning
  | error
  deriving DecidableEq, Repr

def Level.name : Level → String
  | warning => "warning"
  | error => "error"

structure Diagnostic where
  level : Level
  message : String
  deriving DecidableEq, Repr

/-- The document of a diagnostic. -/
def Diagnostic.document (d : Diagnostic) : String :=
  (Json.object [("level", .string d.level.name), ("message", .string d.message)]).compact

structure Diagnostics where
  /-- Whether warnings are kept from the log; they are recorded all the same. -/
  silent : Bool := false
  entries : List Diagnostic := []
  deriving DecidableEq, Repr

namespace Diagnostics

def add (d : Diagnostics) (level : Level) (message : String) : Diagnostics :=
  { d with entries := d.entries ++ [⟨level, message⟩] }

def warn (d : Diagnostics) (message : String) : Diagnostics := d.add .warning message

def error (d : Diagnostics) (message : String) : Diagnostics := d.add .error message

/-- Records a failure, and tells whether it must go on to the caller. -/
def report (d : Diagnostics) (required : Bool) (message : String) : Diagnostics :=
  if required then d.error message else d.warn message

def absorb (d other : Diagnostics) : Diagnostics :=
  { d with entries := d.entries ++ other.entries }

def count (d : Diagnostics) (level : Level) : Nat :=
  (d.entries.filter (·.level == level)).length

def hasErrors (d : Diagnostics) : Bool := d.entries.any (·.level == .error)

end Diagnostics
end TagHarvest
