/-
Loading worksheets from files of delimited text, with the character set and the delimiter detected. The
tab is the delimiter of a source whose name ends in `.tsv`.
-/
import TagHarvest.Delimited.Detect
import TagHarvest.Delimited.Document
import TagHarvest.Source.Charset
import TagHarvest.Source.Reference

namespace TagHarvest

/-- Why a source cannot be loaded. -/
inductive SourceError where
  | file (path : String) (fault : FileFault)
  | malformed (path : String) (fault : Delimited.Fault)
  | empty (source : String)
  | unsupported (path : String) (extension : Option String)
  deriving DecidableEq, Repr

def SourceError.message : SourceError → String
  | file path fault => s!"Failed to read '{path}': {fault.message}"
  | malformed path fault => s!"Invalid CSV in '{path}' at line {fault.line}: {fault.message}"
  | empty source => s!"Source '{source}' is empty"
  | unsupported path none => s!"Unsupported source type: {path}"
  | unsupported path (some extension) => s!"Unsupported source type: '.{extension}' ({path})"

/-- A worksheet and what was detected of its source. -/
structure LoadedSource where
  worksheet : Worksheet
  charset : Charset
  delimiter : Char
  deriving DecidableEq

namespace LoadedSource

/-- True of the octets of a space, a tab, a line feed, a form feed and a carriage return. -/
def isBlankOctet (b : UInt8) : Bool := b == 32 || b == 9 || b == 10 || b == 12 || b == 13

/-- The rows of a delimited text as a worksheet. -/
def worksheetOf (text : String) (delimiter : Char) (source name : String) :
    Except SourceError Worksheet :=
  match Delimited.parse delimiter text with
  | .ok rows => .ok ⟨source, name, rows⟩
  | .error fault => .error (.malformed source fault)

/-- Loads the octets of a source. -/
def ofOctets (bs : List UInt8) (source name : String) : Except SourceError LoadedSource :=
  if bs.all isBlankOctet then .error (.empty source)
  else
    let charset := Charset.detect bs
    let text := charset.decode bs
    let delimiter :=
      if (Text.beforeEnding? ".tsv" source).isSome then '\t' else Delimited.detect text
    (worksheetOf text delimiter source name).map fun s => ⟨s, charset, delimiter⟩

end LoadedSource

/-- The extensions of files that hold delimited text. -/
def delimitedExtensions : List String := ["csv", "tsv", "txt"]

/-- Loads the worksheet that a text refers to; without a sheet it has the name of its file. -/
def FileView.worksheet (view : FileView) (text : String) : Except SourceError Worksheet :=
  let r := SourceReference.ofText view text
  match r.stemAndExtension? with
  | none => .error (.unsupported r.path none)
  | some (stem, extension) =>
    if !delimitedExtensions.contains extension then .error (.unsupported r.path (some extension))
    else match view.read r.path with
    | .error fault => .error (.file r.path fault)
    | .ok bs => (LoadedSource.ofOctets bs r.path (r.sheet.getD stem)).map (·.worksheet)

end TagHarvest
