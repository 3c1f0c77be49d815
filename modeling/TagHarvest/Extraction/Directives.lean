/-
Loading directives: from a JSON document, or from a tagged worksheet of conversion directives.
-/
import TagHarvest.Directive.Reader
import TagHarvest.Directive.Worksheet
import TagHarvest.Extraction.Error

namespace TagHarvest.FileView

/-- The text of a file, which must be UTF-8. -/
def text (view : FileView) (path : String) : Except FileFault String :=
  match view.read path with
  | .error fault => .error fault
  | .ok bs =>
    match Text.Utf8.decode? bs with
    | some cs => .ok (String.ofList cs)
    | none => .error .notText

/-- The directives of a JSON document. -/
def documentDirectives (view : FileView) (path : String) : Except ExtractionError Directives := do
  let text ← (view.text path).mapError .file
  (Directives.ofText text).mapError .directive

/-- The directives of a tagged worksheet. -/
def worksheetDirectives (view : FileView) (text : String) : Except ExtractionError Directives := do
  let sheet ← (view.worksheet text).mapError .source
  let conversion ← (ConversionDirectives.ofWorksheet sheet).mapError .directive
  return { conversion }

/-- The directives that a text refers to, told apart by the extension of their file. -/
def directives (view : FileView) (text : String) : Except ExtractionError Directives :=
  let r := SourceReference.ofText view text
  match r.stemAndExtension? with
  | some (_, "json") => view.documentDirectives r.path
  | _ => view.worksheetDirectives text

end TagHarvest.FileView
