/-
Reading directive documents: a text must be JSON and have the form of such a document.
-/
import TagHarvest.Directive.Codec
import TagHarvest.Directive.Error
import TagHarvest.Directive.Schema

namespace TagHarvest.Directives

/-- The directives of a JSON value; a value of the right form always has some. -/
def ofValue (v : Json) : Except DirectiveError Directives :=
  match violations v with
  | [] =>
    match ofJson? v with
    | some d => .ok d
    | none => .error .json
  | vs => .error (.schema (vs.map Violation.message))

/-- The directives of a text. -/
def ofText (text : String) : Except DirectiveError Directives :=
  match Json.read? text with
  | none => .error .json
  | some v => ofValue v.merged

/-- The document of directives. -/
def document (d : Directives) : String := d.toJson.compact

end TagHarvest.Directives
