/-
The form of directive documents. `Directives.violations` lists everything in a JSON value that does not
have it, in the order of the document; a value of the wrong type is reported as such and not looked into.
-/
import TagHarvest.Directive.Document
import TagHarvest.Json.Printer

namespace TagHarvest

/-- A deviation of a value from the form of a document. -/
inductive Violation where
  | type (v : Json) (expected : String)
  | additional (names : List String)
  | missing (name : String)
  | tooShort (v : Json)
  | noTag (v : Json)
  | noFieldValue (v : Json)
  | unknownComparison (name : String)

namespace Violation

def message : Violation → String
  | type v expected => v.compact ++ " is not of type " ++ "\"" ++ expected ++ "\""
  | additional names =>
    let listed := ", ".intercalate (names.map fun n => "'" ++ n ++ "'")
    let verb := if names.length = 1 then "was" else "were"
    "Additional properties are not allowed (" ++ listed ++ " " ++ verb ++ " unexpected)"
  | missing name => "\"" ++ name ++ "\" is a required property"
  | tooShort v => v.compact ++ " is shorter than 1 character"
  | noTag v => v.compact ++ " does not match \"^#\""
  | noFieldValue v =>
    v.compact ++ " is not valid under any of the schemas listed in the 'oneOf' keyword"
  | unknownComparison name =>
    (Json.string name).compact ++ " is not one of \"exact\", \"regex\" or 4 other candidates"

end Violation

namespace Json

/-- A test of a value: its violations. -/
abbrev Check := Json → List Violation

def checkString : Check
  | string _ => []
  | v => [.type v "string"]

def checkBool : Check
  | bool _ => []
  | v => [.type v "boolean"]

/-- Every item passes a test. -/
def checkItems (item : Check) : Check
  | array items => items.flatMap item
  | v => [.type v "array"]

/-- Every member passes a test. -/
def checkMembers (member : Check) : Check
  | object members => members.flatMap fun m => member m.2
  | v => [.type v "object"]

/-- Each member has a known name and passes the test of it; some must be there. -/
def checkClosed (required : List String) (known : List (String × Check)) : Check
  | object members =>
    let missing := required.filter fun n => (member? n members).isNone
    let unexpected := (members.filter fun m => (known.lookup m.1).isNone).map Prod.fst
    missing.map .missing ++
      members.flatMap (fun m => match known.lookup m.1 with
        | some check => check m.2
        | none => []) ++
      (if unexpected.isEmpty then [] else [.additional unexpected])
  | v => [.type v "object"]

/-- A string, or an array of strings. -/
def checkFieldValue : Check := fun v =>
  if (checkString v).isEmpty ∨ (checkItems checkString v).isEmpty then [] else [.noFieldValue v]

/-- A string with at least one character. -/
def checkFilled : Check
  | string s => if s.isEmpty then [.tooShort (string s)] else []
  | v => [.type v "string"]

/-- A string that starts with `#`. -/
def checkTag : Check
  | string s => if "#".toList.isPrefixOf s.toList then [] else [.noTag (string s)]
  | v => [.type v "string"]

/-- The edits of a directive. -/
def checkEdits : Check :=
  checkClosed [] [
    ("assign", checkMembers checkFieldValue),
    ("append", checkMembers checkFieldValue),
    ("prepend", checkMembers checkFieldValue),
    ("regex", checkMembers (checkItems checkString)),
    ("delete", checkItems checkString),
    ("rename", checkMembers checkFilled),
    ("required", checkBool)]

/-- The directives of a field: every name is a comparison. -/
def checkField : Check
  | object members =>
    (members.filter fun m => (Comparison.ofName? m.1).isNone).map (fun m => .unknownComparison m.1) ++
      members.flatMap fun m => checkMembers checkEdits m.2
  | v => [.type v "object"]

def checkDescription : Check :=
  checkClosed ["header", "tag"] [
    ("header", checkFilled),
    ("tag", checkTag),
    ("required", checkBool)]

def checkTaggingGroup : Check :=
  checkClosed [] [
    ("header_tag_descriptions", checkItems checkDescription),
    ("exclusion_test", checkString),
    ("insert", checkItems (checkItems checkString)),
    ("insert_multiple", checkBool)]

end Json

/-- The violations of a directive document, in the order in which they are found. -/
def Directives.violations : Json → List Violation :=
  Json.checkClosed [] [
    ("conversion", Json.checkMembers (Json.checkMembers Json.checkField)),
    ("tagging", Json.checkItems Json.checkTaggingGroup)]

end TagHarvest
