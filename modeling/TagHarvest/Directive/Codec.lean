/-
Directive documents as JSON. Empty and false optional members are left out in writing and supplied in
reading; a structure may also be read from an array of its members in their order.
-/
import TagHarvest.Directive.Document
import TagHarvest.Json.Codec
import TagHarvest.Json.Reader
import TagHarvest.Record.Document

namespace TagHarvest

namespace Json

/--
The members of a structure with known names, from an object in which none of them is repeated or from an
array that is not longer than the names.
-/
def fields? (names : List String) : Json → Option (List (String × Json))
  | object members =>
    if names.all fun n => (members.filter fun m => m.1 == n).length ≤ 1 then some members else none
  | array items => if items.length ≤ names.length then some (names.zip items) else none
  | _ => none

/-- A member that may be missing. -/
def optional {α : Type} (members : List (String × Json)) (name : String) (read : Json → Option α)
    (missing : α) : Option α :=
  match member? name members with
  | some v => read v
  | none => some missing

/-- A member that must be there. -/
def needed {α : Type} (members : List (String × Json)) (name : String) (read : Json → Option α) :
    Option α :=
  (member? name members).bind read

/-- A value that may be null. -/
def nullable? {α : Type} (read : Json → Option α) : Json → Option (Option α)
  | null => some none
  | v => (read v).map some

/-- A member of an object that is written, unless it is left out. -/
def memberUnless (leftOut : Bool) (name : String) (v : Json) : List (String × Json) :=
  if leftOut then [] else [(name, v)]

end Json

namespace Edits

def memberNames : List String :=
  ["assign", "append", "prepend", "regex", "delete", "rename", "required"]

def ofJson? (v : Json) : Option Edits := do
  let ms ← Json.fields? memberNames v
  let values (name : String) : Option (OrderedMap String FieldValue) :=
    Json.optional ms name (Json.textMap? FieldValue.ofJson?) .empty
  return {
    assign := ← values "assign"
    append := ← values "append"
    prepend := ← values "prepend"
    regex := ← Json.optional ms "regex" (Json.textMap? Json.strings?) .empty
    delete := ← Json.optional ms "delete" Json.strings? []
    rename := ← Json.optional ms "rename" (Json.textMap? Json.string?) .empty
    required := ← Json.optional ms "required" Json.bool? false }

/-- The operations that a text writes; members with other names are passed over. -/
def ofText? (text : String) : Option Edits :=
  (Json.readStructure? memberNames text).bind ofJson?

def toJson (e : Edits) : Json :=
  let values (name : String) (m : OrderedMap String FieldValue) :=
    Json.memberUnless m.isEmpty name (Json.ofTextMap FieldValue.toJson m)
  .object (values "assign" e.assign ++ values "append" e.append ++ values "prepend" e.prepend ++
    Json.memberUnless e.regex.isEmpty "regex" (Json.ofTextMap Json.ofStrings e.regex) ++
    Json.memberUnless e.delete.isEmpty "delete" (Json.ofStrings e.delete) ++
    Json.memberUnless e.rename.isEmpty "rename" (Json.ofTextMap Json.string e.rename) ++
    Json.memberUnless (!e.required) "required" (.bool e.required))

end Edits

namespace ConversionDirectives

def ofJson? (v : Json) : Option ConversionDirectives :=
  Json.textMap? (Json.textMap? (Json.map? Comparison.ofName? (Json.textMap? Edits.ofJson?))) v

def toJson (d : ConversionDirectives) : Json :=
  Json.ofTextMap (Json.ofTextMap (Json.ofMap Comparison.name (Json.ofTextMap Edits.toJson))) d

end ConversionDirectives

namespace HeaderDescription

def ofJson? (v : Json) : Option HeaderDescription := do
  let ms ← Json.fields? ["header", "tag", "required"] v
  return {
    header := ← Json.needed ms "header" Json.string?
    tag := ← Json.needed ms "tag" Json.string?
    required := ← Json.optional ms "required" Json.bool? false }

def toJson (d : HeaderDescription) : Json :=
  .object [("header", .string d.header), ("tag", .string d.tag), ("required", .bool d.required)]

end HeaderDescription

namespace TaggingGroup

def memberNames : List String :=
  ["header_tag_descriptions", "exclusion_test", "insert", "insert_multiple"]

def ofJson? (v : Json) : Option TaggingGroup := do
  let ms ← Json.fields? memberNames v
  return {
    descriptions :=
      ← Json.optional ms "header_tag_descriptions" (Json.list? HeaderDescription.ofJson?) []
    exclusion := ← Json.optional ms "exclusion_test" (Json.nullable? Json.string?) none
    insert := ← Json.optional ms "insert" (Json.list? Json.strings?) []
    insertMultiple := ← Json.optional ms "insert_multiple" Json.bool? false }

def toJson (g : TaggingGroup) : Json :=
  .object (Json.memberUnless g.descriptions.isEmpty "header_tag_descriptions"
      (.array (g.descriptions.map HeaderDescription.toJson)) ++
    Json.memberUnless g.exclusion.isNone "exclusion_test" (.string (g.exclusion.getD "")) ++
    Json.memberUnless g.insert.isEmpty "insert" (.array (g.insert.map Json.ofStrings)) ++
    Json.memberUnless (!g.insertMultiple) "insert_multiple" (.bool g.insertMultiple))

end TaggingGroup

namespace Directives

def ofJson? (v : Json) : Option Directives := do
  let ms ← Json.fields? ["conversion", "tagging"] v
  return {
    conversion := ← Json.optional ms "conversion" ConversionDirectives.ofJson? .empty
    tagging := ← Json.optional ms "tagging" (Json.list? TaggingGroup.ofJson?) [] }

def toJson (d : Directives) : Json :=
  .object (Json.memberUnless d.conversion.isEmpty "conversion" (ConversionDirectives.toJson d.conversion) ++
    Json.memberUnless d.tagging.isEmpty "tagging" (.array (d.tagging.map TaggingGroup.toJson)))

end Directives
end TagHarvest
