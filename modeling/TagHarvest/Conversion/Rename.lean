/-
Renamed records. A record whose `id` is no longer its key has been renamed: its table is keyed anew, and
every reference to it follows, those in fields `<table>.id` of any table and those in `parentID` of its
own. All renames are carried out at once, so ids may be exchanged.
-/
import TagHarvest.Directive.Error
import TagHarvest.Record.Store
import TagHarvest.Text.Cut

namespace TagHarvest

/-- One record that changes its key. -/
structure Rename where
  table : String
  old : String
  new : String
  deriving DecidableEq, Repr

/-- The id of a record that may be used as a key. -/
def Record.usableId? (r : Record) : Option String :=
  r.id?.filter fun id => !id.isEmpty

namespace Table

/-- The first key whose record has no usable id. -/
def invalidId? (t : Table) : Option String :=
  (t.entries.find? fun e => e.2.usableId?.isNone).map Prod.fst

/-- The records that change their key. -/
def renames (name : String) (t : Table) : List Rename :=
  t.entries.filterMap fun (key, r) =>
    match r.id? with
    | some id => if id = key then none else some ⟨name, key, id⟩
    | none => none

/-- The first key whose record has an id that is already `seen`, with that id. -/
def collision? : (seen : List String) → List (String × Record) → Option (String × String)
  | _, [] => none
  | seen, (key, r) :: es =>
    let id := r.id?.getD key
    if id ∈ seen then some (key, id) else collision? (id :: seen) es

/-- The table with every record under its own id. -/
def keyedById (t : Table) : Table :=
  .ofList (t.entries.map fun (key, r) => (r.id?.getD key, r))

/-- Keys a table by the ids of its records, which must be usable and distinct. -/
def rekey (name : String) (t : Table) : Except DirectiveError (Table × List Rename) :=
  match t.invalidId? with
  | some key => .error (.invalidId name key)
  | none =>
    match t.renames name with
    | [] => .ok (t, [])
    | renames =>
      match collision? [] t.entries with
      | some (key, id) => .error (.idCollision name key id)
      | none => .ok (t.keyedById, renames)

end Table

namespace Rename

/-- The table that a field's values refer to. -/
def referenced? (table field : String) : Option String :=
  if field = parentField then some table else Text.beforeEnding? ".id" field

/-- The new key for a reference to a record of `table`. -/
def newKey (renames : List Rename) (table key : String) : String :=
  ((renames.find? fun r => r.table == table && r.old == key).map Rename.new).getD key

/-- The value of a field with its references renewed. -/
def renewValue (renames : List Rename) (table field : String) (v : FieldValue) : FieldValue :=
  match referenced? table field with
  | some target => v.mapTexts (newKey renames target)
  | none => v

end Rename

namespace Store

/-- The store with all references to renamed records renewed. -/
def renewReferences (renames : List Rename) (s : Store) : Store :=
  s.mapValues fun table t => t.mapValues fun _ r => r.mapValues fun field v =>
    Rename.renewValue renames table field v

/--
Keys the named tables of a store one after the other. When one of them cannot be keyed, those before it
have been.
-/
def rekeyTables : List (String × Table) → Store → Store × Except DirectiveError (List Rename)
  | [], s => (s, .ok [])
  | (name, t) :: ts, s =>
    match t.rekey name with
    | .error e => (s, .error e)
    | .ok (t, renames) =>
      let (s, r) := rekeyTables ts (s.insert name t)
      (s, r.map (renames ++ ·))

/-- Keys every table by the ids of its records and renews the references. -/
def propagateRenames (s : Store) : Store × Except DirectiveError (List Rename) :=
  match s.rekeyTables s.entries with
  | (s, .error e) => (s, .error e)
  | (s, .ok renames) => (s.renewReferences renames, .ok renames)

end Store
end TagHarvest
