/-
Compiling a header row. Cells are read from left to right; what spans cells (the current table, the
field declared last, an open child record) lives in a `HeaderState`. `finish` gives every record the
literals of column 0, replaces references to other fields by what these read, and checks that each
record has an id. A failing cell keeps the declarations made before the fault.
-/
import TagHarvest.Header.Clause
import TagHarvest.Header.Recipe

namespace TagHarvest

/-- Where a declaration went. -/
inductive Target where
  | recipe (index : Nat)
  | global
  | pendingChild
  deriving DecidableEq, Repr

/-- The field declared last, whose attributes may follow. -/
structure LastField where
  target : Target
  table : String
  base : String
  deriving DecidableEq, Repr

/-- A child record being declared: its recipe once its id is known, or one field waiting for it. -/
structure ChildScope where
  table : String
  recipe : Option Nat
  pending : Option FieldRecipe
  deriving DecidableEq, Repr

/-- What the cells of a header row have declared so far. -/
structure HeaderState where
  /-- The table that a tag without one belongs to. -/
  table : Option String
  last : Option LastField
  recipes : List RecordRecipe
  /-- The literals of column 0 with their tables. -/
  globals : List (String × FieldRecipe)
  child : Option ChildScope
  deriving DecidableEq, Repr

/-- Changes to a header state that may fail, and then keep the changes made before. -/
abbrev Compile := EStateM TagError HeaderState

/-- A field declaration with its context worked out. -/
structure Declaration where
  table : String
  base : String
  name : String
  child : Bool
  /-- The place of the field it is an attribute of. -/
  owner : Option Target
  list : Bool
  deriving DecidableEq, Repr

namespace HeaderState

/-- The state before the first cell. -/
def start : HeaderState := ⟨none, none, [], [], none⟩

/-- The recipe of a table's own records, as opposed to its child records. -/
def ownRecipe? (s : HeaderState) (table : String) : Option Nat :=
  s.recipes.findIdx? fun r => r.table == table && !r.isChild

/-- The table of a tag: the one it names, or the current one. -/
def tableOf (s : HeaderState) (here : Location) (named : Option String) :
    Except TagError String :=
  match named, s.table with
  | some t, _ => .ok t
  | none, some t => .ok t
  | none, none => .error (.shape here .noTable)

/-- The field declared last, which an attribute needs. -/
def lastFor (s : HeaderState) (here : Location) (attr : String) : Except TagError LastField :=
  match s.last with
  | some f => .ok f
  | none => .error (.shape here (.orphanAttribute attr))

/-- The operand that an operand text stands for. -/
def operand (s : HeaderState) (here : Location) : OperandText → Except TagError Operand
  | .literal text => .ok (.literal text)
  | .attr name => do
    let last ← s.lastFor here name
    return .reference ⟨last.table, attributeName last.base name, here.column⟩
  | .field named name => do
    return .reference ⟨← s.tableOf here named, name, here.column⟩

/-- The operands of an assignment; none if the field reads its own column. -/
def operands? (s : HeaderState) (here : Location) :
    Assignment → Except TagError (Option (List Operand))
  | .column => .ok none
  | .fault f => .error (.grammar here f)
  | .operands parts f => do
    let parts ← parts.mapM (s.operand here)
    match f with
    | some f => .error (.grammar here f)
    | none => .ok (some parts)

/-- Adds a field to a recipe. -/
def addTo (here : Location) (index : Nat) (f : FieldRecipe) : Compile Unit := do
  let s ← get
  match s.recipes[index]? with
  | none => pure ()
  | some r =>
    match r.add f with
    | .ok r => set { s with recipes := s.recipes.set index r }
    | .error fault => throw (.shape here fault)

/-- The index of a table's own recipe, which is added if it is missing. -/
def recipeFor (table : String) : Compile Nat := do
  let s ← get
  match s.ownRecipe? table with
  | some i => return i
  | none =>
    set { s with recipes := s.recipes ++ [RecordRecipe.new table] }
    return s.recipes.length

/-- The scope for a field of a child of `table`: the open one, or a new one. -/
def childScope (here : Location) (table : String) : Compile ChildScope := do
  let s ← get
  match s.child with
  | some scope =>
    if scope.table = table then return scope
    else if scope.pending.isSome then throw (.shape here .childWithoutId)
    else
      set { s with child := some ⟨table, none, none⟩ }
      return ⟨table, none, none⟩
  | none =>
    set { s with child := some ⟨table, none, none⟩ }
    return ⟨table, none, none⟩

/-- Starts the recipe of a child record with its id, and adds the field that waited for it. -/
def addChildId (here : Location) (scope : ChildScope) (id : FieldRecipe) : Compile Target := do
  let s ← get
  let shape {α : Type} (r : Except StructureFault α) : Compile α :=
    match r with
    | .ok a => return a
    | .error fault => throw (.shape here fault)
  match s.ownRecipe? scope.table with
  | none => throw (.shape here (.childWithoutParent scope.table))
  | some parent =>
    match (s.recipes[parent]?).bind (·.childOf parent) with
    | none => throw (.shape here (.childBeforeParentId scope.table))
    | some child =>
      let child ← shape (child.add id)
      set { s with child := some { scope with pending := none } }
      let child ← match scope.pending with
        | some f => shape (child.add f)
        | none => pure child
      let index := s.recipes.length
      set { s with
        recipes := s.recipes ++ [child]
        child := some { scope with recipe := some index, pending := none } }
      return .recipe index

/-- Registers a field of a child record. -/
def addChild (here : Location) (table : String) (f : FieldRecipe) : Compile Target := do
  let scope ← childScope here table
  if f.name = idField then addChildId here scope f
  else match scope.recipe, scope.pending with
  | some index, _ =>
    addTo here index f
    return .recipe index
  | none, some _ => throw (.shape here .secondPendingChild)
  | none, none =>
    modify fun s => { s with child := some { scope with pending := some f } }
    return .pendingChild

/-- Registers a field of column 0, which must be a literal. -/
def addGlobal (here : Location) (d : Declaration) (f : FieldRecipe) : Compile Target := do
  if !f.isLiteral then throw (.grammar here .computedGlobal)
  else if d.child then throw (.grammar here .childGlobal)
  else
    modify fun s => { s with globals := s.globals ++ [(d.table, f)] }
    return .global

/-- Puts a field where its declaration says. -/
def place (here : Location) (d : Declaration) (f : FieldRecipe) : Compile Target :=
  if here.column = 0 then addGlobal here d f
  else match d.owner with
  | some (.recipe index) => do
    addTo here index f
    return .recipe index
  | some .global => throw (.grammar here .attributeOfGlobal)
  | some .pendingChild => throw (.shape here .pendingChildAttribute)
  | none =>
    if d.child then addChild here d.table f
    else do
      let index ← recipeFor d.table
      addTo here index f
      return .recipe index

/-- Registers a declaration and makes it the last one. -/
def register (here : Location) (d : Declaration) (operands : Option (List Operand)) :
    Compile Unit := do
  if operands.isNone && here.column = 0 then throw (.grammar here .unassignedGlobal)
  else
    let parts := operands.getD [.column here.column]
    let target ← place here d ⟨d.name, parts, d.list, here.column⟩
    modify fun s => { s with table := some d.table, last := some ⟨target, d.table, d.base⟩ }

/-- A step that only looks at the state. -/
def look {α : Type} (f : HeaderState → Except TagError α) : Compile α := do
  match f (← get) with
  | .ok a => return a
  | .error e => throw e

/-- Works out the operands of a declaration and registers it. -/
def declare (here : Location) (d : Declaration) (value : Assignment) : Compile Unit := do
  let operands ← look (·.operands? here value)
  if d.list && d.name = idField then throw (.shape here .listId)
  else register here d operands

/-- Carries out one clause of a cell. -/
def clause (here : Location) : Clause → Compile Unit
  | .fault f => throw (.grammar here f)
  | .table name => modify fun s => { s with table := some name }
  | .attr list name value => do
    let last ← look (·.lastFor here name)
    if last.target = .pendingChild then throw (.shape here .attributeBeforeChildId)
    else declare here ⟨last.table, last.base, attributeName last.base name, false, some last.target,
      list⟩ value
  | .field list name value => do
    let table ← look (·.tableOf here name.table)
    declare here ⟨table, name.base, name.name, name.child, none, list⟩ value

/-- The tokens of a header cell that make its clauses: column 0 starts with the marker. -/
def clauseTokens (here : Location) (cell : String) : Except TagError (List Token) :=
  match Token.tokenize cell with
  | .error e => .error (.grammar here (.lexical e))
  | .ok ts =>
    if here.column = 0 then
      match ts with
      | .tag "#tags" :: ts => .ok ts
      | _ => .error (.grammar here .missingMarker)
    else .ok ts

/-- Compiles one cell. -/
def cell (here : Location) (text : String) : Compile Unit := do
  let tokens ← look fun _ => clauseTokens here text
  (Clause.ofTokens tokens).forM (clause here)

/-- A record recipe with the literals of column 0; those of other tables keep the table's name. -/
def withGlobals (globals : List (String × FieldRecipe)) (r : RecordRecipe) : RecordRecipe :=
  globals.foldl
    (fun r (table, f) =>
      r.addDefault (if r.table = table then f else { f with name := table ++ "." ++ f.name })) r

/-- What a reference to a field may read: its only operand, a literal or a column. -/
def source? (f : FieldRecipe) : Option Operand :=
  match f.operands with
  | [.column i] => some (.column i)
  | [.literal s] => some (.literal s)
  | _ => none

/-- The fields that references can name, the literals of column 0 before those of the records. -/
def sources (globals : List (String × FieldRecipe)) (recipes : List RecordRecipe) :
    List ((String × String) × Operand) :=
  let ofGlobals := globals.filterMap fun (table, f) => (source? f).map fun o => ((table, f.name), o)
  let ofRecipes := (recipes.filter (!·.isChild)).flatMap fun r =>
    r.fields.filterMap fun f => (source? f).map fun o => ((r.table, f.name), o)
  ofGlobals ++ ofRecipes

/-- An operand with its reference replaced; `place` gives the cell of a column. -/
def resolve (place : Nat → Location) (sources : List ((String × String) × Operand)) :
    Operand → Except TagError Operand
  | .reference r =>
    match sources.lookup (r.table, r.field) with
    | some o => .ok o
    | none => .error (.shape (place r.usedAt) (.unresolvedReference r.table r.field))
  | o => .ok o

/-- A record recipe with all its references replaced. -/
def resolveRecipe (place : Nat → Location) (sources : List ((String × String) × Operand))
    (r : RecordRecipe) : Except TagError RecordRecipe := do
  let fields ← r.fields.mapM fun f => do
    return { f with operands := ← f.operands.mapM (resolve place sources) }
  return { r with fields }

/-- Refuses a record recipe without an id, at the cell of its first field. -/
def checkId (place : Nat → Location) (r : RecordRecipe) : Except TagError Unit :=
  if r.hasId then .ok ()
  else .error (.shape (place ((r.fields.head?.map (·.column)).getD 0)) (.missingId r.table))

/-- The recipes of a row whose cells have all been compiled. -/
def finish (place : Nat → Location) (s : HeaderState) : Except TagError (List RecordRecipe) := do
  match s.child.bind (·.pending) with
  | some f => .error (.shape (place f.column) .childWithoutId)
  | none =>
    let recipes := s.recipes.map (withGlobals s.globals)
    let recipes ← recipes.mapM (resolveRecipe place (sources s.globals recipes))
    recipes.forM (checkId place)
    return recipes

/-- Compiles the cells of a row from a column on. -/
def cells (place : Nat → Location) (column : Nat) : Row → Compile Unit
  | [] => pure ()
  | text :: rest => do
    cell (place column) text
    cells place (column + 1) rest

end HeaderState

/-- The record recipes of the header in a row of a worksheet. -/
def compileHeader (sheet : Worksheet) (row : Nat) : Except TagError (List RecordRecipe) :=
  let place := sheet.location row
  match HeaderState.cells place 0 (sheet.row row) .start with
  | .ok _ s => s.finish place
  | .error e _ => .error e

end TagHarvest
