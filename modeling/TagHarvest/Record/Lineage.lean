/-
Lineages: trees of records that name a parent of the same table. A tree starts at an identifier that is
named as parent and names none itself; a walk never enters an identifier twice, so links that run in a
circle end it.
-/
import TagHarvest.Record.Store

namespace TagHarvest

/-- A record and the records below it. -/
inductive Lineage where
  | node (id : String) (children : List Lineage)
  deriving Repr, Inhabited

namespace Lineage

def id : Lineage → String
  | node i _ => i

def children : Lineage → List Lineage
  | node _ cs => cs

mutual
/-- The number of nodes of a tree. -/
def size : Lineage → Nat
  | node _ cs => 1 + sizeAll cs

/-- The number of nodes of a forest. -/
def sizeAll : List Lineage → Nat
  | [] => 0
  | t :: ts => size t + sizeAll ts
end

end Lineage

namespace Record

/-- The parents that a record names. -/
def parents (r : Record) : List String :=
  ((r.get? parentField).map FieldValue.texts).getD []

/-- The first parent that a record names. -/
def parent? (r : Record) : Option String := r.parents.head?

end Record

namespace Table

/-- The identifiers that name each parent, parents in the order in which they are first named. -/
def childMap (t : Table) : OrderedMap String (List String) :=
  t.entries.foldl
    (fun m e => e.2.parents.foldl (fun m p => m.alter p fun kids => kids.getD [] ++ [e.1]) m) .empty

/-- Named as parent, and naming none: absent from the table or without the field. -/
def isRoot (t : Table) (id : String) : Bool :=
  match t.get? id with
  | none => true
  | some r => !r.contains parentField

mutual
/--
The tree below `id` that enters no identifier of `seen`, with the identifiers seen after it. Each step
down sees one more key or leaf of `kids`, so `fuel` one above their number is never used up.
-/
def grow (kids : OrderedMap String (List String)) :
    (fuel : Nat) → (seen : List String) → (id : String) → Lineage × List String
  | 0, seen, id => (.node id [], id :: seen)
  | fuel + 1, seen, id =>
    let (trees, seen) := growAll kids fuel (id :: seen) ((kids.get? id).getD [])
    (.node id trees, seen)

/-- The trees of the identifiers of a list that are not yet seen, from left to right. -/
def growAll (kids : OrderedMap String (List String)) :
    (fuel : Nat) → (seen : List String) → (ids : List String) → List Lineage × List String
  | _, seen, [] => ([], seen)
  | fuel, seen, id :: ids =>
    if seen.contains id then growAll kids fuel seen ids
    else
      let (tree, seen) := grow kids fuel seen id
      let (trees, seen) := growAll kids fuel seen ids
      (tree :: trees, seen)
end

/-- The identifiers that are named as parent or name one, with repetition. -/
def linked (kids : OrderedMap String (List String)) : List String :=
  kids.entries.flatMap fun e => e.1 :: e.2

/-- The trees of a table, in the order of their roots. -/
def forest (t : Table) : List Lineage :=
  let kids := t.childMap
  let fuel := (linked kids).length + 1
  let roots := kids.keys.filter t.isRoot
  (roots.foldl
    (fun (trees, seen) root =>
      let (tree, seen) := grow kids fuel seen root
      (trees ++ [tree], seen))
    ([], [])).1

/--
The chain of first parents from `current` on, which stops before an identifier already seen. The
identifiers of the table that are not yet seen become fewer, so `fuel` above the size of the table is
never used up.
-/
def parentChain (t : Table) : (fuel : Nat) → (seen : List String) → (current : String) → List String
  | 0, _, _ => []
  | fuel + 1, seen, current =>
    match (t.get? current).bind Record.parent? with
    | none => []
    | some p => if seen.contains p then [] else p :: parentChain t fuel (p :: seen) p

/-- The parent of `id`, its parent, and so on. -/
def ancestors (t : Table) (id : String) : List String :=
  t.parentChain (t.size + 1) [id] id

/-- The other records with the same first parent, in the order of the table. -/
def siblings (t : Table) (id : String) : List String :=
  match (t.get? id).bind Record.parent? with
  | none => []
  | some p => (t.entries.filter fun e => e.1 != id && e.2.parent? == some p).map Prod.fst

end Table

namespace Store

/-- The forests of the tables in which some record names a parent. -/
def lineages (s : Store) : List (String × List Lineage) :=
  (s.entries.filter fun e => !e.2.childMap.isEmpty).map fun e => (e.1, e.2.forest)

def ancestors (s : Store) (table id : String) : List String :=
  ((s.table? table).map (·.ancestors id)).getD []

def siblings (s : Store) (table id : String) : List String :=
  ((s.table? table).map (·.siblings id)).getD []

end Store
end TagHarvest
