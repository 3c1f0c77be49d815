/-
The store of records: tables by name, records by id, fields by name, each level in the order of first
insertion. A record carries its own identifier in the field `id`; a table's key for a record and that
field may differ while a conversion runs.
-/
import TagHarvest.OrderedMap
import TagHarvest.Record.Value

namespace TagHarvest

/-- The field that holds a record's identifier. -/
def idField : String := "id"

/-- The field that holds the identifier of a record's parent in the same table. -/
def parentField : String := "parentID"

/-- Fields by name. -/
abbrev Record := OrderedMap String FieldValue

/-- Records by identifier. -/
abbrev Table := OrderedMap String Record

/-- Tables by name. -/
abbrev Store := OrderedMap String Table

/-- The identifier of a record, if its `id` is a scalar. -/
def Record.id? (r : Record) : Option String :=
  (r.get? idField).bind FieldValue.asScalar?

namespace Store

def table? (s : Store) (name : String) : Option Table := s.get? name

def record? (s : Store) (table id : String) : Option Record :=
  (s.table? table).bind (·.get? id)

/-- The named table, empty if the store has none. -/
def tableOrEmpty (s : Store) (name : String) : Table :=
  (s.table? name).getD .empty

/-- Changes a table, which is added if the store has none of that name. -/
def updateTable (s : Store) (name : String) (f : Table → Table) : Store :=
  s.insert name (f (s.tableOrEmpty name))

/-- Changes a record that is there. -/
def updateRecord (s : Store) (table id : String) (f : Record → Record) : Store :=
  s.modify table (·.modify id f)

/-- Puts a record under its own identifier; none if it has no scalar `id`. -/
def insertRecord? (s : Store) (table : String) (r : Record) : Option Store :=
  r.id?.map fun id => s.updateTable table (·.insert id r)

/-- The number of records in all tables. -/
def recordCount (s : Store) : Nat :=
  (s.values.map OrderedMap.size).foldl (· + ·) 0

end Store
end TagHarvest
