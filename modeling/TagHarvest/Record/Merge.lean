/-
Putting stores together. `mergeRecord` is the merge of two rows that describe one record and keeps
every text of both; `merge` is the merge of two stores, in which the later value of a field wins.
-/
import TagHarvest.Record.Store

namespace TagHarvest

/-- All fields of both records, the values of a shared field merged. -/
def Record.absorb (r other : Record) : Record :=
  other.entries.foldl
    (fun r e => r.alter e.1 fun | some v => v.merge e.2 | none => e.2) r

namespace Store

/-- Merges a freshly built record into its table; one without a scalar `id` is left out. -/
def mergeRecord (s : Store) (table : String) (r : Record) : Store :=
  match r.id? with
  | none => s
  | some id =>
    s.updateTable table fun t => t.alter id fun
      | none => r
      | some old => old.absorb r

/-- Overwrites fields with those of `other`. -/
def overwrite (r other : Record) : Record := r.insertAll other.entries

/-- A table with the records of another overwritten into it or added to it. -/
def mergeTable (t other : Table) : Table :=
  other.entries.foldl
    (fun t e => t.alter e.1 fun | some old => overwrite old e.2 | none => e.2) t

/-- A store with the tables of another merged into it or added to it. -/
def merge (s other : Store) : Store :=
  other.entries.foldl (fun s e => s.updateTable e.1 (mergeTable · e.2)) s

/-- Keeps the tables named in `keep`, or all if it is empty, and then drops those in `delete`. -/
def select (s : Store) (keep delete : List String) : Store :=
  let kept := if keep.isEmpty then s else s.filter fun name _ => keep.contains name
  delete.foldl OrderedMap.erase kept

end Store
end TagHarvest
