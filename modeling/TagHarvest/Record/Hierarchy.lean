/-
Ranks of tables: a lower rank stands higher. A table without a rank is neither above nor below another.
-/
import TagHarvest.OrderedMap

namespace TagHarvest

/-- Ranks by table name. -/
abbrev Hierarchy := OrderedMap String Int

namespace Hierarchy

/-- Projects hold studies, studies hold protocols, entities and measurements. -/
def standard : Hierarchy :=
  .ofList [("project", 0), ("study", 1), ("protocol", 2), ("entity", 3), ("measurement", 4)]

def rank? (h : Hierarchy) (table : String) : Option Int := h.get? table

/-- True if both tables are ranked and `table` strictly lower. -/
def isBelow (h : Hierarchy) (table ancestor : String) : Bool :=
  match h.rank? table, h.rank? ancestor with
  | some r, some a => a < r
  | _, _ => false

end Hierarchy
end TagHarvest
