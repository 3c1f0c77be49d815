/-
Folding documents of directives together. At each of the four levels of a document, tables, fields, comparisons
and keys, folding is the join of two ordered maps: what is there keeps its place, what is new comes last, and
under a shared name the next level is folded, down to the edits, of which the later ones stay. An empty level
is the identity of the next one, so it does not matter that a level is made before it is filled; and every
law of a document is that of the join.
-/
import TagHarvest.Proofs.Directive.Worksheet
import TagHarvest.Proofs.Record.Overwriting

namespace TagHarvest

/-- The later of two sets of edits. -/
def Edits.later (_ new : Edits) : Edits := new

instance : Std.Associative Edits.later := ⟨fun _ _ _ => rfl⟩

/-! ## The levels -/

theorem FieldDirectives.extend_eq_join : FieldDirectives.extend = OrderedMap.join (OrderedMap.join Edits.later) := by
  funext d other
  unfold extend
  simp only [OrderedMap.insertAll_eq_join]
  exact OrderedMap.foldl_alter_eq_join (OrderedMap.empty_join Edits.later) d other

theorem TableDirectives.extend_eq_join : TableDirectives.extend = OrderedMap.join FieldDirectives.extend := by
  funext d other
  refine OrderedMap.foldl_alter_eq_join (fun f => ?_) d other
  rw [FieldDirectives.extend_eq_join]
  exact OrderedMap.empty_join _ f

theorem ConversionDirectives.extend_eq_join :
    ConversionDirectives.extend = OrderedMap.join TableDirectives.extend := by
  funext d other
  refine OrderedMap.foldl_alter_eq_join (fun t => ?_) d other
  rw [TableDirectives.extend_eq_join]
  exact OrderedMap.empty_join _ t

instance : Std.Associative FieldDirectives.extend := by
  rw [FieldDirectives.extend_eq_join]
  infer_instance

instance : Std.Associative TableDirectives.extend := by
  rw [TableDirectives.extend_eq_join]
  infer_instance

instance : Std.Associative ConversionDirectives.extend := by
  rw [ConversionDirectives.extend_eq_join]
  infer_instance

/-! ## The edits under a label -/

theorem FieldDirectives.edits?_extend (d other : FieldDirectives) (c : Comparison) (key : String) :
    (d.extend other).edits? c key = (other.edits? c key).or (d.edits? c key) := by
  unfold edits?
  rw [extend_eq_join]
  refine OrderedMap.bind_get?_join (fun k l => ?_) c
  rw [OrderedMap.get?_join]
  cases k.get? key <;> cases l.get? key <;> rfl

theorem TableDirectives.edits?_extend (d other : TableDirectives) (field : String) (c : Comparison) (key : String) :
    (d.extend other).edits? field c key = (other.edits? field c key).or (d.edits? field c key) := by
  unfold edits?
  rw [extend_eq_join]
  exact OrderedMap.bind_get?_join (fun f g => f.edits?_extend g c key) field

theorem ConversionDirectives.edits?_extend (d other : ConversionDirectives) (l : DirectiveLabel) :
    (d.extend other).edits? l = (other.edits? l).or (d.edits? l) := by
  unfold edits?
  rw [extend_eq_join]
  exact OrderedMap.bind_get?_join (fun t u => t.edits?_extend u l.1.field l.2 l.1.key) l.1.table

/-! ## What stands under each name -/

namespace Directives

/-- The directives of a table. -/
def inTable (d : Directives) (table : String) : TableDirectives := (d.conversion.get? table).getD .empty

/-- The directives of a field. -/
def inField (d : Directives) (table field : String) : FieldDirectives :=
  ((d.inTable table).get? field).getD .empty

/-- The edits of a field under a comparison, by key. -/
def inComparison (d : Directives) (table field : String) (c : Comparison) : KeyedEdits :=
  ((d.inField table field).get? c).getD .empty

variable (a b c : Directives) (table field : String) (comparison : Comparison)

theorem conversion_extend : (a.extend b).conversion = a.conversion.join TableDirectives.extend b.conversion :=
  congrFun (congrFun ConversionDirectives.extend_eq_join _) _

theorem inTable_extend :
    (a.extend b).inTable table = (a.inTable table).join FieldDirectives.extend (b.inTable table) := by
  unfold inTable
  rw [conversion_extend, TableDirectives.extend_eq_join]
  exact OrderedMap.getD_get?_join (OrderedMap.empty_join _) (OrderedMap.join_empty _) table

theorem inField_extend :
    (a.extend b).inField table field =
      (a.inField table field).join (OrderedMap.join Edits.later) (b.inField table field) := by
  unfold inField
  rw [inTable_extend, FieldDirectives.extend_eq_join]
  exact OrderedMap.getD_get?_join (OrderedMap.empty_join _) (OrderedMap.join_empty _) field

theorem inComparison_extend :
    (a.extend b).inComparison table field comparison =
      (a.inComparison table field comparison).join Edits.later (b.inComparison table field comparison) := by
  unfold inComparison
  rw [inField_extend]
  exact OrderedMap.getD_get?_join (OrderedMap.empty_join _) (OrderedMap.join_empty _) comparison

/-- The names of one level of a folded document: those of the first, and then what the second has beside. -/
def Follows {α β : Type} [DecidableEq α] (m n joined : OrderedMap α β) : Prop :=
  joined.keys = m.keys ++ n.keys.filter (· ∉ m.keys)

/--
Folding is associative with the empty document on either side as identity, and this with the order of all that
a document holds. Under every label stand the edits of the second document, or those of the first if the
second has none there. At every level, under every name, the names of the first stand where they were and those
that only the second has come after them, also those under which nothing stands; so nothing is lost. The
tagging groups of the second document come after those of the first.
-/
theorem extend_laws :
    (a.extend b).extend c = a.extend (b.extend c) ∧ extend {} a = a ∧ a.extend {} = a ∧
      (∀ l, (a.extend b).conversion.edits? l = (b.conversion.edits? l).or (a.conversion.edits? l)) ∧
      Follows a.conversion b.conversion (a.extend b).conversion ∧
      (∀ table, Follows (a.inTable table) (b.inTable table) ((a.extend b).inTable table)) ∧
      (∀ table field,
        Follows (a.inField table field) (b.inField table field) ((a.extend b).inField table field)) ∧
      (∀ table field comparison,
        Follows (a.inComparison table field comparison) (b.inComparison table field comparison)
          ((a.extend b).inComparison table field comparison)) ∧
      (a.extend b).tagging = a.tagging ++ b.tagging := by
  refine ⟨?_, ?_, ?_, a.conversion.edits?_extend b.conversion, ?_, fun table => ?_, fun table field => ?_,
    fun table field comparison => ?_, rfl⟩
  · have hassoc : (a.conversion.extend b.conversion).extend c.conversion =
        a.conversion.extend (b.conversion.extend c.conversion) := Std.Associative.assoc _ _ _
    unfold extend
    rw [List.append_assoc, hassoc]
  · unfold extend
    rw [ConversionDirectives.extend_eq_join]
    exact congrArg (Directives.mk · a.tagging) (OrderedMap.empty_join _ a.conversion)
  · exact congrArg (Directives.mk a.conversion) (List.append_nil a.tagging)
  · unfold Follows
    rw [conversion_extend, OrderedMap.keys_join]
  · unfold Follows
    rw [inTable_extend, OrderedMap.keys_join]
  · unfold Follows
    rw [inField_extend, OrderedMap.keys_join]
  · unfold Follows
    rw [inComparison_extend, OrderedMap.keys_join]

/-- A key whose edits are replaced keeps its place, and a comparison without keys is kept. -/
example :
    let a : Directives := ⟨.single "sample" (.single "id" (.single ⟨.exact, false⟩
      (.ofList [("S1", {}), ("S2", {})]))), []⟩
    let b : Directives := ⟨.single "sample" (.single "id" (.ofList [
      (⟨.regex, true⟩, .empty), (⟨.exact, false⟩, .ofList [("S3", {}), ("S1", { required := true })])])), []⟩
    a.extend b = ⟨.single "sample" (.single "id" (.ofList [
      (⟨.exact, false⟩, .ofList [("S1", { required := true }), ("S2", {}), ("S3", {})]),
      (⟨.regex, true⟩, .empty)])), []⟩ := by
  decide

end Directives
end TagHarvest
