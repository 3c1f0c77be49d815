/-
Merging the repeated members of objects: it leaves a value in which no object repeats a name, and it leaves
such a value as it is.
-/
import TagHarvest.Proofs.OrderedMap
import TagHarvest.Json.Basic

namespace TagHarvest.Json

/-! ## Members -/

theorem putMember_eq_put (name : String) (v : Json) (ms : List (String × Json)) :
    putMember name v ms = OrderedMap.put name v ms := by
  induction ms with
  | nil => rfl
  | cons m ms ih => rw [putMember, OrderedMap.put, ih]

theorem mergedMembers_entries (m : OrderedMap String Json) (ms : List (String × Json)) :
    mergedMembers m.entries ms = (m.insertAll (ms.map fun e => (e.1, e.2.merged))).entries := by
  induction ms generalizing m with
  | nil => rfl
  | cons e ms ih =>
    rw [mergedMembers, putMember_eq_put]
    exact ih (m.insert e.1 e.2.merged)

/-- Merging members is making an ordered map of them. -/
theorem merged_object (members : List (String × Json)) :
    (object members).merged =
      object (OrderedMap.ofList (members.map fun e => (e.1, e.2.merged))).entries := by
  rw [Json.merged]
  exact congrArg object (mergedMembers_entries .empty members)

theorem mergedItems_eq_map (items : List Json) : mergedItems items = items.map Json.merged := by
  induction items with
  | nil => rfl
  | cons v items ih => rw [mergedItems, ih, List.map_cons]

/-! ## Distinct names -/

/-- A value in which no object repeats the name of a member. -/
inductive Distinct : Json → Prop
  | null : Distinct .null
  | bool (b : Bool) : Distinct (.bool b)
  | number (n : JsonNumber) : Distinct (.number n)
  | string (s : String) : Distinct (.string s)
  | array {items : List Json} (h : ∀ v ∈ items, Distinct v) : Distinct (.array items)
  | object {members : List (String × Json)} (hnames : (members.map Prod.fst).Nodup)
    (h : ∀ m ∈ members, Distinct m.2) : Distinct (.object members)

theorem Distinct.merged_eq {v : Json} (h : v.Distinct) : v.merged = v := by
  induction h with
  | null => rfl
  | bool b => rfl
  | number n => rfl
  | string s => rfl
  | @array items _ ih =>
    rw [merged, mergedItems_eq_map, List.map_congr_left (g := id) ih, List.map_id]
  | @object members hnames _ ih =>
    have hsame : members.map (fun e => (e.1, e.2.merged)) = members := by
      calc members.map (fun e => (e.1, e.2.merged))
          = members.map id := List.map_congr_left fun e he => Prod.ext rfl (ih e he)
        _ = members := List.map_id members
    rw [merged_object, hsame, OrderedMap.entries_ofList hnames]

/-- What merging leaves has distinct names. -/
theorem distinct_merged : ∀ v : Json, v.merged.Distinct
  | .null => .null
  | .bool b => .bool b
  | .number n => .number n
  | .string s => .string s
  | .array items => by
    rw [merged, mergedItems_eq_map]
    exact .array (List.forall_mem_map.2 fun v _ => distinct_merged v)
  | .object members => by
    rw [merged_object]
    have hvalues : ∀ e ∈ members, e.2.merged.Distinct := by
      intro e he
      have hmember : sizeOf e.2 < sizeOf e := by
        cases e
        simp only [Prod.mk.sizeOf_spec]
        omega
      have : sizeOf e.2 < sizeOf members := Nat.lt_trans hmember (List.sizeOf_lt_of_mem he)
      exact distinct_merged e.2
    exact .object (OrderedMap.nodup _) (OrderedMap.All.ofList (List.forall_mem_map.2 hvalues))

theorem distinct_iff {v : Json} : v.Distinct ↔ v.merged = v :=
  ⟨Distinct.merged_eq, fun h => h ▸ distinct_merged v⟩

end TagHarvest.Json
