/-
Texts of values are read back, compact ones and pretty ones with their line breaks and indentation, provided
that containers are not too deep; numbers are left out.
-/
import TagHarvest.Proofs.Json.Reading

namespace TagHarvest.Json

/-- A value without numbers in which containers are at most `depth` deep. -/
inductive Fits : (depth : Nat) → Json → Prop
  | null {depth : Nat} : Fits depth .null
  | bool {depth : Nat} (b : Bool) : Fits depth (.bool b)
  | string {depth : Nat} (s : String) : Fits depth (.string s)
  | array {depth : Nat} {items : List Json} (h : ∀ v ∈ items, Fits depth v) :
    Fits (depth + 1) (.array items)
  | object {depth : Nat} {members : List (String × Json)} (h : ∀ m ∈ members, Fits depth m.2) :
    Fits (depth + 1) (.object members)

/-! ## Compact texts -/

theorem compactItems_eq_map (items : List Json) : compactItems items = items.map compactChars := by
  induction items with
  | nil => rfl
  | cons v items ih => rw [compactItems, ih, List.map_cons]

theorem compactMembers_eq_map (members : List (String × Json)) :
    compactMembers members = members.map (memberChars [] compactChars) := by
  induction members with
  | nil => rfl
  | cons m members ih => rw [compactMembers, ih, List.map_cons, memberChars, List.nil_append]

theorem Fits.readBack_compact {depth : Nat} {v : Json} (h : Fits depth v) :
    ReadBack depth (compactChars v) v := by
  induction h with
  | null => exact readBack_null _
  | bool b => exact readBack_bool _ b
  | string s => exact readBack_string _ s
  | @array depth items _ ih =>
    rw [compactChars, compactItems_eq_map]
    cases items with
    | nil => exact readBack_empty_array depth
    | cons v items => exact readBack_array (List.cons_ne_nil v items) ih .nil .nil .nil
  | @object depth members _ ih =>
    rw [compactChars, compactMembers_eq_map]
    cases members with
    | nil => exact readBack_empty_object depth
    | cons m members => exact readBack_object (List.cons_ne_nil m members) ih .nil .nil .nil .nil

/-! ## Pretty texts -/

theorem blank_newline (level : Nat) : Blank (newline level) := by
  intro c hc
  rcases List.mem_cons.1 hc with rfl | hc
  · rfl
  · rw [List.eq_of_mem_replicate hc]
    rfl

theorem prettyItems_eq_map (level : Nat) (items : List Json) :
    prettyItems level items = items.map (prettyChars level) := by
  induction items with
  | nil => rfl
  | cons v items ih => rw [prettyItems, ih, List.map_cons]

theorem prettyMembers_eq_map (level : Nat) (members : List (String × Json)) :
    prettyMembers level members = members.map (memberChars [' '] (prettyChars level)) := by
  induction members with
  | nil => rfl
  | cons m members ih =>
    rw [prettyMembers, ih, List.map_cons, memberChars, List.append_assoc]
    rfl

theorem block_of_ne_nil (opening closing : Char) (level : Nat) {texts : List (List Char)} (h : texts ≠ []) :
    block opening closing level texts =
      opening :: (newline (level + 1) ++ (separated (',' :: newline (level + 1)) texts ++
        (newline level ++ [closing]))) := by
  cases texts with
  | nil => exact absurd rfl h
  | cons t texts => simp [block]

theorem Fits.readBack_pretty {depth : Nat} {v : Json} (h : Fits depth v) (level : Nat) :
    ReadBack depth (prettyChars level v) v := by
  induction h generalizing level with
  | null => exact readBack_null _
  | bool b => exact readBack_bool _ b
  | string s => exact readBack_string _ s
  | @array depth items _ ih =>
    rw [prettyChars, prettyItems_eq_map]
    cases items with
    | nil => exact readBack_empty_array depth
    | cons v items =>
      have hne : (v :: items).map (prettyChars (level + 1)) ≠ [] := List.cons_ne_nil _ _
      rw [block_of_ne_nil _ _ _ hne]
      exact readBack_array (List.cons_ne_nil v items) (fun v hv => ih v hv (level + 1)) (blank_newline _)
        (blank_newline _) (blank_newline _)
  | @object depth members _ ih =>
    have hblank : Blank [' '] := by
      rintro c (_ | ⟨_, ⟨⟩⟩)
      rfl
    rw [prettyChars, prettyMembers_eq_map]
    cases members with
    | nil => exact readBack_empty_object depth
    | cons m members =>
      have hne : (m :: members).map (memberChars [' '] (prettyChars (level + 1))) ≠ [] := List.cons_ne_nil _ _
      rw [block_of_ne_nil _ _ _ hne]
      exact readBack_object (List.cons_ne_nil m members) (fun m hm => ih m hm (level + 1)) (blank_newline _)
        hblank (blank_newline _) (blank_newline _)

/-! ## Whole texts -/

theorem ReadBack.read? {text : List Char} {v : Json} (h : ReadBack depthLimit text v) :
    Json.read? (String.ofList text) = some v := by
  have hread := h.readValue (2 * text.length + 2) [] (by omega)
  rw [List.append_nil] at hread
  unfold Json.read?
  dsimp only
  rw [String.toList_ofList, hread]
  rfl

/-- The compact text of a value is read back, if containers are not too deep. -/
theorem read?_compact {v : Json} (h : Fits depthLimit v) : read? v.compact = some v :=
  h.readBack_compact.read?

/-- The pretty text of a value is read back, if containers are not too deep. -/
theorem read?_pretty {v : Json} (h : Fits depthLimit v) : read? v.pretty = some v :=
  (h.readBack_pretty 0).read?

end TagHarvest.Json
