/-
Records of recipes that are put together declaration by declaration. Adding refuses a second declaration of
a name unless both are lists, and a default comes in only where its name is free; so a field that is no list
has one declaration, and a field with several has lists only. With this the record of a row is told field
by field: the id first, the others in the order in which they first have a value, a list with the items of
all its declarations.
-/
import TagHarvest.Proofs.Harvest.Sound
import TagHarvest.Proofs.Header.Globals
import TagHarvest.Proofs.Record.Gathering

namespace TagHarvest

/-- The list of some items, if there are any. -/
def FieldValue.listOf? (items : List String) : Option FieldValue :=
  if items = [] then none else some (.list items)

namespace FieldRecipe

variable {f : FieldRecipe} {row : Row}

/-- The items of the recipe's text on a row. -/
def items (f : FieldRecipe) (row : Row) : List String := ((f.text? row).map listItems).getD []

/-- A list recipe has the list of its items. -/
theorem evaluate_of_list (hf : f.list = true) : f.evaluate row = FieldValue.listOf? (f.items row) := by
  unfold evaluate items FieldValue.listOf?
  cases f.text? row with
  | none => rfl
  | some text =>
    rw [Option.bind_some, hf, if_pos rfl, Option.map_some, Option.getD_some]
    simp only [FieldValue.isEmpty, List.isEmpty_iff]

end FieldRecipe

namespace RecordRecipe

variable {r r' : RecordRecipe} {f : FieldRecipe} {fields : List FieldRecipe} {name : String} {row : Row}
  {record : Record}

/-- A recipe that is put together from nothing by declarations that are added and by defaults. -/
inductive Assembled : RecordRecipe → Prop
  | new (table : String) : Assembled (new table)
  | add {r r' : RecordRecipe} {f : FieldRecipe} : Assembled r → r.add f = .ok r' → Assembled r'
  | addDefault {r : RecordRecipe} (f : FieldRecipe) : Assembled r → Assembled (r.addDefault f)

/-! ## Declarations of one name -/

/-- A field with a declaration that is no list has no other one. -/
def Unrepeated (r : RecordRecipe) : Prop := ∀ f ∈ r.fields, f.list = false → r.declared f.name = [f]

theorem mem_declared : f ∈ r.declared name ↔ f ∈ r.fields ∧ f.name = name := by
  unfold declared
  rw [List.mem_filter, beq_iff_eq]

/-- A declaration is the only one of its name, or it and the one that is there are lists. -/
theorem Unrepeated.push (h : r.Unrepeated)
    (hold : ∀ old, r.field? f.name = some old → old.list = true ∧ f.list = true) :
    (r.push f).Unrepeated := by
  intro g hg hlist
  by_cases hname : f.name = g.name
  · -- nothing has the name of a declaration that is no list
    have hnone : r.field? f.name = none := by
      cases hfield : r.field? f.name with
      | none => rfl
      | some old =>
        obtain ⟨holdList, hfList⟩ := hold old hfield
        rcases mem_fields_push.1 hg with hg | rfl
        · have hhead := head?_declared r f.name
          rw [hname, h g hg hlist, ← hname, hfield] at hhead
          cases hhead
          exact absurd (hlist.symm.trans holdList) Bool.false_ne_true
        · exact absurd (hlist.symm.trans hfList) Bool.false_ne_true
    have hnew := field?_eq_none_iff.1 hnone
    rcases mem_fields_push.1 hg with hg | rfl
    · exact absurd (hname ▸ List.mem_map_of_mem (f := FieldRecipe.name) hg) hnew
    · rw [declared_push_self, declared_eq_nil_iff.2 hnew, List.nil_append]
  · rcases mem_fields_push.1 hg with hg | rfl
    · rw [declared_push_of_ne hname]
      exact h g hg hlist
    · exact absurd rfl hname

theorem Assembled.unrepeated (h : r.Assembled) : r.Unrepeated := by
  induction h with
  | new table => exact nofun
  | add _ hadd ih =>
    obtain ⟨rfl, hold⟩ := add_eq_ok hadd
    exact ih.push hold
  | @addDefault r f _ ih =>
    rcases HeaderState.addDefault_eq r f with ⟨-, hsame⟩ | ⟨hnew, hpush⟩
    · rw [hsame]
      exact ih
    · rw [hpush]
      refine ih.push fun old hfield => ?_
      rw [field?_eq_none_iff.2 hnew] at hfield
      cases hfield

/-- The declarations beside a list are lists. -/
theorem Unrepeated.list_of_mem (h : r.Unrepeated) (hf : f ∈ r.declared name) (hlist : f.list = true) :
    ∀ g ∈ r.declared name, g.list = true := by
  intro g hg
  obtain ⟨hg', rfl⟩ := mem_declared.1 hg
  cases hgl : g.list with
  | true => rfl
  | false =>
    rw [h g hg' hgl, List.mem_singleton] at hf
    rw [← hgl, ← hf, hlist]

/-! ## Values of lists -/

/-- One more list adds its items to those that are there. -/
theorem extended_listOf? (items : List String) {more : List String} (hmore : more ≠ []) :
    extended (FieldValue.listOf? items) (.list more) = FieldValue.listOf? (items ++ more) := by
  have hne : items ++ more ≠ [] := List.append_ne_nil_of_right_ne_nil items hmore
  unfold FieldValue.listOf?
  rw [if_neg hne]
  by_cases hitems : items = []
  · rw [if_pos hitems, hitems]
    rfl
  · rw [if_neg hitems]
    rfl

/-- Lists add up to the list of all their items. -/
theorem foldl_extended_lists (hfields : ∀ f ∈ fields, f.list = true) (items : List String) :
    (fields.filterMap (·.evaluate row)).foldl extended (FieldValue.listOf? items) =
      FieldValue.listOf? (items ++ fields.flatMap (·.items row)) := by
  induction fields generalizing items with
  | nil => simp
  | cons f fields ih =>
    obtain ⟨hf, hfields⟩ := List.forall_mem_cons.1 hfields
    have hv : f.evaluate row = FieldValue.listOf? (f.items row) := FieldRecipe.evaluate_of_list hf
    rw [List.flatMap_cons, ← List.append_assoc]
    by_cases hitems : f.items row = []
    · have hnone : f.evaluate row = none := by rw [hv, hitems]; rfl
      rw [List.filterMap_cons_none (f := fun f : FieldRecipe => f.evaluate row) hnone, ih hfields, hitems,
        List.append_nil]
    · have hsome : f.evaluate row = some (.list (f.items row)) := hv.trans (if_neg hitems)
      rw [List.filterMap_cons_some (f := fun f : FieldRecipe => f.evaluate row) hsome, List.foldl_cons,
        extended_listOf? items hitems, ih hfields]

/-! ## The order of fields -/

/-- The names of the declarations that have a value on a row. -/
def filledNames (fields : List FieldRecipe) (row : Row) : List String :=
  (fields.filter fun f => (f.evaluate row).isSome).map FieldRecipe.name

theorem keys_addValue (row : Row) (record : Record) (f : FieldRecipe) :
    (addValue row record f).keys =
      if (f.evaluate row).isSome ∧ f.name ∉ record.keys then record.keys ++ [f.name] else record.keys := by
  unfold addValue
  cases f.evaluate row with
  | none => simp
  | some v =>
    rw [OrderedMap.keys_alter]
    by_cases hmem : f.name ∈ record.keys
    · simp [hmem]
    · simp [hmem]

/-- New fields come in the order in which they first have a value. -/
theorem keys_foldl_addValue (row : Row) (record : Record) (fields : List FieldRecipe) :
    (fields.foldl (addValue row) record).keys =
      record.keys ++ ((filledNames fields row).filter (· ∉ record.keys)).eraseDups := by
  rw [← foldl_new]
  unfold filledNames
  rw [List.foldl_map]
  induction fields generalizing record with
  | nil => rfl
  | cons f fields ih =>
    rw [List.foldl_cons, ih, keys_addValue]
    cases hv : (f.evaluate row).isSome with
    | false =>
      rw [List.filter_cons_of_neg (by simp [hv]), if_neg (by simp)]
    | true =>
      rw [List.filter_cons_of_pos (p := fun f : FieldRecipe => (f.evaluate row).isSome) hv, List.foldl_cons]
      by_cases hmem : f.name ∈ record.keys
      · rw [if_neg (by simp [hmem]), if_pos hmem]
      · rw [if_pos ⟨rfl, hmem⟩, if_neg hmem]

/-! ## Records -/

/-- The record that a row gives, field by field. -/
structure Tells (r : RecordRecipe) (row : Row) (record : Record) : Prop where
  /-- The id comes first, and the other fields in the order of their first declarations with a value. -/
  order : record.keys =
    idField :: (filledNames (r.fields.filter (·.name != idField)) row).eraseDups
  /-- A field that is no list has the value of its only declaration. -/
  single : ∀ f ∈ r.fields, f.list = false →
    r.declared f.name = [f] ∧ record.get? f.name = f.evaluate row
  /-- A list has the items of all its declarations, which are lists. -/
  list : ∀ f ∈ r.fields, f.list = true →
    (∀ g ∈ r.declared f.name, g.list = true) ∧
      record.get? f.name = FieldValue.listOf? ((r.declared f.name).flatMap (·.items row))
  absent : ∀ name, (∀ f ∈ r.declared name, f.evaluate row = none) → record.get? name = none
  /-- No text is empty, and no list. -/
  filled : ∀ v ∈ record.values, v.Filled

theorem keys_of_build (h : r.build row = some record) :
    record.keys = idField :: (filledNames (r.fields.filter (·.name != idField)) row).eraseDups := by
  unfold build at h
  split at h
  · cases h
    have hothers : (filledNames (r.fields.filter (·.name != idField)) row).filter (· ∉ [idField]) =
        filledNames (r.fields.filter (·.name != idField)) row := by
      rw [List.filter_eq_self]
      intro name hname
      obtain ⟨f, hf, rfl⟩ := List.mem_map.1 hname
      simpa using (List.mem_filter.1 (List.mem_filter.1 hf).1).2
    rw [keys_foldl_addValue]
    exact congrArg (idField :: ·.eraseDups) hothers
  · cases h

/-- A row gives a record exactly if the id is a text on it. -/
theorem isSome_build_iff (h : r.Unrepeated) :
    (r.build row).isSome ↔
      ∃ id ∈ r.fields, id.name = idField ∧ id.list = false ∧ (id.evaluate row).isSome := by
  constructor
  · intro hsome
    unfold build at hsome
    split at hsome
    · rename_i text hid
      obtain ⟨id, hfield, hv⟩ := Option.bind_eq_some_iff.1 hid
      have hmem : id ∈ r.fields := List.mem_of_find?_eq_some hfield
      refine ⟨id, hmem, by simpa using List.find?_some hfield, ?_, by rw [hv]; rfl⟩
      cases hlist : id.list with
      | false => rfl
      | true =>
        rw [FieldRecipe.evaluate_of_list hlist] at hv
        unfold FieldValue.listOf? at hv
        split at hv <;> cases hv
    · cases hsome
  · rintro ⟨id, hmem, hname, hlist, hsome⟩
    have hfield : r.field? idField = some id := by
      rw [← head?_declared, ← hname, h id hmem hlist]
      rfl
    obtain ⟨v, hv⟩ := Option.isSome_iff_exists.1 hsome
    obtain ⟨text, rfl⟩ := FieldRecipe.exists_scalar_of_evaluate hlist hv
    unfold build
    rw [hfield, Option.bind_some, hv]
    rfl

/-- A field of a record has the values of its declarations, also the id. -/
theorem get?_of_unrepeated (h : r.Unrepeated) (hbuild : r.build row = some record) (name : String) :
    record.get? name = ((r.declared name).filterMap (·.evaluate row)).foldl extended none := by
  obtain ⟨id, hmem, hname, hlist, -⟩ := (isSome_build_iff h).1 (by rw [hbuild]; rfl)
  have hone : r.declared idField = [id] := hname ▸ h id hmem hlist
  refine get?_of_build_declared hbuild (fun heq => ?_) fun f hf hid => ?_
  · rw [heq, hone]
    exact le_refl 1
  · have hf' : f ∈ r.declared idField := mem_declared.2 ⟨hf, hid⟩
    rw [hone, List.mem_singleton] at hf'
    rw [hf', hlist]

theorem tells_of_build (h : r.Unrepeated) (hbuild : r.build row = some record) : r.Tells row record := by
  have hget := get?_of_unrepeated h hbuild
  refine ⟨keys_of_build hbuild, fun f hf hlist => ?_, fun f hf hlist => ?_, fun name hnone => ?_, ?_⟩
  · have hone := h f hf hlist
    exact ⟨hone, by rw [hget, hone, foldl_extended_evaluate]⟩
  · have hlists := h.list_of_mem (mem_declared.2 ⟨hf, rfl⟩) hlist
    have hvalue : ((r.declared f.name).filterMap (·.evaluate row)).foldl extended (FieldValue.listOf? []) = _ :=
      foldl_extended_lists hlists []
    rw [List.nil_append] at hvalue
    exact ⟨hlists, (hget f.name).trans hvalue⟩
  · rw [hget, List.filterMap_eq_nil_iff.2 hnone]
    rfl
  · obtain ⟨id, hsound⟩ := build_sound hbuild
    intro v hv
    obtain ⟨e, he, rfl⟩ := List.mem_map.1 hv
    exact hsound.filled e he

/--
A recipe that is put together by declarations and defaults gives a record exactly on the rows that give
its id, which must not be a list, a value; and the record is told by the declarations.
-/
theorem build_of_assembled (h : r.Assembled) (row : Row) :
    ((∃ record, r.build row = some record) ↔
      ∃ id ∈ r.fields, id.name = idField ∧ id.list = false ∧ (id.evaluate row).isSome) ∧
    ∀ record, r.build row = some record → r.Tells row record :=
  ⟨Option.isSome_iff_exists.symm.trans (isSome_build_iff h.unrepeated),
    fun _ hbuild => tells_of_build h.unrepeated hbuild⟩

/-- Tags from two columns, one of them empty in places, and a default beside an id in the last column. -/
theorem build_of_assembled_tags :
    let tags (column : Nat) : FieldRecipe := ⟨"tags", [.column column], true, column⟩
    let id : FieldRecipe := ⟨"id", [.literal "S-", .column 3], false, 3⟩
    let lab : FieldRecipe := ⟨"lab", [.literal "skin"], false, 0⟩
    let r : RecordRecipe := ⟨"sample", [tags 1, tags 2, id, lab], none⟩
    let row : Row := ["", " ; ", "a; b", "1"]
    r.Assembled ∧
      (∃ record, r.build row = some record ∧ r.Tells row record ∧
        record.entries = [("id", .scalar "S-1"), ("tags", .list ["a", "b"]), ("lab", .scalar "skin")]) ∧
      ¬ ∃ record, r.build ["", "a", "b", ""] = some record := by
  intro tags id lab r row
  have htags : Assembled ⟨"sample", [tags 1], none⟩ := .add (f := tags 1) (.new "sample") (by decide)
  have hmore : Assembled ⟨"sample", [tags 1, tags 2], none⟩ := .add (f := tags 2) htags (by decide)
  have hid : Assembled ⟨"sample", [tags 1, tags 2, id], none⟩ := .add (f := id) hmore (by decide)
  have h : r.Assembled := .addDefault lab hid
  refine ⟨h, ?_, fun hsome => ?_⟩
  · obtain ⟨record, hbuild⟩ := (build_of_assembled h row).1.2 ⟨id, by decide, by decide, by decide, by decide⟩
    refine ⟨record, hbuild, (build_of_assembled h row).2 record hbuild, ?_⟩
    cases hbuild.symm.trans (show r.build row = some _ from rfl)
    decide
  · obtain ⟨f, hf, hname, -, hvalue⟩ := (build_of_assembled h _).1.1 hsome
    have hsame : f = id := by
      revert f
      decide
    subst hsame
    revert hvalue
    decide

end RecordRecipe
end TagHarvest
