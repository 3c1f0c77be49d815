/-
What recipes make of a row. A value that is `Writable` is read from a cell as it was written there, also
when it is a list. A field of a record has the values of its declarations, one after the other; and a record
recipe that declares each field once gives the fields for which it finds a value, the id first and the
others in the order of declaration.
-/
import TagHarvest.Header.Recipe
import TagHarvest.Proofs.Record.Identity
import TagHarvest.Proofs.Text.Cut

namespace TagHarvest

/-! ## Values in cells -/

namespace FieldValue

/-- The value as it is written in a cell: a list as its items, each followed by a semicolon. -/
def cellText : FieldValue → String
  | scalar s => s
  | list items => String.join (items.map (· ++ ";"))

/-- A value that a cell can hold. -/
def Writable : FieldValue → Prop
  | scalar s => Text.Trimmed s
  | list items => items ≠ [] ∧ ∀ i ∈ items, Text.Trimmed i ∧ ';' ∉ i.toList

instance (v : FieldValue) : Decidable v.Writable :=
  match v with
  | scalar s => inferInstanceAs (Decidable (Text.Trimmed s))
  | list items => inferInstanceAs (Decidable (items ≠ [] ∧ ∀ _ ∈ items, _))

variable {items : List String}

theorem toList_cellText_list (items : List String) :
    (list items).cellText.toList = (items.map String.toList).flatMap (· ++ [';']) := by
  unfold cellText
  rw [String.toList_join, List.flatMap_map, List.flatMap_map]
  refine List.flatMap_congr fun i _ => ?_
  rw [String.toList_append]
  rfl

/-- The items come back when the cell is split. -/
theorem listItems_cellText (h : (list items).Writable) : listItems (list items).cellText = items := by
  obtain ⟨hne, hitems⟩ := h
  have hsemicolon : (list items).cellText.toList.contains ';' = true := by
    obtain ⟨i, rest, rfl⟩ := List.exists_cons_of_ne_nil hne
    rw [toList_cellText_list]
    simp
  have hpieces : Text.pieces ';' (list items).cellText.toList = items.map String.toList ++ [[]] := by
    rw [toList_cellText_list]
    refine Text.pieces_flatMap fun p hp => ?_
    obtain ⟨i, hi, rfl⟩ := List.mem_map.1 hp
    exact (hitems i hi).2
  have htrim : (items.map String.toList ++ [[]]).map (fun p => String.ofList (Text.trimChars p)) =
      items ++ [""] := by
    rw [List.map_append, List.map_map]
    congr 1
    conv_rhs => rw [← List.map_id items]
    exact List.map_congr_left fun i hi => (hitems i hi).1.2
  have hkeep : ∀ i ∈ items, (!i.isEmpty) = true := fun i hi => by
    simpa using (hitems i hi).1.1
  unfold listItems
  rw [hsemicolon, if_pos rfl]
  dsimp only
  rw [hpieces, htrim, List.filter_append, List.filter_eq_self.2 hkeep]
  exact List.append_nil items

/-- A written value fills its cell from end to end. -/
theorem trimmed_cellText {v : FieldValue} (h : v.Writable) : Text.Trimmed v.cellText := by
  cases v with
  | scalar s => exact h
  | list items =>
    obtain ⟨hne, hitems⟩ := h
    have hfirst : ∀ c ∈ (list items).cellText.toList.head?, Text.isBlank c = false := by
      obtain ⟨i, rest, rfl⟩ := List.exists_cons_of_ne_nil hne
      obtain ⟨hi, htrim⟩ := (hitems i List.mem_cons_self).1
      obtain ⟨c, cs, hcs⟩ := List.exists_cons_of_ne_nil (mt String.toList_eq_nil_iff.1 hi)
      have hhead : (list (i :: rest)).cellText.toList.head? = i.toList.head? := by
        rw [toList_cellText_list, List.map_cons, List.flatMap_cons, hcs]
        rfl
      rw [hhead]
      exact (Text.trim_eq_self_iff.1 htrim).1
    have hlast : (list items).cellText.toList.getLast? = some ';' := by
      obtain ⟨rest, i, rfl⟩ := (List.eq_nil_or_concat items).resolve_left hne
      rw [toList_cellText_list]
      simp
    refine ⟨fun he => ?_, Text.trim_eq_self_iff.2 ⟨hfirst, ?_⟩⟩
    · rw [he] at hlast
      cases hlast
    · rw [hlast]
      rintro d hd
      cases hd
      decide

end FieldValue

namespace FieldRecipe

/-- A recipe with one operand has its text. -/
theorem text?_of_singleton {f : FieldRecipe} {o : Operand} (h : f.operands = [o]) (row : Row) :
    f.text? row = o.text? row := by
  unfold text?
  rw [h, List.mapM_cons]
  cases ho : o.text? row with
  | none => rfl
  | some text =>
    show some (String.join [text]) = some text
    rw [String.join_cons, String.join_nil, String.append_empty]

/-- An operand without a text leaves the field without a value. -/
theorem evaluate_of_mem {f : FieldRecipe} {o : Operand} {row : Row} (ho : o ∈ f.operands)
    (h : o.text? row = none) : f.evaluate row = none := by
  have hnone : ∀ {os : List Operand}, o ∈ os → os.mapM (Operand.text? row) = none := by
    intro os hos
    induction os with
    | nil => cases hos
    | cons o' os ih =>
      rw [List.mapM_cons]
      rcases List.mem_cons.1 hos with rfl | hos
      · rw [h]
        rfl
      · rw [ih hos]
        cases o'.text? row <;> rfl
  unfold evaluate text?
  rw [hnone ho]
  rfl

/-- A recipe that reads one column finds the value that is written there. -/
theorem evaluate_cellText {name : String} {index column : Nat} {row : Row} {v : FieldValue}
    (hrow : row[index]? = some v.cellText) (hv : v.Writable) :
    (FieldRecipe.mk name [.column index] v.isList column).evaluate row = some v := by
  obtain ⟨hne, htrim⟩ := FieldValue.trimmed_cellText hv
  have hoperand : Operand.text? row (.column index) = some v.cellText := by
    unfold Operand.text?
    dsimp only
    rw [hrow]
    dsimp only
    rw [htrim, if_neg (by simpa using hne)]
  have htext : (FieldRecipe.mk name [.column index] v.isList column).text? row = some v.cellText :=
    (text?_of_singleton rfl row).trans hoperand
  unfold evaluate
  rw [htext]
  cases v with
  | scalar s =>
    show (if (FieldValue.scalar s).isEmpty then none else some (FieldValue.scalar s)) = _
    exact if_neg (by simpa [FieldValue.isEmpty] using hv.1)
  | list items =>
    show (if (FieldValue.list (listItems _)).isEmpty then none else some (FieldValue.list (listItems _))) = _
    rw [FieldValue.listItems_cellText hv]
    exact if_neg (by simpa [FieldValue.isEmpty] using hv.1)

/-- An empty cell has no value. -/
theorem evaluate_empty {name : String} {index column : Nat} {list : Bool} {row : Row}
    (hrow : row[index]? = some "") :
    (FieldRecipe.mk name [.column index] list column).evaluate row = none := by
  have hoperand : Operand.text? row (.column index) = none := by
    unfold Operand.text?
    dsimp only
    rw [hrow]
    rfl
  exact evaluate_of_mem (List.mem_singleton_self _) hoperand

/-- A recipe that is no list gives scalars. -/
theorem exists_scalar_of_evaluate {f : FieldRecipe} {row : Row} {v : FieldValue} (hf : f.list = false)
    (h : f.evaluate row = some v) : ∃ text, v = .scalar text := by
  unfold evaluate at h
  obtain ⟨text, -, hv⟩ := Option.bind_eq_some_iff.1 h
  dsimp only at hv
  rw [hf, if_neg Bool.false_ne_true] at hv
  split at hv
  · cases hv
  · exact ⟨text, (Option.some.inj hv).symm⟩

end FieldRecipe

/-! ## Declarations -/

namespace RecordRecipe

variable {r : RecordRecipe} {name : String} {row : Row} {record : Record} {fields : List FieldRecipe}

theorem exists_field? (h : name ∈ r.fields.map FieldRecipe.name) :
    ∃ f ∈ r.fields, r.field? name = some f ∧ f.name = name := by
  obtain ⟨f, hf, hname⟩ := List.mem_map.1 h
  obtain ⟨g, hg⟩ := Option.isSome_iff_exists.1
    (List.find?_isSome.2 ⟨f, hf, beq_iff_eq.2 hname⟩ : (r.field? name).isSome)
  exact ⟨g, List.mem_of_find?_eq_some hg, hg, by simpa using List.find?_some hg⟩

theorem field?_eq_none_iff : r.field? name = none ↔ name ∉ r.fields.map FieldRecipe.name := by
  unfold field?
  simp

/-- A declaration that is added comes last, and what has its name already is a list as it is. -/
theorem add_eq_ok {f : FieldRecipe} {r' : RecordRecipe} (h : r.add f = .ok r') :
    r' = r.push f ∧ ∀ old, r.field? f.name = some old → old.list = true ∧ f.list = true := by
  unfold add at h
  cases hf : r.field? f.name with
  | none =>
    rw [hf] at h
    cases h
    exact ⟨rfl, nofun⟩
  | some old =>
    rw [hf] at h
    dsimp only at h
    by_cases hlist : (old.list && f.list) = true
    · rw [if_pos hlist] at h
      cases h
      refine ⟨rfl, fun old' hold => ?_⟩
      cases hold
      exact Bool.and_eq_true_iff.1 hlist
    · rw [if_neg hlist] at h
      cases h

theorem mem_fields_push {f g : FieldRecipe} : g ∈ (r.push f).fields ↔ g ∈ r.fields ∨ g = f := by
  simp [push]

/-- The literal fields that a child's recipe takes over, without the prefix of the own table. -/
def inherited (r : RecordRecipe) : List FieldRecipe :=
  (r.fields.filter fun f => f.isLiteral && f.name != idField).map fun f =>
    { f with name := (Text.afterStart? (r.table ++ ".") f.name).getD f.name }

theorem childOf_eq_some_iff {p c : RecordRecipe} {i : Nat} :
    p.childOf i = some c ↔
      ∃ id, p.field? idField = some id ∧
        c = ⟨p.table, p.inherited ++ [{ id with name := parentField }], some i⟩ := by
  unfold childOf
  rw [Option.map_eq_some_iff]
  constructor
  · rintro ⟨id, hid, rfl⟩
    exact ⟨id, hid, rfl⟩
  · rintro ⟨id, hid, rfl⟩
    exact ⟨id, hid, rfl⟩

/-! ## Records of rows -/

/-- Fields of new names come after the others, where they have a value. -/
theorem entries_foldl_addValue (h : (record.keys ++ fields.map FieldRecipe.name).Nodup) :
    (fields.foldl (addValue row) record).entries =
      record.entries ++ fields.filterMap fun f => (f.evaluate row).map (f.name, ·) := by
  induction fields generalizing record with
  | nil => simp
  | cons f fields ih =>
    have hnew : record.get? f.name = none :=
      OrderedMap.get?_eq_none_iff.2 fun hm => (List.nodup_append.1 h).2.2 _ hm _ List.mem_cons_self rfl
    rw [List.foldl_cons]
    cases hv : f.evaluate row with
    | none =>
      have hstep : addValue row record f = record := by unfold addValue; rw [hv]
      have hrest : (record.keys ++ fields.map FieldRecipe.name).Nodup :=
        h.sublist ((List.sublist_cons_self _ _).append_left _)
      rw [hstep, ih hrest, List.filterMap_cons_none (by rw [hv]; rfl)]
    | some v =>
      have hstep : (addValue row record f).entries = record.entries ++ [(f.name, v)] := by
        unfold addValue OrderedMap.alter
        rw [hv, hnew]
        exact OrderedMap.entries_insert_of_get? v hnew
      have hrest : ((addValue row record f).keys ++ fields.map FieldRecipe.name).Nodup := by
        unfold OrderedMap.keys
        rw [hstep, List.map_append, List.append_assoc]
        exact h
      rw [ih hrest, hstep, List.filterMap_cons_some (b := (f.name, v)) (by rw [hv]; rfl), List.append_assoc,
        List.singleton_append]

/-- The value of a field of which one more declaration gives a value. -/
def extended (old : Option FieldValue) (v : FieldValue) : Option FieldValue :=
  some (match old with
    | some old => old.extend v
    | none => v)

/-- A field gets the values of its declarations, one after the other. -/
theorem get?_foldl_addValue (name : String) :
    (fields.foldl (addValue row) record).get? name =
      ((fields.filter (·.name == name)).filterMap (·.evaluate row)).foldl extended (record.get? name) := by
  -- each field changes the record that the later ones meet
  induction fields generalizing record with
  | nil => rfl
  | cons f fields ih =>
    rw [List.foldl_cons, ih]
    by_cases hname : f.name = name
    · rw [List.filter_cons, if_pos (beq_iff_eq.2 hname)]
      cases hv : f.evaluate row with
      | none =>
        have hstep : addValue row record f = record := by unfold addValue; rw [hv]
        rw [hstep, List.filterMap_cons_none (f := fun f : FieldRecipe => f.evaluate row) hv]
      | some v =>
        have hstep : (addValue row record f).get? name = extended (record.get? name) v := by
          unfold addValue
          rw [hv, ← hname]
          dsimp only
          rw [OrderedMap.get?_alter_self]
          rfl
        rw [hstep, List.filterMap_cons_some (f := fun f : FieldRecipe => f.evaluate row) hv, List.foldl_cons]
    · have hstep : (addValue row record f).get? name = record.get? name := by
        unfold addValue
        cases f.evaluate row with
        | none => rfl
        | some v => exact OrderedMap.get?_alter_of_ne record _ hname
      rw [hstep, List.filter_cons, if_neg (by simpa using hname)]

/-- A field of a row's record other than the id has the values of its declarations, one after the other. -/
theorem get?_of_build (h : r.build row = some record) (hname : name ≠ idField) :
    record.get? name =
      ((r.fields.filter (·.name == name)).filterMap (·.evaluate row)).foldl extended none := by
  have hfilter : (r.fields.filter (·.name != idField)).filter (·.name == name) =
      r.fields.filter (·.name == name) := by
    rw [List.filter_filter]
    refine List.filter_congr fun f _ => ?_
    by_cases hf : f.name = name
    · simp [hf, hname]
    · simp [hf]
  unfold build at h
  split at h
  · rename_i id hid
    cases h
    have hsingle : (OrderedMap.single idField (FieldValue.scalar id)).get? name = none :=
      OrderedMap.get?_eq_none_iff.2 fun hm => hname (List.mem_singleton.1 hm)
    rw [get?_foldl_addValue, hfilter, hsingle]
  · cases h

/-- The id of a row's record is what the id's declaration gives, and without it there is no record. -/
theorem get?_id_build {id : FieldRecipe} (hid : r.field? idField = some id) (hlist : id.list = false)
    (row : Row) : (r.build row).bind (·.get? idField) = id.evaluate row := by
  have hfilter : (r.fields.filter (·.name != idField)).filter (·.name == idField) = [] := by
    rw [List.filter_filter, List.filter_eq_nil_iff]
    intro f _
    simp
  unfold build
  rw [hid, Option.bind_some]
  cases hv : id.evaluate row with
  | none => rfl
  | some v =>
    obtain ⟨text, rfl⟩ := FieldRecipe.exists_scalar_of_evaluate hlist hv
    rw [Option.bind_some, get?_foldl_addValue, hfilter]
    exact OrderedMap.get?_eq_some_iff.2 (List.mem_singleton_self _)

/-- Two values make a list, and more only make it longer. -/
theorem foldl_extended_of_two (v w : FieldValue) (vs : List FieldValue) :
    ∃ items, (v :: w :: vs).foldl extended none = some (.list items) := by
  have hlist : ∀ items, ∃ items', vs.foldl extended (some (.list items)) = some (.list items') := by
    induction vs with
    | nil => exact fun items => ⟨items, rfl⟩
    | cons u vs ih => exact fun items => ih (items ++ u.texts)
  exact hlist (v.texts ++ w.texts)

theorem foldl_extended_eq_none {vs : List FieldValue} (h : vs.foldl extended none = none) : vs = [] := by
  rcases vs with _ | ⟨v, _ | ⟨w, vs⟩⟩
  · rfl
  · cases h
  · obtain ⟨items, hitems⟩ := foldl_extended_of_two v w vs
    rw [hitems] at h
    cases h

theorem foldl_extended_eq_scalar {vs : List FieldValue} {text : String}
    (h : vs.foldl extended none = some (.scalar text)) : vs = [.scalar text] := by
  rcases vs with _ | ⟨v, _ | ⟨w, vs⟩⟩
  · cases h
  · cases h
    rfl
  · obtain ⟨items, hitems⟩ := foldl_extended_of_two v w vs
    rw [hitems] at h
    cases h

/-- A field has the value of one of its declarations, none of which is a list, if the others give nothing. -/
theorem foldl_extended_eq_evaluate_iff {before after : List FieldRecipe} {f : FieldRecipe}
    (hf : f.list = false) :
    ((before ++ f :: after).filterMap (·.evaluate row)).foldl extended none = f.evaluate row ↔
      ∀ g ∈ before ++ after, g.evaluate row = none := by
  rw [List.filterMap_append, List.forall_mem_append, ← List.filterMap_eq_nil_iff, ← List.filterMap_eq_nil_iff]
  -- without a value of `f` every other value shows; with one, every other value makes a list of it
  cases hv : f.evaluate row with
  | none =>
    rw [List.filterMap_cons_none (f := fun f : FieldRecipe => f.evaluate row) hv, ← List.append_eq_nil_iff]
    constructor
    · exact foldl_extended_eq_none
    · intro h
      rw [h]
      rfl
  | some v =>
    obtain ⟨text, rfl⟩ := FieldRecipe.exists_scalar_of_evaluate hf hv
    rw [List.filterMap_cons_some (f := fun f : FieldRecipe => f.evaluate row) hv]
    constructor
    · intro h
      have hone := congrArg List.length (foldl_extended_eq_scalar h)
      simp only [List.length_append, List.length_cons, List.length_nil] at hone
      exact ⟨List.length_eq_zero_iff.1 (by omega), List.length_eq_zero_iff.1 (by omega)⟩
    · rintro ⟨hbefore, hafter⟩
      rw [hbefore, hafter]
      rfl

/-- If a row has for each field what a record has, it gives the record, arranged as the fields are. -/
theorem build_eq_arrange (hn : (r.fields.map FieldRecipe.name).Nodup)
    (hid : idField ∈ r.fields.map FieldRecipe.name) (hrecord : record.id?.isSome)
    (hread : ∀ f ∈ r.fields, f.evaluate row = record.get? f.name) :
    r.build row = some
      (record.arrange (idField :: (r.fields.map FieldRecipe.name).filter (· ≠ idField))) := by
  obtain ⟨id, hrecord⟩ := Option.isSome_iff_exists.1 hrecord
  have hscalar := Record.id?_eq_some_iff.1 hrecord
  have hfirst : (r.field? idField).bind (·.evaluate row) = some (.scalar id) := by
    obtain ⟨f, hf, hfield, hname⟩ := exists_field? hid
    rw [hfield, Option.bind_some, hread f hf, hname, hscalar]
  let others := r.fields.filter (·.name != idField)
  have hnames : others.map FieldRecipe.name = (r.fields.map FieldRecipe.name).filter (· ≠ idField) := by
    rw [List.filter_map]
    refine congrArg _ (List.filter_congr fun f _ => ?_)
    rw [Bool.eq_iff_iff]
    simp
  have hdistinct : (idField :: others.map FieldRecipe.name).Nodup := by
    rw [hnames]
    exact List.nodup_cons.2 ⟨by simp, hn.filter _⟩
  have hothers : others.filterMap (fun f => (f.evaluate row).map (f.name, ·)) =
      (others.map FieldRecipe.name).filterMap fun name => (record.get? name).map (name, ·) := by
    rw [List.filterMap_map]
    refine List.filterMap_congr fun f hf => ?_
    rw [hread f (List.mem_filter.1 hf).1]
    rfl
  unfold build
  rw [hfirst]
  refine congrArg some (OrderedMap.ext ?_)
  rw [← hnames, OrderedMap.entries_arrange hdistinct,
    List.filterMap_cons_some (by rw [hscalar]; rfl), ← hothers]
  exact entries_foldl_addValue hdistinct

end RecordRecipe
end TagHarvest
