/-
Headers that declare the fields of one table, one in each cell. Every name of a table and a field that
fulfils the few conditions of `TableSpelling` and `FieldSpelling` is read back from its tag as it is, and
such a header compiles to the recipe that reads each field from its own column.
-/
import TagHarvest.Header.Compile
import TagHarvest.Proofs.Cell.Token
import TagHarvest.Proofs.Effects
import TagHarvest.Proofs.Header.Recipe
import TagHarvest.Proofs.Text.Cut

namespace TagHarvest

/-! ## Names -/

/-- A text that can be a part of a tag: it is not empty, and nothing in it ends a tag. -/
def Spellable (s : String) : Prop :=
  s ≠ "" ∧ ∀ c ∈ s.toList, Text.isBlank c = false ∧ c ∉ ['"', '=', '+', '*', ';', ',']

instance (s : String) : Decidable (Spellable s) :=
  decidable_of_iff
    (s ≠ "" ∧ s.toList.all fun c => !Text.isBlank c && decide (c ∉ ['"', '=', '+', '*', ';', ',']))
    (by simp [Spellable])

/-- A table name that a tag can spell. -/
structure TableSpelling (table : String) : Prop where
  spellable : Spellable table
  noDot : '.' ∉ table.toList
  noAttribute : table.toList.head? ≠ some '%'
  noChild : ¬ "%child".toList <:+ table.toList

instance (table : String) : Decidable (TableSpelling table) :=
  decidable_of_iff
    (Spellable table ∧ '.' ∉ table.toList ∧ table.toList.head? ≠ some '%' ∧
      ¬ "%child".toList <:+ table.toList)
    ⟨fun ⟨a, b, c, d⟩ => ⟨a, b, c, d⟩, fun ⟨a, b, c, d⟩ => ⟨a, b, c, d⟩⟩

/-- A field name that a tag can spell. -/
structure FieldSpelling (field : String) : Prop where
  spellable : Spellable field
  /-- There is text before and after the first percent sign. -/
  percent : '%' ∈ field.toList →
    field.toList.takeWhile (· ≠ '%') ≠ [] ∧ (field.toList.dropWhile (· ≠ '%')).tail ≠ []

instance (field : String) : Decidable (FieldSpelling field) :=
  decidable_of_iff
    (Spellable field ∧ ('%' ∈ field.toList →
      field.toList.takeWhile (· ≠ '%') ≠ [] ∧ (field.toList.dropWhile (· ≠ '%')).tail ≠ []))
    ⟨fun ⟨a, b⟩ => ⟨a, b⟩, fun ⟨a, b⟩ => ⟨a, b⟩⟩

/-- The tag of a field of a table. -/
def fieldTag (table field : String) : String := "#" ++ (table ++ "." ++ field)

variable {table field : String}

theorem Spellable.not_endsBare {s : String} (h : Spellable s) : ∀ c ∈ s.toList, Token.endsBare c = false :=
  fun c hc => Token.endsBare_eq_false_iff.2 (h.2 c hc)

theorem toList_path (table field : String) :
    (table ++ "." ++ field).toList = table.toList ++ '.' :: field.toList := by
  rw [String.toList_append, String.toList_append, List.append_assoc]
  rfl

theorem not_endsBare_path (ht : Spellable table) (hf : Spellable field) :
    ∀ c ∈ (table ++ "." ++ field).toList, Token.endsBare c = false := by
  rw [toList_path]
  intro c hc
  rcases List.mem_append.1 hc with hc | hc
  · exact ht.not_endsBare c hc
  · rcases List.mem_cons.1 hc with rfl | hc
    · decide
    · exact hf.not_endsBare c hc

/-! ## Tags -/

namespace Tag

theorem splitPath_path (ht : TableSpelling table) (tag : String) (field : List Char) :
    splitPath tag (table.toList ++ '.' :: field) = .ok (table, field, false) := by
  have hchild : Text.beforeEnding? childEnding table = none := by
    rw [Option.eq_none_iff_forall_ne_some]
    intro owner h
    rw [Text.beforeEnding?_eq_some_iff] at h
    exact ht.noChild ⟨owner.toList, by rw [h, String.toList_append]; rfl⟩
  unfold splitPath
  rw [Text.cutAt?_append ht.noDot]
  dsimp only
  rw [String.ofList_toList, hchild]

/-- The base of a field and its attribute make up its name. -/
theorem splitAttribute_field (hf : FieldSpelling field) (tag : String) :
    ∃ base attr, splitAttribute tag field.toList = .ok (base, attr) ∧ base ≠ "" ∧
      ∀ table child, (FieldName.mk table base attr child).name = field := by
  unfold splitAttribute
  cases hcut : Text.cutAt? '%' field.toList with
  | none =>
    refine ⟨_, none, rfl, ?_, fun _ _ => String.ofList_toList⟩
    rw [String.ofList_toList]
    exact hf.spellable.1
  | some parts =>
    obtain ⟨base, attr⟩ := parts
    obtain ⟨htext, hbase⟩ := Text.cutAt?_eq_some hcut
    have hbefore : ∀ c ∈ base, (decide (c ≠ '%')) = true := fun c hc =>
      decide_eq_true fun he => hbase (he ▸ hc)
    have hparts := hf.percent (by rw [htext]; exact List.mem_append_right _ List.mem_cons_self)
    rw [htext, List.takeWhile_append_of_pos hbefore, List.dropWhile_append_of_pos hbefore] at hparts
    obtain ⟨hne, hattr⟩ : base ≠ [] ∧ attr ≠ [] := by simpa using hparts
    cases attr with
    | nil => exact absurd rfl hattr
    | cons c attr =>
      refine ⟨_, _, rfl, fun h => hne ?_, fun table child => ?_⟩
      · exact String.toList_ofList.symm.trans (String.toList_eq_nil_iff.2 h)
      · show String.ofList base ++ "%" ++ String.ofList (c :: attr) = field
        rw [← String.toList_inj, htext]
        simp

/-- A tag names the table and the field that it is made of. -/
theorem ofText_fieldTag (ht : TableSpelling table) (hf : FieldSpelling field) :
    ∃ name : FieldName, ofText (fieldTag table field) = .ok (.field name) ∧
      name.table = some table ∧ name.child = false ∧ name.name = field := by
  obtain ⟨base, attr, hattribute, hbase, hname⟩ := splitAttribute_field hf (fieldTag table field)
  refine ⟨⟨some table, base, attr, false⟩, ?_, rfl, rfl, hname _ _⟩
  -- the table's first character tells the tag from an attribute, its dot from a marker
  obtain ⟨c, cs, hcs⟩ := List.exists_cons_of_ne_nil (mt String.toList_eq_nil_iff.1 ht.spellable.1)
  have hc : c ≠ '%' := fun he => ht.noAttribute (by rw [hcs, he]; rfl)
  have hmarker : ∀ marker : String, '.' ∉ marker.toList → table ++ "." ++ field ≠ marker := by
    intro marker hdot he
    refine hdot ?_
    rw [← he, toList_path]
    exact List.mem_append_right _ List.mem_cons_self
  have hbody : Text.afterStart? "#" (fieldTag table field) = some (table ++ "." ++ field) :=
    Text.afterStart?_append "#" _
  unfold ofText
  rw [hbody, Option.getD_some]
  dsimp only
  rw [toList_path]
  split
  · rename_i h; rw [hcs] at h; cases h
  · rename_i h; rw [hcs] at h; exact absurd (List.cons.inj h).1 hc
  · rename_i h; rw [hcs] at h; exact absurd (List.cons.inj h).1 hc
  · rw [if_neg (hmarker "tags" (by decide)), if_neg (hmarker "ignore" (by decide)),
      if_neg (hmarker "table" (by decide)), splitPath_path ht]
    show (splitAttribute _ _ >>= _) = _
    rw [hattribute]
    show (if base.isEmpty then _ else _) = _
    rw [if_neg (by simpa using hbase), if_neg (by simpa using ht.spellable.1)]

end Tag

namespace Clause

theorem ofTokens_nil : ofTokens [] = [] := by rw [ofTokens.eq_def]

variable {clause : Clause} {tag : String} {ts : List Token}

theorem ofTokens_tag (h : readTag false tag ts = (clause, [])) : ofTokens (.tag tag :: ts) = [clause] := by
  rw [ofTokens.eq_def]
  dsimp only
  rw [h, ofTokens_nil]

theorem ofTokens_star_tag (h : readTag true tag ts = (clause, [])) :
    ofTokens (.star :: .tag tag :: ts) = [clause] := by
  rw [ofTokens.eq_def]
  dsimp only
  rw [h, ofTokens_nil]

end Clause

/-! ## Columns -/

/-- A field that is declared by a cell of its own and read from the column below it. -/
structure Column where
  name : String
  /-- Whether the field holds lists. -/
  list : Bool
  deriving DecidableEq, Repr

namespace Column

/-- The header cell: the tag, with a star before it if the field holds lists. -/
def tag (table : String) (c : Column) : String :=
  (if c.list then "*#" else "#") ++ (table ++ "." ++ c.name)

/-- The recipe that reads the column with this index. -/
def recipe (c : Column) (index : Nat) : FieldRecipe := ⟨c.name, [.column index], c.list, index⟩

/-- The recipes of columns side by side, the first of which has this index. -/
def recipes (index : Nat) (columns : List Column) : List FieldRecipe :=
  (columns.zipIdx index).map fun p => p.1.recipe p.2

/-- The recipe that reads a record from a row, whose column 0 is left to markers. -/
def rowRecipe (table : String) (columns : List Column) : RecordRecipe := ⟨table, recipes 1 columns, none⟩

/-- Columns of fields with different names, which tags can spell and among which is the id. -/
structure Layout (columns : List Column) : Prop where
  distinct : (columns.map name).Nodup
  spelling : ∀ c ∈ columns, FieldSpelling c.name
  id : ⟨idField, false⟩ ∈ columns

instance (columns : List Column) : Decidable (Layout columns) :=
  decidable_of_iff
    ((columns.map name).Nodup ∧ (∀ c ∈ columns, FieldSpelling c.name) ∧ ⟨idField, false⟩ ∈ columns)
    ⟨fun ⟨a, b, c⟩ => ⟨a, b, c⟩, fun ⟨a, b, c⟩ => ⟨a, b, c⟩⟩

variable {c : Column} {columns : List Column} {index : Nat}

theorem recipes_cons : recipes index (c :: columns) = c.recipe index :: recipes (index + 1) columns := by
  simp [recipes]

theorem map_name_recipes : (recipes index columns).map FieldRecipe.name = columns.map name := by
  calc (recipes index columns).map FieldRecipe.name
      = (columns.zipIdx index).map (name ∘ Prod.fst) := List.map_map
    _ = ((columns.zipIdx index).map Prod.fst).map name := List.map_map.symm
    _ = columns.map name := by rw [List.zipIdx_map_fst]

/-- The id is not a list. -/
theorem Layout.not_list (h : Layout columns) (hc : c ∈ columns) (hid : c.name = idField) :
    c.list = false := by
  have : c = ⟨idField, false⟩ := List.inj_on_of_nodup_map h.distinct hc h.id hid
  rw [this]

/-- A header cell is read as the declaration that it is written for. -/
theorem clauses_tag (ht : TableSpelling table) (hf : FieldSpelling c.name) :
    ∃ tokens name, Token.tokenize (c.tag table) = .ok tokens ∧
      Clause.ofTokens tokens = [.field c.list name .column] ∧
      name.table = some table ∧ name.child = false ∧ name.name = c.name := by
  have hbare := not_endsBare_path ht.spellable hf.spellable
  obtain ⟨name, hname, htable, hchild, hfield⟩ := Tag.ofText_fieldTag ht hf
  have hread : ∀ list, Clause.readTag list (fieldTag table c.name) [] = (.field list name .column, []) := by
    intro list
    unfold Clause.readTag
    rw [hname]
    rfl
  unfold tag
  cases c.list with
  | false =>
    exact ⟨_, name, Token.tokenize_tag _ hbare, Clause.ofTokens_tag (hread false), htable, hchild, hfield⟩
  | true =>
    exact ⟨_, name, Token.tokenize_star_tag _ hbare, Clause.ofTokens_star_tag (hread true), htable, hchild,
      hfield⟩

end Column

/-! ## Compiling -/

namespace HeaderState

/-- The header has declared these fields of the table, and nothing else. -/
structure Declares (s : HeaderState) (table : String) (fields : List FieldRecipe) : Prop where
  recipes : s.recipes = if fields = [] then [] else [⟨table, fields, none⟩]
  globals : s.globals = []
  child : s.child = none

variable {s : HeaderState} {fields : List FieldRecipe} {here : Location}

theorem declares_start (table : String) : start.Declares table [] := ⟨rfl, rfl, rfl⟩

/-- The table's own recipe is the only one, and is there at the latest when it is asked for. -/
theorem recipeFor_of_declares (h : s.Declares table fields) :
    ∃ s', recipeFor table s = .ok 0 s' ∧ s'.recipes = [⟨table, fields, none⟩] ∧ s'.globals = [] ∧
      s'.child = none := by
  unfold recipeFor
  rw [get_bind_apply]
  unfold ownRecipe?
  by_cases hf : fields = []
  · have hr : s.recipes = [] := by rw [h.recipes, if_pos hf]
    rw [hr]
    exact ⟨_, rfl, by simp [RecordRecipe.new, hf], h.globals, h.child⟩
  · have hr : s.recipes = [⟨table, fields, none⟩] := by rw [h.recipes, if_neg hf]
    have hfind : s.recipes.findIdx? (fun r => r.table == table && !r.isChild) = some 0 := by
      rw [hr]
      simp [RecordRecipe.isChild]
    rw [hfind]
    exact ⟨s, rfl, hr, h.globals, h.child⟩

/-- A field of a new name comes after the others. -/
theorem addTo_of_new {f : FieldRecipe} (hs : s.recipes = [⟨table, fields, none⟩])
    (hf : f.name ∉ fields.map FieldRecipe.name) :
    addTo here 0 f s = .ok () { s with recipes := [⟨table, fields ++ [f], none⟩] } := by
  have hadd : (RecordRecipe.mk table fields none).add f = .ok ⟨table, fields ++ [f], none⟩ := by
    unfold RecordRecipe.add
    rw [RecordRecipe.field?_eq_none_iff.2 hf]
    rfl
  unfold addTo
  rw [get_bind_apply]
  simp only [hs, List.getElem?_cons_zero, hadd]
  rfl

/-- A field of the table's own records goes to its recipe. -/
theorem place_of_declares {d : Declaration} {f : FieldRecipe} (h : s.Declares table fields)
    (hcolumn : here.column ≠ 0) (htable : d.table = table) (hchild : d.child = false)
    (howner : d.owner = none) (hf : f.name ∉ fields.map FieldRecipe.name) :
    ∃ s', place here d f s = .ok (.recipe 0) s' ∧ s'.Declares table (fields ++ [f]) := by
  obtain ⟨s', hfor, hrecipes, hglobals, hopen⟩ := recipeFor_of_declares h
  refine ⟨{ s' with recipes := [⟨table, fields ++ [f], none⟩] }, ?_, by simp, hglobals, hopen⟩
  unfold place
  rw [if_neg hcolumn, howner, hchild]
  dsimp only
  rw [if_neg Bool.false_ne_true, htable, bind_apply_of_ok hfor, bind_apply_of_ok (addTo_of_new hrecipes hf)]
  rfl

/-- A declaration that assigns nothing reads its own column. -/
theorem register_of_declares {d : Declaration} {c : Column} (h : s.Declares table fields)
    (hcolumn : here.column ≠ 0) (htable : d.table = table) (hchild : d.child = false)
    (howner : d.owner = none) (hname : d.name = c.name) (hlist : d.list = c.list)
    (hnew : c.name ∉ fields.map FieldRecipe.name) :
    ∃ s', register here d none s = .ok () s' ∧ s'.Declares table (fields ++ [c.recipe here.column]) := by
  obtain ⟨s', hplace, hs'⟩ :=
    place_of_declares (f := c.recipe here.column) h hcolumn htable hchild howner hnew
  refine ⟨{ s' with table := some d.table, last := some ⟨.recipe 0, d.table, d.base⟩ }, ?_,
    hs'.recipes, hs'.globals, hs'.child⟩
  have hassigned : ¬ (Option.isNone (none : Option (List Operand)) && here.column = 0) = true := by
    simpa using hcolumn
  unfold register
  rw [if_neg hassigned, hname, hlist]
  exact bind_apply_of_ok hplace

theorem look_of_ok {α : Type} {f : HeaderState → Except TagError α} {a : α} (h : f s = .ok a) :
    look f s = .ok a s := by
  unfold look
  rw [get_bind_apply, h]
  rfl

/-- A header cell declares its field. -/
theorem cell_tag {c : Column} (ht : TableSpelling table) (hc : FieldSpelling c.name)
    (hlist : c.name = idField → c.list = false) (h : s.Declares table fields) (hcolumn : here.column ≠ 0)
    (hnew : c.name ∉ fields.map FieldRecipe.name) :
    ∃ s', cell here (c.tag table) s = .ok () s' ∧ s'.Declares table (fields ++ [c.recipe here.column]) := by
  obtain ⟨tokens, name, htokens, hclauses, htable, hchild, hname⟩ := Column.clauses_tag (c := c) ht hc
  let d : Declaration := ⟨table, name.base, name.name, name.child, none, c.list⟩
  obtain ⟨s', hregister, hs'⟩ := register_of_declares (d := d) h hcolumn rfl hchild rfl hname rfl hnew
  refine ⟨s', ?_, hs'⟩
  have hread : look (fun _ => clauseTokens here (c.tag table)) s = .ok tokens s := by
    refine look_of_ok ?_
    unfold clauseTokens
    rw [htokens]
    exact if_neg hcolumn
  have hdeclare : declare here d .column s = .ok () s' := by
    have hid : ¬ (d.list && d.name = idField) = true := by
      rw [Bool.and_eq_true, decide_eq_true_eq]
      rintro ⟨hl, hn⟩
      exact Bool.false_ne_true ((hlist (hname.symm.trans hn)).symm.trans hl)
    have hoperands : look (·.operands? here .column) s = .ok none s := look_of_ok rfl
    refine (bind_apply_of_ok hoperands).trans ?_
    rw [if_neg hid, hregister]
  have hclause : clause here (.field c.list name .column) s = .ok () s' := by
    have htableOf : s.tableOf here name.table = .ok table := by rw [htable]; rfl
    exact (bind_apply_of_ok (look_of_ok htableOf)).trans hdeclare
  unfold cell
  rw [bind_apply_of_ok hread, hclauses]
  exact bind_apply_of_ok hclause

/-- The marker in column 0 declares nothing. -/
theorem cell_marker (hcolumn : here.column = 0) : cell here "#tags" s = .ok () s := by
  have htokens : Token.tokenize "#tags" = .ok [.tag "#tags"] :=
    Token.tokenize_tag "tags" (Spellable.not_endsBare (by decide))
  have hread : look (fun _ => clauseTokens here "#tags") s = .ok [] s := by
    refine look_of_ok ?_
    unfold clauseTokens
    rw [htokens]
    exact if_pos hcolumn
  unfold cell
  rw [bind_apply_of_ok hread, Clause.ofTokens_nil]
  rfl

/-- Header cells side by side declare their fields one after the other. -/
theorem cells_tags (place : Nat → Location) (hplace : ∀ i, (place i).column = i) (ht : TableSpelling table)
    {columns : List Column} {index : Nat} (hindex : index ≠ 0) (h : s.Declares table fields)
    (hc : ∀ c ∈ columns, FieldSpelling c.name ∧ (c.name = idField → c.list = false))
    (hn : (fields.map FieldRecipe.name ++ columns.map Column.name).Nodup) :
    ∃ s', cells place index (columns.map (Column.tag table)) s = .ok () s' ∧
      s'.Declares table (fields ++ Column.recipes index columns) := by
  induction columns generalizing index s fields with
  | nil => exact ⟨s, rfl, by simpa [Column.recipes] using h⟩
  | cons c columns ih =>
    obtain ⟨⟨hspelling, hlist⟩, hrest⟩ := List.forall_mem_cons.1 hc
    have hnew : c.name ∉ fields.map FieldRecipe.name :=
      fun hm => (List.nodup_append.1 hn).2.2 _ hm _ List.mem_cons_self rfl
    obtain ⟨s₁, hcell, h₁⟩ := cell_tag ht hspelling hlist h (by rw [hplace]; exact hindex) hnew
    rw [hplace] at h₁
    obtain ⟨s₂, hcells, h₂⟩ := ih (Nat.succ_ne_zero index) h₁ hrest (by simpa [Column.recipe] using hn)
    refine ⟨s₂, (bind_apply_of_ok hcell).trans hcells, ?_⟩
    rw [Column.recipes_cons, ← List.singleton_append, ← List.append_assoc]
    exact h₂

theorem mapM_of_ok {ε α : Type} {f : α → Except ε α} {l : List α} (h : ∀ a ∈ l, f a = .ok a) :
    l.mapM f = .ok l := by
  induction l with
  | nil => rfl
  | cons a l ih =>
    obtain ⟨ha, hl⟩ := List.forall_mem_cons.1 h
    rw [List.mapM_cons, ha, ih hl]
    rfl

/-- Fields that read columns have no reference to be replaced. -/
theorem resolveRecipe_of_columns {place : Nat → Location} (sources : List ((String × String) × Operand))
    (hcolumns : ∀ f ∈ fields, ∃ i, f.operands = [.column i]) :
    resolveRecipe place sources ⟨table, fields, none⟩ = .ok ⟨table, fields, none⟩ := by
  have hfields : fields.mapM (fun f => do
      return { f with operands := ← f.operands.mapM (resolve place sources) }) = .ok fields := by
    refine mapM_of_ok fun f hf => ?_
    obtain ⟨i, hi⟩ := hcolumns f hf
    have hoperands : f.operands.mapM (resolve place sources) = .ok f.operands :=
      mapM_of_ok fun o ho => by
        rw [hi, List.mem_singleton] at ho
        rw [ho]
        rfl
    rw [hoperands]
    rfl
  unfold resolveRecipe
  rw [hfields]
  rfl

theorem checkId_of_mem {place : Nat → Location} (hid : idField ∈ fields.map FieldRecipe.name) :
    checkId place ⟨table, fields, none⟩ = .ok () := by
  obtain ⟨f, -, hfield, -⟩ := RecordRecipe.exists_field? (r := ⟨table, fields, none⟩) hid
  unfold checkId RecordRecipe.hasId
  rw [hfield]
  rfl

/-- Fields that read columns are there as they are declared once the header ends. -/
theorem finish_of_declares {place : Nat → Location} (h : s.Declares table fields)
    (hcolumns : ∀ f ∈ fields, ∃ i, f.operands = [.column i])
    (hid : idField ∈ fields.map FieldRecipe.name) :
    s.finish place = .ok [⟨table, fields, none⟩] := by
  have hne : fields ≠ [] := by rintro rfl; cases hid
  have hrecipes : s.recipes.map (withGlobals s.globals) = [⟨table, fields, none⟩] := by
    rw [h.recipes, if_neg hne, h.globals]
    rfl
  have hall : ∀ sources, [RecordRecipe.mk table fields none].mapM (resolveRecipe place sources) =
      .ok [⟨table, fields, none⟩] :=
    fun sources => mapM_of_ok fun r hr => by
      rw [List.mem_singleton.1 hr]
      exact resolveRecipe_of_columns sources hcolumns
  have hids : [RecordRecipe.mk table fields none].forM (checkId place) = .ok () := by
    show (checkId place _ >>= fun _ => pure ()) = _
    rw [checkId_of_mem hid]
    rfl
  unfold finish
  rw [h.child, hrecipes]
  dsimp only [Option.bind_none]
  rw [hall]
  show ([RecordRecipe.mk table fields none].forM (checkId place) >>= fun _ => pure _) = _
  rw [hids]
  rfl

end HeaderState

/-- A row of column headers compiles to the recipe that reads each field from its own column. -/
theorem compileHeader_columns {columns : List Column} (ht : TableSpelling table) (hc : Column.Layout columns)
    {sheet : Worksheet} {row : Nat} (hrow : sheet.row row = "#tags" :: columns.map (Column.tag table)) :
    compileHeader sheet row = .ok [Column.rowRecipe table columns] := by
  obtain ⟨s, hcells, hs⟩ := HeaderState.cells_tags (sheet.location row) (fun _ => rfl) ht
    Nat.one_ne_zero (HeaderState.declares_start table)
    (fun c hm => ⟨hc.spelling c hm, hc.not_list hm⟩) hc.distinct
  have hread : ∀ f ∈ Column.recipes 1 columns, ∃ i, f.operands = [.column i] := by
    intro f hf
    obtain ⟨p, -, rfl⟩ := List.mem_map.1 hf
    exact ⟨p.2, rfl⟩
  have hid : idField ∈ (Column.recipes 1 columns).map FieldRecipe.name := by
    rw [Column.map_name_recipes]
    exact List.mem_map_of_mem (f := Column.name) hc.id
  have hall : HeaderState.cells (sheet.location row) 0 (sheet.row row) .start = .ok () s := by
    rw [hrow]
    exact (bind_apply_of_ok (HeaderState.cell_marker rfl)).trans hcells
  unfold compileHeader
  dsimp only
  rw [hall]
  exact HeaderState.finish_of_declares hs hread hid

end TagHarvest
