/-
Headers of blocks of directives. Each header cell that is one tag gives its column a use, and a tag and its
use tell each other. A header is accepted exactly when no cell is at fault by itself, one column has the keys,
and all operations are on its table. This says nothing of the places of the columns: an operation left of the
keys is checked when the header is finished, one right of them where it is read, and both checks refuse the
same.
-/
import TagHarvest.Proofs.Directive.Worksheet
import TagHarvest.Proofs.Text.Cut

namespace TagHarvest

/-! ## Uses of columns -/

/-- The word for an operation in a tag. -/
def Operation.name : Operation → String
  | assign => "assign"
  | append => "append"
  | prepend => "prepend"
  | regex => "regex"
  | delete => "delete"
  | rename => "rename"

theorem Operation.eq_name_of_ofName? {s : String} {op : Operation} (h : ofName? s = some op) : s = op.name := by
  unfold ofName? at h
  split at h <;> cases h <;> rfl

/-- What a column of a block is for. -/
inductive ColumnUse where
  | comparison
  | unique
  | required
  /-- The column has the keys, which are compared with a field of a table. -/
  | key (table field : String)
  /-- The column has what an operation does to a field of a table. -/
  | operation (table field : String) (op : Operation)
  deriving DecidableEq

namespace ColumnUse

/-- The tag that gives a column a use. -/
def tag : ColumnUse → String
  | comparison => "#comparison"
  | unique => "#unique"
  | required => "#required"
  | key table field => "#" ++ table ++ "." ++ field ++ "." ++ "value"
  | operation table field op => "#" ++ table ++ "." ++ field ++ "." ++ op.name

/-- The use that a tag gives a column; none if it is no tag of a directive. -/
def ofTag? (tag : String) : Option ColumnUse :=
  if tag = "#comparison" then some comparison
  else if tag = "#unique" then some unique
  else if tag = "#required" then some required
  else match splitDirectiveTag tag with
  | none => none
  | some (table, field, suffix) =>
    if suffix = "value" then some (key table field)
    else (Operation.ofName? suffix).map (operation table field)

/-- The table that a use names. -/
def table? : ColumnUse → Option String
  | key table _ => some table
  | operation table _ _ => some table
  | _ => none

end ColumnUse

theorem eq_of_splitDirectiveTag {tag table field suffix : String}
    (h : splitDirectiveTag tag = some (table, field, suffix)) :
    tag = "#" ++ table ++ "." ++ field ++ "." ++ suffix ∧ '.' ∉ table.toList := by
  unfold splitDirectiveTag at h
  obtain ⟨body, hbody, h⟩ := Option.bind_eq_some_iff.1 h
  obtain ⟨⟨table', rest⟩, htable, h⟩ := Option.bind_eq_some_iff.1 h
  obtain ⟨⟨field', suffix'⟩, hfield, h⟩ := Option.bind_eq_some_iff.1 h
  dsimp only at h hfield
  split at h
  · cases h
  · cases h
    obtain ⟨hcut, hpoint⟩ := Text.cutAt?_eq_some htable
    rw [Text.eq_of_cutAtLast? hfield] at hcut
    refine ⟨?_, by rwa [String.toList_ofList]⟩
    rw [Text.afterStart?_eq_some_iff.1 hbody, ← String.toList_inj]
    simp [String.toList_append, hcut]

namespace ColumnUse

theorem eq_tag_of_ofTag? {tag : String} {u : ColumnUse} (h : ofTag? tag = some u) : tag = u.tag := by
  unfold ofTag? at h
  split_ifs at h with hcomparison hunique hrequired
  · cases h
    exact hcomparison
  · cases h
    exact hunique
  · cases h
    exact hrequired
  · split at h
    · cases h
    · rename_i table field suffix hsplit
      obtain ⟨htag, -⟩ := eq_of_splitDirectiveTag hsplit
      split at h
      · rename_i hvalue
        cases h
        rw [htag, hvalue]
        rfl
      · obtain ⟨op, hop, rfl⟩ := Option.map_eq_some_iff.1 h
        rw [htag, Operation.eq_name_of_ofName? hop]
        rfl

/-- The table that a tag names ends at its first point. -/
theorem point_not_mem_of_ofTag? {tag table : String} {u : ColumnUse} (h : ofTag? tag = some u)
    (htable : u.table? = some table) : '.' ∉ table.toList := by
  unfold ofTag? at h
  split_ifs at h
  · cases h
    cases htable
  · cases h
    cases htable
  · cases h
    cases htable
  · split at h
    · cases h
    · rename_i hsplit
      obtain ⟨-, hpoint⟩ := eq_of_splitDirectiveTag hsplit
      split at h
      · cases h
        cases htable
        exact hpoint
      · obtain ⟨op, -, rfl⟩ := Option.map_eq_some_iff.1 h
        cases htable
        exact hpoint

end ColumnUse

/-- The tag of a cell that is one tag and nothing else. -/
def singleTag? (cell : String) : Option String :=
  match Token.tokenize cell with
  | .ok [.tag tag] => some tag
  | _ => none

/-- The use that a header cell gives its column. -/
def ColumnUse.ofCell? (cell : String) : Option ColumnUse := (singleTag? cell).bind ofTag?

/-- A header cell that is not at fault by itself: it is blank, or the tag of a use. -/
def Usable (cell : String) : Prop := Token.tokenize cell = .ok [] ∨ (ColumnUse.ofCell? cell).isSome

namespace BlockColumns

variable {b b' : BlockColumns} {here : Location} {cell : String}

/-- A column with one more use can be added to what the header has said. -/
def Admits (b : BlockColumns) : ColumnUse → Prop
  | .key _ _ => b.key = none
  | .operation table _ _ => ∀ key ∈ b.key, table = key.table
  | _ => True

/-- What the header has said with one more column. -/
def add (b : BlockColumns) (column : Nat) : ColumnUse → BlockColumns
  | .comparison => { b with comparison := some column }
  | .unique => { b with unique := some column }
  | .required => { b with required := some column }
  | .key table field => { b with key := some ⟨table, field, column⟩ }
  | .operation table field op =>
    { b with operations := b.operations ++ [⟨column, table ++ "." ++ field, op⟩] }

theorem addTag_eq_ok_iff {tag : String} (hcomparison : tag ≠ "#comparison") (hunique : tag ≠ "#unique")
    (hrequired : tag ≠ "#required") :
    b.addTag here tag = .ok b' ↔
      ∃ u, ColumnUse.ofTag? tag = some u ∧ b.Admits u ∧ b' = b.add here.column u := by
  unfold addTag ColumnUse.ofTag?
  rw [if_neg hcomparison, if_neg hunique, if_neg hrequired]
  cases splitDirectiveTag tag with
  | none => simp
  | some parts =>
    obtain ⟨table, field, suffix⟩ := parts
    by_cases hvalue : suffix = "value"
    · cases hkey : b.key with
      | none => simp [hvalue, hkey, Admits, add, eq_comm]
      | some key => by_cases htable : table = key.table <;> simp [hvalue, hkey, htable, Admits]
    · have hoperation : addTag.addOperation here b table field suffix = .ok b' ↔
          ∃ op, Operation.ofName? suffix = some op ∧ b' = b.add here.column (.operation table field op) := by
        unfold addTag.addOperation
        cases Operation.ofName? suffix <;> simp [add, eq_comm]
      cases hkey : b.key with
      | none => simp [hvalue, hkey, hoperation, Admits]
      | some key =>
        by_cases htable : table = key.table
        · subst htable
          simp [hvalue, hkey, hoperation, Admits]
        · simp [hvalue, hkey, htable, Admits]

/-- A header cell is taken if it is blank, or gives a use that the header admits. -/
theorem addCell_eq_ok_iff :
    b.addCell here cell = .ok b' ↔
      Token.tokenize cell = .ok [] ∧ b' = b ∨
        ∃ u, ColumnUse.ofCell? cell = some u ∧ b.Admits u ∧ b' = b.add here.column u := by
  unfold addCell ColumnUse.ofCell? singleTag?
  split
  · rename_i h
    simp [h]
  · rename_i h
    simp [h, eq_comm]
  · rename_i tag h
    by_cases hcomparison : tag = "#comparison"
    · simp [h, hcomparison, ColumnUse.ofTag?, Admits, add, eq_comm]
    by_cases hunique : tag = "#unique"
    · simp [h, hunique, ColumnUse.ofTag?, Admits, add, eq_comm]
    by_cases hrequired : tag = "#required"
    · simp [h, hrequired, ColumnUse.ofTag?, Admits, add, eq_comm]
    rw [if_neg hcomparison, if_neg hunique, if_neg hrequired, addTag_eq_ok_iff hcomparison hunique hrequired]
    simp [h]
  · rename_i tokens hblank hsingle h
    split
    · rename_i heq
      rw [h] at heq
      exact absurd (Except.ok.inj heq) (hsingle _)
    · have hne : tokens ≠ [] := hblank
      simp [h, hne]

end BlockColumns

/-- A blank cell gives its column no use. -/
theorem ColumnUse.ofCell?_of_blank {cell : String} (h : Token.tokenize cell = .ok []) : ofCell? cell = none := by
  unfold ofCell? singleTag?
  rw [h]
  rfl

/-! ## Uses of a row -/

/-- The uses that a row gives to some columns, in the order of the columns. -/
def Row.uses (row : Row) (columns : List Nat) : List (Nat × ColumnUse) :=
  columns.filterMap fun c => (ColumnUse.ofCell? (row.cell c)).map (c, ·)

namespace ColumnUse

/-- The key column that a use makes. -/
def key? (x : Nat × ColumnUse) : Option KeyColumn :=
  match x.2 with
  | key table field => some ⟨table, field, x.1⟩
  | _ => none

/-- The column of operations that a use makes; its target has the table in front. -/
def operation? (x : Nat × ColumnUse) : Option OperationColumn :=
  match x.2 with
  | operation table field op => some ⟨x.1, table ++ "." ++ field, op⟩
  | _ => none

/-- The column of operations that a use makes, with the field as its target. -/
def ownOperation? (x : Nat × ColumnUse) : Option OperationColumn :=
  match x.2 with
  | operation _ field op => some ⟨x.1, field, op⟩
  | _ => none

/-- An operation is on the table; other uses may stand beside any table. -/
def On (table : String) : ColumnUse → Prop
  | operation table' _ _ => table' = table
  | _ => True

/-- The last column with a use. -/
def columnOf? (u : ColumnUse) (uses : List (Nat × ColumnUse)) : Option Nat :=
  ((uses.filter (·.2 = u)).map Prod.fst).getLast?

end ColumnUse

namespace BlockColumns

variable {b b' : BlockColumns} {uses : List (Nat × ColumnUse)} {place : Nat → Location} {row : Row}

/-- The header admits the uses one after the other. -/
def AdmitsAll : BlockColumns → List (Nat × ColumnUse) → Prop
  | _, [] => True
  | b, x :: uses => b.Admits x.2 ∧ (b.add x.1 x.2).AdmitsAll uses

/-- What the header has said with more columns. -/
def addAll (b : BlockColumns) (uses : List (Nat × ColumnUse)) : BlockColumns :=
  uses.foldl (fun b x => b.add x.1 x.2) b

/-- The cells right of a column are those of the columns there; behind the row's end they are blank. -/
theorem addCells_eq_foldlM {k m : Nat} (h : row.length ≤ k + m) :
    addCells place k (row.drop k) b =
      (List.range' k m).foldlM (fun b c => b.addCell (place c) (row.cell c)) b := by
  have hempty : Token.tokenize "" = .ok [] := by decide +kernel
  induction m generalizing k b with
  | zero =>
    rw [List.drop_eq_nil_of_le (Nat.add_zero k ▸ h)]
    rfl
  | succ m ih =>
    rw [List.range'_succ, List.foldlM_cons]
    by_cases hk : k < row.length
    · rw [List.drop_eq_getElem_cons hk, addCells]
      have hcell : row.cell k = row[k] := by simp [Row.cell, hk]
      rw [hcell]
      exact congrArg _ (funext fun b => ih (by omega))
    · rw [Nat.not_lt] at hk
      have hcell : row.cell k = "" := by simp [Row.cell, List.getElem?_eq_none hk]
      have hblank : b.addCell (place k) "" = .ok b := addCell_eq_ok_iff.2 (.inl ⟨hempty, rfl⟩)
      have hrest := @ih b (k + 1) (by omega)
      rw [List.drop_eq_nil_of_le (Nat.le_succ_of_le hk)] at hrest
      rw [hcell, hblank, List.drop_eq_nil_of_le hk]
      exact hrest

/-- Cells are taken if none is at fault by itself, and the header admits their uses. -/
theorem foldlM_addCell_eq_ok_iff (hplace : ∀ c, (place c).column = c) {columns : List Nat} :
    columns.foldlM (fun b c => b.addCell (place c) (row.cell c)) b = .ok b' ↔
      (∀ c ∈ columns, Usable (row.cell c)) ∧ b.AdmitsAll (row.uses columns) ∧ b' = b.addAll (row.uses columns) := by
  induction columns generalizing b with
  | nil => simp [Row.uses, AdmitsAll, addAll, pure, Except.pure, eq_comm]
  | cons c columns ih =>
    rw [List.foldlM_cons, except_bind_eq_ok_iff, List.forall_mem_cons]
    by_cases hblank : Token.tokenize (row.cell c) = .ok []
    · have hnone := ColumnUse.ofCell?_of_blank hblank
      have huses : row.uses (c :: columns) = row.uses columns := by simp [Row.uses, hnone]
      simp [addCell_eq_ok_iff, hblank, hnone, huses, Usable, ih]
    · cases hu : ColumnUse.ofCell? (row.cell c) with
      | none => simp [addCell_eq_ok_iff, hblank, hu, Usable]
      | some u =>
        have huses : row.uses (c :: columns) = (c, u) :: row.uses columns := by simp [Row.uses, hu]
        simp [addCell_eq_ok_iff, hblank, hu, huses, Usable, ih, AdmitsAll, addAll, hplace]
        tauto

theorem addAll_cons (x : Nat × ColumnUse) : b.addAll (x :: uses) = (b.add x.1 x.2).addAll uses := rfl

theorem operations_addAll : (b.addAll uses).operations = b.operations ++ uses.filterMap ColumnUse.operation? := by
  induction uses generalizing b with
  | nil => simp [addAll]
  | cons x uses ih =>
    obtain ⟨c, u⟩ := x
    rw [addAll_cons, ih]
    cases u <;> simp [add, ColumnUse.operation?, List.filterMap_cons]

theorem key_addAll : (b.addAll uses).key = (uses.filterMap ColumnUse.key?).getLast?.or b.key := by
  induction uses generalizing b with
  | nil => rfl
  | cons x uses ih =>
    obtain ⟨c, u⟩ := x
    rw [addAll_cons, ih]
    cases u with
    | key table field =>
      rw [List.filterMap_cons_some (by rfl), List.getLast?_cons]
      cases (uses.filterMap ColumnUse.key?).getLast? <;> rfl
    | comparison | unique | required | operation => rfl

/-- A column that only one use sets is the last one with that use. -/
theorem flag_addAll (flag : BlockColumns → Option Nat) {u : ColumnUse}
    (hadd : ∀ b c v, flag (add b c v) = if v = u then some c else flag b) :
    flag (b.addAll uses) = (ColumnUse.columnOf? u uses).or (flag b) := by
  induction uses generalizing b with
  | nil => rfl
  | cons x uses ih =>
    rw [addAll_cons, ih, hadd]
    unfold ColumnUse.columnOf?
    by_cases hx : x.2 = u
    · rw [List.filter_cons_of_pos (by simpa using hx), if_pos hx, List.map_cons, List.getLast?_cons]
      cases ((uses.filter (·.2 = u)).map Prod.fst).getLast? <;> rfl
    · rw [List.filter_cons_of_neg (by simpa using hx), if_neg hx]

/--
If all operations are on the key's table, the uses are admitted exactly when they make one key column. An
operation right of it is compared with it, one left of it is not yet.
-/
theorem admitsAll_iff {key : KeyColumn} (hown : ∀ x ∈ uses, x.2.On key.table) :
    b.AdmitsAll uses ∧ (b.addAll uses).key = some key ↔
      b.key.toList ++ uses.filterMap ColumnUse.key? = [key] := by
  induction uses generalizing b with
  | nil => cases hb : b.key <;> simp [AdmitsAll, addAll, hb]
  | cons x uses ih =>
    obtain ⟨c, u⟩ := x
    obtain ⟨hx, hown⟩ := List.forall_mem_cons.1 hown
    rw [AdmitsAll, addAll_cons, and_assoc, ih hown]
    cases u with
    | comparison | unique | required => simp [Admits, add, ColumnUse.key?, List.filterMap_cons]
    | key table field => cases hb : b.key <;> simp [Admits, add, ColumnUse.key?, hb]
    | operation table field op =>
      obtain rfl : table = key.table := hx
      simp only [Admits, add, ColumnUse.key?, List.filterMap_cons, and_iff_right_iff_imp]
      intro hkeys k hk
      rw [Option.mem_def.1 hk] at hkeys
      rw [(List.cons_eq_cons.1 hkeys).1]

/-- The target of an operation is on a table exactly if it was put together with the table's name. -/
theorem ownTarget_eq_ok_iff {table table' field : String} {c : Nat} {op : Operation} {o : OperationColumn}
    (htable : '.' ∉ table.toList) (htable' : '.' ∉ table'.toList) :
    ownTarget place table ⟨c, table' ++ "." ++ field, op⟩ = .ok o ↔ table' = table ∧ o = ⟨c, field, op⟩ := by
  unfold ownTarget
  dsimp only
  by_cases hsame : table' = table
  · subst hsame
    rw [Text.afterStart?_append]
    simp [eq_comm]
  · cases hafter : Text.afterStart? (table ++ ".") (table' ++ "." ++ field) with
    | none => simp [hsame]
    | some rest =>
      -- both texts end their table at the first point
      have hjoin : table'.toList ++ '.' :: field.toList = table.toList ++ '.' :: rest.toList := by
        simpa [String.toList_append] using congrArg String.toList (Text.afterStart?_eq_some_iff.1 hafter)
      have hcut := congrArg (Text.cutAt? '.') hjoin
      rw [Text.cutAt?_append htable', Text.cutAt?_append htable] at hcut
      exact absurd (String.toList_inj.1 (Prod.mk.inj (Option.some.inj hcut)).1) hsame

/-- Operations have targets on a table exactly if they are all on it. -/
theorem mapM_ownTarget_eq_ok_iff {table : String} {ops : List OperationColumn} (htable : '.' ∉ table.toList)
    (hpoint : ∀ x ∈ uses, ∀ t ∈ x.2.table?, '.' ∉ t.toList) :
    (uses.filterMap ColumnUse.operation?).mapM (ownTarget place table) = .ok ops ↔
      (∀ x ∈ uses, x.2.On table) ∧ ops = uses.filterMap ColumnUse.ownOperation? := by
  induction uses generalizing ops with
  | nil => simp [pure, Except.pure, eq_comm]
  | cons x uses ih =>
    obtain ⟨c, u⟩ := x
    obtain ⟨hx, hrest⟩ := List.forall_mem_cons.1 hpoint
    cases u with
    | comparison | unique | required | key table' field =>
      simpa [List.filterMap_cons, ColumnUse.operation?, ColumnUse.ownOperation?, ColumnUse.On] using ih hrest
    | operation table' field op =>
      have hhead (o : OperationColumn) : ownTarget place table ⟨c, table' ++ "." ++ field, op⟩ = .ok o ↔
          table' = table ∧ o = ⟨c, field, op⟩ := ownTarget_eq_ok_iff htable (hx table' rfl)
      simp only [List.filterMap_cons, ColumnUse.operation?, ColumnUse.ownOperation?, List.mapM_cons,
        except_bind_eq_ok_iff, hhead, ih hrest, List.forall_mem_cons, ColumnUse.On]
      constructor
      · rintro ⟨o, ⟨hsame, rfl⟩, rest, ⟨hall, rfl⟩, hdone⟩
        cases hdone
        exact ⟨⟨hsame, hall⟩, rfl⟩
      · rintro ⟨⟨hsame, hall⟩, rfl⟩
        exact ⟨_, ⟨hsame, rfl⟩, _, ⟨hall, rfl⟩, rfl⟩

end BlockColumns

/-! ## Finished headers -/

namespace BlockHeader

/-- The uses make one key column, and all operations are on its table. -/
structure Forms (uses : List (Nat × ColumnUse)) (key : KeyColumn) : Prop where
  keys : uses.filterMap ColumnUse.key? = [key]
  own : ∀ x ∈ uses, x.2.On key.table

/-- The header that uses make with a key column. -/
def ofUses (key : KeyColumn) (uses : List (Nat × ColumnUse)) : BlockHeader where
  key
  operations := uses.filterMap ColumnUse.ownOperation?
  comparison := ColumnUse.columnOf? .comparison uses
  unique := ColumnUse.columnOf? .unique uses
  required := ColumnUse.columnOf? .required uses

variable {place : Nat → Location} {row : Row} {h : BlockHeader}

theorem point_not_mem_of_mem_uses {columns : List Nat} {x : Nat × ColumnUse} (hx : x ∈ row.uses columns)
    {table : String} (htable : table ∈ x.2.table?) : '.' ∉ table.toList := by
  obtain ⟨c, -, hc⟩ := List.mem_filterMap.1 hx
  obtain ⟨u, hu, rfl⟩ := Option.map_eq_some_iff.1 hc
  obtain ⟨tag, -, htag⟩ := Option.bind_eq_some_iff.1 hu
  exact ColumnUse.point_not_mem_of_ofTag? htag htable

theorem point_not_mem_of_key {uses : List (Nat × ColumnUse)} {key : KeyColumn}
    (hpoint : ∀ x ∈ uses, ∀ t ∈ x.2.table?, '.' ∉ t.toList) (hkey : key ∈ uses.filterMap ColumnUse.key?) :
    '.' ∉ key.table.toList := by
  obtain ⟨⟨c, u⟩, hx, hu⟩ := List.mem_filterMap.1 hkey
  cases u with
  | key table field =>
    cases hu
    exact hpoint _ hx table rfl
  | comparison | unique | required | operation => cases hu

/-- Uses that the empty header admits are finished exactly when they form a header. -/
theorem finish_eq_ok_iff (place : Nat → Location) {uses : List (Nat × ColumnUse)}
    (hpoint : ∀ x ∈ uses, ∀ t ∈ x.2.table?, '.' ∉ t.toList) :
    (BlockColumns.AdmitsAll {} uses ∧ (BlockColumns.addAll {} uses).finish place = .ok h) ↔
      ∃ key, Forms uses key ∧ h = ofUses key uses := by
  have hoperations : (BlockColumns.addAll {} uses).operations = uses.filterMap ColumnUse.operation? :=
    BlockColumns.operations_addAll
  have hkeys : (BlockColumns.addAll {} uses).key = (uses.filterMap ColumnUse.key?).getLast? :=
    BlockColumns.key_addAll.trans Option.or_none
  have hflag (flag : BlockColumns → Option Nat) (u : ColumnUse) (hnone : flag {} = none)
      (hadd : ∀ b c v, flag (BlockColumns.add b c v) = if v = u then some c else flag b) :
      flag (BlockColumns.addAll {} uses) = ColumnUse.columnOf? u uses := by
    rw [BlockColumns.flag_addAll flag hadd, hnone, Option.or_none]
  have hcomparison := hflag BlockColumns.comparison .comparison rfl fun b c v => by cases v <;> rfl
  have hunique := hflag BlockColumns.unique .unique rfl fun b c v => by cases v <;> rfl
  have hrequired := hflag BlockColumns.required .required rfl fun b c v => by cases v <;> rfl
  unfold BlockColumns.finish ofUses
  rw [hoperations, hcomparison, hunique, hrequired]
  constructor
  · rintro ⟨hadmits, hfinish⟩
    split at hfinish
    · cases hfinish
    · rename_i key hkey
      obtain ⟨ops, hops, hfinish⟩ := except_bind_eq_ok hfinish
      cases hfinish
      have hmem : key ∈ uses.filterMap ColumnUse.key? := List.mem_of_getLast? (hkeys.symm.trans hkey)
      obtain ⟨hown, rfl⟩ :=
        (BlockColumns.mapM_ownTarget_eq_ok_iff (point_not_mem_of_key hpoint hmem) hpoint).1 hops
      exact ⟨key, ⟨(BlockColumns.admitsAll_iff hown).1 ⟨hadmits, hkey⟩, hown⟩, rfl⟩
  · rintro ⟨key, hforms, rfl⟩
    obtain ⟨hadmits, hkey⟩ := (BlockColumns.admitsAll_iff (b := {}) hforms.own).2 hforms.keys
    have hpointKey := point_not_mem_of_key hpoint (hforms.keys ▸ List.mem_cons_self)
    have hops : (uses.filterMap ColumnUse.operation?).mapM (BlockColumns.ownTarget place key.table) =
        .ok (uses.filterMap ColumnUse.ownOperation?) :=
      (BlockColumns.mapM_ownTarget_eq_ok_iff hpointKey hpoint).2 ⟨hforms.own, rfl⟩
    refine ⟨hadmits, ?_⟩
    rw [hkey]
    dsimp only
    rw [hops]
    rfl

/--
A header row is compiled exactly when none of its cells is at fault by itself, one column has the keys and all
operations are on its table. The header is then made of the uses of its columns.
-/
theorem compile_eq_ok_iff {n : Nat} (hplace : ∀ c, (place c).column = c) (hwidth : row.length ≤ n + 1) :
    compile place row = .ok h ↔
      (∀ c ∈ List.range' 1 n, Usable (row.cell c)) ∧
        ∃ key, Forms (row.uses (List.range' 1 n)) key ∧ h = ofUses key (row.uses (List.range' 1 n)) := by
  unfold compile
  rw [except_bind_eq_ok_iff, BlockColumns.addCells_eq_foldlM (m := n) (by omega)]
  simp only [BlockColumns.foldlM_addCell_eq_ok_iff hplace]
  rw [← finish_eq_ok_iff place fun x hx t ht => point_not_mem_of_mem_uses hx ht]
  constructor
  · rintro ⟨b, ⟨husable, hadmits, rfl⟩, hfinish⟩
    exact ⟨husable, hadmits, hfinish⟩
  · rintro ⟨husable, hadmits, hfinish⟩
    exact ⟨_, ⟨husable, hadmits, rfl⟩, hfinish⟩

end BlockHeader
end TagHarvest
