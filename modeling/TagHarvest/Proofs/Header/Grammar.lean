/-
The grammar of header cells, stated on tokens alone:

    cell    = item*
    item    = `;` | `,` | `#table` `=` (word | literal) | [`*`] tag [`=` operand (`+` operand)*]
    operand = word | literal | tag

with the conditions on the names of tags and on what may follow an item. The clauses of a cell are without
fault exactly if its tokens derive from this grammar: `cell_iff_faultless`.
-/
import TagHarvest.Header.Clause
import TagHarvest.Proofs.Cell.Token
import TagHarvest.Proofs.Effects
import TagHarvest.Proofs.Text.Cut

namespace TagHarvest

/-! ## The grammar -/

namespace CellGrammar

/-- An operand of an assignment: a text, or the tag of a field that is not a child's. -/
inductive IsOperand : Token → Prop
  | literal (text : String) : IsOperand (.literal text)
  | word (text : String) : IsOperand (.word text)
  | attr {tag name : String} : Tag.ofText tag = .ok (.attr name) → IsOperand (.tag tag)
  | field {tag : String} {name : FieldName} : Tag.ofText tag = .ok (.field name) → name.child = false →
      IsOperand (.tag tag)

/-- Operands joined by plus signs. -/
inductive Sum : List Token → Prop
  | one {t : Token} : IsOperand t → Sum [t]
  | plus {t : Token} {ts : List Token} : IsOperand t → Sum ts → Sum (t :: .plus :: ts)

/-- The tag of a field or of an attribute. -/
inductive DeclaresField : String → Prop
  | attr {tag name : String} : Tag.ofText tag = .ok (.attr name) → DeclaresField tag
  | field {tag : String} {name : FieldName} : Tag.ofText tag = .ok (.field name) → DeclaresField tag

/-- What may follow an assignment: a separator, or the end of the cell. -/
inductive EndsAssignment : Option Token → Prop
  | semicolon : EndsAssignment (some .semicolon)
  | comma : EndsAssignment (some .comma)
  | nothing : EndsAssignment none

/-- What may follow the tag of a field to which nothing is assigned: a separator, the end, or the next one. -/
inductive EndsTag : Option Token → Prop
  | star : EndsTag (some .star)
  | tag (text : String) : EndsTag (some (.tag text))
  | semicolon : EndsTag (some .semicolon)
  | comma : EndsTag (some .comma)
  | nothing : EndsTag none

/-- The tag of a field and what is assigned to it, before the token `next`. -/
inductive FieldItem : List Token → (next : Option Token) → Prop
  | column {tag : String} {next : Option Token} : DeclaresField tag → EndsTag next →
      FieldItem [.tag tag] next
  | assigned {tag : String} {sum : List Token} {next : Option Token} : DeclaresField tag → Sum sum →
      EndsAssignment next → FieldItem (.tag tag :: .equals :: sum) next

/-- The choice of the current table. -/
inductive TableItem : List Token → Prop
  | word (name : String) : TableItem [.tag "#table", .equals, .word name]
  | literal {name : String} : name ≠ "" → TableItem [.tag "#table", .equals, .literal name]

/-- An item of a cell, before the token `next`. -/
inductive Item : List Token → (next : Option Token) → Prop
  | semicolon (next : Option Token) : Item [.semicolon] next
  | comma (next : Option Token) : Item [.comma] next
  | table {ts : List Token} (next : Option Token) : TableItem ts → Item ts next
  | field {ts : List Token} {next : Option Token} : FieldItem ts next → Item ts next
  | list {ts : List Token} {next : Option Token} : FieldItem ts next → Item (.star :: ts) next

/-- A cell is a sequence of items. -/
inductive Cell : List Token → Prop
  | nil : Cell []
  | cons {item rest : List Token} : Item item rest.head? → Cell rest → Cell (item ++ rest)

end CellGrammar

/-! ## Faults of clauses -/

/-- The fault that ends what follows the tag of a declaration. -/
def Assignment.fault? : Assignment → Option GrammarFault
  | .column => none
  | .operands _ f => f
  | .fault f => some f

namespace Clause

/-- The fault that a clause ends with. -/
def fault? : Clause → Option GrammarFault
  | .table _ => none
  | .attr _ _ value => value.fault?
  | .field _ _ value => value.fault?
  | .fault f => some f

/-- What is assigned to the field that a clause declares. -/
def value? : Clause → Option Assignment
  | .attr _ _ value => some value
  | .field _ _ value => some value
  | _ => none

variable {c : Clause} {ts rest sum item : List Token} {parts : List OperandText} {list : Bool} {tag : String}

theorem ofTokens_semicolon (ts : List Token) : ofTokens (.semicolon :: ts) = ofTokens ts := by
  rw [ofTokens]

theorem ofTokens_comma (ts : List Token) : ofTokens (.comma :: ts) = ofTokens ts := by
  rw [ofTokens]

theorem ofTokens_tag_cons (tag : String) (ts : List Token) :
    ofTokens (.tag tag :: ts) = (readTag false tag ts).1 :: ofTokens (readTag false tag ts).2 := by
  rw [ofTokens]

theorem ofTokens_star_tag_cons (tag : String) (ts : List Token) :
    ofTokens (.star :: .tag tag :: ts) = (readTag true tag ts).1 :: ofTokens (readTag true tag ts).2 := by
  rw [ofTokens]

/-- What holds of the clauses that tags begin, and of faults, holds of every clause of a cell. -/
theorem forall_ofTokens {P : Clause → Prop} (htag : ∀ list tag ts, P (readTag list tag ts).1)
    (hfault : ∀ f, f ≠ .missingMarker → P (.fault f)) (ts : List Token) : ∀ c ∈ ofTokens ts, P c := by
  induction ts using ofTokens.induct with
  | case1 => simp [ofTokens]
  | case2 ts ih => rwa [ofTokens_semicolon]
  | case3 ts ih => rwa [ofTokens_comma]
  | case4 tag ts _ ih =>
    rw [ofTokens_tag_cons]
    exact List.forall_mem_cons.2 ⟨htag false tag ts, ih⟩
  | case5 tag ts _ ih =>
    rw [ofTokens_star_tag_cons]
    exact List.forall_mem_cons.2 ⟨htag true tag ts, ih⟩
  | case6 t ts h =>
    rw [ofTokens]
    · exact List.forall_mem_singleton.2 (hfault _ (by split <;> nofun))
    · exact h
  | case7 =>
    rw [ofTokens]
    exact List.forall_mem_singleton.2 (hfault _ nofun)
  | case8 t ts =>
    rw [ofTokens]
    · exact List.forall_mem_singleton.2 (hfault _ (by split <;> nofun))
    all_goals assumption

/-! ## Operands are there -/

/-- Operands that end without a fault are not none at all. -/
theorem readOperands_ne_nil (h : (readOperands ts).2.1 = none) : (readOperands ts).1 ≠ [] := by
  unfold readOperands at h ⊢
  split
  · cases h
  · split
    · rename_i f hf
      simp only [hf] at h
      cases h
    · split <;> simp

theorem readAssignment_ne_nil (h : (readAssignment ts).1 = .operands parts none) : parts ≠ [] := by
  unfold readAssignment at h
  split at h
  · simp only [Assignment.operands.injEq] at h
    obtain ⟨rfl, hfault⟩ := h
    exact readOperands_ne_nil hfault
  · cases h
  · cases h
  · cases h
  · split at h <;> cases h

theorem readTable_value? (ts : List Token) : (readTable ts).1.value? = none := by
  unfold readTable
  split
  · split
    · split <;> rfl
    · split <;> rfl
    · rfl
  · rfl
  · rfl

theorem readTag_ne_nil (h : (readTag list tag ts).1.value? = some (.operands parts none)) : parts ≠ [] := by
  unfold readTag at h
  split at h
  · cases h
  · cases h
  · cases h
  · split at h
    · cases h
    · rw [readTable_value?] at h
      cases h
  · exact readAssignment_ne_nil (Option.some.inj h)
  · exact readAssignment_ne_nil (Option.some.inj h)

/-- An assignment of a cell that has no fault has operands. -/
theorem ofTokens_ne_nil (hc : c ∈ ofTokens ts) (h : c.value? = some (.operands parts none)) : parts ≠ [] :=
  forall_ofTokens (P := fun c => ∀ parts, c.value? = some (.operands parts none) → parts ≠ [])
    (fun _ _ _ _ h => readTag_ne_nil h) (fun _ _ _ h => nomatch h) ts c hc parts h

end Clause

/-! ## Faultless clauses derive from the grammar -/

namespace Tag

/-- The marker of a table is written in one way. -/
theorem eq_of_ofText_table {tag : String} (hproper : (Token.tag tag).Proper) (h : ofText tag = .ok .table) :
    tag = "#table" := by
  obtain ⟨body, rfl⟩ := hproper
  have hbody : (Text.afterStart? "#" ("#" ++ body)).getD ("#" ++ body) = body := by
    rw [Text.afterStart?_append]
    rfl
  unfold ofText at h
  rw [hbody] at h
  dsimp only at h
  split at h
  · cases h
  · cases h
  · cases h
  · by_cases htable : body = "table"
    · rw [htable]
      rfl
    · -- the other texts are other markers or name a field
      rw [if_neg htable] at h
      split at h
      · cases h
      · split at h
        · cases h
        · obtain ⟨⟨owner, path, child⟩, -, h⟩ := except_bind_eq_ok h
          obtain ⟨⟨base, name⟩, -, h⟩ := except_bind_eq_ok h
          dsimp only at h
          split at h
          · cases h
          · cases h

theorem ofText_table : ofText "#table" = .ok .table := by decide +kernel

end Tag

namespace Clause

open CellGrammar

variable {c : Clause} {ts rest sum item : List Token} {list : Bool} {tag : String} {t : Token}

theorem exists_operand (h : IsOperand t) : ∃ part, operand t = .ok part := by
  cases h with
  | literal text => exact ⟨_, rfl⟩
  | word text => exact ⟨_, rfl⟩
  | @attr tag name h =>
    refine ⟨.attr name, ?_⟩
    unfold operand
    dsimp only
    rw [h]
    rfl
  | @field tag name h hchild =>
    refine ⟨.field name.table name.name, ?_⟩
    unfold operand
    dsimp only
    rw [h]
    show (if name.child then _ else _) = _
    rw [hchild]
    rfl

theorem isOperand_of_ok {part : OperandText} (h : operand t = .ok part) : IsOperand t := by
  unfold operand at h
  split at h
  · exact .literal _
  · exact .word _
  · cases h
  · obtain ⟨kind, htag, h⟩ := except_bind_eq_ok h
    cases kind with
    | field name =>
      dsimp only at h
      split at h
      · cases h
      · rename_i hchild
        exact .field htag (by simpa using hchild)
    | attr name => exact .attr htag
    | tags => cases h
    | ignore => cases h
    | table => cases h
  · cases h

/-- After a plus sign the sum goes on. -/
theorem readOperands_plus {part : OperandText} (h : operand t = .ok part) (ts : List Token) :
    readOperands (t :: .plus :: ts) = (part :: (readOperands ts).1, (readOperands ts).2) := by
  rw [readOperands.eq_def]
  simp only [h]

/-- Before a separator or the end of the cell the sum ends. -/
theorem readOperands_one {part : OperandText} (h : operand t = .ok part) (rest : List Token)
    (hend : EndsAssignment rest.head?) : readOperands (t :: rest) = ([part], none, rest) := by
  rw [readOperands.eq_def]
  simp only [h]
  cases rest with
  | nil => rfl
  | cons t rest => cases hend <;> rfl

/-- Operands without a fault are a sum that ends where an assignment may end. -/
theorem sum_of_readOperands (h : (readOperands ts).2.1 = none) :
    ∃ sum, Sum sum ∧ ts = sum ++ (readOperands ts).2.2 ∧ EndsAssignment (readOperands ts).2.2.head? := by
  -- a plus sign goes on with the sum, a separator or the end of the cell ends it, all else is a fault
  induction ts using readOperands.induct with
  | case1 => cases h
  | case2 t ts f hf =>
    rw [readOperands.eq_def] at h
    simp only [hf] at h
    cases h
  | case3 t part hpart rest ih =>
    rw [readOperands_plus hpart] at h ⊢
    obtain ⟨sum, hsum, hrest, hend⟩ := ih h
    refine ⟨t :: .plus :: sum, .plus (isOperand_of_ok hpart) hsum, ?_, hend⟩
    rw [List.cons_append, List.cons_append, ← hrest]
  | case4 t part hpart =>
    rw [readOperands_one hpart [] .nothing]
    exact ⟨[t], .one (isOperand_of_ok hpart), rfl, .nothing⟩
  | case5 t part hpart rest =>
    rw [readOperands_one hpart (.semicolon :: rest) .semicolon]
    exact ⟨[t], .one (isOperand_of_ok hpart), rfl, .semicolon⟩
  | case6 t part hpart rest =>
    rw [readOperands_one hpart (.comma :: rest) .comma]
    exact ⟨[t], .one (isOperand_of_ok hpart), rfl, .comma⟩
  | case7 t part hpart rest =>
    rw [readOperands.eq_def] at h
    simp only [hpart] at h
    cases h
  | case8 t part hpart rest =>
    rw [readOperands.eq_def] at h
    simp only [hpart] at h
    cases h
  | case9 t part hpart other rest =>
    rw [readOperands.eq_def] at h
    simp only [hpart] at h
    cases h

/-- A sum is read to its end. -/
theorem readOperands_sum (hs : Sum sum) (hend : EndsAssignment rest.head?) :
    (readOperands (sum ++ rest)).2 = (none, rest) := by
  induction hs with
  | one ht =>
    obtain ⟨part, hpart⟩ := exists_operand ht
    rw [List.singleton_append, readOperands_one hpart rest hend]
  | @plus t ts ht hts ih =>
    obtain ⟨part, hpart⟩ := exists_operand ht
    rw [List.cons_append, List.cons_append, readOperands_plus hpart]
    exact ih

/-- Where the tag of a field may end nothing is assigned to it. -/
theorem readAssignment_of_endsTag (h : EndsTag ts.head?) : readAssignment ts = (.column, ts) := by
  cases ts with
  | nil => rfl
  | cons t ts => cases h <;> rfl

theorem readAssignment_equals (ts : List Token) :
    readAssignment (.equals :: ts) =
      (.operands (readOperands ts).1 (readOperands ts).2.1, (readOperands ts).2.2) := rfl

/-- What follows a tag without a fault: nothing that belongs to it, or an assignment. -/
theorem fieldItem_of_readAssignment (ht : DeclaresField tag) (h : (readAssignment ts).1.fault? = none) :
    ∃ item, .tag tag :: ts = item ++ (readAssignment ts).2 ∧ FieldItem item (readAssignment ts).2.head? := by
  unfold readAssignment at h ⊢
  split
  · rename_i ts
    dsimp only at h
    obtain ⟨sum, hsum, hts, hend⟩ := sum_of_readOperands h
    refine ⟨.tag tag :: .equals :: sum, ?_, .assigned ht hsum hend⟩
    rw [List.cons_append, List.cons_append, ← hts]
  · cases h
  · exact ⟨[.tag tag], rfl, .column ht .nothing⟩
  · exact ⟨[.tag tag], rfl, .column ht (.tag _)⟩
  · rename_i t ts hequals hplus htag
    cases t with
    | equals => exact (hequals rfl).elim
    | plus => exact (hplus rfl).elim
    | tag text => exact (htag text rfl).elim
    | star => exact ⟨[.tag tag], rfl, .column ht .star⟩
    | semicolon => exact ⟨[.tag tag], rfl, .column ht .semicolon⟩
    | comma => exact ⟨[.tag tag], rfl, .column ht .comma⟩
    | literal text => cases h
    | word text => cases h
    | pattern text => cases h

/-- An assignment is read to its end without a fault. -/
theorem readAssignment_fieldItem {next : List Token} (h : FieldItem (.tag tag :: item) next.head?) :
    (readAssignment (item ++ next)).1.fault? = none ∧ (readAssignment (item ++ next)).2 = next := by
  cases h with
  | column ht hend =>
    rw [List.nil_append, readAssignment_of_endsTag hend]
    exact ⟨rfl, rfl⟩
  | assigned ht hsum hend =>
    have hread := readOperands_sum hsum hend
    rw [List.cons_append]
    unfold readAssignment
    exact ⟨congrArg Prod.fst hread, congrArg Prod.snd hread⟩

/-- What follows `#table` without a fault. -/
theorem tableItem_of_readTable (hproper : ∀ t ∈ ts, t.Proper) (h : (readTable ts).1.fault? = none) :
    ∃ item, .tag "#table" :: ts = item ++ (readTable ts).2 ∧ TableItem item := by
  unfold readTable at h
  split at h
  · rename_i t ts
    split at h
    · rename_i name
      have hname : name ≠ "" := hproper (.word name) (by simp)
      have hread : readTable (.equals :: .word name :: ts) = (.table name, ts) :=
        if_neg (by simpa using hname)
      rw [hread]
      exact ⟨_, rfl, .word name⟩
    · rename_i name
      by_cases hname : name.isEmpty = true
      · rw [if_pos hname] at h
        cases h
      · have hread : readTable (.equals :: .literal name :: ts) = (.table name, ts) := if_neg hname
        rw [hread]
        exact ⟨_, rfl, .literal (by simpa using hname)⟩
    · cases h
  · cases h
  · cases h

/-- The choice of a table is read in the same way before all that may follow. -/
theorem readTable_tableItem (hproper : ∀ t ∈ item, t.Proper) (h : TableItem (.tag "#table" :: item)) :
    ∃ name, ∀ rest, readTable (item ++ rest) = (.table name, rest) := by
  cases h with
  | word name =>
    have hname : name ≠ "" := hproper (.word name) (by simp)
    exact ⟨name, fun _ => if_neg (by simpa using hname)⟩
  | @literal name hname => exact ⟨name, fun _ => if_neg (by simpa using hname)⟩

/-- Without a fault a tag begins a choice of the table or the declaration of a field. -/
theorem readTag_eq (h : (readTag list tag ts).1.fault? = none) :
    (Tag.ofText tag = .ok .table ∧ list = false ∧ readTag list tag ts = readTable ts) ∨
    (∃ name, Tag.ofText tag = .ok (.attr name) ∧
      readTag list tag ts = (.attr list name (readAssignment ts).1, (readAssignment ts).2)) ∨
    ∃ name, Tag.ofText tag = .ok (.field name) ∧
      readTag list tag ts = (.field list name (readAssignment ts).1, (readAssignment ts).2) := by
  unfold readTag at h ⊢
  cases hkind : Tag.ofText tag with
  | error f =>
    rw [hkind] at h
    cases h
  | ok kind =>
    rw [hkind] at h
    cases kind with
    | tags => cases h
    | ignore => cases h
    | table =>
      cases list with
      | true => cases h
      | false => exact .inl ⟨rfl, rfl, rfl⟩
    | attr name => exact .inr (.inl ⟨name, rfl, rfl⟩)
    | field name => exact .inr (.inr ⟨name, rfl, rfl⟩)

/-- A clause that a tag begins without a fault is an item. -/
theorem item_of_readTag (htag : (Token.tag tag).Proper) (hproper : ∀ t ∈ ts, t.Proper)
    (h : (readTag list tag ts).1.fault? = none) :
    ∃ item, .tag tag :: ts = item ++ (readTag list tag ts).2 ∧
      (FieldItem item (readTag list tag ts).2.head? ∨ list = false ∧ TableItem item) := by
  rcases readTag_eq h with ⟨hkind, rfl, heq⟩ | ⟨name, hkind, heq⟩ | ⟨name, hkind, heq⟩
  · obtain rfl := Tag.eq_of_ofText_table htag hkind
    rw [heq] at h ⊢
    obtain ⟨item, hts, hitem⟩ := tableItem_of_readTable hproper h
    exact ⟨item, hts, .inr ⟨rfl, hitem⟩⟩
  · rw [heq] at h ⊢
    obtain ⟨item, hts, hitem⟩ := fieldItem_of_readAssignment (.attr hkind) h
    exact ⟨item, hts, .inl hitem⟩
  · rw [heq] at h ⊢
    obtain ⟨item, hts, hitem⟩ := fieldItem_of_readAssignment (.field hkind) h
    exact ⟨item, hts, .inl hitem⟩

theorem exists_tag_of_fieldItem {next : Option Token} (h : FieldItem item next) :
    ∃ tag tail, item = .tag tag :: tail := by
  cases h with
  | column => exact ⟨_, _, rfl⟩
  | assigned => exact ⟨_, _, rfl⟩

theorem readTag_fieldItem {next : List Token} (h : FieldItem (.tag tag :: item) next.head?) (list : Bool) :
    (readTag list tag (item ++ next)).1.fault? = none ∧ (readTag list tag (item ++ next)).2 = next := by
  have hkind : DeclaresField tag := by
    cases h with
    | column ht => exact ht
    | assigned ht => exact ht
  obtain ⟨hfault, hnext⟩ := readAssignment_fieldItem h
  unfold readTag
  cases hkind with
  | attr hkind =>
    rw [hkind]
    exact ⟨hfault, hnext⟩
  | field hkind =>
    rw [hkind]
    exact ⟨hfault, hnext⟩

/-- The tokens of clauses without a fault derive from the grammar. -/
theorem cell_of_faultless (hproper : ∀ t ∈ ts, t.Proper) (h : ∀ c ∈ ofTokens ts, c.fault? = none) :
    Cell ts := by
  -- each clause gives the item it was read from, and reading goes on where the item ends
  induction ts using ofTokens.induct with
  | case1 => exact .nil
  | case2 ts ih =>
    rw [ofTokens_semicolon] at h
    exact .cons (.semicolon _) (ih (fun t ht => hproper t (List.mem_cons_of_mem _ ht)) h)
  | case3 ts ih =>
    rw [ofTokens_comma] at h
    exact .cons (.comma _) (ih (fun t ht => hproper t (List.mem_cons_of_mem _ ht)) h)
  | case4 tag ts _ ih =>
    rw [ofTokens_tag_cons] at h
    obtain ⟨hfirst, hrest⟩ := List.forall_mem_cons.1 h
    obtain ⟨htag, hts⟩ := List.forall_mem_cons.1 hproper
    obtain ⟨item, hitem, hkind⟩ := item_of_readTag htag hts hfirst
    rw [hitem] at hproper ⊢
    have hcell := ih (List.forall_mem_append.1 hproper).2 hrest
    rcases hkind with hfield | ⟨-, htable⟩
    · exact .cons (.field hfield) hcell
    · exact .cons (.table _ htable) hcell
  | case5 tag ts _ ih =>
    rw [ofTokens_star_tag_cons] at h
    obtain ⟨hfirst, hrest⟩ := List.forall_mem_cons.1 h
    obtain ⟨-, hts⟩ := List.forall_mem_cons.1 hproper
    obtain ⟨htag, hts⟩ := List.forall_mem_cons.1 hts
    obtain ⟨item, hitem, hkind⟩ := item_of_readTag htag hts hfirst
    rw [hitem, ← List.cons_append] at hproper ⊢
    have hcell := ih (List.forall_mem_append.1 hproper).2 hrest
    rcases hkind with hfield | ⟨hlist, -⟩
    · exact .cons (.list hfield) hcell
    · cases hlist
  | case6 t ts htag =>
    rw [ofTokens] at h
    · cases h _ List.mem_cons_self
    · exact htag
  | case7 =>
    rw [ofTokens] at h
    cases h _ List.mem_cons_self
  | case8 t ts =>
    rw [ofTokens] at h
    · cases h _ List.mem_cons_self
    all_goals assumption

/-- An item is read to its end, as one clause or none, without a fault. -/
theorem ofTokens_item (hproper : ∀ t ∈ item, t.Proper) (h : Item item rest.head?) :
    ∃ clauses, ofTokens (item ++ rest) = clauses ++ ofTokens rest ∧ ∀ c ∈ clauses, c.fault? = none := by
  cases h with
  | semicolon => exact ⟨[], ofTokens_semicolon rest, by simp⟩
  | comma => exact ⟨[], ofTokens_comma rest, by simp⟩
  | table _ htable =>
    obtain ⟨item, rfl⟩ : ∃ tail, item = .tag "#table" :: tail := by
      cases htable with
      | word name => exact ⟨_, rfl⟩
      | literal => exact ⟨_, rfl⟩
    obtain ⟨name, hread⟩ := readTable_tableItem (List.forall_mem_cons.1 hproper).2 htable
    have htag : readTag false "#table" (item ++ rest) = (.table name, rest) := by
      unfold readTag
      rw [Tag.ofText_table]
      exact hread rest
    refine ⟨[.table name], ?_, List.forall_mem_singleton.2 rfl⟩
    rw [List.cons_append, ofTokens_tag_cons, htag]
    rfl
  | field hfield =>
    obtain ⟨tag, item, rfl⟩ := exists_tag_of_fieldItem hfield
    obtain ⟨hfault, hrest⟩ := readTag_fieldItem hfield false
    refine ⟨[_], ?_, List.forall_mem_singleton.2 hfault⟩
    rw [List.cons_append, ofTokens_tag_cons, hrest]
    rfl
  | @list ts _ hfield =>
    obtain ⟨tag, item, rfl⟩ := exists_tag_of_fieldItem hfield
    obtain ⟨hfault, hrest⟩ := readTag_fieldItem hfield true
    refine ⟨[_], ?_, List.forall_mem_singleton.2 hfault⟩
    rw [List.cons_append, List.cons_append, ofTokens_star_tag_cons, hrest]
    rfl

theorem faultless_of_cell (hproper : ∀ t ∈ ts, t.Proper) (h : Cell ts) :
    ∀ c ∈ ofTokens ts, c.fault? = none := by
  induction h with
  | nil => simp [ofTokens]
  | cons hitem hcell ih =>
    obtain ⟨hhead, htail⟩ := List.forall_mem_append.1 hproper
    obtain ⟨clauses, heq, hclauses⟩ := ofTokens_item hhead hitem
    rw [heq]
    exact List.forall_mem_append.2 ⟨hclauses, ih htail⟩

/-- The tokens of a cell derive from the grammar exactly if none of its clauses has a fault. -/
theorem cell_iff_faultless (hproper : ∀ t ∈ ts, t.Proper) :
    Cell ts ↔ ∀ c ∈ ofTokens ts, c.fault? = none :=
  ⟨faultless_of_cell hproper, cell_of_faultless hproper⟩

end Clause
end TagHarvest
