/-
Clauses with all tags in full. Each token of a cell is read in the state that the clauses before it have left;
with every abbreviated tag replaced by the full name that it stands for in that state, each clause is cut
from the tokens at the same place and does the same. What follows a declaration is a matter of the kinds
of the tokens only, and a tag in full is a tag.
-/
import TagHarvest.Proofs.Header.Abbreviation

namespace TagHarvest

/-- A token of a header cell, and the state of the compilation in which it is read. -/
structure Reading where
  state : HeaderState
  /-- True of the tag of a declaration, as opposed to an operand. -/
  declares : Bool
  token : Token

namespace Reading

/-- The full name of the field that the token stands for, if it is an abbreviated tag. -/
def full? (r : Reading) : Option FieldName :=
  match r.token with
  | .tag tag => r.state.inFull? r.declares tag
  | _ => none

/-- The token with the full name in its place. -/
def inFull (r : Reading) : Token := r.state.fullToken r.declares r.token

/-- The token is not an abbreviation that would be misread in full. -/
def Plain (r : Reading) : Prop := ∀ g ∈ r.full?, ¬ g.Misread

/-- What the token stands for is known, if it is an abbreviation. -/
def Resolved (r : Reading) : Prop := ∀ tag, r.token = .tag tag → Tag.Abbreviated tag → r.full? ≠ none

instance : DecidablePred Plain := fun r => inferInstanceAs (Decidable (∀ g ∈ r.full?, ¬ g.Misread))

theorem resolved_of_isOperator {s : HeaderState} {declares : Bool} {t : Token} (h : t.isOperator = true) :
    (Reading.mk s declares t).Resolved := by
  rintro tag rfl
  cases h

theorem resolved_tag {s : HeaderState} {declares : Bool} {tag : String}
    (h : Tag.Abbreviated tag → s.inFull? declares tag ≠ none) : (Reading.mk s declares (.tag tag)).Resolved := by
  rintro _ ⟨⟩
  exact h

end Reading

namespace HeaderState

/-! ## The state in which a token is read -/

/-- The state that a step leaves. -/
def after (s : HeaderState) (step : Compile Unit) : HeaderState :=
  match step s with
  | .ok _ s' => s'
  | .error _ s' => s'

/-- The tokens of the clause that begins with a tag, all read in the state before the clause. -/
def tagReadings (s : HeaderState) (list : Bool) (tag : String) (ts : List Token) : List Reading :=
  ⟨s, true, .tag tag⟩ ::
    (ts.take (ts.length - (Clause.readTag list tag ts).2.length)).map (⟨s, false, ·⟩)

/-- The tokens of clauses with the states in which they are read. -/
def readings (here : Location) : HeaderState → List Token → List Reading
  | _, [] => []
  | s, .tag t :: ts =>
    have := Clause.length_readTag false t ts
    s.tagReadings false t ts ++
      readings here (s.after (clause here (Clause.readTag false t ts).1)) (Clause.readTag false t ts).2
  | s, .star :: .tag t :: ts =>
    have := Clause.length_readTag true t ts
    ⟨s, false, .star⟩ :: (s.tagReadings true t ts ++
      readings here (s.after (clause here (Clause.readTag true t ts).1)) (Clause.readTag true t ts).2)
  | s, t :: ts => ⟨s, false, t⟩ :: readings here s ts
termination_by _ ts => ts.length
decreasing_by all_goals simp only [List.length_cons] at *; omega

variable {s s' s₁ : HeaderState} {here : Location} {list : Bool} {tag : String} {ts sum rest rest' : List Token}

theorem readings_nil : readings here s [] = [] := by rw [readings]

theorem readings_semicolon :
    readings here s (.semicolon :: ts) = ⟨s, false, .semicolon⟩ :: readings here s ts := by
  rw [readings]
  all_goals simp

theorem readings_comma : readings here s (.comma :: ts) = ⟨s, false, .comma⟩ :: readings here s ts := by
  rw [readings]
  all_goals simp

theorem readings_tag :
    readings here s (.tag tag :: ts) = s.tagReadings false tag ts ++
      readings here (s.after (clause here (Clause.readTag false tag ts).1)) (Clause.readTag false tag ts).2 := by
  rw [readings]

theorem readings_star_tag :
    readings here s (.star :: .tag tag :: ts) = ⟨s, false, .star⟩ :: (s.tagReadings true tag ts ++
      readings here (s.after (clause here (Clause.readTag true tag ts).1)) (Clause.readTag true tag ts).2) := by
  rw [readings]

theorem after_of_ok {step : Compile Unit} (h : step s = .ok () s') : s.after step = s' := by
  unfold after
  rw [h]

/-! ## Clauses -/

open CellGrammar

/-- A sum of operands in full is read to its end, and its operands are the same. -/
theorem readOperands_inFull (hsum : Sum sum) (hend : EndsAssignment rest.head?)
    (hend' : EndsAssignment rest'.head?)
    (hfull : ∀ t ∈ sum, ∀ part o, Clause.operand t = .ok part → s.operand here part = .ok o →
      ∃ part', Clause.operand (s.fullToken false t) = .ok part' ∧ s.operand here part' = .ok o)
    {os : List Operand} (h : (Clause.readOperands (sum ++ rest)).1.mapM (s.operand here) = .ok os) :
    ∃ parts', Clause.readOperands (sum.map (s.fullToken false) ++ rest') = (parts', none, rest') ∧
      parts'.mapM (s.operand here) = .ok os := by
  induction hsum generalizing os with
  | @one t ht =>
    obtain ⟨part, hpart⟩ := Clause.exists_operand ht
    rw [List.singleton_append, Clause.readOperands_one hpart rest hend, List.mapM_cons, List.mapM_nil] at h
    obtain ⟨o, ho, h⟩ := except_bind_eq_ok h
    cases h
    obtain ⟨part', hpart', ho'⟩ := hfull t List.mem_cons_self part o hpart ho
    refine ⟨[part'], ?_, ?_⟩
    · exact Clause.readOperands_one hpart' rest' hend'
    · rw [List.mapM_cons, ho']
      rfl
  | @plus t ts ht hts ih =>
    obtain ⟨part, hpart⟩ := Clause.exists_operand ht
    rw [List.cons_append, List.cons_append, Clause.readOperands_plus hpart, List.mapM_cons] at h
    obtain ⟨o, ho, h⟩ := except_bind_eq_ok h
    obtain ⟨os, hos, h⟩ := except_bind_eq_ok h
    cases h
    obtain ⟨part', hpart', ho'⟩ := hfull t List.mem_cons_self part o hpart ho
    obtain ⟨parts', hread, hparts'⟩ :=
      ih (fun t ht => hfull t (List.mem_cons_of_mem _ (List.mem_cons_of_mem _ ht))) hos
    refine ⟨part' :: parts', ?_, ?_⟩
    · show Clause.readOperands (_ :: .plus :: (ts.map _ ++ rest')) = _
      rw [Clause.readOperands_plus hpart', hread]
    · rw [List.mapM_cons, ho', hparts']
      rfl

/-- In a sum of operands that all have values, it is known what the abbreviated ones stand for. -/
theorem resolved_of_sum (hsum : Sum sum) (hend : EndsAssignment rest.head?) {os : List Operand}
    (h : (Clause.readOperands (sum ++ rest)).1.mapM (s.operand here) = .ok os) :
    ∀ t ∈ sum, (Reading.mk s false t).Resolved := by
  have hoperand : ∀ {t part o}, Clause.operand t = .ok part → s.operand here part = .ok o →
      (Reading.mk s false t).Resolved := by
    rintro _ part o hpart ho tag rfl hshort
    obtain ⟨g, hg, -⟩ := inFull?_of_operand hpart ho hshort
    exact Option.ne_none_iff_exists'.2 ⟨g, hg⟩
  induction hsum generalizing os with
  | @one t ht =>
    obtain ⟨part, hpart⟩ := Clause.exists_operand ht
    rw [List.singleton_append, Clause.readOperands_one hpart rest hend, List.mapM_cons] at h
    obtain ⟨o, ho, -⟩ := except_bind_eq_ok h
    exact List.forall_mem_singleton.2 (hoperand hpart ho)
  | @plus t ts ht hts ih =>
    obtain ⟨part, hpart⟩ := Clause.exists_operand ht
    rw [List.cons_append, List.cons_append, Clause.readOperands_plus hpart, List.mapM_cons] at h
    obtain ⟨o, ho, h⟩ := except_bind_eq_ok h
    obtain ⟨os, hos, -⟩ := except_bind_eq_ok h
    exact List.forall_mem_cons.2 ⟨hoperand hpart ho,
      List.forall_mem_cons.2 ⟨Reading.resolved_of_isOperator rfl, ih hos⟩⟩

/-- What may follow a declaration may also follow it in full. -/
structure EndsAlike (rest rest' : List Token) : Prop where
  tag : EndsTag rest.head? → EndsTag rest'.head?
  assignment : EndsAssignment rest.head? → EndsAssignment rest'.head?

theorem fault?_of_operands? {value : Assignment} {operands : Option (List Operand)}
    (h : s.operands? here value = .ok operands) : value.fault? = none := by
  rcases operands?_eq_ok h with ⟨rfl, -⟩ | ⟨parts, os, rfl, -, -⟩
  · rfl
  · rfl

/-- What is assigned to a field is the same with its operands in full. -/
theorem readAssignment_inFull {column : Nat} (htag : DeclaresField tag) (hs : s.Settled column)
    (hread : ∀ t ∈ ts, t.Readable) {operands : Option (List Operand)}
    (h : s.operands? here (Clause.readAssignment ts).1 = .ok operands) :
    ∃ own, ts = own ++ (Clause.readAssignment ts).2 ∧ (∀ t ∈ own, (Reading.mk s false t).Resolved) ∧
      ((∀ t ∈ own, (Reading.mk s false t).Plain) →
        ∀ rest', EndsAlike (Clause.readAssignment ts).2 rest' →
          ∃ value', Clause.readAssignment (own.map (s.fullToken false) ++ rest') = (value', rest') ∧
            s.operands? here value' = .ok operands) := by
  obtain ⟨item, hts, hitem⟩ := Clause.fieldItem_of_readAssignment htag (fault?_of_operands? h)
  generalize hnext : (Clause.readAssignment ts).2.head? = next at hitem
  cases hitem with
  | column _ hend =>
    rw [List.singleton_append] at hts
    have hrest := (List.cons.inj hts).2
    rw [← hnext] at hend
    refine ⟨[], hrest, List.forall_mem_nil _, fun _ rest' halike => ⟨.column, ?_, ?_⟩⟩
    · exact Clause.readAssignment_of_endsTag (halike.tag hend)
    · rw [← hrest] at hend
      rw [Clause.readAssignment_of_endsTag hend] at h
      exact h
  | @assigned _ sum _ _ hsum hend =>
    rw [List.cons_append] at hts
    have hrest := (List.cons.inj hts).2
    rw [← hnext] at hend
    -- the operands that were read, and their values
    have hvalue : (Clause.readAssignment ts).1 =
        .operands (Clause.readOperands (sum ++ (Clause.readAssignment ts).2)).1 none := by
      conv_lhs => rw [hrest]
      rw [List.cons_append, Clause.readAssignment_equals, Clause.readOperands_sum hsum hend]
    rw [hvalue] at h
    obtain ⟨os, hos, h⟩ := except_bind_eq_ok h
    cases h
    have hresolved := resolved_of_sum hsum hend hos
    refine ⟨.equals :: sum, hrest,
      List.forall_mem_cons.2 ⟨Reading.resolved_of_isOperator rfl, hresolved⟩, fun hplain rest' halike => ?_⟩
    have hmem : ∀ t ∈ sum, t ∈ ts := by
      intro t ht
      rw [hrest]
      exact List.mem_append_left _ (List.mem_cons_of_mem _ ht)
    obtain ⟨parts', hparts', hos'⟩ := readOperands_inFull hsum hend (halike.assignment hend)
      (fun t ht part o hpart ho => operand_fullToken hs (hread t (hmem t ht))
        (fun tag htag => by
          subst htag
          exact hplain _ (List.mem_cons_of_mem _ ht)) hpart ho) hos
    refine ⟨.operands parts' none, ?_, ?_⟩
    · rw [List.map_cons, List.cons_append]
      exact (Clause.readAssignment_equals _).trans (by rw [hparts'])
    · show (parts'.mapM (s.operand here) >>= _) = _
      rw [hos']
      rfl

theorem readTag_of_field {name : FieldName} (h : Tag.ofText tag = .ok (.field name)) (list : Bool)
    (ts : List Token) :
    Clause.readTag list tag ts =
      (.field list name (Clause.readAssignment ts).1, (Clause.readAssignment ts).2) := by
  unfold Clause.readTag
  rw [h]

theorem exists_operands_of_attr {name : String} {value : Assignment}
    (h : clause here (.attr list name value) s = .ok () s') :
    ∃ last operands, s.last = some last ∧ s.operands? here value = .ok operands := by
  obtain ⟨last, s₁, hlook, hrest⟩ := bind_eq_ok h
  obtain ⟨hlast, rfl⟩ := look_eq_ok hlook
  split at hrest
  · cases hrest
  · obtain ⟨operands, -, -, hoperands, -⟩ := place_of_declare hrest
    exact ⟨last, operands, lastFor_eq_ok hlast, hoperands⟩

theorem exists_operands_of_field {name : FieldName} {value : Assignment}
    (h : clause here (.field list name value) s = .ok () s') :
    ∃ table operands, s.tableOf here name.table = .ok table ∧ s.operands? here value = .ok operands := by
  obtain ⟨table, s₁, hlook, hrest⟩ := bind_eq_ok h
  obtain ⟨htable, rfl⟩ := look_eq_ok hlook
  obtain ⟨operands, -, -, hoperands, -⟩ := place_of_declare hrest
  exact ⟨table, operands, htable, hoperands⟩

/-- Neither `#table` nor the name after it is an abbreviation. -/
theorem readTable_inFull (s : HeaderState) (hread : ∀ t ∈ ts, t.Readable)
    (h : (Clause.readTable ts).1.fault? = none) :
    ∃ own name, ts = own ++ (Clause.readTable ts).2 ∧ (Clause.readTable ts).1 = .table name ∧
      (∀ t ∈ own, (Reading.mk s false t).Resolved) ∧ own.map (s.fullToken false) = own ∧
        ∀ rest', Clause.readTable (own ++ rest') = (.table name, rest') := by
  obtain ⟨item, hitem, htable⟩ := Clause.tableItem_of_readTable
    (fun t ht => Token.Readable.proper (hread t ht)) h
  obtain ⟨own, rfl, hresolved, hown⟩ : ∃ own, item = .tag "#table" :: own ∧
      (∀ t ∈ own, (Reading.mk s false t).Resolved) ∧ own.map (s.fullToken false) = own := by
    cases htable with
    | word name => exact ⟨_, rfl, by simp [Reading.Resolved], rfl⟩
    | literal => exact ⟨_, rfl, by simp [Reading.Resolved], rfl⟩
  have hts : ts = own ++ (Clause.readTable ts).2 := (List.cons.inj hitem).2
  have hproper : ∀ t ∈ own, t.Proper := fun t ht =>
    Token.Readable.proper (hread t (by rw [hts]; exact List.mem_append_left _ ht))
  obtain ⟨name, hname⟩ := Clause.readTable_tableItem hproper htable
  refine ⟨own, name, hts, ?_, hresolved, hown, hname⟩
  rw [hts, hname]

/-- The clause of a tag in full, with its operands in full, does what the clause of the tag does. -/
theorem readTag_inFull (hs : s.Settled here.column) (htag : (Token.tag tag).Readable)
    (hread : ∀ t ∈ ts, t.Readable) (h : clause here (Clause.readTag list tag ts).1 s = .ok () s') :
    ∃ own, ts = own ++ (Clause.readTag list tag ts).2 ∧
      (Reading.mk s true (.tag tag)).Resolved ∧ (∀ t ∈ own, (Reading.mk s false t).Resolved) ∧
      ((Reading.mk s true (.tag tag)).Plain → (∀ t ∈ own, (Reading.mk s false t).Plain) →
        ∀ rest', EndsAlike (Clause.readTag list tag ts).2 rest' →
          ∃ c', Clause.readTag list (s.fullTag true tag) (own.map (s.fullToken false) ++ rest') = (c', rest') ∧
            clause here c' s = .ok () s') := by
  rcases Clause.readTag_eq (fault?_of_clause h) with
    ⟨hkind, rfl, heq⟩ | ⟨name, hkind, heq⟩ | ⟨name, hkind, heq⟩
  · have hmarker := Tag.eq_of_ofText_table htag.exists_body.2 hkind
    rw [heq] at h ⊢
    obtain ⟨own, name, hts, hclause, hresolved, hown, hname⟩ :=
      readTable_inFull s hread (fault?_of_clause h)
    have hshort := Tag.not_abbreviated hkind nofun nofun
    refine ⟨own, hts, Reading.resolved_tag fun h => absurd h hshort, hresolved,
      fun _ _ rest' _ => ⟨.table name, ?_, hclause ▸ h⟩⟩
    rw [fullTag_of_eq_none (inFull?_eq_none hshort), hown, hmarker]
    unfold Clause.readTag
    rw [Tag.ofText_table]
    exact hname rest'
  · rw [heq] at h ⊢
    obtain ⟨last, operands, hlast, hoperands⟩ := exists_operands_of_attr h
    obtain ⟨own, hts, hresolved, hfull⟩ := readAssignment_inFull (.attr hkind) hs hread hoperands
    have hg := inFull?_of_attr true hkind hlast
    refine ⟨own, hts, Reading.resolved_tag fun _ => Option.ne_none_iff_exists'.2 ⟨_, hg⟩, hresolved,
      fun hplain hplains rest' halike => ?_⟩
    obtain ⟨value', hvalue', hsame⟩ := hfull hplains rest' halike
    have hname := ofText_fullTag hs htag hg (hplain _ hg)
    refine ⟨_, ?_, clause_attr_inFull hs hlast (hsame.trans hoperands.symm) h⟩
    rw [readTag_of_field hname, hvalue', Bool.true_and]
  · rw [heq] at h ⊢
    obtain ⟨table, operands, htable, hoperands⟩ := exists_operands_of_field h
    obtain ⟨own, hts, hresolved, hfull⟩ := readAssignment_inFull (.field hkind) hs hread hoperands
    rcases tableOf_eq_ok htable with hnamed | ⟨hnone, hcurrent⟩
    · have hshort : ¬ Tag.Abbreviated tag := by
        refine Tag.not_abbreviated hkind nofun ?_
        rintro _ ⟨⟩
        exact Option.ne_none_iff_exists'.2 ⟨table, hnamed⟩
      refine ⟨own, hts, Reading.resolved_tag fun h => absurd h hshort, hresolved,
        fun _ hplains rest' halike => ?_⟩
      obtain ⟨value', hvalue', hsame⟩ := hfull hplains rest' halike
      refine ⟨.field list name value', ?_, (clause_field_inFull rfl (hsame.trans hoperands.symm)).trans h⟩
      rw [fullTag_of_eq_none (inFull?_eq_none hshort), readTag_of_field hkind, hvalue']
    · have hg := inFull?_of_field true hkind hnone hcurrent
      refine ⟨own, hts, Reading.resolved_tag fun _ => Option.ne_none_iff_exists'.2 ⟨_, hg⟩, hresolved,
        fun hplain hplains rest' halike => ?_⟩
      obtain ⟨value', hvalue', hsame⟩ := hfull hplains rest' halike
      have hname := ofText_fullTag hs htag hg (hplain _ hg)
      have hcurrentTable : s.tableOf here (some table) = s.tableOf here name.table := htable.symm
      refine ⟨.field list { name with table := some table } value', ?_,
        (clause_field_inFull hcurrentTable (hsame.trans hoperands.symm)).trans h⟩
      rw [readTag_of_field hname, hvalue']

/-- The names in the clause of a tag can be spelled. -/
theorem spelled_of_readTag (htag : (Token.tag tag).Readable)
    (hchosen : ∀ name, (Clause.readTag list tag ts).1 = .table name → TableName name)
    (h : (Clause.readTag list tag ts).1.fault? = none) : (Clause.readTag list tag ts).1.Spelled := by
  rcases Clause.readTag_eq h with ⟨-, -, heq⟩ | ⟨name, -, heq⟩ | ⟨name, hkind, heq⟩
  · have hvalue := Clause.readTable_value? ts
    rw [← heq] at hvalue
    cases hc : (Clause.readTag list tag ts).1 with
    | table name => exact hchosen name hc
    | field =>
      rw [hc] at hvalue
      cases hvalue
    | attr | fault => trivial
  · rw [heq]
    trivial
  · rw [heq]
    exact FieldName.spelled_of_ofText htag hkind

/-! ## The tokens of a cell -/

/-- A token in full is of the same kind, so it ends a declaration as the token did. -/
theorem endsAlike_readings (rs : List Reading) :
    EndsAlike (rs.map Reading.token) (rs.map Reading.inFull) := by
  cases rs with
  | nil => exact ⟨id, id⟩
  | cons r rs =>
    obtain ⟨s, declares, t⟩ := r
    cases t with
    | tag text => exact ⟨fun _ => .tag _, fun h => by cases h⟩
    | literal | pattern | word | equals | plus | star | semicolon | comma => exact ⟨id, id⟩

/-- What is known of the tokens of a cell after which the state is `s'`. -/
structure ReadInFull (here : Location) (s : HeaderState) (ts : List Token) (s' : HeaderState) : Prop where
  settled : s'.Settled here.column
  tokens : (readings here s ts).map Reading.token = ts
  states : ∀ r ∈ readings here s ts, r.state.Settled here.column
  resolved : ∀ r ∈ readings here s ts, r.Resolved
  /-- The tokens in full do the same. -/
  run : (Clause.ofTokens ((readings here s ts).map Reading.inFull)).forM (clause here) s = .ok () s'

theorem tagReadings_of_append {own : List Token} (h : ts = own ++ (Clause.readTag list tag ts).2) :
    s.tagReadings list tag ts = ⟨s, true, .tag tag⟩ :: own.map (⟨s, false, ·⟩) := by
  unfold tagReadings
  generalize (Clause.readTag list tag ts).2 = rest at h ⊢
  rw [h, List.length_append, Nat.add_sub_cancel, List.take_left]

/-- A clause that begins with a tag, and then the rest of its cell, do the same in full. -/
theorem exists_tagReadings (hs : s.Settled here.column) (htag : (Token.tag tag).Readable)
    (hread : ∀ t ∈ ts, t.Readable)
    (hchosen : ∀ name, Clause.table name ∈ (Clause.readTag list tag ts).1 ::
      Clause.ofTokens (Clause.readTag list tag ts).2 → TableName name)
    {rs : List Reading} (hplain : ∀ r ∈ rs, r.Plain)
    (hrs : rs = s.tagReadings list tag ts ++
      readings here (s.after (clause here (Clause.readTag list tag ts).1)) (Clause.readTag list tag ts).2)
    (h : ((Clause.readTag list tag ts).1 :: Clause.ofTokens (Clause.readTag list tag ts).2).forM
      (clause here) s = .ok () s')
    (hrest : ∀ {s₁ : HeaderState}, s₁.Settled here.column →
      (∀ t ∈ (Clause.readTag list tag ts).2, t.Readable) →
      (∀ name, Clause.table name ∈ Clause.ofTokens (Clause.readTag list tag ts).2 → TableName name) →
      (∀ r ∈ readings here s₁ (Clause.readTag list tag ts).2, r.Plain) →
      (Clause.ofTokens (Clause.readTag list tag ts).2).forM (clause here) s₁ = .ok () s' →
      ReadInFull here s₁ (Clause.readTag list tag ts).2 s') :
    s'.Settled here.column ∧ rs.map Reading.token = .tag tag :: ts ∧
      (∀ r ∈ rs, r.state.Settled here.column) ∧ (∀ r ∈ rs, r.Resolved) ∧
      ∃ tag' ts', rs.map Reading.inFull = .tag tag' :: ts' ∧
        ((Clause.readTag list tag' ts').1 :: Clause.ofTokens (Clause.readTag list tag' ts').2).forM
          (clause here) s = .ok () s' := by
  obtain ⟨⟨⟩, s₁, hclause, hclauses⟩ := bind_eq_ok h
  obtain ⟨own, hown, htagResolved, hownResolved, hfull⟩ := readTag_inFull hs htag hread hclause
  rw [after_of_ok hclause, tagReadings_of_append hown] at hrs
  subst hrs
  obtain ⟨hplain, hrestPlain⟩ := List.forall_mem_append.1 hplain
  obtain ⟨htagPlain, hownPlain⟩ := List.forall_mem_cons.1 hplain
  -- the state after the clause is settled, so the rest of the cell does the same in full
  have hclauseSpelled := spelled_of_readTag htag
    (fun name hname => hchosen name (hname ▸ List.mem_cons_self)) (fault?_of_clause hclause)
  have hrestRead : ∀ t ∈ (Clause.readTag list tag ts).2, t.Readable := fun t ht =>
    hread t (by rw [hown]; exact List.mem_append_right _ ht)
  have hrest := hrest (settled_of_clause hs hclauseSpelled hclause) hrestRead
    (fun name hname => hchosen name (List.mem_cons_of_mem _ hname)) hrestPlain hclauses
  have halike := endsAlike_readings (readings here s₁ (Clause.readTag list tag ts).2)
  rw [hrest.tokens] at halike
  obtain ⟨c', hread', hc'⟩ := hfull htagPlain (fun t ht => hownPlain _ (List.mem_map_of_mem ht)) _ halike
  refine ⟨hrest.settled, ?_, ?_, ?_, s.fullTag true tag, own.map (s.fullToken false) ++
    (readings here s₁ (Clause.readTag list tag ts).2).map Reading.inFull, ?_, ?_⟩
  · have hid : own.map (Reading.token ∘ fun t => ⟨s, false, t⟩) = own := List.map_id own
    rw [List.map_append, List.map_cons, List.map_map, hid, hrest.tokens, List.cons_append, ← hown]
  · refine List.forall_mem_append.2 ⟨List.forall_mem_cons.2 ⟨hs, fun r hr => ?_⟩, hrest.states⟩
    obtain ⟨t, -, rfl⟩ := List.mem_map.1 hr
    exact hs
  · refine List.forall_mem_append.2 ⟨List.forall_mem_cons.2 ⟨htagResolved, ?_⟩, hrest.resolved⟩
    exact List.forall_mem_map.2 hownResolved
  · rw [List.map_append, List.map_cons, List.map_map]
    rfl
  · rw [hread']
    exact (bind_apply_of_ok hc').trans hrest.run

/-- A separator is the same in full. -/
theorem ReadInFull.separator {t : Token} (hs : s.Settled here.column) (h : ReadInFull here s ts s')
    (ht : t.isOperator = true)
    (hread : readings here s (t :: ts) = ⟨s, false, t⟩ :: readings here s ts)
    (hskip : ∀ ts, Clause.ofTokens (s.fullToken false t :: ts) = Clause.ofTokens ts) :
    ReadInFull here s (t :: ts) s' where
  settled := h.settled
  tokens := by rw [hread, List.map_cons, h.tokens]
  states := by
    rw [hread]
    exact List.forall_mem_cons.2 ⟨hs, h.states⟩
  resolved := by
    rw [hread]
    exact List.forall_mem_cons.2 ⟨Reading.resolved_of_isOperator ht, h.resolved⟩
  run := by
    rw [hread, List.map_cons]
    exact (congrArg (fun cs => cs.forM (clause here) s) (hskip _)).trans h.run

/-- The tokens of a cell do the same in full, and the states in which they are read are settled. -/
theorem readInFull_of_clauses (hs : s.Settled here.column) (hread : ∀ t ∈ ts, t.Readable)
    (hchosen : ∀ name, Clause.table name ∈ Clause.ofTokens ts → TableName name)
    (hplain : ∀ r ∈ readings here s ts, r.Plain)
    (h : (Clause.ofTokens ts).forM (clause here) s = .ok () s') : ReadInFull here s ts s' := by
  induction ts using Clause.ofTokens.induct generalizing s with
  | case1 =>
    rw [Clause.ofTokens_nil] at h
    cases h
    refine ⟨hs, ?_, ?_, ?_, ?_⟩ <;> rw [readings_nil]
    · rfl
    · exact List.forall_mem_nil _
    · exact List.forall_mem_nil _
    · rw [List.map_nil, Clause.ofTokens_nil]
      rfl
  | case2 ts ih =>
    rw [Clause.ofTokens_semicolon] at h hchosen
    rw [readings_semicolon] at hplain
    have hrest := ih hs (List.forall_mem_cons.1 hread).2 hchosen (List.forall_mem_cons.1 hplain).2 h
    exact hrest.separator hs rfl readings_semicolon Clause.ofTokens_semicolon
  | case3 ts ih =>
    rw [Clause.ofTokens_comma] at h hchosen
    rw [readings_comma] at hplain
    have hrest := ih hs (List.forall_mem_cons.1 hread).2 hchosen (List.forall_mem_cons.1 hplain).2 h
    exact hrest.separator hs rfl readings_comma Clause.ofTokens_comma
  | case4 tag ts _ ih =>
    rw [Clause.ofTokens_tag_cons] at h hchosen
    obtain ⟨htag, hts⟩ := List.forall_mem_cons.1 hread
    obtain ⟨hsettled, htokens, hstates, hresolved, tag', ts', hfull, hrun⟩ :=
      exists_tagReadings hs htag hts hchosen hplain readings_tag h ih
    refine ⟨hsettled, htokens, hstates, hresolved, ?_⟩
    rw [hfull, Clause.ofTokens_tag_cons]
    exact hrun
  | case5 tag ts _ ih =>
    rw [Clause.ofTokens_star_tag_cons] at h hchosen
    rw [readings_star_tag, List.forall_mem_cons] at hplain
    obtain ⟨htag, hts⟩ := List.forall_mem_cons.1 (List.forall_mem_cons.1 hread).2
    obtain ⟨hsettled, htokens, hstates, hresolved, tag', ts', hfull, hrun⟩ :=
      exists_tagReadings hs htag hts hchosen hplain.2 rfl h ih
    refine ⟨hsettled, ?_, ?_, ?_, ?_⟩ <;> rw [readings_star_tag]
    · rw [List.map_cons, htokens]
    · exact List.forall_mem_cons.2 ⟨hs, hstates⟩
    · exact List.forall_mem_cons.2 ⟨Reading.resolved_of_isOperator rfl, hresolved⟩
    · have hclauses := Clause.ofTokens_star_tag_cons tag' ts'
      rw [List.map_cons, hfull]
      exact (congrArg (fun cs => cs.forM (clause here) s) hclauses).trans hrun
  | case6 t ts htag =>
    rw [Clause.ofTokens] at h
    · cases h
    · exact htag
  | case7 =>
    rw [Clause.ofTokens] at h
    cases h
  | case8 t ts =>
    rw [Clause.ofTokens] at h
    · cases h
    all_goals assumption

end HeaderState
end TagHarvest
