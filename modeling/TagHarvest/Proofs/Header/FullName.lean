/-
Tags that name a field in full, with its table. The parts of any tag can be spelled in another one: a table
that a tag names has no point and does not begin with a percent sign, the base of a field has no percent sign,
and an attribute is not empty. So a field that is named in full is read back from its tag, unless its table
ends as the table of a child does.
-/
import TagHarvest.Proofs.Cell.Spelling
import TagHarvest.Proofs.Header.Columns

namespace TagHarvest

/-- A table that some tag can name, also one that ends as the table of a child does. -/
structure TableName (table : String) : Prop where
  spellable : Spellable table
  noDot : '.' ∉ table.toList
  noAttribute : table.toList.head? ≠ some '%'

/-- The base of a field that some tag can name. -/
structure BaseName (base : String) : Prop where
  spellable : Spellable base
  noAttribute : '%' ∉ base.toList

theorem TableSpelling.tableName {table : String} (h : TableSpelling table) : TableName table :=
  ⟨h.spellable, h.noDot, h.noAttribute⟩

/-! ## The parts of a tag -/

namespace Tag

variable {tag owner base name : String} {cs path : List Char} {child : Bool} {attr : Option String}
  {f : FieldName}

/-- How the body of a tag is made up of a table and a path. -/
theorem splitPath_eq_ok (h : splitPath tag cs = .ok (owner, path, child)) :
    (∃ head, cs = head ++ '.' :: path ∧ '.' ∉ head ∧
      head = owner.toList ++ if child then childEnding.toList else []) ∨
    cs = path ∧ owner = "" ∧ child = false := by
  unfold splitPath at h
  cases hcut : Text.cutAt? '.' cs with
  | none =>
    rw [hcut] at h
    dsimp only at h
    split at h
    · cases h
    · cases h
      exact .inr ⟨rfl, rfl, rfl⟩
  | some parts =>
    obtain ⟨head, path'⟩ := parts
    obtain ⟨hcs, hdot⟩ := Text.cutAt?_eq_some hcut
    rw [hcut] at h
    dsimp only at h
    cases hending : Text.beforeEnding? childEnding (String.ofList head) with
    | none =>
      rw [hending] at h
      cases h
      exact .inl ⟨head, hcs, hdot, by simp⟩
    | some owner' =>
      rw [hending] at h
      cases h
      have hhead := congrArg String.toList (Text.beforeEnding?_eq_some_iff.1 hending)
      rw [String.toList_ofList, String.toList_append] at hhead
      exact .inl ⟨head, hcs, hdot, hhead⟩

/-- How a path is made up of the base of a field and an attribute. -/
theorem splitAttribute_eq_ok (h : splitAttribute tag path = .ok (base, attr)) :
    '%' ∉ base.toList ∧ (∀ a ∈ attr, a ≠ "") ∧
      path = base.toList ++ (attr.map fun a => '%' :: a.toList).getD [] := by
  unfold splitAttribute at h
  cases hcut : Text.cutAt? '%' path with
  | none =>
    rw [hcut] at h
    cases h
    rw [Text.cutAt?_eq_none_iff] at hcut
    exact ⟨by rwa [String.toList_ofList], nofun, by simp⟩
  | some parts =>
    obtain ⟨base', attr'⟩ := parts
    obtain ⟨hpath, hbase⟩ := Text.cutAt?_eq_some hcut
    rw [hcut] at h
    cases attr' with
    | nil => cases h
    | cons c attr' =>
      cases h
      refine ⟨by rwa [String.toList_ofList], ?_, by simp [hpath]⟩
      rintro _ ⟨⟩ hempty
      cases String.toList_ofList.symm.trans (String.toList_eq_nil_iff.2 hempty)

theorem ofText_empty : ofText "#" = .error .emptyTag := by decide +kernel

/-- After a percent sign all of the body is the name of an attribute. -/
theorem ofText_percent {body : String} (hbody : body.toList = '%' :: cs) :
    ofText ("#" ++ body) = if cs = [] then .error .emptyAttribute else .ok (.attr (String.ofList cs)) := by
  unfold ofText
  rw [Text.afterStart?_append, Option.getD_some]
  dsimp only
  rw [hbody]
  cases cs <;> rfl

/-- A body that begins otherwise is a marker or names a field. -/
theorem ofText_cons {c : Char} {body : String} (hbody : body.toList = c :: cs) (hc : c ≠ '%') :
    ofText ("#" ++ body) =
      if body = "tags" then .ok .tags
      else if body = "ignore" then .ok .ignore
      else if body = "table" then .ok .table
      else splitPath ("#" ++ body) body.toList >>= fun (owner, path, child) =>
        splitAttribute ("#" ++ body) path >>= fun (base, name) =>
          if base.isEmpty then .error (.namelessField ("#" ++ body))
          else .ok (.field ⟨if owner.isEmpty then none else some owner, base, name, child⟩) := by
  unfold ofText
  rw [Text.afterStart?_append, Option.getD_some]
  dsimp only
  split
  · rename_i h
    rw [hbody] at h
    cases h
  · rename_i h
    rw [hbody] at h
    exact absurd (List.cons.inj h).1 hc
  · rename_i h
    rw [hbody] at h
    exact absurd (List.cons.inj h).1 hc
  · rfl

/-- The tag of an attribute is a percent sign and a name. -/
theorem ofText_eq_attr {body : String} (h : ofText ("#" ++ body) = .ok (.attr name)) :
    name ≠ "" ∧ body.toList = '%' :: name.toList := by
  cases hbody : body.toList with
  | nil =>
    rw [String.toList_eq_nil_iff.1 hbody, String.append_empty, ofText_empty] at h
    cases h
  | cons c cs =>
    by_cases hc : c = '%'
    · subst hc
      rw [ofText_percent hbody] at h
      split at h
      · cases h
      · rename_i hcs
        cases h
        refine ⟨fun hempty => hcs ?_, by rw [String.toList_ofList]⟩
        rw [← String.toList_ofList (l := cs), hempty]
        rfl
    · rw [ofText_cons hbody hc] at h
      split_ifs at h
      · cases h
      · cases h
      · cases h
      · obtain ⟨⟨owner, path, child⟩, -, h⟩ := except_bind_eq_ok h
        obtain ⟨⟨base, attr⟩, -, h⟩ := except_bind_eq_ok h
        dsimp only at h
        split at h <;> cases h

/-- The tag of a field is cut into a table, a base and an attribute. -/
theorem ofText_eq_field {body : String} (h : ofText ("#" ++ body) = .ok (.field f)) :
    body.toList.head? ≠ some '%' ∧ ∃ owner path,
      splitPath ("#" ++ body) body.toList = .ok (owner, path, f.child) ∧
      splitAttribute ("#" ++ body) path = .ok (f.base, f.attr) ∧ f.base ≠ "" ∧
      f.table = if owner.isEmpty then none else some owner := by
  cases hbody : body.toList with
  | nil =>
    rw [String.toList_eq_nil_iff.1 hbody, String.append_empty, ofText_empty] at h
    cases h
  | cons c cs =>
    by_cases hc : c = '%'
    · subst hc
      rw [ofText_percent hbody] at h
      split at h <;> cases h
    · rw [ofText_cons hbody hc] at h
      split_ifs at h
      · cases h
      · cases h
      · cases h
      · obtain ⟨⟨owner, path, child⟩, hpath, h⟩ := except_bind_eq_ok h
        obtain ⟨⟨base, attr⟩, hattr, h⟩ := except_bind_eq_ok h
        dsimp only at h hattr
        split at h
        · cases h
        · rename_i hbase
          cases h
          rw [hbody] at hpath
          exact ⟨by simpa using hc, owner, path, hpath, hattr, by simpa using hbase, rfl⟩

end Tag

/-! ## Full names -/

/-- A part of a text that can be spelled. -/
theorem Token.Unbroken.spellable {text part : String} (h : Token.Unbroken text) (hne : part ≠ "")
    (hpart : part.toList ⊆ text.toList) : Spellable part :=
  ⟨hne, fun c hc => h c (hpart hc)⟩

theorem Spellable.append {a b : String} (ha : Spellable a) (hb : Token.Unbroken b) : Spellable (a ++ b) := by
  refine ⟨fun hempty => ha.1 ?_, fun c hc => ?_⟩
  · rw [← String.toList_inj, String.toList_append] at hempty
    exact String.toList_eq_nil_iff.1 (List.append_eq_nil_iff.1 hempty).1
  · rw [String.toList_append] at hc
    rcases List.mem_append.1 hc with hc | hc
    · exact ha.2 c hc
    · exact hb c hc

theorem Token.Readable.exists_body {tag : String} (h : (Token.tag tag).Readable) :
    Token.Unbroken tag ∧ ∃ body, tag = "#" ++ body := by
  obtain ⟨⟨body, hbody⟩, hunbroken⟩ := h
  refine ⟨hunbroken, String.ofList body, ?_⟩
  rw [← String.toList_inj, ← hbody]
  simp

/-- A token that some text is read as is proper. -/
theorem Token.Readable.proper {t : Token} (h : t.Readable) : t.Proper := by
  cases t with
  | tag text => exact h.exists_body.2
  | word text => exact h.1
  | literal | pattern | equals | plus | star | semicolon | comma => trivial

/-- The name of an attribute can be spelled. -/
theorem Tag.spellable_attr {tag name : String} (hread : (Token.tag tag).Readable)
    (h : ofText tag = .ok (.attr name)) : Spellable name := by
  obtain ⟨hunbroken, body, rfl⟩ := hread.exists_body
  obtain ⟨hne, hbody⟩ := ofText_eq_attr h
  refine hunbroken.spellable hne fun c hc => ?_
  rw [String.toList_append, hbody]
  simp [hc]

namespace FieldName

/-- The parts of a field's name can be spelled in a tag. -/
structure Spelled (f : FieldName) : Prop where
  table : ∀ t ∈ f.table, TableName t
  base : BaseName f.base
  attr : ∀ a ∈ f.attr, Spellable a

variable {f : FieldName} {text table : String}

/-- What a tag names can be spelled in another one. -/
theorem spelled_of_ofText (hread : (Token.tag text).Readable) (h : Tag.ofText text = .ok (.field f)) :
    f.Spelled := by
  obtain ⟨hunbroken, body, rfl⟩ := hread.exists_body
  obtain ⟨hhead, owner, path, hpath, hattribute, hbase, htable⟩ := Tag.ofText_eq_field h
  obtain ⟨hpercent, hattr, hparts⟩ := Tag.splitAttribute_eq_ok hattribute
  have hbody : body.toList ⊆ ("#" ++ body).toList := by simp [String.toList_append]
  have hpathMem : path ⊆ body.toList := by
    rcases Tag.splitPath_eq_ok hpath with ⟨head, hcs, -, -⟩ | ⟨hcs, -, -⟩
    · rw [hcs]
      simp
    · rw [hcs]
      simp
  refine ⟨fun t ht => ?_, ⟨hunbroken.spellable hbase fun c hc => hbody (hpathMem ?_), hpercent⟩,
    fun a ha => hunbroken.spellable (hattr a ha) fun c hc => hbody (hpathMem ?_)⟩
  · rw [htable] at ht
    split at ht
    · cases ht
    · rename_i hne
      cases ht
      rw [String.isEmpty_iff] at hne
      rcases Tag.splitPath_eq_ok hpath with ⟨head, hcs, hdot, rfl⟩ | ⟨-, hempty, -⟩
      · refine ⟨hunbroken.spellable hne fun c hc => hbody ?_, fun hmem => hdot ?_, fun heq => hhead ?_⟩
        · rw [hcs]
          simp [hc]
        · simp [hmem]
        · rw [hcs]
          obtain ⟨tail, htail⟩ := List.head?_eq_some_iff.1 heq
          rw [htail]
          rfl
      · exact absurd hempty hne
  · rw [hparts]
    simp [hc]
  · obtain ha : f.attr = some a := ha
    rw [hparts, ha]
    simp [hc]

/-- The tag of a field, with its table. -/
def tag (f : FieldName) : String :=
  fieldTag (f.table.getD "" ++ if f.child then Tag.childEnding else "") f.name

/-- A field of a table's own records whose table ends as the table of a child does. -/
def Misread (f : FieldName) : Prop :=
  f.child = false ∧ ∃ t ∈ f.table, Tag.childEnding.toList <:+ t.toList

instance (f : FieldName) : Decidable f.Misread :=
  inferInstanceAs (Decidable (f.child = false ∧ ∃ t ∈ f.table, Tag.childEnding.toList <:+ t.toList))

theorem splitAttribute_name (h : f.Spelled) (text : String) :
    Tag.splitAttribute text f.name.toList = .ok (f.base, f.attr) := by
  unfold Tag.splitAttribute name
  cases hattr : f.attr with
  | none =>
    dsimp only
    rw [Text.cutAt?_eq_none_iff.2 h.base.noAttribute]
    dsimp only
    rw [String.ofList_toList]
  | some a =>
    have hname : (attributeName f.base a).toList = f.base.toList ++ '%' :: a.toList := by
      unfold attributeName
      simp [String.toList_append]
    dsimp only
    rw [hname, Text.cutAt?_append h.base.noAttribute]
    cases hlist : a.toList with
    | nil => exact absurd (String.toList_eq_nil_iff.1 hlist) (h.attr a hattr).1
    | cons c cs =>
      dsimp only
      rw [← hlist, String.ofList_toList, String.ofList_toList]

theorem splitPath_tag (ht : TableName table) (htable : f.table = some table) (hread : ¬ f.Misread)
    (text : String) (path : List Char) :
    Tag.splitPath text ((table ++ if f.child then Tag.childEnding else "").toList ++ '.' :: path) =
      .ok (table, path, f.child) := by
  have hdot : '.' ∉ (table ++ if f.child then Tag.childEnding else "").toList := by
    rw [String.toList_append, List.mem_append, not_or]
    refine ⟨ht.noDot, ?_⟩
    cases f.child <;> decide
  unfold Tag.splitPath
  rw [Text.cutAt?_append hdot]
  dsimp only
  rw [String.ofList_toList]
  cases hchild : f.child with
  | true =>
    rw [if_pos rfl, Text.beforeEnding?_eq_some_iff.2 rfl]
  | false =>
    have hending : Text.beforeEnding? Tag.childEnding table = none := by
      rw [Option.eq_none_iff_forall_ne_some]
      intro owner howner
      refine hread ⟨hchild, table, htable, owner.toList, ?_⟩
      rw [Text.beforeEnding?_eq_some_iff.1 howner, String.toList_append]
    rw [if_neg Bool.false_ne_true, String.append_empty, hending]

/-- A field that is named in full is read back from its tag. -/
theorem ofText_tag (h : f.Spelled) (htable : f.table ≠ none) (hread : ¬ f.Misread) :
    Tag.ofText f.tag = .ok (.field f) := by
  obtain ⟨table, htable⟩ := Option.ne_none_iff_exists'.1 htable
  have ht := h.table table htable
  obtain ⟨c, cs, hcs⟩ := List.exists_cons_of_ne_nil (mt String.toList_eq_nil_iff.1 ht.spellable.1)
  have hc : c ≠ '%' := fun he => ht.noAttribute (by rw [hcs, he]; rfl)
  obtain ⟨owner, howner⟩ : ∃ owner, owner = table ++ if f.child then Tag.childEnding else "" := ⟨_, rfl⟩
  have hbody : (owner ++ "." ++ f.name).toList = c :: (cs ++
      (if f.child then Tag.childEnding else "").toList ++ '.' :: f.name.toList) := by
    rw [toList_path, howner, String.toList_append, hcs]
    simp
  -- the dot tells the body from a marker
  have hmarker : ∀ marker : String, '.' ∉ marker.toList → owner ++ "." ++ f.name ≠ marker := by
    rintro marker hdot rfl
    exact hdot (by rw [toList_path]; exact List.mem_append_right _ List.mem_cons_self)
  have htag : f.tag = "#" ++ (owner ++ "." ++ f.name) := by
    unfold tag fieldTag
    rw [htable, Option.getD_some, howner]
  rw [htag, Tag.ofText_cons hbody hc, if_neg (hmarker "tags" (by decide)),
    if_neg (hmarker "ignore" (by decide)), if_neg (hmarker "table" (by decide)), toList_path, howner,
    splitPath_tag ht htable hread]
  show (Tag.splitAttribute _ _ >>= _) = _
  rw [splitAttribute_name h]
  show (if f.base.isEmpty then _ else _) = _
  rw [if_neg (by simpa using h.base.spellable.1), if_neg (by simpa using ht.spellable.1), ← htable]

theorem Spelled.spellable_name (h : f.Spelled) : Spellable f.name := by
  unfold name
  cases hattr : f.attr with
  | none => exact h.base.spellable
  | some a =>
    unfold attributeName
    exact (h.base.spellable.append (by decide)).append (h.attr a hattr).2

/-- The tag of a field that is named in full is read as a token. -/
theorem readable_tag (h : f.Spelled) (htable : f.table ≠ none) : (Token.tag f.tag).Readable := by
  obtain ⟨table, htable⟩ := Option.ne_none_iff_exists'.1 htable
  have ht := (h.table table htable).spellable
  have howner : Spellable (table ++ if f.child then Tag.childEnding else "") :=
    ht.append (by cases f.child <;> decide)
  unfold tag fieldTag
  rw [htable, Option.getD_some]
  refine ⟨by simp [String.toList_append], fun c hc => ?_⟩
  rw [String.toList_append] at hc
  rcases List.mem_append.1 hc with hc | hc
  · have hsign : Token.Unbroken "#" := by decide
    exact hsign c hc
  · exact Token.endsBare_eq_false_iff.1 (not_endsBare_path howner h.spellable_name c hc)

end FieldName

end TagHarvest
