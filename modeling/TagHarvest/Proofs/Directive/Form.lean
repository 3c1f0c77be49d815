/-
Values of the form of a document. What has the form and repeats no name is decoded, so after a value was
found to have it there is no failure left. The directives are then well-formed: no header test and no new
name of a field is empty, and tags start with `#`.
-/
import TagHarvest.Directive.Reader
import TagHarvest.Proofs.Directive.Codec

namespace TagHarvest

/-! ## Well-formed directives -/

/-- No new name of a field is empty. -/
def Edits.WellFormed (e : Edits) : Prop := e.rename.All (· ≠ "")

def KeyedEdits.WellFormed (k : KeyedEdits) : Prop := k.All Edits.WellFormed

def FieldDirectives.WellFormed (f : FieldDirectives) : Prop := f.All KeyedEdits.WellFormed

def TableDirectives.WellFormed (t : TableDirectives) : Prop := t.All FieldDirectives.WellFormed

def ConversionDirectives.WellFormed (d : ConversionDirectives) : Prop := d.All TableDirectives.WellFormed

structure HeaderDescription.WellFormed (d : HeaderDescription) : Prop where
  header : d.header ≠ ""
  tag : ['#'] <+: d.tag.toList

def TaggingGroup.WellFormed (g : TaggingGroup) : Prop := ∀ d ∈ g.descriptions, d.WellFormed

structure Directives.WellFormed (d : Directives) : Prop where
  conversion : d.conversion.WellFormed
  tagging : ∀ g ∈ d.tagging, g.WellFormed

namespace Json

variable {α β : Type}

/-! ## Tests -/

theorem checkItems_eq_nil_iff {item : Check} {v : Json} :
    checkItems item v = [] ↔ ∃ items, v = array items ∧ ∀ w ∈ items, item w = [] := by
  cases v <;> simp [checkItems]

theorem checkMembers_eq_nil_iff {member : Check} {v : Json} :
    checkMembers member v = [] ↔ ∃ members, v = object members ∧ ∀ m ∈ members, member m.2 = [] := by
  cases v <;> simp [checkMembers]

/-- Every member has a known name and passes the test of it. -/
def Passing (known : List (String × Check)) (members : List (String × Json)) : Prop :=
  ∀ m ∈ members, ∃ check, known.lookup m.1 = some check ∧ check m.2 = []

theorem checkClosed_eq_nil_iff {required : List String} {known : List (String × Check)} {v : Json} :
    checkClosed required known v = [] ↔ ∃ members, v = object members ∧
      (∀ name ∈ required, member? name members ≠ none) ∧ Passing known members := by
  constructor
  · intro h
    cases v with
    | object members =>
      simp only [checkClosed, List.append_eq_nil_iff] at h
      obtain ⟨⟨hmissing, htests⟩, hunexpected⟩ := h
      refine ⟨members, rfl, by simpa using hmissing, fun m hm => ?_⟩
      have htest := List.flatMap_eq_nil_iff.1 htests m hm
      cases hlookup : known.lookup m.1 with
      | some check => exact ⟨check, rfl, by simpa [hlookup] using htest⟩
      | none =>
        have hmem : m ∈ members.filter fun m => (known.lookup m.1).isNone :=
          List.mem_filter.2 ⟨hm, by simp [hlookup]⟩
        simp [List.ne_nil_of_mem hmem] at hunexpected
    | _ => simp [checkClosed] at h
  · rintro ⟨members, rfl, hrequired, hpassing⟩
    have hmissing : required.filter (fun n => (member? n members).isNone) = [] := by
      simpa using hrequired
    have hunexpected : members.filter (fun m => (known.lookup m.1).isNone) = [] := by
      rw [List.filter_eq_nil_iff]
      intro m hm
      obtain ⟨check, hlookup, -⟩ := hpassing m hm
      simp [hlookup]
    simp only [checkClosed, hmissing, hunexpected, List.map_nil, List.isEmpty_nil, if_true,
      List.append_nil, List.nil_append, List.flatMap_eq_nil_iff]
    intro m hm
    obtain ⟨check, hlookup, htest⟩ := hpassing m hm
    simpa [hlookup] using htest

/-! ## Decoding what passes a test -/

/-- Values that pass a test and repeat no name are decoded, and what is decoded is good. -/
def Decodes (check : Check) (read : Json → Option α) (Good : α → Prop) : Prop :=
  ∀ v : Json, v.Distinct → check v = [] → ∃ a, read v = some a ∧ Good a

theorem decodes_string : Decodes checkString string? fun _ => True := by
  rintro v - h
  cases v with
  | string s => exact ⟨s, rfl, trivial⟩
  | _ => cases h

/-- The test lets no null through, which would be decoded too. -/
theorem decodes_nullable : Decodes checkString (nullable? string?) fun _ => True := by
  rintro v - h
  cases v with
  | string s => exact ⟨some s, rfl, trivial⟩
  | _ => cases h

theorem decodes_filled : Decodes checkFilled string? (· ≠ "") := by
  rintro v - h
  cases v with
  | string s =>
    refine ⟨s, rfl, ?_⟩
    rintro rfl
    cases h
  | _ => cases h

theorem decodes_tag : Decodes checkTag string? fun s => ['#'] <+: s.toList := by
  rintro v - h
  cases v with
  | string s => exact ⟨s, rfl, by simpa [checkTag] using h⟩
  | _ => cases h

theorem decodes_bool : Decodes checkBool bool? fun _ => True := by
  rintro v - h
  cases v with
  | bool b => exact ⟨b, rfl, trivial⟩
  | _ => cases h

/-- All of a list is decoded if each of it is. -/
theorem exists_mapM_eq_some {f : α → Option β} {Good : β → Prop} {l : List α}
    (h : ∀ a ∈ l, ∃ b, f a = some b ∧ Good b) : ∃ bs, l.mapM f = some bs ∧ ∀ b ∈ bs, Good b := by
  induction l with
  | nil => exact ⟨[], rfl, List.forall_mem_nil _⟩
  | cons a l ih =>
    obtain ⟨b, hb, hgood⟩ := h a List.mem_cons_self
    obtain ⟨bs, hbs, hall⟩ := ih fun a ha => h a (List.mem_cons_of_mem _ ha)
    refine ⟨b :: bs, ?_, List.forall_mem_cons.2 ⟨hgood, hall⟩⟩
    rw [List.mapM_cons, hb, hbs]
    rfl

section Containers

variable {check : Check} {read : Json → Option β} {Good : β → Prop}

theorem Decodes.list (h : Decodes check read Good) :
    Decodes (checkItems check) (list? read) fun l => ∀ b ∈ l, Good b := by
  intro v hv hcheck
  obtain ⟨items, rfl, hitems⟩ := checkItems_eq_nil_iff.1 hcheck
  cases hv with
  | array hv => exact exists_mapM_eq_some fun w hw => h w (hv w hw) (hitems w hw)

/-- A map is decoded if its keys are and its members pass their test. -/
theorem Decodes.map [DecidableEq α] (h : Decodes check read Good) {key : String → Option α}
    {members : List (String × Json)} (hv : (object members).Distinct)
    (hkeys : ∀ m ∈ members, key m.1 ≠ none) (hcheck : ∀ m ∈ members, check m.2 = []) :
    ∃ m, map? key read (object members) = some m ∧ m.All Good := by
  cases hv with
  | object _ hv =>
    have hentries : ∀ m ∈ members, ∃ e : α × β,
        (do return (← key m.1, ← read m.2) : Option (α × β)) = some e ∧ Good e.2 := by
      intro m hm
      obtain ⟨k, hk⟩ := Option.ne_none_iff_exists'.1 (hkeys m hm)
      obtain ⟨b, hb, hgood⟩ := h m.2 (hv m hm) (hcheck m hm)
      exact ⟨(k, b), by rw [hk, hb]; rfl, hgood⟩
    obtain ⟨es, hes, hall⟩ := exists_mapM_eq_some hentries
    refine ⟨OrderedMap.ofList es, ?_, OrderedMap.All.ofList hall⟩
    show Option.map OrderedMap.ofList (members.mapM _) = _
    rw [hes]
    rfl

theorem Decodes.textMap (h : Decodes check read Good) :
    Decodes (checkMembers check) (textMap? read) (·.All Good) := by
  intro v hv hcheck
  obtain ⟨members, rfl, hmembers⟩ := checkMembers_eq_nil_iff.1 hcheck
  exact h.map hv (fun _ _ => Option.some_ne_none _) hmembers

end Containers

/-! ## Decoding structures -/

section Structures

variable {check : Check} {read : Json → Option α} {Good : α → Prop} {known : List (String × Check)}
  {members : List (String × Json)} {name : String}

theorem Passing.of_member? (h : Passing known members) (hknown : known.lookup name = some check) {v : Json}
    (hv : member? name members = some v) : (name, v) ∈ members ∧ check v = [] := by
  rw [member?_eq_find] at hv
  have hmem := OrderedMap.mem_of_find hv
  obtain ⟨check', hlookup, htest⟩ := h _ hmem
  cases hknown.symm.trans hlookup
  exact ⟨hmem, htest⟩

theorem Decodes.optional (h : Decodes check read Good) (name : String) (hv : ∀ m ∈ members, m.2.Distinct)
    (hpassing : Passing known members) (hknown : known.lookup name = some check) (missing : α)
    (hmissing : Good missing) : ∃ a, optional members name read missing = some a ∧ Good a := by
  unfold Json.optional
  cases hmember : member? name members with
  | none => exact ⟨missing, rfl, hmissing⟩
  | some v =>
    obtain ⟨hmem, htest⟩ := hpassing.of_member? hknown hmember
    exact h v (hv _ hmem) htest

theorem Decodes.needed (h : Decodes check read Good) (name : String) (hv : ∀ m ∈ members, m.2.Distinct)
    (hpassing : Passing known members) (hknown : known.lookup name = some check)
    (hthere : member? name members ≠ none) : ∃ a, needed members name read = some a ∧ Good a := by
  obtain ⟨v, hmember⟩ := Option.ne_none_iff_exists'.1 hthere
  obtain ⟨hmem, htest⟩ := hpassing.of_member? hknown hmember
  unfold Json.needed
  rw [hmember]
  exact h v (hv _ hmem) htest

end Structures

/-- A value that passes the test of a structure has members that pass theirs. -/
theorem exists_fields?_of_checkClosed {required : List String} {known : List (String × Check)} {v : Json}
    (hv : v.Distinct) (h : checkClosed required known v = []) (names : List String) :
    ∃ members, fields? names v = some members ∧ (∀ m ∈ members, m.2.Distinct) ∧
      (∀ name ∈ required, member? name members ≠ none) ∧ Passing known members := by
  obtain ⟨members, rfl, hrequired, hpassing⟩ := checkClosed_eq_nil_iff.1 h
  cases hv with
  | object hnames hv => exact ⟨members, fields?_object names hnames, hv, hrequired, hpassing⟩

end Json

/-! ## Decoding directives -/

open Json

theorem FieldValue.decodes : Decodes checkFieldValue ofJson? fun _ => True := by
  intro v hv h
  unfold checkFieldValue at h
  split at h
  · rename_i hshape
    rcases hshape with hshape | hshape
    · obtain ⟨s, hs, -⟩ := decodes_string v hv (List.isEmpty_iff.1 hshape)
      cases v with
      | string s => exact ⟨.scalar s, rfl, trivial⟩
      | _ => cases hs
    · obtain ⟨l, hl, -⟩ := decodes_string.list v hv (List.isEmpty_iff.1 hshape)
      cases v with
      | array items => exact ⟨.list l, congrArg (Option.map list) hl, trivial⟩
      | _ => cases hl
  · cases h

theorem Edits.decodes : Decodes checkEdits ofJson? WellFormed := by
  intro v hv h
  obtain ⟨members, hfields, hd, -, hp⟩ := exists_fields?_of_checkClosed hv h memberNames
  have values (name : String) (hknown : List.lookup name _ = some (checkMembers checkFieldValue)) :=
    FieldValue.decodes.textMap.optional name hd hp hknown .empty .empty
  obtain ⟨assign, hassign, -⟩ := values "assign" rfl
  obtain ⟨append, happend, -⟩ := values "append" rfl
  obtain ⟨prepend, hprepend, -⟩ := values "prepend" rfl
  obtain ⟨regex, hregex, -⟩ := decodes_string.list.textMap.optional "regex" hd hp rfl .empty .empty
  obtain ⟨delete, hdelete, -⟩ := decodes_string.list.optional "delete" hd hp rfl [] (List.forall_mem_nil _)
  obtain ⟨rename, hrename, hgood⟩ := decodes_filled.textMap.optional "rename" hd hp rfl .empty .empty
  obtain ⟨required, hrequired, -⟩ := decodes_bool.optional "required" hd hp rfl false trivial
  refine ⟨⟨assign, append, prepend, regex, delete, rename, required⟩, ?_, hgood⟩
  simp [ofJson?, strings?, hfields, hassign, happend, hprepend, hregex, hdelete, hrename, hrequired]

theorem FieldDirectives.decodes :
    Decodes checkField (map? Comparison.ofName? (textMap? Edits.ofJson?)) WellFormed := by
  intro v hv h
  cases v with
  | object members =>
    simp only [checkField, List.append_eq_nil_iff, List.map_eq_nil_iff, List.filter_eq_nil_iff,
      List.flatMap_eq_nil_iff] at h
    exact Edits.decodes.textMap.map hv (by simpa using h.1) h.2
  | _ => cases h

theorem ConversionDirectives.decodes :
    Decodes (checkMembers (checkMembers checkField)) ofJson? WellFormed :=
  FieldDirectives.decodes.textMap.textMap

theorem HeaderDescription.decodes : Decodes checkDescription ofJson? WellFormed := by
  intro v hv h
  obtain ⟨members, hfields, hd, hthere, hp⟩ :=
    exists_fields?_of_checkClosed hv h ["header", "tag", "required"]
  obtain ⟨header, hheader, hfilled⟩ := decodes_filled.needed "header" hd hp rfl (hthere _ (by simp))
  obtain ⟨tag, htag, hmark⟩ := decodes_tag.needed "tag" hd hp rfl (hthere _ (by simp))
  obtain ⟨required, hrequired, -⟩ := decodes_bool.optional "required" hd hp rfl false trivial
  refine ⟨⟨header, tag, required⟩, ?_, ⟨hfilled, hmark⟩⟩
  simp [ofJson?, hfields, hheader, htag, hrequired]

theorem TaggingGroup.decodes : Decodes checkTaggingGroup ofJson? WellFormed := by
  intro v hv h
  obtain ⟨members, hfields, hd, -, hp⟩ := exists_fields?_of_checkClosed hv h memberNames
  obtain ⟨descriptions, hdescriptions, hgood⟩ :=
    HeaderDescription.decodes.list.optional "header_tag_descriptions" hd hp rfl [] (List.forall_mem_nil _)
  obtain ⟨exclusion, hexclusion, -⟩ := decodes_nullable.optional "exclusion_test" hd hp rfl none trivial
  obtain ⟨insert, hinsert, -⟩ := decodes_string.list.list.optional "insert" hd hp rfl [] (List.forall_mem_nil _)
  obtain ⟨multiple, hmultiple, -⟩ := decodes_bool.optional "insert_multiple" hd hp rfl false trivial
  refine ⟨⟨descriptions, exclusion, insert, multiple⟩, ?_, hgood⟩
  simp [ofJson?, strings?, hfields, hdescriptions, hexclusion, hinsert, hmultiple]

theorem Directives.decodes : Decodes violations ofJson? WellFormed := by
  intro v hv h
  obtain ⟨members, hfields, hd, -, hp⟩ := exists_fields?_of_checkClosed hv h ["conversion", "tagging"]
  obtain ⟨conversion, hconversion, hwell⟩ :=
    ConversionDirectives.decodes.optional "conversion" hd hp rfl .empty .empty
  obtain ⟨tagging, htagging, hgroups⟩ := TaggingGroup.decodes.list.optional "tagging" hd hp rfl [] (List.forall_mem_nil _)
  refine ⟨⟨conversion, tagging⟩, ?_, ⟨hwell, hgroups⟩⟩
  simp [ofJson?, hfields, hconversion, htagging]

namespace Directives

/-- What has the form of a document is read as the directives it is decoded into. -/
theorem exists_ofValue_eq_ok {v : Json} (hv : v.Distinct) (h : violations v = []) :
    ∃ d, ofJson? v = some d ∧ ofValue v = .ok d ∧ d.WellFormed := by
  obtain ⟨d, hd, hwell⟩ := decodes v hv h
  refine ⟨d, hd, ?_, hwell⟩
  unfold ofValue
  rw [h, hd]

theorem ofValue_ne_json {v : Json} (hv : v.Distinct) : ofValue v ≠ .error .json := by
  cases h : violations v with
  | nil =>
    obtain ⟨d, -, hd, -⟩ := exists_ofValue_eq_ok hv h
    simp [hd]
  | cons violation rest => simp [ofValue, h]

/--
For every value in which no object repeats a name: if it has the form of a document, it is decoded into
directives, so the failure of decoding after the test of the form is never met.
-/
theorem decoded_of_violations_eq_nil {v : Json} (hv : v.Distinct) :
    (violations v = [] → ∃ d, ofJson? v = some d ∧ ofValue v = .ok d) ∧ ofValue v ≠ .error .json := by
  refine ⟨fun h => ?_, ofValue_ne_json hv⟩
  obtain ⟨d, hd, hvalue, -⟩ := exists_ofValue_eq_ok hv h
  exact ⟨d, hd, hvalue⟩

theorem decoded_of_violations_eq_nil_two_members :
    let v : Json := .object [
      ("conversion", .object [("sample", .object [("name", .object [("regex-unique", .object [
        ("^a", .object [
          ("assign", .object [("id", .string "A"), ("tags", .array [.string "x", .string "y"])]),
          ("rename", .object [("old", .string "new")]),
          ("required", .bool true)])])])])]),
      ("tagging", .array [.object [
        ("header_tag_descriptions", .array [
          .object [("tag", .string "#sample.id"), ("header", .string "Name")]]),
        ("insert", .array [.array [.string "#tags", .string ""]]),
        ("exclusion_test", .string "")]])]
    v.Distinct ∧ violations v = [] ∧ (∃ d, ofJson? v = some d ∧ ofValue v = .ok d) ∧
      ofValue v ≠ .error .json := by
  intro v
  have hv : v.Distinct := distinct_iff.2 rfl
  have h : violations v = [] := by decide +kernel
  obtain ⟨hdecoded, hjson⟩ := decoded_of_violations_eq_nil hv
  exact ⟨hv, h, hdecoded h, hjson⟩

end Directives
end TagHarvest
