/-
Directives are written as JSON without loss. A structure is written as those of its members that are not
left out; a member that is left out is the one that reading supplies, so every structure comes back.
-/
import TagHarvest.Directive.Codec
import TagHarvest.Proofs.Record.Document

namespace TagHarvest

namespace Json

variable {α : Type}

/-! ## Members of structures -/

theorem member?_eq_find (name : String) (members : List (String × Json)) :
    member? name members = OrderedMap.find name members := by
  induction members with
  | nil => rfl
  | cons m members ih => rw [member?, OrderedMap.find, ih]

/-- An object that repeats no name is read as a structure. -/
theorem fields?_object (names : List String) {members : List (String × Json)}
    (h : (members.map Prod.fst).Nodup) : fields? names (object members) = some members := by
  have hcount : ∀ name : String, (members.filter fun m => m.1 == name).length ≤ 1 := by
    intro name
    have hlength := List.nodup_iff_count_le_one.1 h name
    rwa [List.count, List.countP_map, List.countP_eq_length_filter] at hlength
  unfold fields?
  exact if_pos (List.all_eq_true.2 fun name _ => by simpa using hcount name)

/-- A place for a member of a structure: whether it is left out, its name and its value. -/
structure Slot where
  leftOut : Bool
  name : String
  value : Json

/-- The members that are not left out. -/
def written (slots : List Slot) : List (String × Json) :=
  slots.flatMap fun s => memberUnless s.leftOut s.name s.value

theorem mem_written {slots : List Slot} {m : String × Json} :
    m ∈ written slots ↔ ∃ s ∈ slots, s.leftOut = false ∧ (s.name, s.value) = m := by
  simp only [written, List.mem_flatMap]
  refine exists_congr fun s => and_congr_right fun _ => ?_
  cases hs : s.leftOut <;> simp [memberUnless, eq_comm]

theorem names_written_sublist (slots : List Slot) :
    ((written slots).map Prod.fst).Sublist (slots.map Slot.name) := by
  induction slots with
  | nil => exact .slnil
  | cons s slots ih =>
    have hcons : written (s :: slots) = memberUnless s.leftOut s.name s.value ++ written slots := rfl
    rw [hcons]
    cases hs : s.leftOut with
    | false => exact ih.cons_cons s.name
    | true => exact ih.cons s.name

section Written

variable {slots : List Slot}

theorem forall_written {P : Json → Prop} (h : ∀ s ∈ slots, P s.value) : ∀ m ∈ written slots, P m.2 := by
  intro m hm
  obtain ⟨s, hs, -, rfl⟩ := mem_written.1 hm
  exact h s hs

theorem fields?_written (hnames : (slots.map Slot.name).Nodup) (names : List String) :
    fields? names (object (written slots)) = some (written slots) :=
  fields?_object names (hnames.sublist (names_written_sublist slots))

theorem member?_written (hnames : (slots.map Slot.name).Nodup) {s : Slot} (hs : s ∈ slots) :
    member? s.name (written slots) = if s.leftOut then none else some s.value := by
  rw [member?_eq_find]
  split
  · rename_i hout
    rw [OrderedMap.find_eq_none_iff]
    intro hmem
    obtain ⟨m, hm, hname⟩ := List.mem_map.1 hmem
    obtain ⟨g, hg, hgout, rfl⟩ := mem_written.1 hm
    cases List.inj_on_of_nodup_map hnames hg hs hname
    exact absurd hout (by simp [hgout])
  · rename_i hout
    refine OrderedMap.find_of_mem (hnames.sublist (names_written_sublist slots)) ?_
    exact mem_written.2 ⟨s, hs, by simpa using hout, rfl⟩

/-- A member is read back from a structure, or supplied if it was left out. -/
theorem optional_written (hnames : (slots.map Slot.name).Nodup) {s : Slot} (hs : s ∈ slots)
    {read : Json → Option α} {missing a : α} (hread : s.leftOut = false → read s.value = some a)
    (hmissing : s.leftOut = true → a = missing) : optional (written slots) s.name read missing = some a := by
  unfold optional
  rw [member?_written hnames hs]
  cases hout : s.leftOut with
  | false => exact hread hout
  | true => exact congrArg some (hmissing hout).symm

theorem optional_textMap (hnames : (slots.map Slot.name).Nodup) {write : α → Json} {read : Json → Option α}
    {depth : Nat} (h : Lossless write read depth) (name : String) (m : OrderedMap String α)
    (hm : ⟨m.isEmpty, name, ofTextMap write m⟩ ∈ slots) :
    optional (written slots) name (textMap? read) .empty = some m :=
  optional_written hnames hm (fun _ => h.textMap.read_write m) fun hempty =>
    OrderedMap.ext (List.isEmpty_iff.1 hempty)

theorem optional_list (hnames : (slots.map Slot.name).Nodup) {write : α → Json} {read : Json → Option α}
    {depth : Nat} (h : Lossless write read depth) (name : String) (l : List α)
    (hl : ⟨l.isEmpty, name, array (l.map write)⟩ ∈ slots) :
    optional (written slots) name (list? read) [] = some l :=
  optional_written hnames hl (fun _ => h.list.read_write l) List.isEmpty_iff.1

theorem optional_flag (hnames : (slots.map Slot.name).Nodup) (name : String) (b : Bool)
    (hb : ⟨!b, name, bool b⟩ ∈ slots) : optional (written slots) name bool? false = some b :=
  optional_written hnames hb (fun _ => rfl) (by simp)

end Written

/-- An empty container, or a flag that is off. -/
def isVacant : Json → Bool
  | array items => items.isEmpty
  | object members => members.isEmpty
  | bool b => !b
  | _ => false

@[simp] theorem isVacant_array (items : List Json) : (array items).isVacant = items.isEmpty := rfl

@[simp] theorem isVacant_bool (b : Bool) : (bool b).isVacant = !b := rfl

@[simp] theorem isVacant_string (s : String) : (string s).isVacant = false := rfl

@[simp] theorem isVacant_ofTextMap (write : α → Json) (m : OrderedMap String α) :
    (ofTextMap write m).isVacant = m.isEmpty :=
  List.isEmpty_map

/-- An object with no vacant member. -/
def Sparse : Json → Prop
  | object members => ∀ m ∈ members, m.2.isVacant = false
  | _ => False

theorem sparse_written {slots : List Slot} (h : ∀ s ∈ slots, s.value.isVacant = true → s.leftOut = true) :
    (object (written slots)).Sparse := by
  intro m hm
  obtain ⟨s, hs, hout, rfl⟩ := mem_written.1 hm
  by_contra hvacant
  exact absurd (h s hs (by simpa using hvacant)) (by simp [hout])

/-- A structure is written without loss if it is read back and each of its members is written so. -/
theorem lossless_written {write : α → Json} {read : Json → Option α} {slots : α → List Slot} {depth : Nat}
    (hwrite : ∀ a, write a = object (written (slots a))) (hnames : ∀ a, ((slots a).map Slot.name).Nodup)
    (hread : ∀ a, read (write a) = some a)
    (hslots : ∀ a, ∀ s ∈ slots a, s.value.Distinct ∧ Fits depth s.value) : Lossless write read (depth + 1) where
  read_write := hread
  distinct a := by
    rw [hwrite]
    exact .object ((hnames a).sublist (names_written_sublist _)) (forall_written fun s hs => (hslots a s hs).1)
  fits a := by
    rw [hwrite]
    exact .object (forall_written fun s hs => (hslots a s hs).2)

end Json

/-! ## Directives -/

open Json

namespace Comparison

theorem ofName?_name (c : Comparison) : ofName? c.name = some c := by
  rcases c with ⟨kind, unique⟩
  cases kind <;> cases unique <;> rfl

end Comparison

namespace Edits

def slots (e : Edits) : List Slot := [
  ⟨e.assign.isEmpty, "assign", ofTextMap FieldValue.toJson e.assign⟩,
  ⟨e.append.isEmpty, "append", ofTextMap FieldValue.toJson e.append⟩,
  ⟨e.prepend.isEmpty, "prepend", ofTextMap FieldValue.toJson e.prepend⟩,
  ⟨e.regex.isEmpty, "regex", ofTextMap ofStrings e.regex⟩,
  ⟨e.delete.isEmpty, "delete", ofStrings e.delete⟩,
  ⟨e.rename.isEmpty, "rename", ofTextMap string e.rename⟩,
  ⟨!e.required, "required", bool e.required⟩]

theorem toJson_eq (e : Edits) : e.toJson = object (written e.slots) := by
  simp [toJson, written, slots]

theorem sparse_toJson (e : Edits) : e.toJson.Sparse := by
  rw [toJson_eq]
  apply sparse_written
  simp [slots, ofStrings]

theorem nodup_names (e : Edits) : (e.slots.map Slot.name).Nodup := by
  show memberNames.Nodup
  decide

theorem lossless (depth : Nat) : Lossless toJson ofJson? (depth + 3) := by
  have hvalue := FieldValue.lossless depth
  have hregex := lossless_strings depth
  have htext := lossless_string (depth + 1)
  refine lossless_written toJson_eq nodup_names (fun e => ?_) fun e => ?_
  · have hn := e.nodup_names
    have hassign := optional_textMap hn hvalue "assign" e.assign (by simp [slots])
    have happend := optional_textMap hn hvalue "append" e.append (by simp [slots])
    have hprepend := optional_textMap hn hvalue "prepend" e.prepend (by simp [slots])
    have hregex := optional_textMap hn hregex "regex" e.regex (by simp [slots])
    have hdelete : Json.optional (written e.slots) "delete" strings? [] = some e.delete :=
      optional_list hn htext "delete" e.delete (by simp [slots, ofStrings])
    have hrename := optional_textMap hn htext "rename" e.rename (by simp [slots])
    have hrequired := optional_flag hn "required" e.required (by simp [slots])
    simp [ofJson?, toJson_eq, fields?_written hn, hassign, happend, hprepend, hregex, hdelete, hrename,
      hrequired]
  · simp only [slots, List.forall_mem_cons]
    exact ⟨hvalue.textMap.sound _, hvalue.textMap.sound _, hvalue.textMap.sound _, hregex.textMap.sound _,
      htext.list.sound _, htext.textMap.sound _, (lossless_bool _).sound _, List.forall_mem_nil _⟩

end Edits

theorem TableDirectives.lossless (depth : Nat) :
    Lossless (ofTextMap (ofMap Comparison.name (ofTextMap Edits.toJson)))
      (textMap? (map? Comparison.ofName? (textMap? Edits.ofJson?))) (depth + 6) :=
  ((Edits.lossless depth).textMap.map Comparison.ofName?_name).textMap

theorem HeaderDescription.lossless (depth : Nat) : Lossless toJson ofJson? (depth + 1) where
  read_write d := by
    simp [ofJson?, toJson, fields?, needed, Json.optional, member?, string?, bool?]
  distinct d := by
    refine .object (by simp) ?_
    simp only [List.forall_mem_cons]
    exact ⟨.string _, .string _, .bool _, List.forall_mem_nil _⟩
  fits d := by
    refine .object ?_
    simp only [List.forall_mem_cons]
    exact ⟨.string _, .string _, .bool _, List.forall_mem_nil _⟩

namespace TaggingGroup

def slots (g : TaggingGroup) : List Slot := [
  ⟨g.descriptions.isEmpty, "header_tag_descriptions", array (g.descriptions.map HeaderDescription.toJson)⟩,
  ⟨g.exclusion.isNone, "exclusion_test", string (g.exclusion.getD "")⟩,
  ⟨g.insert.isEmpty, "insert", array (g.insert.map ofStrings)⟩,
  ⟨!g.insertMultiple, "insert_multiple", bool g.insertMultiple⟩]

theorem toJson_eq (g : TaggingGroup) : g.toJson = object (written g.slots) := by
  simp [toJson, written, slots]

theorem sparse_toJson (g : TaggingGroup) : g.toJson.Sparse := by
  rw [toJson_eq]
  apply sparse_written
  simp [slots]

theorem nodup_names (g : TaggingGroup) : (g.slots.map Slot.name).Nodup := by
  show memberNames.Nodup
  decide

theorem lossless (depth : Nat) : Lossless toJson ofJson? (depth + 3) := by
  have hdescription := HeaderDescription.lossless depth
  have hstrings := lossless_strings depth
  refine lossless_written toJson_eq nodup_names (fun g => ?_) fun g => ?_
  · have hn := g.nodup_names
    have hdescriptions := optional_list hn hdescription "header_tag_descriptions" g.descriptions
      (by simp [slots])
    have hinsert := optional_list hn hstrings "insert" g.insert (by simp [slots])
    have hmultiple := optional_flag hn "insert_multiple" g.insertMultiple (by simp [slots])
    have hs : ⟨g.exclusion.isNone, "exclusion_test", string (g.exclusion.getD "")⟩ ∈ g.slots := by
      simp [slots]
    have hexclusion : Json.optional (written g.slots) "exclusion_test" (nullable? string?) none =
        some g.exclusion := by
      apply optional_written hn hs
      · intro h
        obtain ⟨s, h⟩ := Option.isSome_iff_exists.1 (by simpa using h)
        simp [h, nullable?, string?]
      · exact Option.isNone_iff_eq_none.1
    simp [ofJson?, toJson_eq, fields?_written hn, hdescriptions, hexclusion, hinsert, hmultiple]
  · simp only [slots, List.forall_mem_cons]
    exact ⟨hdescription.list.sound _, (lossless_string _).sound _, hstrings.list.sound _,
      (lossless_bool _).sound _, List.forall_mem_nil _⟩

end TaggingGroup

namespace Directives

def slots (d : Directives) : List Slot := [
  ⟨d.conversion.isEmpty, "conversion", ConversionDirectives.toJson d.conversion⟩,
  ⟨d.tagging.isEmpty, "tagging", array (d.tagging.map TaggingGroup.toJson)⟩]

theorem toJson_eq (d : Directives) : d.toJson = object (written d.slots) := by
  simp [toJson, written, slots]

theorem sparse_toJson (d : Directives) : d.toJson.Sparse := by
  rw [toJson_eq]
  apply sparse_written
  simp [slots, ConversionDirectives.toJson]

theorem nodup_names (d : Directives) : (d.slots.map Slot.name).Nodup := by
  show ["conversion", "tagging"].Nodup
  decide

theorem lossless (depth : Nat) : Lossless toJson ofJson? (depth + 8) := by
  have htable := TableDirectives.lossless depth
  have hgroup := TaggingGroup.lossless (depth + 3)
  refine lossless_written toJson_eq nodup_names (fun d => ?_) fun d => ?_
  · have hn := d.nodup_names
    have hconversion :
        Json.optional (written d.slots) "conversion" ConversionDirectives.ofJson? .empty = some d.conversion :=
      optional_textMap hn htable "conversion" d.conversion (.head _)
    have htagging := optional_list hn hgroup "tagging" d.tagging (by simp [slots])
    simp [ofJson?, toJson_eq, fields?_written hn, hconversion, htagging]
  · simp only [slots, List.forall_mem_cons]
    exact ⟨htable.textMap.sound _, hgroup.list.sound _, List.forall_mem_nil _⟩

end Directives

end TagHarvest
