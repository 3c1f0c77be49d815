/-
Documents of directives are read back. Whatever a text, a worksheet or the folding of documents gives is
well-formed; the document of well-formed directives has the form of a document, and reading it gives the same
directives with all entries in their order.
-/
import TagHarvest.Directive.Worksheet
import TagHarvest.Proofs.Directive.Form
import TagHarvest.Proofs.Effects

namespace TagHarvest

open Json

/-! ## Written directives have the form of a document -/

namespace Json

variable {α β : Type} {check : Check} {write : β → Json}

theorem checkItems_map {l : List β} (h : ∀ b ∈ l, check (write b) = []) :
    checkItems check (array (l.map write)) = [] :=
  checkItems_eq_nil_iff.2 ⟨_, rfl, List.forall_mem_map.2 h⟩

theorem checkMembers_ofTextMap {m : OrderedMap String β} (h : m.All fun b => check (write b) = []) :
    checkMembers check (ofTextMap write m) = [] :=
  checkMembers_eq_nil_iff.2 ⟨_, rfl, List.forall_mem_map.2 h⟩

/-- Written members pass, if the values in all slots do. -/
theorem passing_written {known : List (String × Check)} {slots : List Slot}
    (h : ∀ s ∈ slots, ∃ check, known.lookup s.name = some check ∧ check s.value = []) :
    Passing known (written slots) := by
  intro m hm
  obtain ⟨s, hs, -, rfl⟩ := mem_written.1 hm
  exact h s hs

end Json

theorem FieldValue.check_toJson (v : FieldValue) : checkFieldValue v.toJson = [] := by
  cases v with
  | scalar s => rfl
  | list l =>
    have hitems : checkItems checkString (array (l.map string)) = [] := checkItems_map fun _ _ => rfl
    simp [checkFieldValue, toJson, ofStrings, hitems]

theorem Edits.check_toJson {e : Edits} (h : e.WellFormed) : checkEdits e.toJson = [] := by
  have hvalues (m : OrderedMap String FieldValue) :
      checkMembers checkFieldValue (ofTextMap FieldValue.toJson m) = [] :=
    checkMembers_ofTextMap fun f _ => f.2.check_toJson
  have hstrings (l : List String) : checkItems checkString (ofStrings l) = [] :=
    checkItems_map fun _ _ => rfl
  have hrename : checkMembers checkFilled (ofTextMap string e.rename) = [] := by
    refine checkMembers_ofTextMap fun f hf => ?_
    simpa [checkFilled] using h f hf
  refine checkClosed_eq_nil_iff.2 ⟨_, e.toJson_eq, List.forall_mem_nil _, passing_written ?_⟩
  simp only [slots, List.forall_mem_cons]
  exact ⟨⟨_, rfl, hvalues _⟩, ⟨_, rfl, hvalues _⟩, ⟨_, rfl, hvalues _⟩,
    ⟨_, rfl, checkMembers_ofTextMap fun f _ => hstrings f.2⟩, ⟨_, rfl, hstrings _⟩, ⟨_, rfl, hrename⟩,
    ⟨_, rfl, rfl⟩, List.forall_mem_nil _⟩

theorem FieldDirectives.check_toJson {f : FieldDirectives} (h : f.WellFormed) :
    checkField (ofMap Comparison.name (ofTextMap Edits.toJson) f) = [] := by
  simp only [ofMap, checkField, List.append_eq_nil_iff, List.map_eq_nil_iff, List.filter_eq_nil_iff,
    List.flatMap_eq_nil_iff, List.forall_mem_map]
  constructor
  · intro e _
    simp [Comparison.ofName?_name]
  · intro e he
    exact checkMembers_ofTextMap fun k hk => Edits.check_toJson (h e he k hk)

theorem HeaderDescription.check_toJson {d : HeaderDescription} (h : d.WellFormed) :
    checkDescription d.toJson = [] := by
  refine checkClosed_eq_nil_iff.2 ⟨_, rfl, by simp [member?], ?_⟩
  simp only [Passing, List.forall_mem_cons]
  refine ⟨⟨_, rfl, ?_⟩, ⟨_, rfl, ?_⟩, ⟨_, rfl, rfl⟩, List.forall_mem_nil _⟩
  · simpa [checkFilled] using h.header
  · simpa [checkTag] using h.tag

theorem TaggingGroup.check_toJson {g : TaggingGroup} (h : g.WellFormed) : checkTaggingGroup g.toJson = [] := by
  refine checkClosed_eq_nil_iff.2 ⟨_, g.toJson_eq, List.forall_mem_nil _, passing_written ?_⟩
  simp only [slots, List.forall_mem_cons]
  exact ⟨⟨_, rfl, checkItems_map fun d hd => HeaderDescription.check_toJson (h d hd)⟩, ⟨_, rfl, rfl⟩,
    ⟨_, rfl, checkItems_map fun _ _ => checkItems_map fun _ _ => rfl⟩, ⟨_, rfl, rfl⟩, List.forall_mem_nil _⟩

theorem Directives.violations_toJson {d : Directives} (h : d.WellFormed) : violations d.toJson = [] := by
  refine checkClosed_eq_nil_iff.2 ⟨_, d.toJson_eq, List.forall_mem_nil _, passing_written ?_⟩
  simp only [slots, List.forall_mem_cons]
  refine ⟨⟨_, rfl, ?_⟩, ⟨_, rfl, ?_⟩, List.forall_mem_nil _⟩
  · refine checkMembers_ofTextMap fun t ht => checkMembers_ofTextMap fun f hf => ?_
    exact FieldDirectives.check_toJson (h.conversion t ht f hf)
  · exact checkItems_map fun g hg => TaggingGroup.check_toJson (h.tagging g hg)

/-! ## Folding documents -/

theorem KeyedEdits.WellFormed.insertAll {k l : KeyedEdits} (hk : k.WellFormed) (hl : l.WellFormed) :
    KeyedEdits.WellFormed (k.insertAll l.entries) :=
  OrderedMap.All.insertAll hk hl

theorem FieldDirectives.WellFormed.extend {f g : FieldDirectives} (hf : f.WellFormed) (hg : g.WellFormed) :
    (f.extend g).WellFormed :=
  OrderedMap.All.join (fun k l : KeyedEdits => k.insertAll l.entries) .empty
    (fun _ _ hk hl => hk.insertAll hl) hf hg

theorem TableDirectives.WellFormed.extend {t u : TableDirectives} (ht : t.WellFormed) (hu : u.WellFormed) :
    (t.extend u).WellFormed :=
  OrderedMap.All.join FieldDirectives.extend .empty (fun _ _ hf hg => hf.extend hg) ht hu

theorem ConversionDirectives.WellFormed.extend {c d : ConversionDirectives} (hc : c.WellFormed)
    (hd : d.WellFormed) : (c.extend d).WellFormed :=
  OrderedMap.All.join TableDirectives.extend .empty (fun _ _ ht hu => ht.extend hu) hc hd

theorem Directives.WellFormed.extend {d e : Directives} (hd : d.WellFormed) (he : e.WellFormed) :
    (d.extend e).WellFormed where
  conversion := hd.conversion.extend he.conversion
  tagging g hg := by
    rcases List.mem_append.1 hg with hg | hg
    · exact hd.tagging g hg
    · exact he.tagging g hg

/-! ## Worksheets of directives -/

theorem ConversionDirectives.WellFormed.put {d : ConversionDirectives} (hd : d.WellFormed) {e : Edits}
    (he : e.WellFormed) (table field : String) (c : Comparison) (key : String) :
    (d.put table field c key e).WellFormed :=
  OrderedMap.All.alter hd table fun _ ht =>
    OrderedMap.All.alter (OrderedMap.getD_of_forall .empty ht) field fun _ hf =>
      OrderedMap.All.alter (OrderedMap.getD_of_forall .empty hf) c fun _ hk =>
        OrderedMap.All.insert (OrderedMap.getD_of_forall .empty hk) key he

/-- A cell that is not empty keeps all new names filled. -/
theorem Edits.WellFormed.addCell {e e' : Edits} (he : e.WellFormed) {op : Operation} {target cell : String}
    {here : Location} (hcell : cell ≠ "") (h : e.addCell op target cell here = .ok e') : e'.WellFormed := by
  unfold Edits.addCell at h
  cases op with
  | assign | append | prepend =>
    cases h
    exact he
  | regex =>
    obtain ⟨pair, -, h⟩ := except_bind_eq_ok h
    cases h
    exact he
  | delete =>
    obtain rfl := Except.ok.inj h
    split
    · exact he
    · exact he
  | rename =>
    cases h
    exact OrderedMap.All.insert he target hcell

namespace BlockHeader

variable {h : BlockHeader} {place : Nat → Location} {row : Row}

theorem wellFormed_of_editsOf {e : Edits} (he : h.editsOf place row = .ok e) : e.WellFormed := by
  refine foldlM_keeps (fun e c e' hwell hstep => ?_) ?_ he
  · dsimp only at hstep
    split at hstep
    · cases hstep
      exact hwell
    · rename_i hcell
      exact hwell.addCell (by simpa using hcell) hstep
  · exact OrderedMap.All.empty

theorem wellFormed_of_addRow {d d' : ConversionDirectives} (hd : d.WellFormed)
    (hrow : h.addRow place row d = .ok d') : d'.WellFormed := by
  unfold addRow at hrow
  dsimp only at hrow
  split at hrow
  · cases hrow
    exact hd
  · obtain ⟨c, -, hrow⟩ := except_bind_eq_ok hrow
    obtain ⟨e, he, hrow⟩ := except_bind_eq_ok hrow
    cases hrow
    exact hd.put (wellFormed_of_editsOf he) _ _ _ _

end BlockHeader

/-- The rows of a worksheet leave directives well-formed, whatever header is in force. -/
theorem ConversionDirectives.wellFormed_of_ofRows {sheet : Worksheet} {index : Nat} {rows : List Row}
    {header : Option BlockHeader} {d d' : ConversionDirectives} (hd : d.WellFormed)
    (h : ofRows sheet index rows header d = .ok d') : d'.WellFormed := by
  induction rows generalizing index header d with
  | nil =>
    cases h
    exact hd
  | cons row rows ih =>
    unfold ofRows at h
    split_ifs at h with htags hignore hblank
    · split at h
      · exact ih hd h
      · cases h
    · exact ih hd h
    · exact ih hd h
    · split at h
      · exact ih hd h
      · obtain ⟨d₁, hrow, h⟩ := except_bind_eq_ok h
        exact ih (BlockHeader.wellFormed_of_addRow hd hrow) h

theorem ConversionDirectives.wellFormed_of_ofWorksheet {sheet : Worksheet} {d : ConversionDirectives}
    (h : ofWorksheet sheet = .ok d) : d.WellFormed :=
  wellFormed_of_ofRows .empty h

/-! ## Documents -/

namespace Directives

/-- Directives of a text, of a worksheet, or folded together from such ones. -/
inductive Obtained : Directives → Prop
  | text {text : String} {d : Directives} (h : ofText text = .ok d) : Obtained d
  | worksheet {sheet : Worksheet} {conversion : ConversionDirectives}
    (h : ConversionDirectives.ofWorksheet sheet = .ok conversion) : Obtained { conversion }
  | empty : Obtained {}
  | extend {d e : Directives} (hd : Obtained d) (he : Obtained e) : Obtained (d.extend e)

theorem wellFormed_of_ofText {text : String} {d : Directives} (h : ofText text = .ok d) : d.WellFormed := by
  unfold ofText at h
  cases hread : read? text with
  | none => simp [hread] at h
  | some v =>
    simp only [hread] at h
    cases hv : violations v.merged with
    | nil =>
      obtain ⟨d', -, hd', hwell⟩ := exists_ofValue_eq_ok (distinct_merged v) hv
      cases hd'.symm.trans h
      exact hwell
    | cons violation rest => simp [ofValue, hv] at h

theorem Obtained.wellFormed {d : Directives} (h : d.Obtained) : d.WellFormed := by
  induction h with
  | text h => exact wellFormed_of_ofText h
  | worksheet h => exact ⟨ConversionDirectives.wellFormed_of_ofWorksheet h, List.forall_mem_nil _⟩
  | empty => exact ⟨.empty, List.forall_mem_nil _⟩
  | extend _ _ hd he => exact hd.extend he

/-- Well-formed directives are those of every text that writes them. -/
theorem WellFormed.ofText_eq_ok {d : Directives} (h : d.WellFormed) {text : String}
    (htext : read? text = some d.toJson) : ofText text = .ok d := by
  unfold ofText ofValue
  rw [htext]
  simp only [((lossless 0).distinct d).merged_eq, violations_toJson h, (lossless 0).read_write]

/-- No structure is written with an empty or false member, but for the flags of header descriptions. -/
def Terse (d : Directives) : Prop :=
  d.toJson.Sparse ∧ (∀ g ∈ d.tagging, g.toJson.Sparse) ∧
    d.conversion.All (·.All (·.All (·.All (·.toJson.Sparse))))

/--
Directives of a text or a worksheet, or folded together from such ones in any order: their document, which
leaves out what is empty or false, has the form of one, and it is read as the same directives, with the
entries of all maps in their order; so is their pretty text.
-/
theorem Obtained.ofText_document {d : Directives} (h : d.Obtained) :
    d.Terse ∧ (∃ v, read? d.document = some v ∧ violations v.merged = []) ∧ ofText d.document = .ok d ∧
      ofText d.toJson.pretty = .ok d := by
  have hwell := h.wellFormed
  have hfits := (lossless 119).fits d
  have hcompact : read? d.document = some d.toJson := read?_compact hfits
  refine ⟨⟨d.sparse_toJson, fun g _ => g.sparse_toJson, fun t _ f _ c _ k _ => k.2.sparse_toJson⟩,
    ⟨d.toJson, hcompact, ?_⟩, hwell.ofText_eq_ok hcompact, hwell.ofText_eq_ok (read?_pretty hfits)⟩
  rw [((lossless 0).distinct d).merged_eq]
  exact violations_toJson hwell

theorem Obtained.ofText_document_folded :
    let text := (Json.object [
      ("tagging", .array [.object [("insert_multiple", .bool false), ("exclusion_test", .string ""),
        ("header_tag_descriptions", .array [.object [("tag", .string "#a.id"), ("header", .string "A")]])]]),
      ("conversion", .object [("a", .object [("n", .object [("regex", .object [("^k", .object [
        ("rename", .object [("old", .string "new")]), ("delete", .array [])])])])])])]).compact
    let sheet : Worksheet := ⟨"d.csv", "d", [["#tags", "#a.n.value", "#a.x.assign", "#a.y.rename", "#unique"],
      ["", "k", "v \"w\"", " z ", "yes"]]⟩
    let first : Directives := {
      conversion := .single "a" (.single "n" (.single ⟨.regex, false⟩ (.single "^k"
        { rename := .single "old" "new" })))
      tagging := [{ descriptions := [⟨"A", "#a.id", false⟩], exclusion := some "" }] }
    let second : Directives := {
      conversion := .single "a" (.single "n" (.single ⟨.exact, true⟩ (.single "k"
        { assign := .single "x" (.scalar "v \"w\""), rename := .single "y" "z" }))) }
    ofText text = .ok first ∧ ConversionDirectives.ofWorksheet sheet = .ok second.conversion ∧
      ofText (second.extend first).document = .ok (second.extend first) := by
  intro text sheet first second
  have hfirst : ofText text = .ok first := by decide +kernel
  have hsecond : ConversionDirectives.ofWorksheet sheet = .ok second.conversion := by decide +kernel
  exact ⟨hfirst, hsecond, (Obtained.ofText_document (.extend (.worksheet hsecond) (.text hfirst))).2.2.1⟩

end Directives

end TagHarvest
