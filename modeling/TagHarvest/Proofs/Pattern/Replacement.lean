/-
Replacement texts with references. A text is read in one way only as characters and references, where a
reference is a backslash with all the digits that follow it. Written in braces each reference stands for its
group alone, whatever it is followed by, and no character becomes part of a reference. A text that has been
rewritten has no reference left, so that it is rewritten to itself.
-/
import TagHarvest.Pattern.Replacement
import TagHarvest.Proofs.Number.Numeral
import TagHarvest.Proofs.Pattern.Names

namespace TagHarvest.Pattern

/-- A part of a replacement text: a character, or a reference to a group by the digits of its number. -/
inductive WrittenPart where
  | char (c : Char)
  | reference (digits : List (Fin 10))

namespace WrittenPart

/-- The part as it stands in the text. -/
def written : WrittenPart → List Char
  | char c => [c]
  | reference ds => '\\' :: ds.map digitChar

/-- The part as a template has it, with a reference in braces. -/
def braced : WrittenPart → List Char
  | char c => [c]
  | reference ds => '$' :: '{' :: (ds.map digitChar ++ ['}'])

/-- The part with the text of its group, empty if there is none; groups are numbered in 64 bits. -/
def expanded (texts : Nat → Option (List Char)) : WrittenPart → List Char
  | char c => [c]
  | reference ds => if digitsValue ds < 2 ^ 64 then (texts (digitsValue ds)).getD [] else []

end WrittenPart

/-- True of a text that does not begin with a digit. -/
def NoDigit (cs : List Char) : Prop := ∀ c ∈ cs.head?, Numeral.isDigit c = false

instance : (cs : List Char) → Decidable (NoDigit cs)
  | [] => isTrue nofun
  | c :: _ => decidable_of_iff (Numeral.isDigit c = false) (by simp [NoDigit])

/-- The parts of a text: a backslash with a digit after it is a reference, which goes on to the last digit. -/
inductive Parts : List Char → List WrittenPart → Prop
  | nil : Parts [] []
  | char {c : Char} {cs : List Char} {parts : List WrittenPart} :
      (c = '\\' → NoDigit cs) → Parts cs parts → Parts (c :: cs) (.char c :: parts)
  | reference {ds : List (Fin 10)} {cs : List Char} {parts : List WrittenPart} :
      ds ≠ [] → NoDigit cs → Parts cs parts →
      Parts ('\\' :: (ds.map digitChar ++ cs)) (.reference ds :: parts)

variable {cs : List Char} {ds : List (Fin 10)} {parts parts' : List WrittenPart} {c : Char}

/-! ## Digits -/

theorem isDecimalDigit_digitChar : ∀ d : Fin 10, Text.isDecimalDigit (digitChar d) = true := by decide

theorem not_isNameChar_digitChar : ∀ d : Fin 10, Read.isNameChar true (digitChar d) = false := by
  decide +kernel

/-! ## Reading a text -/

/-- The first part of a text is a character, or a reference that goes on to the last digit. -/
theorem Parts.cons_cases (h : Parts (c :: cs) parts) :
    (∃ rest, parts = .char c :: rest ∧ (c = '\\' → NoDigit cs) ∧ Parts cs rest) ∨
      ∃ ds after rest, c = '\\' ∧ cs = ds.map digitChar ++ after ∧ parts = .reference ds :: rest ∧ ds ≠ [] ∧
        NoDigit after ∧ Parts after rest := by
  generalize htext : c :: cs = text at h
  cases h with
  | nil => cases htext
  | char hc hrest =>
    cases htext
    exact .inl ⟨_, rfl, hc, hrest⟩
  | reference hds hafter hrest =>
    cases htext
    exact .inr ⟨_, _, _, rfl, rfl, rfl, hds, hafter, hrest⟩

/-- A digit after a backslash leaves no choice. -/
theorem not_noDigit_append {after : List Char} (hds : ds ≠ []) : ¬ NoDigit (ds.map digitChar ++ after) := by
  obtain ⟨d, ds, rfl⟩ := List.exists_cons_of_ne_nil hds
  intro h
  have hd := h (digitChar d) rfl
  rw [isDigit_digitChar] at hd
  cases hd

/-- A text has one reading only. -/
theorem Parts.unique (h : Parts cs parts) (h' : Parts cs parts') : parts = parts' := by
  induction h generalizing parts' with
  | nil =>
    cases h'
    rfl
  | char hc _ ih =>
    rcases h'.cons_cases with ⟨rest, rfl, -, hrest⟩ | ⟨ds, after, rest, rfl, rfl, -, hds, -, -⟩
    · rw [ih hrest]
    · exact absurd (hc rfl) (not_noDigit_append hds)
  | reference hds hafter _ ih =>
    rcases h'.cons_cases with ⟨rest, -, hc, -⟩ | ⟨ds', after', rest, -, heq, rfl, -, hafter', hrest⟩
    · exact absurd (hc rfl) (not_noDigit_append hds)
    · -- both references take all digits
      obtain ⟨htake, hdrop⟩ := takeWhile_digits _ hafter
      obtain ⟨htake', hdrop'⟩ := takeWhile_digits ds' hafter'
      rw [heq] at htake hdrop
      rw [digitChar_injective.list_map (htake.symm.trans htake'), ih (hdrop.symm.trans hdrop' ▸ hrest)]

/-- What is left after all digits does not begin with one. -/
theorem noDigit_dropWhile (cs : List Char) : NoDigit (cs.dropWhile Numeral.isDigit) := by
  intro c hc
  have hstop := List.head?_dropWhile_not Numeral.isDigit cs
  rw [Option.mem_def.1 hc] at hstop
  simpa using hstop

/-- Every text has a reading. -/
theorem exists_parts (cs : List Char) : ∃ parts, Parts cs parts := by
  induction hn : cs.length using Nat.strong_induction_on generalizing cs with
  | h n ih =>
    cases cs with
    | nil => exact ⟨[], .nil⟩
    | cons c cs =>
      by_cases hc : c = '\\' → NoDigit cs
      · obtain ⟨parts, hparts⟩ := ih cs.length (by simp [← hn]) cs rfl
        exact ⟨_, .char hc hparts⟩
      · obtain ⟨rfl, hdigit⟩ := Classical.not_imp.1 hc
        have hdigits : ∀ c ∈ cs.takeWhile Numeral.isDigit, Numeral.isDigit c = true :=
          List.all_eq_true.1 List.all_takeWhile
        obtain ⟨ds, hds⟩ := exists_digits hdigits
        have hsplit : ds.map digitChar ++ cs.dropWhile Numeral.isDigit = cs := by
          rw [← hds, List.takeWhile_append_dropWhile]
        have hnonempty : ds ≠ [] := by
          rintro rfl
          exact hdigit (hsplit ▸ noDigit_dropWhile cs)
        have hlength := (List.dropWhile_sublist (l := cs) Numeral.isDigit).length_le
        obtain ⟨parts, hparts⟩ := ih (cs.dropWhile Numeral.isDigit).length
          (by rw [List.length_cons] at hn; omega) _ rfl
        exact ⟨.reference ds :: parts, hsplit ▸ .reference hnonempty (noDigit_dropWhile cs) hparts⟩

theorem Parts.flatMap_written (h : Parts cs parts) : parts.flatMap WrittenPart.written = cs := by
  induction h with
  | nil => rfl
  | char _ _ ih => rw [List.flatMap_cons, ih]; rfl
  | reference _ _ _ ih => rw [List.flatMap_cons, ih]; rfl

theorem Parts.mem_of_char (h : Parts cs parts) (hc : .char c ∈ parts) : c ∈ cs := by
  rw [← h.flatMap_written]
  exact List.mem_flatMap.2 ⟨_, hc, List.mem_singleton_self c⟩

theorem Parts.ne_nil_of_reference (h : Parts cs parts) : ∀ ds, .reference ds ∈ parts → ds ≠ [] := by
  induction h with
  | nil => nofun
  | char _ _ ih => simpa using ih
  | reference hds _ _ ih => simpa [hds] using ih

/-! ## Writing references in braces -/

theorem normalizeChars_cons (h : c = '\\' → ∀ d ∈ cs.head?, Text.isDecimalDigit d = false) :
    normalizeChars (c :: cs) = c :: normalizeChars cs := by
  by_cases hc : c = '\\'
  · subst hc
    cases cs with
    | nil => simp [normalizeChars]
    | cons d cs => rw [normalizeChars, if_neg (by rw [h rfl d rfl]; exact Bool.false_ne_true)]
  · rw [normalizeChars]
    exact fun _ _ hslash => absurd hslash hc

/-- A reference is put in braces with all its digits. -/
theorem normalizeChars_reference (hds : ds ≠ []) (hcs : ∀ d ∈ cs.head?, Text.isDecimalDigit d = false) :
    normalizeChars ('\\' :: (ds.map digitChar ++ cs)) =
      (WrittenPart.reference ds).braced ++ normalizeChars cs := by
  obtain ⟨d, ds, rfl⟩ := List.exists_cons_of_ne_nil hds
  have hdigits : ∀ c ∈ ds.map digitChar, Text.isDecimalDigit c = true := by
    simpa using fun d _ => isDecimalDigit_digitChar d
  obtain ⟨htake, hdrop⟩ := Text.takeWhile_append_of_head hdigits hcs
  rw [List.map_cons, List.cons_append, normalizeChars, if_pos (isDecimalDigit_digitChar d), htake, hdrop]
  simp [WrittenPart.braced]

/-- The rewritten text has the parts of the text, with each reference in braces. -/
theorem Parts.normalizeChars (h : Parts cs parts)
    (hascii : ∀ c ∈ cs, Text.isDecimalDigit c = true → Numeral.isDigit c = true) :
    normalizeChars cs = parts.flatMap WrittenPart.braced := by
  -- where no digit follows, no other decimal digit does
  have hnext : ∀ {cs : List Char}, (∀ c ∈ cs, Text.isDecimalDigit c = true → Numeral.isDigit c = true) →
      NoDigit cs → ∀ d ∈ cs.head?, Text.isDecimalDigit d = false := by
    intro cs hascii hcs d hd
    by_contra hdecimal
    have := hascii d (List.mem_of_mem_head? hd) (by simpa using hdecimal)
    rw [hcs d hd] at this
    cases this
  induction h with
  | nil =>
    rw [Pattern.normalizeChars]
    rfl
  | char hc _ ih =>
    obtain ⟨-, hrest⟩ := List.forall_mem_cons.1 hascii
    rw [normalizeChars_cons fun hslash => hnext hrest (hc hslash), ih hrest]
    rfl
  | reference hds hafter _ ih =>
    obtain ⟨-, hrest⟩ := List.forall_mem_cons.1 hascii
    obtain ⟨-, hrest⟩ := List.forall_mem_append.1 hrest
    rw [normalizeChars_reference hds (hnext hrest hafter), ih hrest]
    rfl

/-! ## Writing references in braces again -/

/-- No reference: what follows a backslash is no decimal digit. -/
def Apart (c d : Char) : Prop := c = '\\' → Text.isDecimalDigit d = false

theorem normalizeChars_of_isChain (h : cs.IsChain Apart) : normalizeChars cs = cs := by
  induction cs with
  | nil => rw [normalizeChars]
  | cons c cs ih =>
    obtain ⟨hhead, hcs⟩ := List.isChain_cons.1 h
    rw [normalizeChars_cons fun hc d hd => hhead d hd hc, ih hcs]

theorem isChain_cons_of_ne (hc : c ≠ '\\') (h : cs.IsChain Apart) : (c :: cs).IsChain Apart :=
  List.isChain_cons.2 ⟨fun _ _ hslash => absurd hslash hc, h⟩

theorem isChain_append_of_ne {as : List Char} (has : ∀ a ∈ as, a ≠ '\\') (h : cs.IsChain Apart) :
    (as ++ cs).IsChain Apart := by
  induction as with
  | nil => exact h
  | cons a as ih =>
    obtain ⟨ha, has⟩ := List.forall_mem_cons.1 has
    exact isChain_cons_of_ne ha (ih has)

/-- The rewritten text begins as the text does, or with a dollar sign. -/
theorem head?_normalizeChars {d : Char} (h : d ∈ (normalizeChars cs).head?) : d = '$' ∨ d ∈ cs.head? := by
  unfold normalizeChars at h
  split at h
  · exact .inr h
  · split at h
    · cases h
      exact .inl rfl
    · cases h
      exact .inr rfl
  · cases h
    exact .inr rfl

theorem isChain_normalizeChars (cs : List Char) : (normalizeChars cs).IsChain Apart := by
  fun_induction normalizeChars cs with
  | case1 => exact .nil
  | case2 c cs hc _ ih =>
    have hdigits : ∀ d ∈ c :: cs.takeWhile Text.isDecimalDigit, d ≠ '\\' := by
      rintro d hd rfl
      rcases List.mem_cons.1 hd with rfl | hd
      · exact absurd hc (by decide)
      · exact absurd (List.all_eq_true.1 List.all_takeWhile _ hd) (by decide)
    have hclosed := isChain_append_of_ne hdigits (isChain_cons_of_ne (c := '}') (by decide) ih)
    exact isChain_cons_of_ne (by decide) (isChain_cons_of_ne (by decide) hclosed)
  | case3 c cs hc ih =>
    refine List.isChain_cons.2 ⟨fun d hd _ => ?_, ih⟩
    rcases head?_normalizeChars hd with rfl | hd
    · decide
    · cases hd
      simpa using hc
  | case4 c cs hne ih =>
    refine List.isChain_cons.2 ⟨fun d hd hslash => ?_, ih⟩
    -- a backslash that is kept here is the last character
    cases cs with
    | nil =>
      rw [normalizeChars] at hd
      cases hd
    | cons c' cs => exact (hne c' cs hslash rfl).elim

/-- A text that has been rewritten is rewritten to itself. -/
theorem normalize_normalize (r : String) : normalize (normalize r) = normalize r := by
  unfold normalize
  rw [String.toList_ofList, normalizeChars_of_isChain (isChain_normalizeChars _)]

/-! ## Templates -/

theorem template_cons (hc : c ≠ '$') : template (c :: cs) = .text c :: template cs := by
  rw [template]
  all_goals exact fun _ => by intros; contradiction

/-- What is in braces is one name, whatever follows it. -/
theorem template_braced {name : List Char} (hname : ∀ c ∈ name, c ≠ '}') :
    template ('$' :: '{' :: (name ++ '}' :: cs)) = .group name :: template cs := by
  have hbrace : ∀ c ∈ ('}' :: cs).head?, (c != '}') = false := by simp
  obtain ⟨htake, hdrop⟩ :=
    Text.takeWhile_append_of_head (p := (· != '}')) (by simpa using hname) hbrace
  rw [template]
  split
  · rename_i rest hrest
    obtain rfl : rest = cs := List.tail_eq_of_cons_eq (hrest.symm.trans hdrop)
    rw [htake]
  · rename_i hother
    exact (hother cs hdrop).elim

/-- A part of a text in a template. -/
def WrittenPart.toTemplate : WrittenPart → Template
  | char c => .text c
  | reference ds => .group (ds.map digitChar)

/-- The template of a rewritten text has the parts of the text. -/
theorem template_flatMap_braced (h : ∀ c, .char c ∈ parts → c ≠ '$') :
    template (parts.flatMap WrittenPart.braced) = parts.map WrittenPart.toTemplate := by
  induction parts with
  | nil => rw [List.flatMap_nil, template]; rfl
  | cons part parts ih =>
    have hrest := ih fun c hc => h c (List.mem_cons_of_mem _ hc)
    rw [List.flatMap_cons, List.map_cons]
    cases part with
    | char c =>
      rw [← hrest]
      exact template_cons (h c List.mem_cons_self)
    | reference ds =>
      have hdigits : ∀ c ∈ ds.map digitChar, c ≠ '}' := by
        simpa using fun d _ => (by decide : ∀ d : Fin 10, digitChar d ≠ '}') d
      rw [← hrest, WrittenPart.braced, List.cons_append, List.cons_append, List.append_assoc]
      exact template_braced hdigits

/-! ## Expanding -/

/-- The number of digits as the program reads it. -/
theorem groupNumber?_digits (hds : ds ≠ []) :
    groupNumber? (ds.map digitChar) = if digitsValue ds < 2 ^ 64 then some (digitsValue ds) else none := by
  obtain ⟨d, ds, rfl⟩ := List.exists_cons_of_ne_nil hds
  have hplus : ∀ d : Fin 10, digitChar d ≠ '+' := by decide
  have hdigit : ∀ d : Fin 10, (digitChar d).isDigit = true := by decide
  have hall : ((d :: ds).map digitChar).all Char.isDigit = true := by
    simpa using ⟨hdigit d, fun d _ => hdigit d⟩
  have hvalue : ((d :: ds).map digitChar).foldl (fun n c => n * 10 + (c.toNat - 48)) 0 = digitsValue (d :: ds) :=
    ofDigits_map_digitChar (d :: ds)
  unfold groupNumber?
  split
  · rename_i heq
    exact absurd (List.head_eq_of_cons_eq heq) (hplus d)
  · dsimp only
    rw [hall, hvalue]
    rfl

/-- The text that a name stands for where groups have these names and texts. -/
def assigned (names : List (String × Nat)) (texts : Nat → Option (List Char)) (name : List Char) : List Char :=
  (((groupNumber? name).or (names.lookup (String.ofList name))).bind texts).getD []

/-- The text of a group of a match by its number. -/
def Match.textOf (m : Match) (text : List Char) (n : Nat) : Option (List Char) :=
  (m.group? n).map fun ends => (text.take ends.2).drop ends.1

/-- A match assigns its parts of the text to the groups. -/
theorem groupText_eq (p : Pattern) (text : List Char) (m : Match) :
    p.groupText text m = assigned p.names (m.textOf text) := by
  funext name
  unfold groupText assigned Match.textOf
  cases groupNumber? name with
  | some n =>
    simp only [Option.some_or, Option.bind_some]
    cases m.group? n <;> rfl
  | none =>
    cases p.names.lookup (String.ofList name) with
    | none => rfl
    | some n =>
      simp only [Option.none_or, Option.bind_some]
      cases m.group? n <;> rfl

/-- No name is made of digits, so a reference stands for the group of its number or for none. -/
theorem assigned_digits {groups : Nat} {names : List (String × Nat)} (hnames : Named groups names)
    (texts : Nat → Option (List Char)) (hds : ds ≠ []) :
    assigned names texts (ds.map digitChar) = (WrittenPart.reference ds).expanded texts := by
  have hlookup : names.lookup (String.ofList (ds.map digitChar)) = none := by
    refine List.lookup_eq_none_iff.2 fun n hn => ?_
    obtain ⟨c, cs, hname, hc⟩ := hnames.lettered n hn
    obtain ⟨d, ds, rfl⟩ := List.exists_cons_of_ne_nil hds
    refine bne_iff_ne.2 fun heq => ?_
    rw [← heq, String.toList_ofList] at hname
    obtain rfl : digitChar d = c := List.head_eq_of_cons_eq hname
    rw [not_isNameChar_digitChar] at hc
    cases hc
  unfold assigned WrittenPart.expanded
  rw [groupNumber?_digits hds, hlookup]
  dsimp only
  split <;> rfl

/-- Filling in the template puts the text of each group in the place of its reference. -/
theorem fill_toTemplate {groups : Nat} {names : List (String × Nat)} (hnames : Named groups names)
    (texts : Nat → Option (List Char)) (h : ∀ ds, .reference ds ∈ parts → ds ≠ []) :
    fill (assigned names texts) (parts.map WrittenPart.toTemplate) =
      parts.flatMap (WrittenPart.expanded texts) := by
  unfold fill
  rw [List.flatMap_map]
  refine List.flatMap_congr fun part hpart => ?_
  cases part with
  | char c => rfl
  | reference ds => exact assigned_digits hnames texts (h ds hpart)

/--
A replacement text without a dollar sign, of which all decimal digits are ASCII digits, has one reading as
characters and references. When it has been rewritten, it is expanded to its characters and, in the place of
each reference, the text of the group of that number, whatever texts the groups have; and to rewrite it again
changes nothing.
-/
theorem fill_normalize {source : String} {p : Pattern} (hp : compile source = .ok p) {r : String}
    (hdollar : '$' ∉ r.toList)
    (hascii : ∀ c ∈ r.toList, Text.isDecimalDigit c = true → Numeral.isDigit c = true) :
    (∃! parts, Parts r.toList parts) ∧
      (∀ parts, Parts r.toList parts →
        (∀ texts, fill (assigned p.names texts) (template (normalize r).toList) =
          parts.flatMap (WrittenPart.expanded texts)) ∧
        ∀ text m, fill (p.groupText text m) (template (normalize r).toList) =
          parts.flatMap (WrittenPart.expanded (m.textOf text))) ∧
      normalize (normalize r) = normalize r := by
  obtain ⟨parts, hparts⟩ := exists_parts r.toList
  refine ⟨⟨parts, hparts, fun parts' hparts' => hparts'.unique hparts⟩, fun parts hparts => ?_,
    normalize_normalize r⟩
  have htemplate : template (normalize r).toList = parts.map WrittenPart.toTemplate := by
    rw [normalize, String.toList_ofList, hparts.normalizeChars hascii]
    exact template_flatMap_braced fun c hc heq => hdollar (heq ▸ hparts.mem_of_char hc)
  have hfill : ∀ texts, fill (assigned p.names texts) (template (normalize r).toList) =
      parts.flatMap (WrittenPart.expanded texts) := by
    intro texts
    rw [htemplate, fill_toTemplate (named_of_compile hp) texts hparts.ne_nil_of_reference]
  exact ⟨hfill, fun text m => by rw [groupText_eq, hfill]⟩

/-- References next to each other, before a letter, in braces and after a backslash, and two without a group. -/
theorem fill_normalize_neighbours :
    let r := "\\2\\1x\\10\x7b\\1\x7d\\\\2\\18446744073709551617\\"
    let parts : List WrittenPart := [.reference [2], .reference [1], .char 'x', .reference [1, 0], .char '{',
      .reference [1], .char '}', .char '\\', .reference [2],
      .reference [1, 8, 4, 4, 6, 7, 4, 4, 0, 7, 3, 7, 0, 9, 5, 5, 1, 6, 1, 7], .char '\\']
    let m : Match := ⟨#[some 0, some 2, some 0, some 1, some 1, some 2]⟩
    ∃ p, compile "(a)(b)" = .ok p ∧ '$' ∉ r.toList ∧
      (∀ c ∈ r.toList, Text.isDecimalDigit c = true → Numeral.isDigit c = true) ∧ Parts r.toList parts ∧
      fill (p.groupText ['a', 'b'] m) (template (normalize r).toList) =
        ['b', 'a', 'x', '{', 'a', '}', '\\', 'b', '\\'] ∧
      normalize (normalize r) = normalize r := by
  intro r parts m
  have hparts : Parts r.toList parts := by
    rw [show r.toList = parts.flatMap WrittenPart.written by decide +kernel]
    simp only [parts, List.flatMap_cons, List.flatMap_nil, WrittenPart.written, List.cons_append, List.nil_append]
    iterate 2 refine .reference (by decide) (by decide) ?_
    refine .char (by decide) (.reference (by decide) (by decide) ?_)
    refine .char (by decide) (.reference (by decide) (by decide) ?_)
    iterate 2 refine .char (by decide) ?_
    iterate 2 refine .reference (by decide) (by decide) ?_
    exact .char (by decide) .nil
  have hdollar : '$' ∉ r.toList := by decide +kernel
  have hascii : ∀ c ∈ r.toList, Text.isDecimalDigit c = true → Numeral.isDigit c = true := by
    have hall : r.toList.all (fun c => !Text.isDecimalDigit c || Numeral.isDigit c) = true := by decide +kernel
    intro c hc hdecimal
    simpa [hdecimal] using List.all_eq_true.1 hall c hc
  have hok : (compile "(a)(b)").isOk = true := by decide +kernel
  obtain ⟨p, hp⟩ : ∃ p, compile "(a)(b)" = .ok p := by
    cases h : compile "(a)(b)" with
    | ok p => exact ⟨p, rfl⟩
    | error e =>
      rw [h] at hok
      cases hok
  obtain ⟨-, hexpanded, hagain⟩ := fill_normalize hp hdollar hascii
  refine ⟨p, hp, hdollar, hascii, hparts, ?_, hagain⟩
  rw [(hexpanded parts hparts).2]
  decide +kernel

end TagHarvest.Pattern
