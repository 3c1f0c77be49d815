/-
Reading what is written. Reading undoes the escapes of a string, passes over blanks wherever they may stand,
and finds the items and members of a container again, if the text of each of them is read back. The fuel of
the reader is measured by the length of the text.
-/
import TagHarvest.Json.Printer
import TagHarvest.Json.Reader
import Mathlib.Data.List.DropRight
import Mathlib.Tactic.SplitIfs

namespace TagHarvest.Json

/-! ## Strings -/

/-- A string with one more character in front. -/
def prepend (c : Char) : List Char × List Char → List Char × List Char
  | (text, rest) => (c :: text, rest)

/-- A letter after a backslash is read as the character it stands for. -/
theorem readString_letter {letter c : Char} (h : unescape? letter = some c) (cs : List Char) :
    readString ('\\' :: letter :: cs) = (readString cs).map (prepend c) := by
  have hu : letter ≠ 'u' := by
    rintro rfl
    cases h
  rw [readString]
  · rw [h]
    cases readString cs <;> rfl
  · rintro a b c d cs rfl
    exact absurd rfl hu

/-- The two hexadecimal digits of a number below 32. -/
theorem hex4?_hexDigit : ∀ n < 0x20, hex4? '0' '0' (hexDigit (n / 16)) (hexDigit (n % 16)) = some n := by
  decide

/-- A character below the space is read from its number. -/
theorem readString_control {c : Char} (h : c.toNat < 0x20) (cs : List Char) :
    readString ('\\' :: 'u' :: '0' :: '0' :: hexDigit (c.toNat / 16) :: hexDigit (c.toNat % 16) :: cs) =
      (readString cs).map (prepend c) := by
  have hsurrogate : ¬ (0xD800 ≤ c.toNat ∧ c.toNat < 0xE000) := by omega
  rw [readString, hex4?_hexDigit c.toNat h, Option.bind_eq_bind, Option.bind_some, if_neg hsurrogate,
    Char.ofNat_toNat]
  cases readString cs <;> rfl

theorem readString_plain {c : Char} (hquote : c ≠ '"') (hbackslash : c ≠ '\\') (hcontrol : ¬ c.toNat < 0x20)
    (cs : List Char) : readString (c :: cs) = (readString cs).map (prepend c) := by
  rw [readString]
  · rw [if_neg (not_or.2 ⟨hbackslash, hcontrol⟩)]
    cases readString cs <;> rfl
  · exact hquote
  · rintro a b c d cs rfl
    exact absurd rfl hbackslash
  · rintro a cs rfl
    exact absurd rfl hbackslash

/-- Reading undoes the escape of a character. -/
theorem readString_escapeChar (c : Char) (cs : List Char) :
    readString (escapeChar c ++ cs) = (readString cs).map (prepend c) := by
  unfold escapeChar
  split_ifs with hquote hbackslash hback hform hfeed hreturn htab hcontrol
  · subst hquote; exact readString_letter rfl cs
  · subst hbackslash; exact readString_letter rfl cs
  · subst hback; exact readString_letter rfl cs
  · subst hform; exact readString_letter rfl cs
  · subst hfeed; exact readString_letter rfl cs
  · subst hreturn; exact readString_letter rfl cs
  · subst htab; exact readString_letter rfl cs
  · exact readString_control hcontrol cs
  · exact readString_plain hquote hbackslash hcontrol cs

/-- A string is read up to its closing quote. -/
theorem readString_flatMap_escapeChar (s rest : List Char) :
    readString (s.flatMap escapeChar ++ '"' :: rest) = some (s, rest) := by
  induction s with
  | nil => rfl
  | cons c s ih =>
    rw [List.flatMap_cons, List.append_assoc, readString_escapeChar, ih]
    rfl

/-! ## Blanks -/

/-- Nothing but blanks. -/
def Blank (cs : List Char) : Prop := ∀ c ∈ cs, isSpace c = true

theorem Blank.nil : Blank [] := nofun

theorem skipSpace_cons {c : Char} (h : isSpace c = false) (cs : List Char) : skipSpace (c :: cs) = c :: cs :=
  List.dropWhile_cons_of_neg (by simp [h])

theorem Blank.skipSpace {blanks : List Char} (h : Blank blanks) (cs : List Char) :
    skipSpace (blanks ++ cs) = skipSpace cs :=
  List.dropWhile_append_of_pos h

/-- Values are read without the blanks in front of them. -/
theorem readValue_congr {cs cs' : List Char} (h : skipSpace cs = skipSpace cs') (fuel depth : Nat) :
    readValue fuel depth cs = readValue fuel depth cs' := by
  cases fuel with
  | zero => rfl
  | succ fuel => rw [readValue, readValue, h]

theorem readItems_congr {cs cs' : List Char} (h : skipSpace cs = skipSpace cs') (fuel depth : Nat) :
    readItems fuel depth cs = readItems fuel depth cs' := by
  cases fuel with
  | zero => rfl
  | succ fuel => rw [readItems, readItems, readValue_congr h]

theorem readMembers_congr {cs cs' : List Char} (h : skipSpace cs = skipSpace cs') (wanted : String → Bool)
    (fuel depth : Nat) : readMembers wanted fuel depth cs = readMembers wanted fuel depth cs' := by
  cases fuel with
  | zero => rfl
  | succ fuel => rw [readMembers, readMembers, h]

/-! ## Values -/

/-- A text that is read as a value, whatever follows it. It starts with no blank and closes no array. -/
structure ReadBack (depth : Nat) (text : List Char) (v : Json) : Prop where
  exists_cons : ∃ c cs, text = c :: cs ∧ isSpace c = false ∧ c ≠ ']'
  readValue : ∀ fuel rest, 2 * text.length ≤ fuel →
    Json.readValue fuel depth (text ++ rest) = some (v, rest)

theorem readBack_null (depth : Nat) : ReadBack depth "null".toList .null where
  exists_cons := ⟨'n', _, rfl, rfl, by decide⟩
  readValue fuel rest hfuel := by
    obtain _ | fuel := fuel
    · cases hfuel
    rfl

theorem readBack_bool (depth : Nat) (b : Bool) :
    ReadBack depth (if b then "true" else "false").toList (.bool b) where
  exists_cons := by
    cases b with
    | false => exact ⟨'f', _, rfl, rfl, by decide⟩
    | true => exact ⟨'t', _, rfl, rfl, by decide⟩
  readValue fuel rest hfuel := by
    obtain _ | fuel := fuel
    · cases b <;> cases hfuel
    cases b <;> rfl

theorem readBack_string (depth : Nat) (s : String) : ReadBack depth (quote s) (.string s) where
  exists_cons := ⟨'"', _, rfl, rfl, by decide⟩
  readValue fuel rest hfuel := by
    obtain _ | fuel := fuel
    · cases hfuel
    have hquote : quote s ++ rest = '"' :: (s.toList.flatMap escapeChar ++ '"' :: rest) := by
      simp [quote]
    rw [hquote, Json.readValue, skipSpace_cons rfl]
    simp only [readString_flatMap_escapeChar, Option.map_some, String.ofList_toList]

theorem separated_cons_cons (c : Char) (blanks t t' : List Char) (ts : List (List Char)) :
    separated (c :: blanks) (t :: t' :: ts) = t ++ c :: (blanks ++ separated (c :: blanks) (t' :: ts)) :=
  List.append_assoc ..

theorem separated_cons (separator t : List Char) (ts : List (List Char)) :
    ∃ tail, separated separator (t :: ts) = t ++ tail := by
  cases ts with
  | nil => exact ⟨[], (List.append_nil t).symm⟩
  | cons t' ts => exact ⟨_, List.append_assoc ..⟩

/-! ## Arrays -/

section Arrays

/-- After an item a comma goes on with the next one. -/
theorem readItems_comma {fuel depth : Nat} {cs rest rest' : List Char} {v : Json}
    (hv : readValue fuel depth cs = some (v, rest)) (h : skipSpace rest = ',' :: rest') :
    readItems (fuel + 1) depth cs = (readItems fuel depth rest').map fun (vs, rest) => (v :: vs, rest) := by
  rw [readItems, hv]
  dsimp only
  rw [h]
  rfl

/-- After the last item stands the closing bracket. -/
theorem readItems_closing {fuel depth : Nat} {cs rest rest' : List Char} {v : Json}
    (hv : readValue fuel depth cs = some (v, rest)) (h : skipSpace rest = ']' :: rest') :
    readItems (fuel + 1) depth cs = some ([v], rest') := by
  rw [readItems, hv]
  dsimp only
  rw [h]
  rfl

variable {depth : Nat} {text : Json → List Char} {items : List Json} {first gap last : List Char}

/-- The items of an array, with blanks between them, are read up to the closing bracket. -/
theorem readItems_separated (hne : items ≠ []) (h : ∀ v ∈ items, ReadBack depth (text v) v)
    (hgap : Blank gap) (hlast : Blank last) (rest : List Char) (fuel : Nat)
    (hfuel : 2 * (separated (',' :: gap) (items.map text)).length + 1 ≤ fuel) :
    readItems fuel depth (separated (',' :: gap) (items.map text) ++ (last ++ ']' :: rest)) =
      some (items, rest) := by
  induction items generalizing fuel with
  | nil => exact absurd rfl hne
  | cons v items ih =>
    obtain _ | fuel := fuel
    · cases hfuel
    have hv := h v List.mem_cons_self
    cases items with
    | nil =>
      have hlength : 2 * (text v).length ≤ fuel := Nat.le_of_succ_le_succ hfuel
      exact readItems_closing (hv.readValue _ _ hlength) ((hlast.skipSpace _).trans (skipSpace_cons rfl _))
    | cons w items =>
      rw [List.map_cons, List.map_cons, separated_cons_cons, ← List.map_cons] at hfuel ⊢
      simp only [List.length_append, List.length_cons] at hfuel
      have hlength : 2 * (text v).length ≤ fuel := by omega
      have hrest := ih (List.cons_ne_nil w items) (fun v hv => h v (List.mem_cons_of_mem _ hv)) fuel (by omega)
      rw [List.append_assoc, List.cons_append, List.append_assoc,
        readItems_comma (hv.readValue _ _ hlength) (skipSpace_cons rfl _),
        readItems_congr (hgap.skipSpace _), hrest]
      rfl

/-- If it is not closed at once, an array is read item by item. -/
theorem readValue_array {cs : List Char} (h : ∀ rest, skipSpace cs ≠ ']' :: rest) (fuel depth : Nat) :
    readValue (fuel + 1) (depth + 1) ('[' :: cs) =
      (readItems fuel depth cs).map fun (items, rest) => (.array items, rest) := by
  have hskip : skipSpace (skipSpace cs) = skipSpace cs := List.dropWhile_idempotent isSpace cs
  rw [readValue, skipSpace_cons rfl, ← readItems_congr hskip]
  -- by `h` the text does not take the branch of the empty array
  simp only

theorem readBack_empty_array (depth : Nat) : ReadBack (depth + 1) ['[', ']'] (.array []) where
  exists_cons := ⟨'[', _, rfl, rfl, by decide⟩
  readValue fuel rest hfuel := by
    obtain _ | fuel := fuel
    · cases hfuel
    rfl

theorem readBack_array (hne : items ≠ []) (h : ∀ v ∈ items, ReadBack depth (text v) v)
    (hfirst : Blank first) (hgap : Blank gap) (hlast : Blank last) :
    ReadBack (depth + 1) ('[' :: (first ++ (separated (',' :: gap) (items.map text) ++ (last ++ [']']))))
      (.array items) where
  exists_cons := ⟨'[', _, rfl, rfl, by decide⟩
  readValue fuel rest hfuel := by
    obtain _ | fuel := fuel
    · cases hfuel
    have hopen : ∀ r, skipSpace (first ++ (separated (',' :: gap) (items.map text) ++ (last ++ ']' :: rest))) ≠
        ']' :: r := by
      intro r hr
      obtain ⟨v, vs, rfl⟩ := List.exists_cons_of_ne_nil hne
      obtain ⟨c, cs, htext, hspace, hclosing⟩ := (h v List.mem_cons_self).exists_cons
      obtain ⟨tail, htail⟩ := separated_cons (',' :: gap) (c :: cs) (vs.map text)
      rw [hfirst.skipSpace, List.map_cons, htext, htail, List.append_assoc, List.cons_append,
        skipSpace_cons hspace] at hr
      exact hclosing (List.cons.inj hr).1
    simp only [List.length_cons, List.length_append] at hfuel
    simp only [List.cons_append, List.append_assoc, List.nil_append]
    rw [readValue_array hopen, readItems_congr (hfirst.skipSpace _),
      readItems_separated hne h hgap hlast rest fuel (by omega)]
    rfl

end Arrays

/-! ## Objects -/

section Objects

/-- The text of a member, with blanks after its colon. -/
def memberChars (blanks : List Char) (text : Json → List Char) (m : String × Json) : List Char :=
  quote m.1 ++ ':' :: (blanks ++ text m.2)

variable {depth : Nat} {text : Json → List Char} {members : List (String × Json)}
  {m : String × Json} {blanks first gap last : List Char}

/-- A member is read from its name, its colon and its value. -/
theorem readMembers_memberChars (hv : ReadBack depth (text m.2) m.2) (hblanks : Blank blanks) {fuel : Nat}
    (hfuel : 2 * (memberChars blanks text m).length ≤ fuel) (rest : List Char) :
    readMembers (fun _ => true) (fuel + 1) depth (memberChars blanks text m ++ rest) =
      match skipSpace rest with
      | ',' :: rest => (readMembers (fun _ => true) fuel depth rest).map fun (ms, rest) => (m :: ms, rest)
      | '}' :: rest => some ([m], rest)
      | _ => none := by
  have hname : memberChars blanks text m ++ rest =
      '"' :: (m.1.toList.flatMap escapeChar ++ '"' :: ':' :: (blanks ++ (text m.2 ++ rest))) := by
    simp [memberChars, quote]
  have hlength : 2 * (text m.2).length ≤ fuel := by
    simp only [memberChars, List.length_append, List.length_cons] at hfuel
    omega
  have hvalue : readValue fuel depth (blanks ++ (text m.2 ++ rest)) = some (m.2, rest) :=
    (readValue_congr (hblanks.skipSpace _) fuel depth).trans (hv.readValue fuel rest hlength)
  rw [readMembers, hname, skipSpace_cons rfl]
  simp only [readString_flatMap_escapeChar, String.ofList_toList, skipSpace_cons (c := ':') rfl, hvalue]
  rfl

theorem readMembers_comma (hv : ReadBack depth (text m.2) m.2) (hblanks : Blank blanks) {fuel : Nat}
    (hfuel : 2 * (memberChars blanks text m).length ≤ fuel) {rest rest' : List Char}
    (h : skipSpace rest = ',' :: rest') :
    readMembers (fun _ => true) (fuel + 1) depth (memberChars blanks text m ++ rest) =
      (readMembers (fun _ => true) fuel depth rest').map fun (ms, rest) => (m :: ms, rest) := by
  rw [readMembers_memberChars hv hblanks hfuel, h]
  rfl

theorem readMembers_closing (hv : ReadBack depth (text m.2) m.2) (hblanks : Blank blanks) {fuel : Nat}
    (hfuel : 2 * (memberChars blanks text m).length ≤ fuel) {rest rest' : List Char}
    (h : skipSpace rest = '}' :: rest') :
    readMembers (fun _ => true) (fuel + 1) depth (memberChars blanks text m ++ rest) = some ([m], rest') := by
  rw [readMembers_memberChars hv hblanks hfuel, h]
  rfl

/-- The members of an object, with blanks between them, are read up to the closing brace. -/
theorem readMembers_separated (hne : members ≠ []) (h : ∀ m ∈ members, ReadBack depth (text m.2) m.2)
    (hblanks : Blank blanks) (hgap : Blank gap) (hlast : Blank last) (rest : List Char) (fuel : Nat)
    (hfuel : 2 * (separated (',' :: gap) (members.map (memberChars blanks text))).length + 1 ≤ fuel) :
    readMembers (fun _ => true) fuel depth
      (separated (',' :: gap) (members.map (memberChars blanks text)) ++ (last ++ '}' :: rest)) =
        some (members, rest) := by
  induction members generalizing fuel with
  | nil => exact absurd rfl hne
  | cons m members ih =>
    obtain _ | fuel := fuel
    · cases hfuel
    have hv := h m List.mem_cons_self
    cases members with
    | nil =>
      have hlength : 2 * (memberChars blanks text m).length ≤ fuel := Nat.le_of_succ_le_succ hfuel
      exact readMembers_closing hv hblanks hlength ((hlast.skipSpace _).trans (skipSpace_cons rfl _))
    | cons n members =>
      rw [List.map_cons, List.map_cons, separated_cons_cons, ← List.map_cons] at hfuel ⊢
      simp only [List.length_append, List.length_cons] at hfuel
      have hlength : 2 * (memberChars blanks text m).length ≤ fuel := by omega
      have hrest := ih (List.cons_ne_nil n members) (fun m hm => h m (List.mem_cons_of_mem _ hm)) fuel (by
        omega)
      rw [List.append_assoc, List.cons_append, List.append_assoc,
        readMembers_comma hv hblanks hlength (skipSpace_cons rfl _),
        readMembers_congr (hgap.skipSpace _), hrest]
      rfl

/-- If it is not closed at once, an object is read member by member. -/
theorem readValue_object {cs : List Char} (h : ∀ rest, skipSpace cs ≠ '}' :: rest) (fuel depth : Nat) :
    readValue (fuel + 1) (depth + 1) ('{' :: cs) =
      (readMembers (fun _ => true) fuel depth cs).map fun (members, rest) => (.object members, rest) := by
  have hskip : skipSpace (skipSpace cs) = skipSpace cs := List.dropWhile_idempotent isSpace cs
  rw [readValue, skipSpace_cons rfl, ← readMembers_congr hskip]
  simp only

theorem readBack_empty_object (depth : Nat) : ReadBack (depth + 1) ['{', '}'] (.object []) where
  exists_cons := ⟨'{', _, rfl, rfl, by decide⟩
  readValue fuel rest hfuel := by
    obtain _ | fuel := fuel
    · cases hfuel
    rfl

theorem readBack_object (hne : members ≠ []) (h : ∀ m ∈ members, ReadBack depth (text m.2) m.2)
    (hfirst : Blank first) (hblanks : Blank blanks) (hgap : Blank gap) (hlast : Blank last) :
    ReadBack (depth + 1)
      ('{' :: (first ++ (separated (',' :: gap) (members.map (memberChars blanks text)) ++ (last ++ ['}']))))
      (.object members) where
  exists_cons := ⟨'{', _, rfl, rfl, by decide⟩
  readValue fuel rest hfuel := by
    obtain _ | fuel := fuel
    · cases hfuel
    have hopen : ∀ r, skipSpace (first ++
        (separated (',' :: gap) (members.map (memberChars blanks text)) ++ (last ++ '}' :: rest))) ≠
          '}' :: r := by
      intro r hr
      obtain ⟨m, ms, rfl⟩ := List.exists_cons_of_ne_nil hne
      obtain ⟨tail, htail⟩ := separated_cons (',' :: gap) (memberChars blanks text m)
        (ms.map (memberChars blanks text))
      rw [hfirst.skipSpace, List.map_cons, htail, List.append_assoc] at hr
      -- the text of a member begins with a quote
      cases hr
    simp only [List.length_cons, List.length_append] at hfuel
    simp only [List.cons_append, List.append_assoc, List.nil_append]
    rw [readValue_object hopen, readMembers_congr (hfirst.skipSpace _),
      readMembers_separated hne h hblanks hgap hlast rest fuel (by omega)]
    rfl

end Objects

end TagHarvest.Json
