/-
Reading JSON texts. `read?` takes a whole text: one value with blanks around it, containers at most 127
deep. Objects keep repeated members; who wants a map of them uses `merged`. `readStructure?` passes over
the members that are not asked for, whatever they hold.
-/
import TagHarvest.Json.Basic
import TagHarvest.Number.Numeral

namespace TagHarvest.Json

def isSpace (c : Char) : Bool := c == ' ' || c == '\n' || c == '\t' || c == '\r'

def skipSpace (cs : List Char) : List Char := cs.dropWhile isSpace

/-- How deep containers may be nested. -/
def depthLimit : Nat := 127

/-! ## Numbers -/

/-- The digits that fit into 64 bits, and how many are left over. -/
def fitDigits (n : Nat) : List Char → Nat × Nat
  | [] => (n, 0)
  | c :: cs =>
    let m := n * 10 + Numeral.digitValue c
    if m < 0x10000000000000000 then fitDigits m cs else (n, cs.length + 1)

/--
The number next to `digits · 10 ^ exponent`, by one division or multiplication with a power of ten
after the digits themselves are rounded; none beyond the format.
-/
def scale (digits : Nat) (exponent : Int) : Option Rat :=
  match Binary64.nearestPos digits with
  | none => none
  | some f =>
    if f = 0 then some 0
    else if exponent > 308 then none
    else if 0 ≤ exponent then
      (Binary64.nearestDecimal 1 exponent).bind fun p => Binary64.nearestPos (f * p)
    else if exponent < -700 then some 0
    else shrink 3 f (-exponent).toNat
where
  shrink : Nat → Rat → Nat → Option Rat
    | 0, f, _ => some f
    | steps + 1, f, e =>
      if e ≤ 308 then
        (Binary64.nearestDecimal 1 e).bind fun p => Binary64.nearestPos (f / p)
      else
        match (Binary64.nearestDecimal 1 308).bind fun p => Binary64.nearestPos (f / p) with
        | some f => shrink steps f (e - 308)
        | none => none

/-- The value of an exponent, kept within the 32 bits that it may take. -/
def exponentValue (negative : Bool) (ds : List Char) : Int :=
  let n := min (Numeral.ofDigits ds) 0x7FFFFFFF
  if negative then -n else n

/-- A number that has a fraction or an exponent, or too many digits for 64 bits. -/
def realNumber (negative : Bool) (whole fraction : List Char) (exponent : Int) :
    Option JsonNumber :=
  let (n, left) := fitDigits 0 whole
  let (n, used) :=
    if left = 0 then
      let (m, left) := fitDigits n fraction
      (m, fraction.length - left)
    else (n, 0)
  (scale n (exponent + left - used)).map (.real negative)

/-- The digits at the front, at least one. -/
def digits? (cs : List Char) : Option (List Char × List Char) :=
  match cs.takeWhile Numeral.isDigit with
  | [] => none
  | ds => some (ds, cs.dropWhile Numeral.isDigit)

/-- The whole part of a number, which starts with a zero only if it is one. -/
def whole? (cs : List Char) : Option (List Char × List Char) :=
  match digits? cs with
  | some ('0' :: _ :: _, _) => none
  | r => r

/-- The parts of a number as it is written, without its sign. -/
structure Written where
  whole : List Char
  fraction : Option (List Char)
  exponent : Option Int

/-- The parts of the number at the front, and what follows it. -/
def written? (cs : List Char) : Option (Written × List Char) := do
  let (whole, rest) ← whole? cs
  let (fraction, rest) ← match rest with
    | '.' :: r => (digits? r).map fun (ds, r) => (some ds, r)
    | r => some (none, r)
  let (exponent, rest) ← match rest with
    | c :: r =>
      if c = 'e' ∨ c = 'E' then
        let (minus, r) := Numeral.splitSign r
        (digits? r).map fun (ds, r) => (some (exponentValue minus ds), r)
      else some (none, c :: r)
    | [] => some (none, [])
  return (⟨whole, fraction, exponent⟩, rest)

/-- A number without its sign, and what follows it. -/
def readNumber (negative : Bool) (cs : List Char) : Option (JsonNumber × List Char) := do
  let (w, rest) ← written? cs
  let n := Numeral.ofDigits w.whole
  let exact := if negative then 0 < n ∧ n ≤ 0x8000000000000000 else n < 0x10000000000000000
  if w.fraction.isNone ∧ w.exponent.isNone ∧ exact then
    return (.int (if negative then -n else n), rest)
  else
    let number ← realNumber negative w.whole (w.fraction.getD []) (w.exponent.getD 0)
    return (number, rest)

/-! ## Strings -/

def hexValue? (c : Char) : Option Nat :=
  if '0' ≤ c ∧ c ≤ '9' then some (c.toNat - 48)
  else if 'a' ≤ c ∧ c ≤ 'f' then some (c.toNat - 87)
  else if 'A' ≤ c ∧ c ≤ 'F' then some (c.toNat - 55)
  else none

def hex4? (a b c d : Char) : Option Nat := do
  return ((((← hexValue? a) * 16 + (← hexValue? b)) * 16 + (← hexValue? c)) * 16 + (← hexValue? d))

/-- The character that a single letter stands for after a backslash. -/
def unescape? : Char → Option Char
  | '"' => some '"'
  | '\\' => some '\\'
  | '/' => some '/'
  | 'b' => some '\x08'
  | 'f' => some '\x0c'
  | 'n' => some '\n'
  | 'r' => some '\r'
  | 't' => some '\t'
  | _ => none

/-- The character of two surrogate units. -/
def ofSurrogates? (high low : Nat) : Option Char :=
  if 0xD800 ≤ high ∧ high < 0xDC00 ∧ 0xDC00 ≤ low ∧ low < 0xE000 then
    some (Char.ofNat (0x10000 + (high - 0xD800) * 0x400 + (low - 0xDC00)))
  else none

/-- The characters of a string after its opening quote, and what follows the closing one. -/
def readString : List Char → Option (List Char × List Char)
  | [] => none
  | '"' :: cs => some ([], cs)
  | '\\' :: 'u' :: a :: b :: c :: d :: cs => do
    let unit ← hex4? a b c d
    if 0xD800 ≤ unit ∧ unit < 0xE000 then
      match cs with
      | '\\' :: 'u' :: e :: f :: g :: h :: cs =>
        let char ← ofSurrogates? unit (← hex4? e f g h)
        let (text, rest) ← readString cs
        return (char :: text, rest)
      | _ => none
    else
      let (text, rest) ← readString cs
      return (Char.ofNat unit :: text, rest)
  | '\\' :: c :: cs => do
    let char ← unescape? c
    let (text, rest) ← readString cs
    return (char :: text, rest)
  | c :: cs =>
    if c = '\\' ∨ c.toNat < 0x20 then none
    else do
      let (text, rest) ← readString cs
      return (c :: text, rest)

/-! ## Values that are passed over -/

/-- What follows the closing quote of a string; a surrogate may stand alone in it. -/
def skipString : List Char → Option (List Char)
  | [] => none
  | '"' :: cs => some cs
  | '\\' :: 'u' :: a :: b :: c :: d :: cs => do
    let _ ← hex4? a b c d
    skipString cs
  | '\\' :: c :: cs => do
    let _ ← unescape? c
    skipString cs
  | c :: cs => if c = '\\' ∨ c.toNat < 0x20 then none else skipString cs

/-- What follows the name of a member and its colon. -/
def skipName (cs : List Char) : Option (List Char) :=
  match skipSpace cs with
  | '"' :: cs =>
    match (skipString cs).map skipSpace with
    | some (':' :: rest) => some rest
    | _ => none
  | _ => none

/-- A container that is being passed over. -/
inductive Container where
  | array
  | object

mutual
/--
What follows a value and the containers around it, the innermost first. Only the form is looked at:
numbers may be beyond the format, and containers as deep as they like.
-/
def skipValue : (fuel : Nat) → List Container → List Char → Option (List Char)
  | 0, _, _ => none
  | fuel + 1, around, cs =>
    let word (w : String) (cs : List Char) : Option (List Char) :=
      (w.toList.isPrefixOf? cs).bind (skipAround fuel around)
    let number (cs : List Char) : Option (List Char) :=
      (written? cs).bind fun (_, rest) => skipAround fuel around rest
    match skipSpace cs with
    | 'n' :: cs => word "ull" cs
    | 't' :: cs => word "rue" cs
    | 'f' :: cs => word "alse" cs
    | '"' :: cs => (skipString cs).bind (skipAround fuel around)
    | '-' :: cs => number cs
    | '[' :: cs =>
      match skipSpace cs with
      | ']' :: rest => skipAround fuel around rest
      | cs => skipValue fuel (.array :: around) cs
    | '{' :: cs =>
      match skipSpace cs with
      | '}' :: rest => skipAround fuel around rest
      | cs => (skipName cs).bind (skipValue fuel (.object :: around))
    | cs => number cs

/-- What follows the containers around a value that was passed over. -/
def skipAround : (fuel : Nat) → List Container → List Char → Option (List Char)
  | 0, _, _ => none
  | _ + 1, [], cs => some cs
  | fuel + 1, .array :: around, cs =>
    match skipSpace cs with
    | ',' :: rest => skipValue fuel (.array :: around) rest
    | ']' :: rest => skipAround fuel around rest
    | _ => none
  | fuel + 1, .object :: around, cs =>
    match skipSpace cs with
    | ',' :: rest => (skipName rest).bind (skipValue fuel (.object :: around))
    | '}' :: rest => skipAround fuel around rest
    | _ => none
end

/-! ## Values -/

/-- A given word at the front, and what follows it. -/
def word? (word : String) (v : Json) (cs : List Char) : Option (Json × List Char) :=
  (word.toList.isPrefixOf? cs).map fun rest => (v, rest)

mutual
/--
A value at the front, inside containers that leave `depth` further levels, and what follows it. Each
two calls take a character, so twice the length of the text is `fuel` enough.
-/
def readValue : (fuel depth : Nat) → List Char → Option (Json × List Char)
  | 0, _, _ => none
  | fuel + 1, depth, cs =>
    match skipSpace cs with
    | 'n' :: cs => word? "ull" null cs
    | 't' :: cs => word? "rue" (bool true) cs
    | 'f' :: cs => word? "alse" (bool false) cs
    | '"' :: cs => (readString cs).map fun (text, rest) => (string (String.ofList text), rest)
    | '-' :: cs => (readNumber true cs).map fun (n, rest) => (number n, rest)
    | '[' :: cs =>
      match depth with
      | 0 => none
      | depth + 1 =>
        match skipSpace cs with
        | ']' :: rest => some (array [], rest)
        | cs => (readItems fuel depth cs).map fun (items, rest) => (array items, rest)
    | '{' :: cs =>
      match depth with
      | 0 => none
      | depth + 1 =>
        match skipSpace cs with
        | '}' :: rest => some (object [], rest)
        | cs =>
          (readMembers (fun _ => true) fuel depth cs).map fun (members, rest) => (object members, rest)
    | cs => (readNumber false cs).map fun (n, rest) => (number n, rest)

/-- The items of an array from one of them to the closing bracket. -/
def readItems : (fuel depth : Nat) → List Char → Option (List Json × List Char)
  | 0, _, _ => none
  | fuel + 1, depth, cs =>
    match readValue fuel depth cs with
    | none => none
    | some (v, rest) =>
      match skipSpace rest with
      | ',' :: rest => (readItems fuel depth rest).map fun (vs, rest) => (v :: vs, rest)
      | ']' :: rest => some ([v], rest)
      | _ => none

/--
The members of an object from one of them to the closing brace. Those whose names are not wanted are
passed over.
-/
def readMembers (wanted : String → Bool) :
    (fuel depth : Nat) → List Char → Option (List (String × Json) × List Char)
  | 0, _, _ => none
  | fuel + 1, depth, cs =>
    match skipSpace cs with
    | '"' :: cs =>
      match readString cs with
      | none => none
      | some (name, rest) =>
        let name := String.ofList name
        match skipSpace rest with
        | ':' :: rest =>
          let member :=
            if wanted name then
              (readValue fuel depth rest).map fun (v, rest) => ([(name, v)], rest)
            else (skipValue (2 * rest.length + 2) [] rest).map fun rest => ([], rest)
          match member with
          | none => none
          | some (m, rest) =>
            match skipSpace rest with
            | ',' :: rest =>
              (readMembers wanted fuel depth rest).map fun (ms, rest) => (m ++ ms, rest)
            | '}' :: rest => some (m, rest)
            | _ => none
        | _ => none
    | _ => none
end

/-- The value that reading gave, if only blanks follow it. -/
def alone : Option (Json × List Char) → Option Json
  | some (v, rest) => if (skipSpace rest).isEmpty then some v else none
  | none => none

/-- The value that a text writes, with blanks around it and nothing else. -/
def read? (text : String) : Option Json :=
  let cs := text.toList
  alone (readValue (2 * cs.length + 2) depthLimit cs)

/-- As `read?`, but of an object only the members with the given names. -/
def readStructure? (names : List String) (text : String) : Option Json :=
  let cs := text.toList
  let fuel := 2 * cs.length + 2
  match skipSpace cs with
  | '{' :: cs =>
    match skipSpace cs with
    | '}' :: rest => alone (some (object [], rest))
    | cs =>
      alone ((readMembers names.contains fuel (depthLimit - 1) cs).map fun (ms, rest) =>
        (object ms, rest))
  | cs => alone (readValue fuel depthLimit cs)

end TagHarvest.Json
