/-
JSON texts. Compact texts have no blanks; pretty ones indent by two spaces and write empty containers in
one piece. Of the characters of a string only quotes, backslashes and those below the space are escaped.
-/
import TagHarvest.Json.Basic

namespace TagHarvest.Json

def hexDigit (n : Nat) : Char := (Nat.digitChar n)

/-- A character as it stands in a string. -/
def escapeChar (c : Char) : List Char :=
  if c = '"' then ['\\', '"']
  else if c = '\\' then ['\\', '\\']
  else if c = '\x08' then ['\\', 'b']
  else if c = '\x0c' then ['\\', 'f']
  else if c = '\n' then ['\\', 'n']
  else if c = '\r' then ['\\', 'r']
  else if c = '\t' then ['\\', 't']
  else if c.toNat < 0x20 then
    ['\\', 'u', '0', '0', hexDigit (c.toNat / 16), hexDigit (c.toNat % 16)]
  else [c]

/-- A string with its quotes. -/
def quote (s : String) : List Char :=
  '"' :: s.toList.flatMap escapeChar ++ ['"']

/--
The text of a positive number of the format binary64: its shortest digits, written positionally when
the point falls after at most 16 digits or after at most four leading zeros, otherwise with an exponent,
which always has a sign.
-/
def realText (x : Rat) : List Char :=
  let d := Binary64.shortest x
  let digits := (Nat.repr d.digits).toList
  let n := digits.length
  let point := (n : Int) + d.exponent
  if 0 ≤ d.exponent ∧ point ≤ 16 then
    digits ++ List.replicate d.exponent.toNat '0' ++ ['.', '0']
  else if 0 < point ∧ point ≤ 16 then
    digits.take point.toNat ++ '.' :: digits.drop point.toNat
  else if -5 < point ∧ point ≤ 0 then
    ['0', '.'] ++ List.replicate (-point).toNat '0' ++ digits
  else
    let exponent := 'e' :: (if 0 < point then ['+'] else []) ++ (toString (point - 1)).toList
    if n = 1 then digits ++ exponent
    else digits.take 1 ++ '.' :: digits.drop 1 ++ exponent

def numberText : JsonNumber → List Char
  | .int n => (toString n).toList
  | .real negative x =>
    (if negative then ['-'] else []) ++ if x = 0 then ['0', '.', '0'] else realText x

/-- Texts with a separator between each two. -/
def separated (separator : List Char) : List (List Char) → List Char
  | [] => []
  | [t] => t
  | t :: ts => t ++ separator ++ separated separator ts

mutual
/-- The compact text of a value. -/
def compactChars : Json → List Char
  | null => "null".toList
  | bool b => (if b then "true" else "false").toList
  | number n => numberText n
  | string s => quote s
  | array items => '[' :: separated [','] (compactItems items) ++ [']']
  | object members => '{' :: separated [','] (compactMembers members) ++ ['}']

def compactItems : List Json → List (List Char)
  | [] => []
  | v :: vs => compactChars v :: compactItems vs

def compactMembers : List (String × Json) → List (List Char)
  | [] => []
  | (name, v) :: ms => (quote name ++ ':' :: compactChars v) :: compactMembers ms
end

/-- A line break and the indentation of a level. -/
def newline (level : Nat) : List Char := '\n' :: List.replicate (2 * level) ' '

/-- The items of a container, each on a line of its own. -/
def block (opening closing : Char) (level : Nat) : List (List Char) → List Char
  | [] => [opening, closing]
  | items =>
    opening :: newline (level + 1) ++ separated (',' :: newline (level + 1)) items ++
      newline level ++ [closing]

mutual
/-- The pretty text of a value inside `level` containers. -/
def prettyChars (level : Nat) : Json → List Char
  | array items => block '[' ']' level (prettyItems (level + 1) items)
  | object members => block '{' '}' level (prettyMembers (level + 1) members)
  | null => "null".toList
  | bool b => (if b then "true" else "false").toList
  | number n => numberText n
  | string s => quote s

def prettyItems (level : Nat) : List Json → List (List Char)
  | [] => []
  | v :: vs => prettyChars level v :: prettyItems level vs

def prettyMembers (level : Nat) : List (String × Json) → List (List Char)
  | [] => []
  | (name, v) :: ms => (quote name ++ [':', ' '] ++ prettyChars level v) :: prettyMembers level ms
end

def compact (v : Json) : String := String.ofList (compactChars v)
def pretty (v : Json) : String := String.ofList (prettyChars 0 v)

end TagHarvest.Json
