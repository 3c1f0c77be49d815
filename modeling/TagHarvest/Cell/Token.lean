/-
Tokens of a cell. A cell is cut at the operators `= + * ; ,`, at blanks and around quoted literals;
what starts with `#` between two cuts is a tag, and any other bare text a word. `scan` reads a cell from
left to right and keeps what it read when a literal is never closed, so `tokenize` and the recognition
of row markers look at the same tokens.
-/
import TagHarvest.Text.Blank

namespace TagHarvest

inductive Token where
  /-- A bare text that starts with `#`, which is part of it. -/
  | tag (text : String)
  /-- The contents of a literal in double quotes. -/
  | literal (text : String)
  /-- The contents of a raw literal: `r` before either kind of quote. -/
  | pattern (text : String)
  /-- Any other bare text. -/
  | word (text : String)
  | equals
  | plus
  | star
  | semicolon
  | comma
  deriving DecidableEq, Repr

/-- Where a literal that is never closed starts; offsets count characters from 0. -/
inductive LexError where
  | literal (offset : Nat)
  | pattern (offset : Nat)
  deriving DecidableEq, Repr

namespace LexError

def offset : LexError → Nat
  | literal o => o
  | pattern o => o

def message : LexError → String
  | literal o => s!"unterminated string literal (at character {o})"
  | pattern o => s!"unterminated regular expression literal (at character {o})"

end LexError

namespace Token

def operator? : Char → Option Token
  | '=' => some equals
  | '+' => some plus
  | '*' => some star
  | ';' => some semicolon
  | ',' => some comma
  | _ => none

def isOperator : Token → Bool
  | equals | plus | star | semicolon | comma => true
  | _ => false

def isOperand : Token → Bool
  | tag _ | literal _ | pattern _ | word _ => true
  | _ => false

/-- The text shown for a token in messages. -/
def display : Token → String
  | tag t | word t => t
  | literal s => "\"" ++ s ++ "\""
  | pattern s => "r\"" ++ s ++ "\""
  | equals => "="
  | plus => "+"
  | star => "*"
  | semicolon => ";"
  | comma => ","

/-- True of a character that ends a tag or a word. -/
def endsBare (c : Char) : Bool :=
  Text.isBlank c || c == '"' || (operator? c).isSome

/-- The token of a bare text. -/
def ofBare : List Char → Token
  | '#' :: cs => tag (String.ofList ('#' :: cs))
  | cs => word (String.ofList cs)

/--
The contents of a literal after its opening quote, and what follows the closing one. A backslash takes
a quote or a backslash after it as text.
-/
def readQuoted : List Char → Option (List Char × List Char)
  | [] => none
  | '\\' :: '"' :: cs => (readQuoted cs).map fun (t, r) => ('"' :: t, r)
  | '\\' :: '\\' :: cs => (readQuoted cs).map fun (t, r) => ('\\' :: t, r)
  | '"' :: cs => some ([], cs)
  | c :: cs => (readQuoted cs).map fun (t, r) => (c :: t, r)

/-- The contents of a raw literal after its opening `quote`, and what follows the closing one. -/
def readRaw (quote : Char) : List Char → Option (List Char × List Char)
  | [] => none
  | c :: cs => if c = quote then some ([], cs) else (readRaw quote cs).map fun (t, r) => (c :: t, r)

theorem length_of_readQuoted {cs t r : List Char} (h : readQuoted cs = some (t, r)) :
    r.length < cs.length := by
  induction cs using readQuoted.induct generalizing t r with
  | case1 => simp [readQuoted] at h
  | case2 cs ih =>
    simp only [readQuoted, Option.map_eq_some_iff, Prod.exists, Prod.mk.injEq] at h
    obtain ⟨a, b, h, rfl, rfl⟩ := h
    have := ih h
    simp only [List.length_cons]; omega
  | case3 cs ih =>
    simp only [readQuoted, Option.map_eq_some_iff, Prod.exists, Prod.mk.injEq] at h
    obtain ⟨a, b, h, rfl, rfl⟩ := h
    have := ih h
    simp only [List.length_cons]; omega
  | case4 cs =>
    simp only [readQuoted, Option.some.injEq, Prod.mk.injEq] at h
    obtain ⟨rfl, rfl⟩ := h
    simp
  | case5 c cs h1 h2 h3 ih =>
    rw [readQuoted] at h
    · simp only [Option.map_eq_some_iff, Prod.exists, Prod.mk.injEq] at h
      obtain ⟨a, b, h, rfl, rfl⟩ := h
      have := ih h
      simp only [List.length_cons]; omega
    · exact h1
    · exact h2
    · exact h3

theorem length_of_readRaw {q : Char} {cs t r : List Char} (h : readRaw q cs = some (t, r)) :
    r.length < cs.length := by
  induction cs generalizing t with
  | nil => simp [readRaw] at h
  | cons c cs ih =>
    by_cases hc : c = q
    · simp [readRaw, hc] at h
      obtain ⟨rfl, rfl⟩ := h
      simp
    · simp only [readRaw, hc, if_false, Option.map_eq_some_iff, Prod.exists, Prod.mk.injEq] at h
      obtain ⟨a, b, h, rfl, rfl⟩ := h
      have := ih h
      simp only [List.length_cons]; omega

/-- What a cell starts with: a token, the text after it, or a literal that is never closed. -/
inductive Start where
  | blank
  | token (t : Token) (rest : List Char)
  | unclosedLiteral
  | unclosedPattern

/-- The start of the text `c :: cs`. -/
def start (c : Char) (cs : List Char) : Start :=
  if Text.isBlank c then .blank
  else match operator? c with
  | some op => .token op cs
  | none =>
    if c = '"' then
      match readQuoted cs with
      | some (t, rest) => .token (.literal (String.ofList t)) rest
      | none => .unclosedLiteral
    else match c, cs with
    | 'r', '"' :: body => raw (readRaw '"' body)
    | 'r', '\'' :: body => raw (readRaw '\'' body)
    | _, _ => .token (ofBare (c :: cs.takeWhile (!endsBare ·))) (cs.dropWhile (!endsBare ·))
where
  raw : Option (List Char × List Char) → Start
    | some (t, rest) => .token (.pattern (String.ofList t)) rest
    | none => .unclosedPattern

theorem length_of_start {c : Char} {cs rest : List Char} {t : Token}
    (h : start c cs = .token t rest) : rest.length ≤ cs.length := by
  unfold start at h
  split at h
  · cases h
  · split at h
    · simp only [Start.token.injEq] at h; exact h.2 ▸ Nat.le_refl _
    · split at h
      · split at h
        · rename_i hq; simp only [Start.token.injEq] at h
          obtain ⟨-, rfl⟩ := h
          exact Nat.le_of_lt (length_of_readQuoted hq)
        · cases h
      · split at h
        · rename_i body
          unfold start.raw at h
          split at h
          · rename_i hr; simp only [Start.token.injEq] at h
            obtain ⟨-, rfl⟩ := h
            have := length_of_readRaw hr
            simp only [List.length_cons]; omega
          · cases h
        · rename_i body
          unfold start.raw at h
          split at h
          · rename_i hr; simp only [Start.token.injEq] at h
            obtain ⟨-, rfl⟩ := h
            have := length_of_readRaw hr
            simp only [List.length_cons]; omega
          · cases h
        · simp only [Start.token.injEq] at h
          obtain ⟨-, rfl⟩ := h
          exact (List.dropWhile_sublist _).length_le

/--
The tokens of a text up to its end or the first literal that is never closed, and that literal's
place. `size` is the length of the whole cell, so the place is counted from the cell's beginning.
-/
def scan (size : Nat) : List Char → List Token × Option LexError
  | [] => ([], none)
  | c :: cs =>
    match h : start c cs with
    | .blank => scan size cs
    | .token t rest =>
      have := length_of_start h
      let (ts, e) := scan size rest
      (t :: ts, e)
    | .unclosedLiteral => ([], some (.literal (size - (cs.length + 1))))
    | .unclosedPattern => ([], some (.pattern (size - (cs.length + 1))))
termination_by cs => cs.length
decreasing_by all_goals simp only [List.length_cons] at *; omega

/-- The tokens of a cell up to the first lexing error, and that error. -/
def scanCell (cell : String) : List Token × Option LexError :=
  scan cell.toList.length cell.toList

/-- The tokens of a cell. -/
def tokenize (cell : String) : Except LexError (List Token) :=
  match scanCell cell with
  | (ts, none) => .ok ts
  | (_, some e) => .error e

/-- The bare text that a cell starts with; empty before an operator or a quote. -/
def leadingBare (cell : String) : String :=
  String.ofList ((Text.dropBlanks cell.toList).takeWhile (!endsBare ·))

end Token
end TagHarvest
