/-
Character sets of sources. A byte order mark decides before the character set does, except that UTF-8 is
always read as UTF-8.
-/
import TagHarvest.Text.Case
import TagHarvest.Text.Utf16

namespace TagHarvest

inductive Charset where
  | utf8
  /-- Latin letters with the euro sign, for which the older Latin set is taken too. -/
  | latin9
  | windows1252
  deriving DecidableEq, Repr

namespace Charset

/-- The name under which a detected character set is reported. -/
def name : Charset → String
  | utf8 => "utf-8"
  | latin9 => "iso-8859-1"
  | windows1252 => "windows-1252"

/-- The character set of a name, in any case of letters; an unknown name means UTF-8. -/
def ofName (name : String) : Charset :=
  match Text.lower name with
  | "iso-8859-1" | "latin-1" | "latin1" => latin9
  | "windows-1252" | "cp1252" => windows1252
  | _ => utf8

/-- The octets that stand for other characters than those of their own numbers. -/
def exceptions : Charset → List (Nat × Nat)
  | utf8 => []
  | latin9 =>
    [(0xA4, 0x20AC), (0xA6, 0x160), (0xA8, 0x161), (0xB4, 0x17D), (0xB8, 0x17E), (0xBC, 0x152),
      (0xBD, 0x153), (0xBE, 0x178)]
  | windows1252 =>
    [(0x80, 0x20AC), (0x82, 0x201A), (0x83, 0x192), (0x84, 0x201E), (0x85, 0x2026), (0x86, 0x2020),
      (0x87, 0x2021), (0x88, 0x2C6), (0x89, 0x2030), (0x8A, 0x160), (0x8B, 0x2039), (0x8C, 0x152),
      (0x8E, 0x17D), (0x91, 0x2018), (0x92, 0x2019), (0x93, 0x201C), (0x94, 0x201D), (0x95, 0x2022),
      (0x96, 0x2013), (0x97, 0x2014), (0x98, 0x2DC), (0x99, 0x2122), (0x9A, 0x161), (0x9B, 0x203A),
      (0x9C, 0x153), (0x9E, 0x17E), (0x9F, 0x178)]

/-- The character of an octet in a character set of single octets. -/
def character (c : Charset) (b : UInt8) : Char :=
  Char.ofNat ((c.exceptions.lookup b.toNat).getD b.toNat)

/-- The text of octets by their byte order mark, if they begin with one. -/
def decodeMarked? : List UInt8 → Option (List Char)
  | 0xEF :: 0xBB :: 0xBF :: bs => some (Text.Utf8.decode bs)
  | 0xFF :: 0xFE :: bs => some (Text.Utf16.decode .little bs)
  | 0xFE :: 0xFF :: bs => some (Text.Utf16.decode .big bs)
  | _ => none

/-- The text of octets. -/
def decode (c : Charset) (bs : List UInt8) : String :=
  String.ofList <| Text.dropMark <|
    match c with
    | utf8 => Text.Utf8.decode bs
    | c => (decodeMarked? bs).getD (bs.map c.character)

/-- The character set of octets: UTF-8 if they can be read so or have its mark. -/
def detect (bs : List UInt8) : Charset :=
  match bs with
  | 0xEF :: 0xBB :: 0xBF :: _ => utf8
  | bs => if (Text.Utf8.decode? bs).isSome then utf8 else latin9

end Charset
end TagHarvest
