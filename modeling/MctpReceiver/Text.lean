import MctpReceiver.Text.Hidden

/-!
# Text

Numbers in hexadecimal, text without the blanks at its ends, and text between quotes. Blanks are the
white space of Unicode (property White_Space). Between quotes every character can be told: a quote and
a backslash are marked by a backslash, a few controls have a letter, and other hidden characters are
written by number.
-/

namespace MctpReceiver.Text

/-! ## Hexadecimal -/

/-- The two digits of a byte, in lower case. -/
def hexByte (b : UInt8) : String :=
  .ofList [Nat.digitChar (b.toNat / 16), Nat.digitChar (b.toNat % 16)]

/-- The digits of a byte string, two for each byte. -/
def hexBytes (bytes : List UInt8) : String := .join (bytes.map hexByte)

/-- A number without leading zeros. -/
def hex (n : Nat) : String := .ofList (Nat.toDigits 16 n)

/-! ## Blanks -/

/-- White space, as first and last of each range. -/
def blankRanges : List (Nat × Nat) := [
  (0x9, 0xd), (0x20, 0x20), (0x85, 0x85), (0xa0, 0xa0), (0x1680, 0x1680), (0x2000, 0x200a),
  (0x2028, 0x2029), (0x202f, 0x202f), (0x205f, 0x205f), (0x3000, 0x3000)]

/-- The character is white space. -/
def isBlank (c : Char) : Bool :=
  blankRanges.any fun (first, last) => first ≤ c.toNat && c.toNat ≤ last

/-- The text without the blanks at its start and at its end. -/
def trim (cs : List Char) : List Char :=
  ((cs.dropWhile isBlank).reverse.dropWhile isBlank).reverse

/-! ## Quotes -/

/-- A character as it is written between quotes. -/
def escape (c : Char) : String :=
  match c with
  | '\x00' => "\\0"
  | '\t' => "\\t"
  | '\n' => "\\n"
  | '\r' => "\\r"
  | '"' => "\\\""
  | '\\' => "\\\\"
  | c => if isHidden c then "\\u\x7b" ++ hex c.toNat ++ "\x7d" else c.toString

/-- Text between quotes. -/
def quoted (s : String) : String := "\"" ++ .join (s.toList.map escape) ++ "\""

end MctpReceiver.Text
