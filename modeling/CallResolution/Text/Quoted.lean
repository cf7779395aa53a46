/-
# Quoted text

A string written between double quotes so that every character of it can be
seen: the common control characters, the quote and the backslash as two-character
escapes; every other unprintable character, every mark drawn on the character
before it and every character that may be ignored as its code point in lowercase
hexadecimal (`\u{301}`); and all else, the apostrophe included, as it is.
-/

import CallResolution.Text.DefaultIgnorable
import CallResolution.Text.ExtendingMark
import CallResolution.Text.Unprintable

namespace CallResolution
namespace Text

/-- A number in lowercase hexadecimal, without leading zeros. -/
def hexadecimal (n : Nat) : String := String.ofList (Nat.toDigits 16 n)

/-- Whether a character cannot be seen as a glyph of its own. -/
def isHidden (c : Char) : Bool := isUnprintable c || isExtendingMark c || isDefaultIgnorable c

/-- How one character is written between the quotes. -/
def escape (c : Char) : String :=
  match c with
  | '\x00' => "\\0"
  | '\t' => "\\t"
  | '\n' => "\\n"
  | '\r' => "\\r"
  | '\"' => "\\\""
  | '\\' => "\\\\"
  | c => if isHidden c then "\\u\x7b" ++ hexadecimal c.toNat ++ "\x7d" else c.toString

/-- The text between double quotes, every character written by `escape`. -/
def quoted (s : String) : String := "\"" ++ String.join (s.toList.map escape) ++ "\""

end Text
end CallResolution
