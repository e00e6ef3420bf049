import Polyfill.Text.Unprintable
import Polyfill.Text.GraphemeExtend
import Polyfill.Text.DefaultIgnorable
/-!
# Quoted text

A string as it stands in a description of an object: between double quotes, with an escape for
every character that would be invisible, would join its neighbour, or would end the text.
-/

namespace Polyfill.Text

/-- A code point in braces, in hexadecimal without leading zeros. -/
def codePointEscape (c : Char) : String :=
  "\\u\x7b" ++ String.ofList (Nat.toDigits 16 c.toNat) ++ "\x7d"

/-- The halfwidth sound marks.  They extend the letter before them, and still fill a cell of their
own, so a reader sees them wherever they stand. -/
def isHalfwidthSoundMark (c : Char) : Bool :=
  c.toNat == 0xFF9E || c.toNat == 0xFF9F

/-- Whether a reader could miss a character in plain text: it has no visible form, is left out of
a display, or melts into its neighbour. -/
def isObscure (c : Char) : Bool :=
  isUnprintable c || isDefaultIgnorable c || (isGraphemeExtend c && !isHalfwidthSoundMark c)

/-- One character of a quoted text.  An apostrophe needs no escape between double quotes. -/
def quoteChar (c : Char) : String :=
  if c = '"' then "\\\""
  else if c = '\\' then "\\\\"
  else if c = '\n' then "\\n"
  else if c = '\t' then "\\t"
  else if c = '\r' then "\\r"
  else if c = Char.ofNat 0 then "\\0"
  else if isObscure c then codePointEscape c
  else c.toString

/-- A string between double quotes. -/
def quoted (s : String) : String :=
  "\"" ++ String.join (s.toList.map quoteChar) ++ "\""

end Polyfill.Text
