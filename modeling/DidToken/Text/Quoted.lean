import DidToken.Text.Characters
/-!
# Quoted text

A quoted text stands between double quotes, a quoted character between single quotes. Inside,
the quote in use and the backslash are escaped by a backslash, the usual control characters by a
letter, and every other character that does not stand by itself in print by its code point.
-/

namespace DidToken.Text.Quoted

/-- The digits of a code point in hexadecimal, lower case, without padding. -/
def codePoint (c : Char) : String :=
  String.ofList (Nat.toDigits 16 c.toNat)

/-- How a character is written between quotes of the kind `quote`. -/
def escape (quote c : Char) : String :=
  if c = '\x00' then "\\0"
  else if c = '\t' then "\\t"
  else if c = '\r' then "\\r"
  else if c = '\n' then "\\n"
  else if c = quote || c = '\\' then String.ofList ['\\', c]
  else if isUnprintable c then "\\u\x7b" ++ codePoint c ++ "\x7d"
  else c.toString

def text (s : String) : String :=
  "\"" ++ String.join (s.toList.map (escape '"')) ++ "\""

def char (c : Char) : String :=
  "'" ++ escape '\'' c ++ "'"

end DidToken.Text.Quoted
