import NameResolution.Text.CodePoints

/-!
# NameResolution.Text.Quoted

**Quoted text.** A character or string literal is written between quotes, with an escape
for every character that could not be told apart in print: the quote itself, the
backslash, NUL, tab, line feed, carriage return, whatever cannot be seen, and whatever
would merge with the character before it. The last two are written by code point, as
`\u{301}`.
-/

namespace NameResolution

namespace Quoted

/-- A character by its code point in lower-case hexadecimal digits. -/
def byCodePoint (c : Char) : List Char :=
  ['\\', 'u', '\x7b'] ++ Nat.toDigits 16 c.toNat ++ ['\x7d']

/-- How a character is written inside the given quotes. -/
def escape (quote : Char) (c : Char) : List Char :=
  if c = '\x00' then ['\\', '0']
  else if c = '\t' then ['\\', 't']
  else if c = '\r' then ['\\', 'r']
  else if c = '\n' then ['\\', 'n']
  else if c = '\\' then ['\\', '\\']
  else if c = quote then ['\\', c]
  else if CodePoints.extendsGrapheme c || !CodePoints.isPrintable c then byCodePoint c
  else [c]

/-- The text between the given quotes, escaped where needed. -/
def quoted (quote : Char) (cs : List Char) : String :=
  String.ofList ([quote] ++ cs.flatMap (escape quote) ++ [quote])

/-- A character literal. -/
def char (c : Char) : String := quoted '\'' [c]

/-- A string literal. -/
def string (s : String) : String := quoted '"' s.toList

end Quoted

end NameResolution
