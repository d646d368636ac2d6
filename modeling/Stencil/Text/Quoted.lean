import Stencil.Text.Printable

/-!
# Quoted texts

A quoted text stands between double quotes.  Inside, the quote and the backslash are
written with a backslash before them, the tab, the line breaks and the null character with
a letter of their own, and a character that is not printable or is a mark that extends a
grapheme with its code point.
-/

namespace Stencil.Text

/-- The code point of a character in hexadecimal, between braces. -/
def escapeCode (c : Char) : List Char :=
  ['\\', 'u', '\x7b'] ++ Nat.toDigits 16 c.toNat ++ ['\x7d']

/-- A character as it is written between quotes. -/
def escape (c : Char) : List Char :=
  if c = '"' then ['\\', '"']
  else if c = '\\' then ['\\', '\\']
  else if c = '\n' then ['\\', 'n']
  else if c = '\r' then ['\\', 'r']
  else if c = '\t' then ['\\', 't']
  else if c.toNat = 0 then ['\\', '0']
  else if isExtendingMark c || !isPrintable c then escapeCode c
  else [c]

/-- A text between quotes. -/
def quoted (text : String) : String :=
  String.ofList ('"' :: text.toList.flatMap escape ++ ['"'])

/-- A list of quoted texts between brackets. -/
def quotedList (texts : List String) : String :=
  "[" ++ String.intercalate ", " (texts.map quoted) ++ "]"

end Stencil.Text
