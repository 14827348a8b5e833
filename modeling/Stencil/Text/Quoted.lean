import Stencil.Text.Letter
import Stencil.Text.Printable

/-!
# Stencil — quoted text in messages

A text that a message quotes stands between quotes with escapes, so that it
fills one line and can be told from the words around it. Single quotes are
used, unless the text holds a single quote and no double quote. Backslash, the
quote itself, tab, line feed and carriage return have short escapes; any other
character that does not print, and half of a surrogate pair, is written by its
code point.
-/

namespace Stencil.Text

/-- The digits of a number in lower case hexadecimal, at least `width` of
them. -/
def hexDigits (width n : Nat) : List Char :=
  let ds := Nat.toDigits 16 n
  List.replicate (width - ds.length) '0' ++ ds

/-- One character between `quote`s. -/
def quotedChar (quote c : Char) : List Char :=
  if c = quote ∨ c = '\\' then ['\\', c]
  else if c = '\t' then ['\\', 't']
  else if c = '\n' then ['\\', 'n']
  else if c = '\r' then ['\\', 'r']
  else if isPrintable c then [c]
  else if c.toNat < 0x100 then '\\' :: 'x' :: hexDigits 2 c.toNat
  else if c.toNat < 0x10000 then '\\' :: 'u' :: hexDigits 4 c.toNat
  else '\\' :: 'U' :: hexDigits 8 c.toNat

/-- The quote that a text is written between. -/
def quoteFor (cs : List Char) : Char :=
  if cs.contains '\'' && !cs.contains '"' then '"' else '\''

/-- The text between quotes, with escapes. -/
def quoted (s : String) : String :=
  let quote := quoteFor s.toList
  String.ofList (quote :: s.toList.flatMap (quotedChar quote) ++ [quote])

/-- One letter between `quote`s. -/
def quotedLetter (quote : Char) : Letter → List Char
  | .char c => quotedChar quote c
  | .half code => '\\' :: 'u' :: hexDigits 4 code

/-- The letters between quotes, with escapes. -/
def quotedLetters (letters : List Letter) : List Char :=
  let quote := quoteFor (letters.filterMap Letter.char?)
  quote :: letters.flatMap (quotedLetter quote) ++ [quote]

end Stencil.Text
