import Stencil.Text.Blank
import Stencil.Text.Digit
import Stencil.Text.Letter

/-!
# Stencil — whole numbers written out

How a text writes a whole number in a base: blanks around it, a sign, the mark
of its base, and digits of any script with single underscores among them. In
base ten there is a limit to the number of digits; the other bases are powers
of two and have none.
-/

namespace Stencil.Number

open Stencil.Text

/-- Why a text is not taken for a whole number. -/
inductive NumeralFault where
  | unreadable
  /-- More digits than are allowed. -/
  | tooLong (digits : Nat)
  deriving DecidableEq, Repr

/-- The most digits that a number in base ten can have. -/
def digitLimit : Nat := 4300

/-- What a letter of a number counts for: a digit of any script for the common
digit, white space beyond ASCII for a space, and anything else beyond ASCII for
nothing that a number can hold. -/
def commonForm : Letter → Char
  | .half _ => '?'
  | .char c =>
    if c.toNat < 127 then c
    else if isWhiteSpace c then ' '
    else
      match decimalDigit? c with
      | some value => Char.ofNat (48 + value)
      | none => '?'

/-- The blanks of ASCII, without the information separators. -/
def isPlainBlank (c : Char) : Bool :=
  c == ' ' || ('\x09' ≤ c && c ≤ '\x0d')

/-- A sign at the front and the text after it. -/
def splitSign : List Char → Bool × List Char
  | '-' :: rest => (true, rest)
  | '+' :: rest => (false, rest)
  | cs => (false, cs)

def isHexDigit (c : Char) : Bool :=
  c.isDigit || ('a' ≤ c && c ≤ 'f') || ('A' ≤ c && c ≤ 'F')

/-- The value of a hexadecimal digit. -/
def hexValue (c : Char) : Nat :=
  if c.isDigit then c.toNat - 48
  else if 'a' ≤ c && c ≤ 'f' then c.toNat - 87
  else c.toNat - 55

/-- Whether a character is a digit in a base up to sixteen. -/
def isDigitIn (base : Nat) (c : Char) : Bool :=
  isHexDigit c && hexValue c < base

/-- The number that digits in a base write. -/
def valueIn (base : Nat) (digits : List Char) : Nat :=
  digits.foldl (fun n c => n * base + hexValue c) 0

/-- The letter that may follow a zero in front of digits in a base. -/
def baseLetter (base : Nat) : Char :=
  if base = 2 then 'b' else if base = 8 then 'o' else 'x'

/-- Digits without the zero and the letter that may tell their base. -/
def dropBaseMark (base : Nat) (cs : List Char) : List Char :=
  match cs with
  | '0' :: c :: rest => if base ≠ 10 ∧ c.toLower = baseLetter base then rest else cs
  | _ => cs

/-- Whether underscores stand between digits only, one at a time. -/
def underscoresFit (cs : List Char) : Bool :=
  cs.head? != some '_' && cs.getLast? != some '_' && !go cs
where
  go : List Char → Bool
    | '_' :: '_' :: _ => true
    | _ :: rest => go rest
    | [] => false

/-- The whole number that a text writes in a base. -/
def wholeIn (base : Nat) (letters : List Letter) : Except NumeralFault Int :=
  let (isNegative, unsigned) := splitSign ((letters.map commonForm).dropWhile isPlainBlank)
  let cs := dropBaseMark base unsigned
  let isPart (c : Char) : Bool := isDigitIn base c || c == '_'
  let numeral := cs.takeWhile isPart
  let digits := numeral.filter (· != '_')
  if !underscoresFit numeral then .error .unreadable
  else if base = 10 ∧ digitLimit < digits.length then .error (.tooLong digits.length)
  else if digits = [] ∨ !(cs.dropWhile isPart).all isPlainBlank then .error .unreadable
  else
    let n : Int := valueIn base digits
    .ok (if isNegative then -n else n)

end Stencil.Number
