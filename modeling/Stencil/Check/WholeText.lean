import Stencil.Number.Numeral
import Stencil.Text.Blank

/-!
# Stencil — whole numbers given as text

A whole number may be given as a decimal text with white space around it, a
sign, leading zeros, zeros after a point, and single underscores among its
digits. All that is taken off first, one thing after the other, and what is left
must be a plain numeral: digits, with no zero in front of others, and a minus
sign at most.
-/

namespace Stencil.Check

open Stencil.Number

/-- Why a text is not taken for a whole number. -/
inductive WholeFault where
  | unreadable
  /-- The text begins with a plain numeral that is too long. -/
  | oversized
  deriving DecidableEq, Repr

/-- A digit that is not zero. -/
def isLeadingDigit (c : Char) : Bool :=
  c.isDigit && c != '0'

/-- The number of characters of the plain numeral at the front of a text. One
that is a zero alone is not counted. -/
def numeralLength : List Char → Nat
  | '-' :: c :: rest =>
    if isLeadingDigit c then (rest.takeWhile Char.isDigit).length + 2 else 0
  | c :: rest => if isLeadingDigit c then (rest.takeWhile Char.isDigit).length + 1 else 0
  | [] => 0

/-- A text without a plus sign at the front, which no minus sign may follow. -/
def dropPlus : List Char → Option (List Char)
  | '+' :: '-' :: _ => none
  | '+' :: rest => some rest
  | cs => some cs

/-- What follows zeros and underscores, `final` being the last of them: a number
goes on with a digit or a minus sign; before a point and at the end the last of
them stays. -/
def afterZeros (final : Char) : List Char → Option (List Char)
  | [] => some [final]
  | c :: rest =>
    if c == '0' || c == '_' then afterZeros c rest
    else if c.isDigit || c == '-' then some (c :: rest)
    else if c == '.' then some (final :: c :: rest)
    else none

/-- A text without leading zeros. Any other text must begin with a digit or a
minus sign. -/
def dropZeros : List Char → Option (List Char)
  | [] => none
  | c :: rest =>
    if c == '0' then afterZeros c rest
    else if c.isDigit || c == '-' then some (c :: rest)
    else none

/-- A text without a point at which only zeros follow, at least one. -/
def dropPoint (cs : List Char) : List Char :=
  match cs.dropWhile (· != '.') with
  | [] => cs
  | _ :: after =>
    if after ≠ [] ∧ after.all (· == '0') then cs.takeWhile (· != '.') else cs

/-- A text without underscores, if each stands alone and none at an end. -/
def dropUnderscores (cs : List Char) : Option (List Char) :=
  if underscoresFit cs then some (cs.filter (· != '_')) else none

/-- The number that a plain numeral writes. -/
def plainWhole? (cs : List Char) : Option Int :=
  let (isNegative, digits) :=
    match cs with
    | '-' :: digits => (true, digits)
    | digits => (false, digits)
  let isPlain := digits = ['0'] || (digits.head?.any isLeadingDigit && digits.all Char.isDigit)
  if isPlain && cs.length ≤ digitLimit then
    some (if isNegative then -(valueIn 10 digits : Int) else valueIn 10 digits)
  else none

/-- The whole number that a text stands for. -/
def wholeOfText (cs : List Char) : Except WholeFault Int :=
  let plain? := do
    let unsigned ← dropPlus (Text.trimWhere Text.isWhiteSpace cs)
    dropUnderscores (dropPoint (← dropZeros unsigned))
  if digitLimit < numeralLength cs then .error .oversized
  else
    match plain?.bind plainWhole? with
    | some n => .ok n
    | none => .error .unreadable

end Stencil.Check
