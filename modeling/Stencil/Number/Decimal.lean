import Stencil.Number.Binary
import Stencil.Number.Numeral

/-!
# Stencil — decimals written out

How a text writes a number with a fraction: blanks around it, a sign, and
either digits of any script with a point among them and an exponent, or a word
for what is no finite number.
-/

namespace Stencil.Number

open Stencil.Text

/-- A decimal taken apart: its digits as a number, and the power of ten they
are multiplied by. -/
structure Decimal where
  digits : Nat
  exponent : Int
  deriving DecidableEq, Repr

/-- The exponent at the end of a decimal. -/
def exponentOf? : List Char → Option Int
  | [] => some 0
  | e :: rest =>
    if e == 'e' || e == 'E' then
      let (isNegative, digits) := splitSign rest
      if digits ≠ [] ∧ digits.all Char.isDigit then
        let n : Int := valueIn 10 digits
        some (if isNegative then -n else n)
      else none
    else none

/-- The decimal that a text without a sign writes. -/
def decimalOf? (cs : List Char) : Option Decimal := do
  let whole := cs.takeWhile Char.isDigit
  let rest := cs.dropWhile Char.isDigit
  let (fraction, rest) :=
    match rest with
    | '.' :: rest => (rest.takeWhile Char.isDigit, rest.dropWhile Char.isDigit)
    | _ => ([], rest)
  if whole = [] ∧ fraction = [] then none
  let exponent ← exponentOf? rest
  return ⟨valueIn 10 (whole ++ fraction), exponent - fraction.length⟩

/-- The words for an infinity, and the one for no number, in lower case. -/
def infinityWords : List (List Char) := ["inf".toList, "infinity".toList]

def undefinedWord : List Char := "nan".toList

/-- The binary number that a text writes. -/
def realOf? (letters : List Letter) : Option Binary :=
  let (isNegative, unsigned) := splitSign (trimWhere isPlainBlank (letters.map commonForm))
  let word := unsigned.map Char.toLower
  if infinityWords.contains word then some (.infinite isNegative)
  else if word = undefinedWord then some .undefined
  else (decimalOf? unsigned).map fun d => .ofDecimal isNegative d.digits d.exponent

end Stencil.Number
