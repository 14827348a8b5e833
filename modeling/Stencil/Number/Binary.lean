/-!
# Stencil — binary numbers

The numbers with a fraction that data can hold: a mantissa of at most 53 bits
times a power of two, or one of the two infinities, or no number at all. A
decimal is read as the binary number nearest to it, and of two equally near
the one with the even mantissa; a sum or a product is the binary number nearest
to the exact one. What the program asks of such a number is whether it is a
whole one, and whether two of them are equal.
-/

namespace Stencil.Number

/-- A binary number. -/
inductive Binary where
  | finite (mantissa exponent : Int)
  | infinite (isNegative : Bool)
  | undefined
  deriving DecidableEq, Repr

/-- Two to a power. -/
def powerOfTwo (n : Nat) : Nat :=
  Nat.pow 2 n

/-- Ten to a power. -/
def powerOfTen (n : Nat) : Nat :=
  Nat.pow 10 n

/-- The whole number nearest to `num / den`, of two the even one. -/
def roundRatio (num den : Nat) : Nat :=
  let q := num / den
  let r := num % den
  if 2 * r < den then q
  else if den < 2 * r then q + 1
  else if q % 2 = 0 then q
  else q + 1

/-- `num / den` in units of `2^exponent`, as a ratio. -/
def scaled (num den : Nat) (exponent : Int) : Nat × Nat :=
  if 0 ≤ exponent then (num, den * powerOfTwo exponent.toNat)
  else (num * powerOfTwo (-exponent).toNat, den)

/-- The exponent for which `num / den` has a mantissa of 53 bits, or the least
exponent there is. -/
def fittingExponent (num den : Nat) : Int :=
  let estimate : Int := (num.log2 : Int) - den.log2 - 52
  let (n, d) := scaled num den estimate
  max (-1074) (if powerOfTwo 52 ≤ n / d then estimate else estimate - 1)

/-- The binary number nearest to `num / den`. -/
def Binary.ofRatio (isNegative : Bool) (num den : Nat) : Binary :=
  if num = 0 then .finite 0 0
  else
    let exponent := fittingExponent num den
    let (n, d) := scaled num den exponent
    let mantissa := roundRatio n d
    if 971 < exponent ∨ (exponent = 971 ∧ powerOfTwo 53 ≤ mantissa) then .infinite isNegative
    else .finite (if isNegative then -(mantissa : Int) else mantissa) exponent

/-- The binary number nearest to `mantissa · 10^exponent`. Beyond four hundred
places in front of the point there are only infinities, and as far behind it
only zero. -/
def Binary.ofDecimal (isNegative : Bool) (mantissa : Nat) (exponent : Int) : Binary :=
  let places : Int := (Nat.toDigits 10 mantissa).length + exponent
  if mantissa = 0 ∨ places < -400 then .finite 0 0
  else if 400 < places then .infinite isNegative
  else if 0 ≤ exponent then .ofRatio isNegative (mantissa * powerOfTen exponent.toNat) 1
  else .ofRatio isNegative mantissa (powerOfTen (-exponent).toNat)

/-- The whole number that a binary number is. -/
def Binary.whole? : Binary → Option Int
  | .finite mantissa exponent =>
    if 0 ≤ exponent then some (mantissa * powerOfTwo exponent.toNat)
    else
      let unit : Int := powerOfTwo (-exponent).toNat
      if mantissa % unit = 0 then some (mantissa / unit) else none
  | _ => none

/-- Whether a binary number is a number and no infinity. -/
def Binary.isFinite : Binary → Bool
  | .finite _ _ => true
  | _ => false

/-- The binary number nearest to a whole one. -/
def Binary.ofWhole (n : Int) : Binary :=
  .ofRatio (n < 0) n.natAbs 1

/-- A mantissa and an exponent as a ratio. -/
def ratioOf (mantissa exponent : Int) : Int × Nat :=
  if 0 ≤ exponent then (mantissa * powerOfTwo exponent.toNat, 1)
  else (mantissa, powerOfTwo (-exponent).toNat)

/-- Equality of numbers: zero has no sign, and what is no number equals
nothing. -/
def Binary.same : Binary → Binary → Bool
  | .finite m e, .finite n f =>
    let (a, b) := ratioOf m e
    let (c, d) := ratioOf n f
    a * d == c * b
  | .infinite p, .infinite q => p == q
  | _, _ => false

/-- The number with the opposite sign. -/
def Binary.negate : Binary → Binary
  | .finite mantissa exponent => .finite (-mantissa) exponent
  | .infinite isNegative => .infinite (!isNegative)
  | .undefined => .undefined

/-- The sum. Opposite infinities have none. -/
def Binary.add : Binary → Binary → Binary
  | .finite m e, .finite n f =>
    let (a, b) := ratioOf m e
    let (c, d) := ratioOf n f
    let sum := a * d + c * b
    .ofRatio (sum < 0) sum.natAbs (b * d)
  | .infinite p, .infinite q => if p = q then .infinite p else .undefined
  | .infinite p, .finite _ _ => .infinite p
  | .finite _ _, .infinite q => .infinite q
  | _, _ => .undefined

/-- The product. Zero times an infinity has none. -/
def Binary.multiply : Binary → Binary → Binary
  | .finite m e, .finite n f =>
    let (a, b) := ratioOf m e
    let (c, d) := ratioOf n f
    .ofRatio (a * c < 0) (a * c).natAbs (b * d)
  | .infinite p, .infinite q => .infinite (p != q)
  | .infinite p, .finite n _ => if n = 0 then .undefined else .infinite (p != decide (n < 0))
  | .finite m _, .infinite q => if m = 0 then .undefined else .infinite (q != decide (m < 0))
  | _, _ => .undefined

end Stencil.Number
