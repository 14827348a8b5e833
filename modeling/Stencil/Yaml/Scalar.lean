import Stencil.Data
import Stencil.Identifier
import Stencil.Number.Decimal
import Stencil.Text.Lines
import Stencil.Yaml.Fault

/-!
# Stencil — the values of YAML scalars

What a plain scalar without a tag is taken for, by its form alone, and the
value that a scalar of each kind has. Numbers may be set apart with
underscores and written in sixties with colons.
-/

namespace Stencil.Yaml

open Stencil.Number Stencil.Text

/-- What a node is taken for. -/
inductive Kind where
  | null
  | bool
  | int
  | real
  | bytes
  | moment
  | text
  | list
  | map
  | set
  | orderedMap
  | pairs
  | merge
  | value
  | unknown
  deriving DecidableEq, Repr

/-! ## The forms of plain scalars -/

/-- The words for yes and no, each in lower case, capitalised, and in upper
case. -/
def truthWords : List (List Char × Bool) :=
  [("yes", true), ("no", false), ("true", true), ("false", false), ("on", true),
    ("off", false)].map fun (word, value) => (word.toList, value)

/-- The three ways in which a word is written. -/
def spellings (word : List Char) : List (List Char) :=
  [word, Text.capitalize word, Text.upper word]

def isTruth (cs : List Char) : Bool :=
  truthWords.any fun (word, _) => (spellings word).contains cs

def isNull (cs : List Char) : Bool :=
  cs = [] || cs = ['~'] || (spellings "null".toList).contains cs

/-- A text without a sign at the front. -/
def dropSign (cs : List Char) : List Char :=
  match cs with
  | c :: rest => if c == '-' || c == '+' then rest else cs
  | [] => []

/-- A nonempty text of characters of a class. -/
def consistsOf (p : Char → Bool) (cs : List Char) : Bool :=
  cs ≠ [] && cs.all p

/-- Digits that may be set apart by underscores. -/
def isSpacedDigit (c : Char) : Bool :=
  c.isDigit || c == '_'

/-- Digits, set apart or not, the first of them of a class. -/
def isSpacedNumber (first : Char → Bool) : List Char → Bool
  | [] => false
  | c :: rest => first c && rest.all isSpacedDigit

/-- A part of a number written in sixties, after the first one. -/
def isSixtieth : List Char → Bool
  | [c] => c.isDigit
  | [c, d] => '0' ≤ c && c ≤ '5' && d.isDigit
  | _ => false

/-- A number written in sixties, its first digit of a class. -/
def isInSixties (first : Char → Bool) (cs : List Char) : Bool :=
  match Text.pieces ':' cs with
  | [] => false
  | head :: tail => isSpacedNumber first head && tail ≠ [] && tail.all isSixtieth

/-- A digit that is not zero. -/
def isLeadingDigit (c : Char) : Bool :=
  c.isDigit && c != '0'

def isInt (cs : List Char) : Bool :=
  let digits := dropSign cs
  match digits with
  | '0' :: 'b' :: rest => consistsOf (fun c => c == '0' || c == '1' || c == '_') rest
  | '0' :: 'x' :: rest => consistsOf (fun c => isHexDigit c || c == '_') rest
  | '0' :: rest => rest.all fun c => ('0' ≤ c && c ≤ '7') || c == '_'
  | _ => isSpacedNumber isLeadingDigit digits || isInSixties isLeadingDigit digits

/-- The exponent at the end of a number: a letter, a sign and digits. -/
def isExponent : List Char → Bool
  | [] => true
  | e :: sign :: digits =>
    (e == 'e' || e == 'E') && (sign == '-' || sign == '+') && consistsOf Char.isDigit digits
  | _ => false

/-- What follows the point of a number. -/
def isFraction (cs : List Char) : Bool :=
  isExponent (cs.dropWhile isSpacedDigit)

def isInfinity (cs : List Char) : Bool :=
  (dropSign cs).head? = some '.' &&
    (spellings "inf".toList).contains ((dropSign cs).drop 1)

def isUndefined (cs : List Char) : Bool :=
  [".nan", ".NaN", ".NAN"].any fun word => word.toList == cs

def isReal (cs : List Char) : Bool :=
  let digits := dropSign cs
  let before := digits.takeWhile (· != '.')
  isInfinity cs || isUndefined cs ||
    (match digits.dropWhile (· != '.'), cs with
    | _, '.' :: rest => rest.head?.any Char.isDigit && isFraction rest
    | '.' :: after, _ =>
      (isSpacedNumber Char.isDigit before && isFraction after) ||
        (isInSixties Char.isDigit before && after.all isSpacedDigit)
    | _, _ => false)

/-! ## Dates and times -/

/-- The parts of a date with or without a time. -/
structure MomentParts where
  year : Nat
  month : Nat
  day : Nat
  /-- Hour, minute, second and millionth. -/
  time? : Option (Nat × Nat × Nat × Nat)
  /-- The distance of the time zone, in minutes. -/
  zone? : Option Int
  deriving DecidableEq, Repr

/-- Digits at the front, at least `least` and at most `most` of them. -/
def digitsAt (least most : Nat) (cs : List Char) : Option (Nat × List Char) :=
  let digits := (cs.take most).takeWhile Char.isDigit
  if least ≤ digits.length then some (valueIn 10 digits, cs.drop digits.length) else none

/-- The text after a character that must come first. -/
def after? (c : Char) : List Char → Option (List Char)
  | d :: rest => if c = d then some rest else none
  | [] => none

/-- Whether a character is a space or a tab. -/
def isTabOrSpace (c : Char) : Bool :=
  c == ' ' || c == '\t'

/-- The zone at the end of a time: none, `Z`, or a distance. -/
def zoneOf? (cs : List Char) : Option (Option Int) :=
  match cs.dropWhile isTabOrSpace with
  | [] => if cs = [] then some none else none
  | ['Z'] => some (some 0)
  | sign :: rest => do
    if !(sign == '-' || sign == '+') then none
    let (hours, rest) ← digitsAt 1 2 rest
    let minutes ←
      if rest = [] then some 0
      else do
        let (minutes, rest) ← digitsAt 2 2 (← after? ':' rest)
        if rest = [] then some minutes else none
    let distance : Int := hours * 60 + minutes
    return some (if sign == '-' then -distance else distance)

/-- The text after the blanks or the letter between a date and a time. -/
def timeAfter? (cs : List Char) : Option (List Char) :=
  match cs with
  | [] => none
  | c :: rest =>
    if c == 'T' || c == 't' then some rest
    else if isTabOrSpace c then some (rest.dropWhile isTabOrSpace)
    else none

/-- The millionths of a second that a fraction at the front writes, and the
text after it. Digits beyond the sixth count for nothing. -/
def fractionAt : List Char → Nat × List Char
  | '.' :: rest =>
    let digits := (rest.takeWhile Char.isDigit).take 6
    (valueIn 10 (digits ++ List.replicate (6 - digits.length) '0'),
      rest.dropWhile Char.isDigit)
  | cs => (0, cs)

/-- The parts that a date or a time writes. -/
def momentParts? (cs : List Char) : Option MomentParts := do
  let (year, rest) ← digitsAt 4 4 cs
  let (month, rest) ← digitsAt 1 2 (← after? '-' rest)
  let (day, rest) ← digitsAt 1 2 (← after? '-' rest)
  if rest = [] then return ⟨year, month, day, none, none⟩
  else
    let (hour, rest) ← digitsAt 1 2 (← timeAfter? rest)
    let (minute, rest) ← digitsAt 2 2 (← after? ':' rest)
    let (second, rest) ← digitsAt 2 2 (← after? ':' rest)
    let (millionth, rest) := fractionAt rest
    let zone? ← zoneOf? rest
    return ⟨year, month, day, some (hour, minute, second, millionth), zone?⟩

/-- Whether a plain scalar is a date or a time. A date without a time has two
digits in each part. -/
def isMoment (cs : List Char) : Bool :=
  match momentParts? cs with
  | none => false
  | some p => p.time?.isSome || cs.length = 10

/-- What a plain scalar without a tag is taken for. -/
def kindOfChars (text : List Char) : Kind :=
  let cs := dropFinalLineFeed text
  if text = [] || (cs ≠ [] && isNull cs) then .null
  else if isTruth cs then .bool
  else if isReal cs then .real
  else if isInt cs then .int
  else if isMoment cs then .moment
  else if cs = ['<', '<'] then .merge
  else if cs = ['='] then .value
  else if cs = ['!'] || cs = ['&'] || cs = ['*'] then .unknown
  else .text

/-- What a scalar that counts as plain is taken for. -/
def kindOfForm (text : List Letter) : Kind :=
  (Letter.chars? text).elim .text kindOfChars

/-! ## The values -/

/-- Whether a letter is this character. -/
def isLetter (c : Char) (letter : Letter) : Bool :=
  letter == .char c

def truthValue (text : List Letter) : Except ValueFault Bool :=
  let word := Letter.lower text
  match (Letter.chars? word).bind fun cs => truthWords.lookup cs with
  | some value => .ok value
  | none => .error (.truth word)

/-- The letters without those that only set digits apart. -/
def dropSpacing (text : List Letter) : List Letter :=
  text.filter (!isLetter '_' ·)

/-- A sign at the front, the text after it, and whether the text has anything
to it at all. -/
def signAndDigits (text : List Letter) : Except ValueFault (Bool × List Letter) :=
  match text with
  | [] => .error .noDigits
  | .char '-' :: rest => .ok (true, rest)
  | .char '+' :: rest => .ok (false, rest)
  | digits => .ok (false, digits)

/-- The whole number that a text writes in a base. -/
def intIn (base : Nat) (text : List Letter) : Except ValueFault Int :=
  match wholeIn base text with
  | .ok n => .ok n
  | .error .unreadable => .error (.wholeNumber text base)
  | .error (.tooLong count) => .error (.tooManyDigits count)

/-- Parts in sixties as one number. -/
def inSixties (parts : List Int) : Int :=
  parts.foldl (fun n part => n * 60 + part) 0

def intValue (text : List Letter) : Except ValueFault Int := do
  let (isNegative, digits) ← signAndDigits (dropSpacing text)
  let n ←
    match digits with
    | [] => throw .noDigits
    | [.char '0'] => pure 0
    | .char '0' :: .char 'b' :: rest => intIn 2 rest
    | .char '0' :: .char 'x' :: rest => intIn 16 rest
    | .char '0' :: _ => intIn 8 digits
    | _ =>
      if digits.contains (.char ':') then
        (((Text.pieces (.char ':') digits).mapM (intIn 10)).map inSixties)
      else intIn 10 digits
  return if isNegative then -n else n

/-- The binary number that a text writes. -/
def realOf (text : List Letter) : Except ValueFault Binary :=
  match realOf? text with
  | some value => .ok value
  | none => .error (.realNumber text)

/-- Parts in sixties as one number, the last part first. Every step is rounded,
and so is the unit that a part counts, which has to be finite. -/
def sumSixties (sum : Binary) (unit : Nat) : List Binary → Except ValueFault Binary
  | [] => .ok sum
  | part :: rest =>
    match Binary.ofWhole unit with
    | .finite mantissa exponent =>
      sumSixties (sum.add (part.multiply (.finite mantissa exponent))) (unit * 60) rest
    | _ => .error .oversizedUnit

def realValue (text : List Letter) : Except ValueFault Binary := do
  let (isNegative, digits) ← signAndDigits (Letter.lower (dropSpacing text))
  let value ←
    if digits = Letter.plain ".inf".toList then pure (.infinite false)
    else if digits = Letter.plain ".nan".toList then pure .undefined
    else if digits.contains (.char ':') then do
      let parts ← (Text.pieces (.char ':') digits).mapM realOf
      sumSixties (.finite 0 0) 1 parts.reverse
    else realOf digits
  return if isNegative then value.negate else value

/-- Whether a text stands for what is no number by the word of this format. All
such scalars have one value in common, and any other that is no number has a
value of its own. -/
def isCommonUndefined (text : List Letter) : Bool :=
  match signAndDigits (Letter.lower (dropSpacing text)) with
  | .ok (_, digits) => digits == Letter.plain ".nan".toList
  | .error _ => false

/-- The number of days in a month. -/
def daysIn (year month : Nat) : Nat :=
  if month = 2 then
    if year % 4 = 0 ∧ (year % 100 ≠ 0 ∨ year % 400 = 0) then 29 else 28
  else if month = 4 ∨ month = 6 ∨ month = 9 ∨ month = 11 then 30
  else 31

/-- The number of a day, counted from the first day of the first year. -/
def dayNumber (year month day : Nat) : Nat :=
  let years := year - 1
  let months :=
    (List.range (month - 1)).foldl (fun days m => days + daysIn year (m + 1)) 0
  years * 365 + years / 4 - years / 100 + years / 400 + months + (day - 1)

/-- The date or the moment that a text writes, if it exists. -/
def momentValue (text : List Letter) : Except ValueFault Data := do
  match (Letter.chars? text).bind fun cs => momentParts? (dropFinalLineFeed cs) with
  | none => throw .noMoment
  | some p =>
    match p.zone? with
    | some minutes => if 1440 ≤ minutes.natAbs then throw (.zoneOffset minutes)
    | none => pure ()
    if p.year = 0 then throw (.year 0)
    if p.month = 0 ∨ 12 < p.month then throw .month
    if p.day = 0 ∨ daysIn p.year p.month < p.day then throw .day
    match p.time? with
    | none => return .date p.year p.month p.day
    | some (hour, minute, second, millionth) =>
      if 23 < hour then throw .hour
      if 59 < minute then throw .minute
      if 59 < second then throw .second
      let days := dayNumber p.year p.month p.day
      return .moment (((days * 24 + hour) * 60 + minute) * 60 + second) millionth p.zone?

/-- The value of a base 64 digit. -/
def base64Value? (c : Char) : Option Nat :=
  if 'A' ≤ c && c ≤ 'Z' then some (c.toNat - 65)
  else if 'a' ≤ c && c ≤ 'z' then some (c.toNat - 71)
  else if c.isDigit then some (c.toNat + 4)
  else if c == '+' then some 62
  else if c == '/' then some 63
  else none

/-- The base 64 digits of a text up to its padding, and whether the padding is
complete. Characters that are no digits are passed over. -/
def base64Digits : (count pads : Nat) → List Char → List Nat × Bool
  | _, _, [] => ([], false)
  | count, pads, c :: rest =>
    if c == '=' then
      if 2 ≤ count % 4 ∧ 4 ≤ count % 4 + pads + 1 then ([], true)
      else base64Digits count (if 2 ≤ count % 4 then pads + 1 else pads) rest
    else
      match base64Value? c with
      | none => base64Digits count pads rest
      | some v =>
        let (more, isPadded) := base64Digits (count + 1) 0 rest
        (v :: more, isPadded)

/-- The bytes of base 64 digits. -/
def base64Bytes : List Nat → List UInt8
  | a :: b :: c :: d :: rest =>
    UInt8.ofNat (a * 4 + b / 16) :: UInt8.ofNat (b % 16 * 16 + c / 4) ::
      UInt8.ofNat (c % 4 * 64 + d) :: base64Bytes rest
  | [a, b, c] => [UInt8.ofNat (a * 4 + b / 16), UInt8.ofNat (b % 16 * 16 + c / 4)]
  | [a, b] => [UInt8.ofNat (a * 4 + b / 16)]
  | _ => []

/-- The bytes that a text writes in base 64. -/
def bytesValue? (text : List Letter) : Option (List UInt8) := do
  let cs ← Letter.chars? text
  if cs.any fun c => 0x80 ≤ c.toNat then none
  else
    let (digits, isPadded) := base64Digits 0 0 cs
    let rest := digits.length % 4
    if rest = 0 ∨ (isPadded ∧ rest ≠ 1) then some (base64Bytes digits) else none

end Stencil.Yaml
