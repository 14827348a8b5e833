import Stencil.Number.Numeral
import Stencil.Text.Quoted

/-!
# Stencil — what can be wrong with a YAML text

A text that is not YAML, or does not stand for a value, is malformed as a
whole. Apart from that, a scalar whose form is right can have a value that
does not exist, such as the thirteenth month; that is refused with a message
of its own.
-/

namespace Stencil.Yaml

/-- A value that does not exist. -/
inductive ValueFault where
  | month
  | day
  | year (given : Nat)
  | hour
  | minute
  | second
  /-- A zone a day or more away; the distance in minutes. -/
  | zoneOffset (minutes : Int)
  /-- A whole number that its digits do not write, in the given base. -/
  | wholeNumber (digits : List Text.Letter) (base : Nat)
  /-- A whole number with too many digits. -/
  | tooManyDigits (count : Nat)
  | realNumber (text : List Text.Letter)
  | truth (word : List Text.Letter)
  /-- A number without digits. -/
  | noDigits
  | noMoment
  /-- A map where the text of a date or a time was wanted. -/
  | momentOfMap
  | characterCode
  /-- The code of a character that does not even fit a machine's number. -/
  | oversizedCode
  /-- A number in sixties with too many parts. -/
  | oversizedUnit
  /-- A scalar that leads back to itself. -/
  | endless
  deriving DecidableEq, Repr

/-- A span of time in days and seconds; a part that is zero is left out. -/
def spanText (minutes : Int) : String :=
  let days := minutes / 1440
  let seconds := minutes % 1440 * 60
  let parts :=
    (if days = 0 then [] else ["days=" ++ toString days]) ++
      (if seconds = 0 then [] else ["seconds=" ++ toString seconds])
  "datetime.timedelta(" ++ ", ".intercalate parts ++ ")"

/-- The most characters of a numeral that a message shows, quotes and escapes
counted. -/
def shownLimit : Nat := 200

/-- A text between quotes. -/
def quotedText (letters : List Text.Letter) : String :=
  String.ofList (Text.quotedLetters letters)

def ValueFault.message : ValueFault → String
  | .month => "month must be in 1..12"
  | .day => "day is out of range for month"
  | .year given => "year " ++ toString given ++ " is out of range"
  | .hour => "hour must be in 0..23"
  | .minute => "minute must be in 0..59"
  | .second => "second must be in 0..59"
  | .zoneOffset minutes =>
    "offset must be a timedelta strictly between -timedelta(hours=24) and " ++
      "timedelta(hours=24), not " ++ spanText minutes ++ "."
  | .wholeNumber digits base =>
    "invalid literal for int() with base " ++ toString base ++ ": " ++
      String.ofList ((Text.quotedLetters digits).take shownLimit)
  | .tooManyDigits count =>
    "Exceeds the limit (" ++ toString Number.digitLimit ++
      " digits) for integer string conversion: value has " ++ toString count ++
      " digits; use sys.set_int_max_str_digits() to increase the limit"
  | .realNumber text => "could not convert string to float: " ++ quotedText text
  | .truth word => quotedText word
  | .noDigits => "string index out of range"
  | .noMoment => "'NoneType' object has no attribute 'groupdict'"
  | .momentOfMap => "expected string or bytes-like object, got 'list'"
  | .characterCode => "chr() arg not in range(0x110000)"
  | .oversizedCode => "Python int too large to convert to C int"
  | .oversizedUnit => "int too large to convert to float"
  | .endless => "maximum recursion depth exceeded"

/-- The kind of failure, as named in reports. -/
def ValueFault.kindName : ValueFault → String
  | .truth _ => "KeyError"
  | .noDigits => "IndexError"
  | .noMoment => "AttributeError"
  | .momentOfMap => "TypeError"
  | .oversizedCode => "OverflowError"
  | .oversizedUnit => "OverflowError"
  | .endless => "RecursionError"
  | _ => "ValueError"

/-- Why a text stands for no value. -/
inductive Fault where
  | malformed
  | value (fault : ValueFault)
  deriving DecidableEq, Repr

end Stencil.Yaml
