import Stencil.Number.Binary
import Stencil.Text.Letter

/-!
# Stencil — loosely typed data

What a configuration file or a caller hands over before anything is known
about its shape. A record keeps its entries in the order they were given, and
of two entries with one name the later one counts.
-/

namespace Stencil

/-- A value of any shape. -/
inductive Data where
  | null
  | bool (value : Bool)
  | int (value : Int)
  | real (value : Number.Binary)
  | text (value : String)
  /-- A text with halves of surrogate pairs in it. -/
  | brokenText (letters : List Text.Letter)
  | bytes (value : List UInt8)
  | date (year month day : Nat)
  /-- A moment by the clock of its place: the seconds since the first year
  began, the millionths after them, and the distance of the time zone in minutes
  if it is known. -/
  | moment (seconds millionths : Nat) (zone? : Option Int)
  | list (items : List Data)
  | set (items : List Data)
  | record (entries : List (Data × Data))
  deriving Inhabited, Repr

namespace Data

/-- What kind of value it is, as named in messages. -/
def kindName : Data → String
  | null => "NoneType"
  | bool _ => "bool"
  | int _ => "int"
  | real _ => "float"
  | text _ => "str"
  | brokenText _ => "str"
  | bytes _ => "bytes"
  | date _ _ _ => "date"
  | moment _ _ _ => "datetime"
  | list _ => "list"
  | set _ => "set"
  | record _ => "dict"

def isNull : Data → Bool
  | null => true
  | _ => false

/-- Whether the value is this text. -/
def isText (name : String) : Data → Bool
  | text value => value == name
  | _ => false

/-- The value that the entries give the name. -/
def lookup? (name : String) (entries : List (Data × Data)) : Option Data :=
  (entries.reverse.find? fun e => isText name e.1).map (·.2)

/-- The number that a value counts for. -/
def number? : Data → Option Number.Binary
  | bool value => some (.finite (if value then 1 else 0) 0)
  | int value => some (.finite value 0)
  | real value => some value
  | _ => none

/-- Whether two moments are one: by the clock, or, if both zones are known, on
the line of time. -/
def sameMoment (seconds₁ : Nat) (zone₁? : Option Int) (seconds₂ : Nat) (zone₂? : Option Int) :
    Bool :=
  match zone₁?, zone₂? with
  | none, none => seconds₁ == seconds₂
  | some zone₁, some zone₂ => (seconds₁ : Int) - zone₁ * 60 == (seconds₂ : Int) - zone₂ * 60
  | _, _ => false

/-- Whether two single values are equal: numbers by value, whatever their
kind, and other values of one kind by what they hold. Collections never
are. -/
def same (a b : Data) : Bool :=
  match number? a, number? b with
  | some x, some y => x.same y
  | some _, none => false
  | none, some _ => false
  | none, none =>
    match a, b with
    | null, null => true
    | text s, text t => s == t
    | brokenText s, brokenText t => s == t
    | bytes s, bytes t => s == t
    | date y m d, date z n e => y == z && m == n && d == e
    | moment s m z, moment t n w => m == n && sameMoment s z t w
    | _, _ => false

end Data

end Stencil
