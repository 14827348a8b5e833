import Stencil.Check.Report
import Stencil.Check.WholeText
import Stencil.Data
import Stencil.Text.Utf8

/-!
# Stencil — reading data

A reader turns data into a value of one type or names every fault. Readers are
lenient: a flag may be given as a word, a whole number as a decimal text. Two
readers of different parts are put together by `both`, which keeps the faults
of both.
-/

namespace Stencil.Check

/-- A value, or every fault found. -/
abbrev Checked (α : Type) :=
  Except (List Fault) α

/-- Refuses a whole value for one problem. -/
def refuse {α : Type} (problem : Problem) : Checked α :=
  .error [⟨[], problem⟩]

/-- Moves the place of a fault one step away. -/
def Fault.under (step : Step) (f : Fault) : Fault :=
  { f with place := step :: f.place }

/-- Says of the faults that they are those of a part. -/
def under {α : Type} (step : Step) : Checked α → Checked α
  | .ok a => .ok a
  | .error faults => .error (faults.map (Fault.under step))

/-- Two parts, or the faults of both. -/
def both {α β : Type} : Checked α → Checked β → Checked (α × β)
  | .ok a, .ok b => .ok (a, b)
  | .ok _, .error faults => .error faults
  | .error faults, .ok _ => .error faults
  | .error first, .error second => .error (first ++ second)

/-- The items from number `index` on, or the faults of all of them. -/
def itemsFrom {α : Type} (read : Data → Checked α) (index : Nat) :
    List Data → Checked (List α)
  | [] => .ok []
  | d :: rest =>
    match both (under (.item index) (read d)) (itemsFrom read (index + 1) rest) with
    | .ok (a, as) => .ok (a :: as)
    | .error faults => .error faults

/-- The items in order, or the faults of all of them. -/
def items {α : Type} (read : Data → Checked α) (ds : List Data) : Checked (List α) :=
  itemsFrom read 0 ds

/-- The field of a record; without it the default, if there is one. -/
def field {α : Type} (entries : List (Data × Data)) (name : String) (default? : Option α)
    (read : Data → Checked α) : Checked α :=
  under (.field name)
    (match Data.lookup? name entries, default? with
    | some d, _ => read d
    | none, some a => .ok a
    | none, none => refuse .missing)

/-- The value, or `none` for null. -/
def nullable {α : Type} (read : Data → Checked α) : Data → Checked (Option α)
  | .null => .ok none
  | d => (read d).map some

def readText : Data → Checked String
  | .text value => .ok value
  | .bytes value =>
    match Text.Utf8.decode value with
    | .ok cs => .ok (String.ofList cs)
    | .error _ => refuse .undecodableText
  | .brokenText _ => refuse .undecodableText
  | _ => refuse .notText

/-- The words for no and yes, in lower case. -/
def flagWords : List (String × Bool) :=
  [("0", false), ("off", false), ("f", false), ("false", false), ("n", false), ("no", false),
    ("1", true), ("on", true), ("t", true), ("true", true), ("y", true), ("yes", true)]

/-- The flag that a word stands for, whatever the case of its ASCII letters. -/
def flagOfWord (word : List Char) : Checked Bool :=
  match flagWords.lookup (String.ofList (word.map Char.toLower)) with
  | some value => .ok value
  | none => refuse .unreadableFlag

/-- No is zero and yes is one. -/
def flagOfWhole (n : Int) : Checked Bool :=
  if n = 0 then .ok false else if n = 1 then .ok true else refuse .unreadableFlag

/-- Two to the power of 63: a whole number that is given in binary, or that
stands for a flag, has to lie closer to zero than that. -/
def wholeLimit : Int := 0x8000000000000000

/-- The whole number that a binary number is. -/
def wholeOfReal (value : Number.Binary) : Checked Int :=
  match value.whole? with
  | some n => if n.natAbs < wholeLimit.natAbs then .ok n else refuse .oversizedWhole
  | none => refuse (if value.isFinite then .fractional else .notFinite)

def readFlag : Data → Checked Bool
  | .bool value => .ok value
  | .int value =>
    if -wholeLimit ≤ value ∧ value < wholeLimit then flagOfWhole value else refuse .notFlag
  | .real value =>
    match wholeOfReal value with
    | .ok n => flagOfWhole n
    | .error _ => refuse .notFlag
  | .text value => flagOfWord value.toList
  | .bytes value =>
    match Text.Utf8.decode value with
    | .ok cs => flagOfWord cs
    | .error _ => refuse .unreadableFlag
  | .brokenText _ => refuse .undecodableText
  | _ => refuse .notFlag

/-- The whole number that a text stands for. -/
def wholeOfChars (cs : List Char) : Checked Int :=
  match wholeOfText cs with
  | .ok n => .ok n
  | .error .unreadable => refuse .unreadableWhole
  | .error .oversized => refuse .oversizedWhole

def readWhole : Data → Checked Int
  | .int value => .ok value
  | .bool value => .ok (if value then 1 else 0)
  | .real value => wholeOfReal value
  | .text value => wholeOfChars value.toList
  | .bytes value =>
    match Text.Utf8.decode value with
    | .ok cs => wholeOfChars cs
    | .error _ => refuse .unreadableWhole
  | .brokenText _ => refuse .undecodableText
  | _ => refuse .notWhole

/-- A text that is one of the choices. -/
def readChoice {α : Type} (choices : List (String × α)) : Data → Checked α
  | .text value =>
    match choices.lookup value with
    | some a => .ok a
    | none => refuse (.notOneOf (choices.map (·.1)))
  | .brokenText _ => refuse .undecodableText
  | _ => refuse (.notOneOf (choices.map (·.1)))

/-- The items of a list or a set. -/
def itemsOf? : Data → Option (List Data)
  | .list ds => some ds
  | .set ds => some ds
  | _ => none

/-- A list of items that are all read alike. `wrongKind` is the problem of a
value that is no list. -/
def readItems {α : Type} (wrongKind : Problem) (read : Data → Checked α) (d : Data) :
    Checked (List α) :=
  match itemsOf? d with
  | some ds => items read ds
  | none => refuse wrongKind

/-- The names that stand more than once, each once, in ascending order. -/
def repeated (names : List String) : List String :=
  ((names.filter fun n => 1 < names.count n).eraseDups).mergeSort fun a b => a ≤ b

end Stencil.Check
