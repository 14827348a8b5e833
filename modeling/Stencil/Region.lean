import Stencil.Text.Lines

/-!
# Stencil — generated regions

A generated file carries one pair of marker lines. What stands between them
belongs to the generator, and everything else to the author. `locate` finds
the region of a text, `wrap` writes a text that is a region and nothing else,
and `splice` puts the region of one text into another. A line end counts as
part of its line; a marker line ends in carriage returns and line feeds, or in
nothing at the end of the text.
-/

namespace Stencil.Region

open Stencil.Text

def beginMarker : List Char :=
  "// ---- crudgen:begin generated ----".toList

def endMarker : List Char :=
  "// ---- crudgen:end generated ----".toList

/-- Whether the line is one that opens a region. -/
def isBegin (line : List Char) : Bool :=
  bareLine line == beginMarker

/-- Whether the line is one that closes a region. -/
def isEnd (line : List Char) : Bool :=
  bareLine line == endMarker

/-- Why a text has no region to work with. -/
inductive Flaw where
  | unmarked
  | miscounted (begins ends : Nat)
  | reversed
  deriving DecidableEq, Repr

def Flaw.message : Flaw → String
  | .unmarked => "no generated-code markers found"
  | .miscounted begins ends =>
    "expected exactly one marker pair, found " ++ toString begins ++ " begin and " ++
      toString ends ++ " end marker(s)"
  | .reversed => "end marker appears before begin marker"

/-- A text cut at its region: `before` ends with the line that opens the
region and `after` starts with the line that closes it. -/
structure Located where
  before : List Char
  region : List Char
  after : List Char
  deriving DecidableEq, Repr

/-- The whole text. -/
def Located.text (l : Located) : List Char :=
  l.before ++ l.region ++ l.after

/-- Cuts lines among which there is one line of each marker. -/
def cutLines (ls : List (List Char)) : Except Flaw Located :=
  let ahead := ls.takeWhile (!isBegin ·)
  match ls.dropWhile (!isBegin ·) with
  | [] => .error .reversed
  | opening :: rest =>
    match rest.dropWhile (!isEnd ·) with
    | [] => .error .reversed
    | closing :: tail =>
      .ok ⟨ahead.flatten ++ opening, (rest.takeWhile (!isEnd ·)).flatten,
        closing ++ tail.flatten⟩

/-- Cuts lines at their region: there must be one line of each marker, in
order. -/
def locateLines (ls : List (List Char)) : Except Flaw Located :=
  let begins := ls.countP isBegin
  let ends := ls.countP isEnd
  if begins = 0 ∧ ends = 0 then .error .unmarked
  else if begins ≠ 1 ∨ ends ≠ 1 then .error (.miscounted begins ends)
  else cutLines ls

/-- Cuts a text at its region. -/
def locate (text : List Char) : Except Flaw Located :=
  locateLines (lines text)

/-- A body between marker lines, without the line feeds around it. -/
def wrap (body : List Char) : List Char :=
  beginMarker ++ '\n' :: trimWhere (· == '\n') body ++ '\n' :: endMarker ++ ['\n']

/-- Why a region cannot be put into a text. -/
inductive SpliceError where
  /-- The generated text has no region. -/
  | generated (flaw : Flaw)
  /-- The existing text has no region. -/
  | existing (flaw : Flaw)
  deriving DecidableEq, Repr

/-- A region as it is written into a text whose part before the region is
`before`: with a carriage return in every line end if there is one already. -/
def fitted (before region : List Char) : List Char :=
  if hasCrlf before then toCrlf region else region

/-- The existing text with the region of the generated text in place of its
own. -/
def splice (existing generated : List Char) : Except SpliceError (List Char) :=
  match locate generated with
  | .error flaw => .error (.generated flaw)
  | .ok new =>
    match locate existing with
    | .error flaw => .error (.existing flaw)
    | .ok old => .ok (old.before ++ fitted old.before new.region ++ old.after)

end Stencil.Region
