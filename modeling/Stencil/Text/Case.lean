import Stencil.Text.CaseTable

/-!
# Stencil — letter case

Lower, upper and title case of a text by the full case mappings of Unicode:
one letter may become several. ASCII letters move within ASCII. A capital
sigma at the end of a word becomes a final sigma in lower case.
-/

namespace Stencil.Text

/-- Whether a code point lies in one of the ranges. -/
def inRanges (ranges : Array (Nat × Nat)) (n : Nat) : Bool :=
  ranges.any fun r => r.1 ≤ n && n ≤ r.2

/-- The characters a code point maps to: several, one, or itself. -/
def mapCase (expansions : List (Nat × List Nat)) (runs : Array CaseRun) (c : Char) :
    List Char :=
  match expansions.lookup c.toNat with
  | some ns => ns.map Char.ofNat
  | none =>
    match runs.find? (·.covers c.toNat) with
    | some r => [Char.ofNat (c.toNat + r.shift).toNat]
    | none => [c]

/-- The lower case of one character, whatever stands around it. -/
def lowerChar (c : Char) : List Char :=
  if c.toNat < 0x80 then [c.toLower] else mapCase lowerExpansions lowerRuns c

/-- The upper case of one character. -/
def upperChar (c : Char) : List Char :=
  if c.toNat < 0x80 then [c.toUpper] else mapCase upperExpansions upperRuns c

/-- The title case of one character: how it begins a word. -/
def titleChar (c : Char) : List Char :=
  if c.toNat < 0x80 then [c.toUpper]
  else
    match titleExceptions.lookup c.toNat with
    | some ns => ns.map Char.ofNat
    | none => upperChar c

/-- Whether the nearest character that is not passed over is a letter with a
case. -/
def nextIsCased : List Char → Bool
  | [] => false
  | c :: rest =>
    if inRanges caseIgnorableRanges c.toNat then nextIsCased rest
    else inRanges casedRanges c.toNat

/-- Lower case of the text that follows `before`, the characters already
passed, nearest first. A capital sigma is final when a letter stands before it
and none after it. -/
def lowerAfter (before : List Char) : List Char → List Char
  | [] => []
  | c :: rest =>
    (if c = 'Σ' then
      if nextIsCased before && !nextIsCased rest then ['ς'] else ['σ']
    else lowerChar c) ++ lowerAfter (c :: before) rest

/-- Lower case. -/
def lower (cs : List Char) : List Char :=
  lowerAfter [] cs

/-- Upper case. -/
def upper (cs : List Char) : List Char :=
  cs.flatMap upperChar

/-- First character in title case, the rest in lower case. -/
def capitalize : List Char → List Char
  | [] => []
  | c :: rest => titleChar c ++ lowerAfter [c] rest

end Stencil.Text
