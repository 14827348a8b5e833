import Stencil.Text.Case

/-!
# Stencil — letters

An escape names a code point by its number, and so it can also name one half
of a surrogate pair, which is no character. A text that may hold such halves is
a list of letters; most such texts are plain and hold characters only.
-/

namespace Stencil.Text

/-- A letter of a text with escapes. -/
inductive Letter where
  | char (c : Char)
  /-- Half of a surrogate pair, by its code. -/
  | half (code : Nat)
  deriving DecidableEq, Repr

namespace Letter

/-- The letter with a code, if there is one. -/
def ofCode? (n : Nat) : Option Letter :=
  if n.isValidChar then some (char (Char.ofNat n))
  else if n < 0x110000 then some (half n)
  else none

/-- The character that a letter is. -/
def char? : Letter → Option Char
  | char c => some c
  | half _ => none

/-- The letters of a plain text. -/
def plain (cs : List Char) : List Letter :=
  cs.map char

/-- The characters of a text without halves. -/
def chars? (letters : List Letter) : Option (List Char) :=
  letters.mapM char?

/-- Lower case of a text whose last characters, nearest first, are `run`. -/
def lowerAfterRun (run : List Char) : List Letter → List Letter
  | [] => plain (Text.lower run.reverse)
  | char c :: rest => lowerAfterRun (c :: run) rest
  | half code :: rest => plain (Text.lower run.reverse) ++ half code :: lowerAfterRun [] rest

/-- Lower case. A half has no case and ends the word it stands in. -/
def lower (letters : List Letter) : List Letter :=
  lowerAfterRun [] letters

theorem chars?_plain (cs : List Char) : chars? (plain cs) = some cs := by
  induction cs with
  | nil => rfl
  | cons c rest ih =>
    simp only [chars?, plain, List.map_cons, List.mapM_cons, char?] at ih ⊢
    simp [ih]

end Letter

end Stencil.Text
