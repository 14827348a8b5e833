/-!
# Stencil — control sequences

Text that is shown may carry control sequences, which tell a terminal how to
show it: the escape character, a bracket, parameters, intermediate characters
and one final character. What is printed goes to no terminal, so they are left
out.
-/

namespace Stencil.Text

/-- Whether a character is a parameter of a control sequence. -/
def isParameter (c : Char) : Bool :=
  '0' ≤ c && c ≤ '?'

/-- Whether a character stands between the parameters of a control sequence
and its end. -/
def isIntermediate (c : Char) : Bool :=
  ' ' ≤ c && c ≤ '/'

/-- Whether a character ends a control sequence. -/
def isFinal (c : Char) : Bool :=
  '@' ≤ c && c ≤ '~'

/-- What follows a control sequence, of which the escape character and the
bracket are read; none if it is not finished. -/
def afterControl? (cs : List Char) : Option (List Char) :=
  match (cs.dropWhile isParameter).dropWhile isIntermediate with
  | c :: rest => if isFinal c then some rest else none
  | [] => none

theorem length_dropWhile_le (p : Char → Bool) (cs : List Char) :
    (cs.dropWhile p).length ≤ cs.length := by
  induction cs with
  | nil => simp
  | cons c rest ih =>
    rw [List.dropWhile_cons]
    split
    · exact Nat.le_trans ih (Nat.le_succ _)
    · exact Nat.le_refl _

theorem length_lt_of_afterControl? {cs rest : List Char} (h : afterControl? cs = some rest) :
    rest.length < cs.length := by
  unfold afterControl? at h
  split at h
  · rename_i c tail hdrop
    have hlength := length_dropWhile_le isIntermediate (cs.dropWhile isParameter)
    have hfirst := length_dropWhile_le isParameter cs
    rw [hdrop, List.length_cons] at hlength
    split at h
    · injection h with h
      subst h
      omega
    · contradiction
  · contradiction

/-- A text without its control sequences. -/
def withoutControls : List Char → List Char
  | '\x1b' :: '[' :: cs =>
    match _h : afterControl? cs with
    | some rest => withoutControls rest
    | none => '\x1b' :: withoutControls ('[' :: cs)
  | c :: cs => c :: withoutControls cs
  | [] => []
termination_by cs => cs.length
decreasing_by
  · have := length_lt_of_afterControl? _h
    simp only [List.length_cons]
    omega
  · simp
  · simp

/-- A text as it is printed. -/
def printed (s : String) : String :=
  String.ofList (withoutControls s.toList)

end Stencil.Text
