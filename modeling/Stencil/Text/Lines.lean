import Stencil.Text.Blank

/-!
# Stencil — lines and pieces of a text

Three ways to cut a text. `lines` ends a line at every line boundary of
Unicode and leaves the boundary at the end of its line, so that the lines put
together are the text again; a carriage return and the line feed after it are
one boundary. `pieces` cuts at every occurrence of one character and drops it.
`runs` keeps the longest stretches of characters of one class.
-/

namespace Stencil.Text

/-- The characters that end a line: line feed, carriage return, vertical tab,
form feed, the separators U+001C–U+001E, next line, and the line and paragraph
separators. -/
def isLineEnd (c : Char) : Bool :=
  let n := c.toNat
  (0x0A ≤ n && n ≤ 0x0D) || (0x1C ≤ n && n ≤ 0x1E) || n == 0x85 || n == 0x2028 || n == 0x2029

/-- The lines of a text, each with its line end. -/
def lines : List Char → List (List Char)
  | [] => []
  | '\r' :: '\n' :: rest => ['\r', '\n'] :: lines rest
  | c :: rest =>
    if isLineEnd c then [c] :: lines rest
    else
      match lines rest with
      | [] => [[c]]
      | l :: ls => (c :: l) :: ls

/-- A line without the carriage returns and line feeds at its end. -/
def bareLine (l : List Char) : List Char :=
  dropEndWhile (fun c => c == '\r' || c == '\n') l

/-- A line without its line end. -/
def withoutEnd (l : List Char) : List Char :=
  if ['\r', '\n'].isSuffixOf l then l.dropLast.dropLast
  else if l.getLast?.any isLineEnd then l.dropLast
  else l

/-- The text between one occurrence of `sep` and the next; always at least one
piece. -/
def pieces {α : Type} [DecidableEq α] (sep : α) : List α → List (List α)
  | [] => [[]]
  | c :: rest =>
    if c = sep then [] :: pieces sep rest
    else
      match pieces sep rest with
      | [] => [[c]]
      | p :: ps => (c :: p) :: ps

/-- The longest nonempty stretches of characters in the class. -/
def runs (p : Char → Bool) : List Char → List (List Char)
  | [] => []
  | c :: rest =>
    if p c then
      match rest with
      | [] => [[c]]
      | d :: _ =>
        if p d then
          match runs p rest with
          | [] => [[c]]
          | r :: rs => (c :: r) :: rs
        else [c] :: runs p rest
    else runs p rest

/-- Writes every line end of a carriage return and a line feed, and every
other line feed, as a carriage return and a line feed. -/
def toCrlf : List Char → List Char
  | [] => []
  | '\r' :: '\n' :: rest => '\r' :: '\n' :: toCrlf rest
  | '\n' :: rest => '\r' :: '\n' :: toCrlf rest
  | c :: rest => c :: toCrlf rest

/-- Whether a carriage return stands directly before a line feed. -/
def hasCrlf : List Char → Bool
  | [] => false
  | '\r' :: '\n' :: _ => true
  | _ :: rest => hasCrlf rest

/-- Writes every carriage return, with the line feed after it if there is one,
as a line feed: how a text file is read. -/
def unifyLineEnds : List Char → List Char
  | [] => []
  | '\r' :: '\n' :: rest => '\n' :: unifyLineEnds rest
  | '\r' :: rest => '\n' :: unifyLineEnds rest
  | c :: rest => c :: unifyLineEnds rest

/-- Whether `part` stands somewhere in the text. -/
def contains (part : List Char) : List Char → Bool
  | [] => part.isEmpty
  | c :: rest => part.isPrefixOf (c :: rest) || contains part rest

/-- Cutting into lines loses nothing. -/
theorem flatten_lines (cs : List Char) : (lines cs).flatten = cs := by
  fun_induction lines cs with
  | case1 => rfl
  | case2 rest ih => simp [ih]
  | case3 c rest _ _ ih => simp [ih]
  | case4 c rest _ _ hnil ih =>
    have : rest = [] := by simpa [hnil] using ih.symm
    simp [this]
  | case5 c rest _ _ l ls hcons ih => simpa [hcons] using ih

end Stencil.Text
