import Stencil.Payload.CodeLine

/-!
# Stencil — the entries of a declaration's body

The code lines are cut into entries, one for each field. An entry ends at a
semicolon or at the end of a line, except inside the braces of an object type,
where both belong to the type. Inside a literal nothing is a brace or a
semicolon, and a literal ends at the next quote like the one that opened it,
or with its line.
-/

namespace Stencil.Payload

open Stencil.Text

/-- The text of one field, possibly from several lines. -/
structure Entry where
  /-- The line the entry starts on. -/
  number : Nat
  line : List Char
  /-- The stretches of code that make up the entry, one for each line. -/
  parts : List (List Char)
  deriving DecidableEq, Repr

/-- The stretches without the blanks around them, with a space between. -/
def Entry.text (e : Entry) : List Char :=
  [' '].intercalate ((e.parts.map trim).filter (· ≠ []))

/-- How far the code has been cut. -/
structure Cutting where
  /-- The finished entries, in order. -/
  entries : List Entry
  /-- The entry being read, without its stretch on the current line. -/
  current : Option Entry
  /-- The characters since the last cut on the current line, latest first. -/
  stretch : List Char
  /-- The quote of the literal the cut stands in. -/
  quote : Option Char
  /-- The number of open braces. -/
  depth : Nat
  deriving DecidableEq, Repr

/-- Before any code. -/
def Cutting.start : Cutting :=
  ⟨[], none, [], none, 0⟩

/-- Adds the current stretch to the current entry. -/
def Entry.extend (e : Entry) (stretch : List Char) : Entry :=
  { e with parts := e.parts ++ [stretch.reverse] }

/-- Begins an entry at the first character that is no blank and no
semicolon. -/
def Cutting.enter (l : CodeLine) (k : Cutting) (c : Char) : Cutting :=
  match k.current with
  | some _ => k
  | none =>
    if isBlank c || c == ';' then k
    else { k with current := some ⟨l.number, l.line, []⟩ }

/-- Ends the current entry at a semicolon. -/
def Cutting.close (k : Cutting) : Cutting :=
  { k with
    entries := k.entries ++ (k.current.map (·.extend k.stretch)).toList
    current := none
    stretch := [] }

/-- Takes in one character of the line. -/
def Cutting.take (l : CodeLine) (k : Cutting) (c : Char) : Except Flaw Cutting :=
  let k := k.enter l c
  let keep (k : Cutting) : Cutting := { k with stretch := c :: k.stretch }
  match k.quote with
  | some q => .ok (keep { k with quote := if c = q then none else some q })
  | none =>
    if isQuote c then .ok (keep { k with quote := some c })
    else if c = '\x7b' then
      if k.depth = 0 then .ok (keep { k with depth := 1 }) else .error .tooDeep
    else if c = '\x7d' then
      match k.depth with
      | 0 => .error .strayBrace
      | depth + 1 => .ok (keep { k with depth := depth })
    else if c = ';' ∧ k.depth = 0 then .ok k.close
    else .ok (keep k)

/-- Ends the line: outside braces the current entry ends with it. -/
def Cutting.endLine (k : Cutting) : Cutting :=
  match k.current with
  | none => { k with stretch := [], quote := none }
  | some e =>
    if k.depth = 0 then
      { k with
        entries := k.entries ++ [e.extend k.stretch]
        current := none
        stretch := []
        quote := none }
    else { k with current := some (e.extend k.stretch), stretch := [], quote := none }

/-- Cuts one line of code. -/
def Cutting.takeLine (source : String) (k : Cutting) (l : CodeLine) :
    Except ParseError Cutting :=
  match l.code.foldlM (Cutting.take l) k with
  | .error flaw => .error ⟨flaw, source, some l.number, some (String.ofList l.line)⟩
  | .ok k => .ok k.endLine

/-- The entries of the code lines, in order. -/
def entries (source : String) (ls : List CodeLine) : Except ParseError (List Entry) := do
  let k ← ls.foldlM (Cutting.takeLine source) Cutting.start
  match k.current with
  | none => .ok k.entries
  | some e => .error ⟨.openObject, source, some e.number, some (String.ofList e.line)⟩

end Stencil.Payload
