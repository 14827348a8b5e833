import Stencil.Text.Lines
import Stencil.Payload.ParseError

/-!
# Stencil — finding the payload declaration

A source text declares its payload type as `export type typePayload = ` and a
body in braces. `afterHead?` finds the first such head and `body?` the text up
to the brace that closes the body. Braces inside string literals and comments
close nothing. Inside a literal a backslash takes the next character with it.
-/

namespace Stencil.Payload

open Stencil.Text

/-- The quotes that a literal stands between. -/
def isQuote (c : Char) : Bool :=
  c == '\'' || c == '"' || c == '\x60'

/-- The text after the given word, if it comes first. -/
def dropWord (word : String) (cs : List Char) : Option (List Char) :=
  if word.toList.isPrefixOf cs then some (cs.drop word.toList.length) else none

/-- The text after the blanks that come first, if there are any. -/
def dropBlanks : List Char → Option (List Char)
  | [] => none
  | c :: rest => if isBlank c then some (rest.dropWhile isBlank) else none

/-- The text after the head of a declaration, if it comes first. -/
def dropHead (cs : List Char) : Option (List Char) := do
  let cs ← dropWord "export" cs
  let cs ← dropBlanks cs
  let cs ← dropWord "type" cs
  let cs ← dropBlanks cs
  let cs ← dropWord payloadTypeName cs
  let cs ← dropWord "=" (cs.dropWhile isBlank)
  dropWord "\x7b" (cs.dropWhile isBlank)

/-- The text after the first head of a declaration. -/
def afterHead? : List Char → Option (List Char)
  | [] => none
  | c :: rest =>
    match dropHead (c :: rest) with
    | some after => some after
    | none => afterHead? rest

/-- Where a scan stands: in code, in a literal, or in a comment. -/
inductive Region where
  | code
  | literal (quote : Char)
  | lineComment
  | blockComment
  deriving DecidableEq, Repr

/-- The text up to the brace that closes a body, read from the given region
with `depth` braces open inside the body. -/
def closeBody? : Region → (depth : Nat) → List Char → Option (List Char)
  | _, _, [] => none
  | .literal _, _, ['\\'] => none
  | .literal q, depth, '\\' :: c :: rest =>
    (closeBody? (.literal q) depth rest).map ('\\' :: c :: ·)
  | .literal q, depth, c :: rest =>
    (closeBody? (if c = q then .code else .literal q) depth rest).map (c :: ·)
  | .lineComment, depth, c :: rest =>
    (closeBody? (if c = '\n' then .code else .lineComment) depth rest).map (c :: ·)
  | .blockComment, depth, '*' :: '/' :: rest =>
    (closeBody? .code depth rest).map ('*' :: '/' :: ·)
  | .blockComment, depth, c :: rest => (closeBody? .blockComment depth rest).map (c :: ·)
  | .code, depth, '/' :: '/' :: rest =>
    (closeBody? .lineComment depth rest).map ('/' :: '/' :: ·)
  | .code, depth, '/' :: '*' :: rest =>
    (closeBody? .blockComment depth rest).map ('/' :: '*' :: ·)
  | .code, depth, c :: rest =>
    if c = '\x7b' then (closeBody? .code (depth + 1) rest).map (c :: ·)
    else if c = '\x7d' then
      match depth with
      | 0 => some []
      | depth + 1 => (closeBody? .code depth rest).map (c :: ·)
    else (closeBody? (if isQuote c then .literal c else .code) depth rest).map (c :: ·)

/-- The text up to the brace that closes the body opened just before. -/
def body? (cs : List Char) : Option (List Char) :=
  closeBody? .code 0 cs

/-- The number of line feeds. -/
def lineFeeds (cs : List Char) : Nat :=
  cs.count '\n'

/-- The body of the payload declaration and the number of the line that opens
it. -/
def declaredBody (source : String) (text : List Char) : Except ParseError (List Char × Nat) :=
  match afterHead? text with
  | none => .error ⟨.noDeclaration, source, none, none⟩
  | some rest =>
    let firstLine := lineFeeds text - lineFeeds rest + 1
    match body? rest with
    | none => .error ⟨.openDeclaration, source, some firstLine, none⟩
    | some body => .ok (body, firstLine)

end Stencil.Payload
