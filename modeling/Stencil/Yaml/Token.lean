import Stencil.Number.Numeral
import Stencil.Text.Utf8
import Stencil.Yaml.Cursor
import Stencil.Yaml.Fault

/-!
# Stencil — the tokens of a YAML text

What a YAML text is made of, and how the tokens with content of their own are
read: scalars in their five styles, anchors, tags and directives. How the
tokens of structure come about is told in the lexer.
-/

namespace Stencil.Yaml

open Stencil.Number (digitLimit isHexDigit valueIn)
open Stencil.Text (Letter)

/-- A token. -/
inductive Token where
  | streamEnd
  | versionDirective (major : Nat)
  | tagDirective (handle leader : List Char)
  | otherDirective
  | documentStart
  | documentEnd
  | blockListStart
  | blockMapStart
  | blockEnd
  | flowListStart
  | flowListEnd
  | flowMapStart
  | flowMapEnd
  | flowEntry
  | blockEntry
  | key
  | value
  | alias (name : List Char)
  | anchor (name : List Char)
  | tag (handle? : Option (List Char)) (suffix : List Char)
  | scalar (isPlain : Bool) (text : List Letter)
  deriving DecidableEq, Repr

/-- The characters of names. -/
def isNameChar (c : Char) : Bool :=
  c.isAlphanum || c == '-' || c == '_'

/-- The characters of a class that come next, at least one. -/
def spanNonempty (c : Cursor) (p : Char → Bool) : Except Fault (List Char × Cursor) :=
  match c.span p with
  | ([], _) => .error .malformed
  | found => .ok found

/-- The place, if the next character is of a class. -/
def expect (c : Cursor) (p : Char → Bool) : Except Fault Cursor :=
  if p c.peek then .ok c else .error .malformed

/-- Past the rest of a line that holds nothing more than a comment. -/
def endOfLine (c : Cursor) : Except Fault Cursor :=
  let c := c.skipSpaces.skipComment
  match c.lineBreak? with
  | some (_, c) => .ok c
  | none => expect c (· == endMark)

/-! ## Anchors and tags -/

/-- The characters that may stand after the name of an anchor. -/
def endsAnchor (c : Char) : Bool :=
  isBlankOrEnd c || "?:,]\x7d%@\x60".toList.contains c

/-- The name of an anchor or alias. -/
def anchorName (c : Cursor) : Except Fault (List Char × Cursor) := do
  let (name, c) ← spanNonempty c.next isNameChar
  let c ← expect c endsAnchor
  return (name, c)

/-- The characters of a tag's address. -/
def isAddressChar (c : Char) : Bool :=
  c.isAlphanum || "-;/?:@&=+$,_.!~*'()[]%".toList.contains c

/-- The bytes that escapes at the front write, and the text after them. -/
def addressEscapes : List Char → List UInt8 × List Char
  | '%' :: a :: b :: rest =>
    if isHexDigit a && isHexDigit b then
      let (bytes, rest) := addressEscapes rest
      (UInt8.ofNat (valueIn 16 [a, b]) :: bytes, rest)
    else ([], '%' :: a :: b :: rest)
  | cs => ([], cs)

/-- An address with its escapes taken back; they must write text. -/
def unescapeAddress : (fuel : Nat) → List Char → Except Fault (List Char)
  | _, [] => .ok []
  | 0, _ => .error .malformed
  | fuel + 1, '%' :: rest =>
    match addressEscapes ('%' :: rest) with
    | ([], _) => .error .malformed
    | (bytes, rest) =>
      match Text.Utf8.decode bytes with
      | .error _ => .error .malformed
      | .ok text => (unescapeAddress fuel rest).map (text ++ ·)
  | fuel + 1, c :: rest => (unescapeAddress fuel rest).map (c :: ·)

/-- The address of a tag. -/
def address (c : Cursor) : Except Fault (List Char × Cursor) := do
  let (raw, c) ← spanNonempty c isAddressChar
  let text ← unescapeAddress (raw.length + 1) raw
  return (text, c)

/-- A tag's handle: `!`, or a name between two of them. -/
def tagHandle (c : Cursor) : Except Fault (List Char × Cursor) :=
  if c.peek != '!' then .error .malformed
  else if c.peekAt 1 == ' ' then .ok (['!'], c.next)
  else
    let (name, c) := c.next.span isNameChar
    if c.peek == '!' then .ok ('!' :: name ++ ['!'], c.next) else .error .malformed

/-- A tag: an address between angle brackets, the tag that says nothing, or a
handle and the rest of an address. -/
def tag (c : Cursor) : Except Fault (Token × Cursor) := do
  let ahead := c.peekAt 1
  let (token, c) ←
    if ahead == '<' then do
      let (text, c) ← address (c.skip 2)
      let c ← expect c (· == '>')
      pure (Token.tag none text, c.next)
    else if isBlankOrEnd ahead then pure (Token.tag none ['!'], c.next)
    else do
      let word := (c.next.rest.takeWhile (!isSpaceOrEnd ·))
      let (handle, c) ← if word.contains '!' then tagHandle c else pure (['!'], c.next)
      let (suffix, c) ← address c
      pure (Token.tag (some handle) suffix, c)
  let c ← expect c isSpaceOrEnd
  return (token, c)

/-! ## Directives -/

/-- A number of a version. -/
def versionNumber (c : Cursor) : Except Fault (Nat × Cursor) := do
  let (digits, c) ← spanNonempty c Char.isDigit
  if digitLimit < digits.length then throw (.value (.tooManyDigits digits.length))
  return (valueIn 10 digits, c)

/-- The version that a directive asks for: its first number. -/
def versionValue (c : Cursor) : Except Fault (Token × Cursor) := do
  let (major, c) ← versionNumber c.skipSpaces
  let c ← expect c (· == '.')
  let (_, c) ← versionNumber c.next
  let c ← expect c isSpaceOrEnd
  return (.versionDirective major, c)

/-- The handle that a directive declares, and what it stands for. -/
def tagValue (c : Cursor) : Except Fault (Token × Cursor) := do
  let (handle, c) ← tagHandle c.skipSpaces
  let c ← expect c (· == ' ')
  let (leader, c) ← address c.skipSpaces
  let c ← expect c isSpaceOrEnd
  return (.tagDirective handle leader, c)

/-- A directive. One that is not known is passed over. -/
def directive (c : Cursor) : Except Fault (Token × Cursor) := do
  let (name, c) ← spanNonempty c.next isNameChar
  let c ← expect c isSpaceOrEnd
  let (token, c) ←
    if name = "YAML".toList then versionValue c
    else if name = "TAG".toList then tagValue c
    else pure (Token.otherDirective, c.skipWhile (!isBreakOrEnd ·))
  let c ← endOfLine c
  return (token, c)

/-! ## Block scalars -/

/-- What is done with the line ends at the end of a block scalar. -/
inductive Chomping where
  | strip
  | clip
  | keep
  deriving DecidableEq, Repr

/-- What the first line of a block scalar says about it. -/
structure BlockHeader where
  chomping : Chomping
  increment? : Option Nat
  deriving DecidableEq, Repr

/-- The chomping that a sign asks for. -/
def chompingOf? (c : Char) : Option Chomping :=
  if c == '+' then some .keep else if c == '-' then some .strip else none

/-- The indentation that a digit asks for, which is never none. -/
def incrementAt (c : Cursor) : Except Fault (Option Nat × Cursor) :=
  if c.peek.isDigit then
    if c.peek == '0' then .error .malformed
    else .ok (some (c.peek.toNat - 48), c.next)
  else .ok (none, c)

/-- The first line of a block scalar: a sign and a digit, in either order. -/
def blockHeader (c : Cursor) : Except Fault (BlockHeader × Cursor) := do
  match chompingOf? c.peek with
  | some chomping =>
    let (increment?, c) ← incrementAt c.next
    let c ← expect c isSpaceOrEnd
    return (⟨chomping, increment?⟩, c)
  | none =>
    let (increment?, c) ← incrementAt c
    match increment?, chompingOf? c.peek with
    | some _, some chomping =>
      let c ← expect c.next isSpaceOrEnd
      return (⟨chomping, increment?⟩, c)
    | _, _ =>
      let c ← expect c isSpaceOrEnd
      return (⟨.clip, increment?⟩, c)

/-- The empty lines that come next, each with no more than `indent` spaces. -/
def emptyLines (indent : Nat) : (fuel : Nat) → Cursor → List Char × Cursor
  | 0, c => ([], c)
  | fuel + 1, c =>
    let c := c.skipToColumn indent
    match c.lineBreak? with
    | some (b, c) =>
      let (more, c) := emptyLines indent fuel c
      (b :: more, c)
    | none => ([], c)

/-- The empty lines that come next, however many spaces they have, and the
greatest column reached. -/
def leadingLines : (fuel : Nat) → (widest : Nat) → Cursor → List Char × Nat × Cursor
  | 0, widest, c => ([], widest, c)
  | fuel + 1, widest, c =>
    let c := c.skipSpaces
    let widest := max widest c.column
    match c.lineBreak? with
    | some (b, c) =>
      let (more, widest, c) := leadingLines fuel widest c
      (b :: more, widest, c)
    | none => ([], widest, c)

/-- Whether a line of a block scalar starts here. -/
def atBlockLine (indent : Nat) (c : Cursor) : Bool :=
  c.column == indent && c.peek != endMark

/-- The lines of a block scalar, after the empty lines `breaks`. -/
def blockLines (isFolded : Bool) (chomping : Chomping) (indent : Nat) :
    (fuel : Nat) → (breaks lastBreak : List Char) → Cursor → List Char × Cursor
  | 0, _, _, c => ([], c)
  | fuel + 1, breaks, lastBreak, c =>
    let tail :=
      (if chomping = .strip then [] else lastBreak) ++
        (if chomping = .keep then breaks else [])
    if !atBlockLine indent c then (tail, c)
    else
      let isFlush := c.peek != ' ' && c.peek != '\t'
      let (line, c) := c.span (!isBreakOrEnd ·)
      let (lastBreak, c) :=
        match c.lineBreak? with
        | some (b, c) => ([b], c)
        | none => ([], c)
      let (after, c) := emptyLines indent (c.rest.length + 1) c
      let joint :=
        if !atBlockLine indent c then []
        else if isFolded && lastBreak = ['\n'] && isFlush && c.peek != ' ' && c.peek != '\t' then
          if after = [] then [' '] else []
        else lastBreak
      let (more, c) := blockLines isFolded chomping indent fuel after lastBreak c
      (breaks ++ line ++ joint ++ more, c)

/-- A block scalar inside a block with the given indentation. -/
def blockScalar (isFolded : Bool) (around : Int) (c : Cursor) : Except Fault (Token × Cursor) := do
  let (header, c) ← blockHeader c.next
  let c ← endOfLine c
  let least := max 1 (around + 1).toNat
  let fuel := c.rest.length + 1
  let (breaks, indent, c) :=
    match header.increment? with
    | none =>
      let (breaks, widest, c) := leadingLines fuel 0 c
      (breaks, max least widest, c)
    | some increment =>
      let indent := least + increment - 1
      let (breaks, c) := emptyLines indent fuel c
      (breaks, indent, c)
  let (text, c) := blockLines isFolded header.chomping indent fuel breaks [] c
  return (.scalar false (Letter.plain text), c)

/-! ## Quoted scalars -/

/-- What a backslash and a character stand for. -/
def escapes : List (Char × Char) :=
  [('0', '\x00'), ('a', '\x07'), ('b', '\x08'), ('t', '\t'), ('\t', '\t'), ('n', '\n'),
    ('v', '\x0b'), ('f', '\x0c'), ('r', '\r'), ('e', '\x1b'), (' ', ' '), ('"', '"'),
    ('\\', '\\'), ('/', '/'), ('N', '\u0085'), ('_', '\u00a0'), ('L', '\u2028'),
    ('P', '\u2029')]

/-- The number of digits after a backslash and a letter. -/
def escapeWidth? (c : Char) : Option Nat :=
  [('x', 2), ('u', 4), ('U', 8)].lookup c

/-- The line ends among the blanks that come next. A line that separates
documents is not allowed. -/
def quotedBreaks : (fuel : Nat) → Cursor → Except Fault (List Char × Cursor)
  | 0, _ => .error .malformed
  | fuel + 1, c =>
    if c.atSeparator then .error .malformed
    else
      let c := c.skipWhile fun ch => ch == ' ' || ch == '\t'
      match c.lineBreak? with
      | none => .ok ([], c)
      | some (b, c) => do
        let (more, c) ← quotedBreaks fuel c
        return (b :: more, c)

/-- What a line end and the line ends after it are folded to. -/
def foldedBreaks (first : Char) (more : List Char) : List Char :=
  if first != '\n' then first :: more else if more = [] then [' '] else more

/-- The letter with a code, half of a surrogate pair or not. -/
def letterOfCode (n : Nat) : Except Fault Letter :=
  match Letter.ofCode? n with
  | some letter => .ok letter
  | none => .error (.value (if n < 0x80000000 then .characterCode else .oversizedCode))

/-- What an escape in a double quoted scalar stands for. -/
def escaped (fuel : Nat) (c : Cursor) : Except Fault (List Letter × Cursor) := do
  let ch := c.peek
  match escapes.lookup ch, escapeWidth? ch, c.lineBreak? with
  | some x, _, _ => return ([.char x], c.next)
  | none, some width, _ =>
    let digits := c.next.rest.take width
    if digits.length = width ∧ digits.all isHexDigit then
      let x ← letterOfCode (valueIn 16 digits)
      return ([x], c.next.skip width)
    else throw .malformed
  | none, none, some (_, c) =>
    let (breaks, c) ← quotedBreaks fuel c
    return (Letter.plain breaks, c)
  | none, none, none => throw .malformed

/-- The rest of a quoted scalar, with the quote that ends it. -/
def quotedRest (isDouble : Bool) : (fuel : Nat) → Cursor → Except Fault (List Letter × Cursor)
  | 0, _ => .error .malformed
  | fuel + 1, c => do
    let ch := c.peek
    if isDouble && ch == '"' then return ([], c.next)
    else if !isDouble && ch == '\'' then
      if c.peekAt 1 == '\'' then
        let (more, c) ← quotedRest isDouble fuel (c.skip 2)
        return (.char '\'' :: more, c)
      else return ([], c.next)
    else if isDouble && ch == '\\' then
      let (text, c) ← escaped (c.rest.length + 1) c.next
      let (more, c) ← quotedRest isDouble fuel c
      return (text ++ more, c)
    else if ch == endMark then throw .malformed
    else if ch == ' ' || ch == '\t' || isBreak ch then
      let (blanks, c) := c.span fun x => x == ' ' || x == '\t'
      match c.lineBreak? with
      | some (b, c) =>
        let (breaks, c) ← quotedBreaks (c.rest.length + 1) c
        let (more, c) ← quotedRest isDouble fuel c
        return (Letter.plain (foldedBreaks b breaks) ++ more, c)
      | none =>
        if c.peek == endMark then throw .malformed
        else
          let (more, c) ← quotedRest isDouble fuel c
          return (Letter.plain blanks ++ more, c)
    else
      let (more, c) ← quotedRest isDouble fuel c.next
      return (.char ch :: more, c)

/-- A quoted scalar. -/
def quotedScalar (isDouble : Bool) (c : Cursor) : Except Fault (Token × Cursor) := do
  let (text, c) ← quotedRest isDouble (c.rest.length + 1) c.next
  return (.scalar false text, c)

/-! ## Plain scalars -/

/-- Whether a plain scalar goes on with the character `n` places ahead. -/
def goesOn (isFlow : Bool) (c : Cursor) (n : Nat) : Bool :=
  let ch := c.peekAt n
  let after := c.peekAt (n + 1)
  !(isBlankOrEnd ch ||
    (ch == ':' && (isBlankOrEnd after || (isFlow && ",[]\x7b\x7d".toList.contains after))) ||
    (isFlow && ",?[]\x7b\x7d".toList.contains ch))

/-- The number of characters that a plain scalar goes on for. -/
def wordLength (isFlow : Bool) (c : Cursor) : (fuel n : Nat) → Nat
  | 0, n => n
  | fuel + 1, n => if goesOn isFlow c n then wordLength isFlow c fuel (n + 1) else n

/-- The line ends after the first one, unless a line separates documents. -/
def plainBreaks : (fuel : Nat) → Cursor → Option (List Char) × Cursor
  | 0, c => (some [], c)
  | fuel + 1, c =>
    if c.atSeparator then (none, c)
    else
      let c := c.skipSpaces
      match c.lineBreak? with
      | none => (some [], c)
      | some (b, c) =>
        let (more?, c) := plainBreaks fuel c
        (more?.map (b :: ·), c)

/-- What stands between two words of a plain scalar, whether a line ended
there, and the place after it; nothing if the scalar ends. -/
def plainSpaces (c : Cursor) : List Char × Bool × Cursor :=
  let (blanks, c) := c.span (· == ' ')
  match c.lineBreak? with
  | none => (blanks, false, c)
  | some (b, c) =>
    match plainBreaks (c.rest.length + 1) c with
    | (none, c) => ([], true, c)
    | (some more, c) => (foldedBreaks b more, true, c)

/-- The words of a plain scalar after the given spaces, and whether a line
ended after the last one. -/
def plainWords (isFlow : Bool) (indent : Int) :
    (fuel : Nat) → (spaces : List Char) → (brokeLine : Bool) → Cursor →
      List Char × Bool × Cursor
  | 0, _, brokeLine, c => ([], brokeLine, c)
  | fuel + 1, spaces, brokeLine, c =>
    let length := if c.peek == '#' then 0 else wordLength isFlow c (c.rest.length + 1) 0
    if length = 0 then ([], brokeLine, c)
    else
      let word := c.rest.take length
      let (after, brokeLine, c) := plainSpaces (c.skip length)
      if after = [] || c.peek == '#' || (!isFlow && (c.column : Int) < indent) then
        (spaces ++ word, brokeLine, c)
      else
        let (more, brokeLine, c) := plainWords isFlow indent fuel after brokeLine c
        (spaces ++ word ++ more, brokeLine, c)

/-- A plain scalar inside a block with the given indentation, and whether a
line ended after it. -/
def plainScalar (isFlow : Bool) (around : Int) (c : Cursor) : Token × Bool × Cursor :=
  let (text, brokeLine, c) := plainWords isFlow (around + 1) (c.rest.length + 1) [] false c
  (.scalar true (Letter.plain text), brokeLine, c)

end Stencil.Yaml
