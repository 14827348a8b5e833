import Stencil.Yaml.Token

/-!
# Stencil — from a YAML text to its tokens

The structure of a block is told by indentation, and a key is known as one
only when the colon after it is reached. So the lexer remembers where a key
could have started, on each level of flow brackets one place, and puts the
tokens of a key in there when the colon comes. A key stands on one line and
is no longer than 1024 characters.

What is wrong with a text counts only when it is reached: of a text with two
faults, one in the order of the tokens and one in the spelling of a later
token, the first is reported. So the tokens are handed on as far as they are
settled, together with the fault that comes after them.
-/

namespace Stencil.Yaml

/-- A place where a key could have started. -/
structure PossibleKey where
  /-- The number of flow brackets open there. -/
  flowLevel : Nat
  /-- The number of tokens before it. -/
  tokenNumber : Nat
  /-- Whether nothing but a key can start there. -/
  isRequired : Bool
  index : Nat
  line : Nat
  column : Nat
  deriving DecidableEq, Repr

/-- How far the lexer has come. -/
structure Lexer where
  cursor : Cursor
  /-- The number of open flow brackets. -/
  flowLevel : Nat
  /-- The indentation of the innermost block, `-1` outside of blocks. -/
  indent : Int
  /-- The indentations of the blocks around it. -/
  outer : List Int
  /-- Whether a key may start here. -/
  allowsKey : Bool
  keys : List PossibleKey
  tokens : Array Token
  deriving Repr

/-- The longest key. -/
def keyLimit : Nat := 1024

namespace Lexer

/-- Before the text. -/
def start (text : List Char) : Lexer :=
  ⟨.start text, 0, -1, [], true, [], #[]⟩

/-- Adds a token. -/
def push (l : Lexer) (t : Token) : Lexer :=
  { l with tokens := l.tokens.push t }

/-- Adds a token and goes on at a place. -/
def pushAt (l : Lexer) (t : Token) (c : Cursor) : Lexer :=
  { l with tokens := l.tokens.push t, cursor := c }

/-- Puts a token in at a place among the tokens. -/
def insertToken (l : Lexer) (n : Nat) (t : Token) : Lexer :=
  { l with tokens := (l.tokens.extract 0 n).push t ++ l.tokens.extract n l.tokens.size }

/-- Whether the lexer is outside of flow brackets. -/
def isBlock (l : Lexer) : Bool :=
  l.flowLevel == 0

/-- Ends the blocks that are indented further than a column. -/
def unwindFrom (column : Int) : List Int → Lexer → Lexer
  | [], l => l
  | around :: outer, l =>
    if column < l.indent then
      unwindFrom column outer { l.push .blockEnd with indent := around, outer }
    else l

/-- Ends the blocks that are indented further than a column; flow brackets take
no notice of indentation. -/
def unwind (l : Lexer) (column : Int) : Lexer :=
  if l.isBlock then unwindFrom column l.outer l else l

/-- Begins a block at a column, if it is indented further than the one around
it; says whether it is. -/
def addIndent (l : Lexer) (column : Nat) : Bool × Lexer :=
  if l.indent < column then (true, { l with indent := column, outer := l.indent :: l.outer })
  else (false, l)

/-- Begins a block at a column with a token. -/
def beginBlock (l : Lexer) (column : Nat) (t : Token) : Lexer :=
  let (isNew, l) := l.addIndent column
  if isNew then l.push t else l

/-- Gives up the place where a key could have started on this level. -/
def dropKey (l : Lexer) : Except Fault Lexer :=
  if l.keys.any fun k => k.flowLevel == l.flowLevel && k.isRequired then .error .malformed
  else .ok { l with keys := l.keys.filter (·.flowLevel != l.flowLevel) }

/-- Remembers that a key could start here. -/
def saveKey (l : Lexer) : Except Fault Lexer :=
  if l.allowsKey then do
    let c := l.cursor
    let isRequired := l.isBlock && l.indent == (c.column : Int)
    let l ← l.dropKey
    return { l with
      keys := ⟨l.flowLevel, l.tokens.size, isRequired, c.index, c.line, c.column⟩ :: l.keys }
  else .ok l

/-- Whether a key that started there can no longer end here. -/
def isStale (l : Lexer) (k : PossibleKey) : Bool :=
  k.line != l.cursor.line || keyLimit < l.cursor.index - k.index

/-- Gives up the keys that can no longer end here. -/
def dropStaleKeys (l : Lexer) : Except Fault Lexer :=
  if l.keys.any fun k => l.isStale k && k.isRequired then .error .malformed
  else .ok { l with keys := l.keys.filter (!l.isStale ·) }

/-- Past blanks, comments and line ends. After a line end a key may start,
outside of flow brackets. -/
def skipToToken : (fuel : Nat) → Lexer → Lexer
  | 0, l => l
  | fuel + 1, l =>
    let c := l.cursor.skipSpaces.skipComment
    match c.lineBreak? with
    | some (_, c) =>
      skipToToken fuel { l with cursor := c, allowsKey := l.allowsKey || l.isBlock }
    | none => { l with cursor := c }

/-- The end of the text. -/
def finish (l : Lexer) : Except Fault Lexer := do
  let l ← (l.unwind (-1)).dropKey
  return l.push .streamEnd

/-- A line that stands for itself between documents. -/
def documentLine (l : Lexer) (t : Token) : Except Fault Lexer := do
  let l ← (l.unwind (-1)).dropKey
  return { l.pushAt t (l.cursor.skip 3) with allowsKey := false }

def directiveLine (l : Lexer) : Except Fault Lexer := do
  let l ← (l.unwind (-1)).dropKey
  let (t, c) ← directive l.cursor
  return { l.pushAt t c with allowsKey := false }

def openFlow (l : Lexer) (t : Token) : Except Fault Lexer := do
  let l ← l.saveKey
  return { l.pushAt t l.cursor.next with flowLevel := l.flowLevel + 1, allowsKey := true }

/-- A closing bracket that no bracket opened is malformed wherever it
stands. -/
def closeFlow (l : Lexer) (t : Token) : Except Fault Lexer := do
  if l.isBlock then throw .malformed
  let l ← l.dropKey
  return { l.pushAt t l.cursor.next with flowLevel := l.flowLevel - 1, allowsKey := false }

def comma (l : Lexer) : Except Fault Lexer := do
  let l ← l.dropKey
  return { l.pushAt .flowEntry l.cursor.next with allowsKey := true }

def dash (l : Lexer) : Except Fault Lexer := do
  if l.isBlock && !l.allowsKey then throw .malformed
  let l := if l.isBlock then l.beginBlock l.cursor.column .blockListStart else l
  let l ← l.dropKey
  return { l.pushAt .blockEntry l.cursor.next with allowsKey := true }

def questionMark (l : Lexer) : Except Fault Lexer := do
  if l.isBlock && !l.allowsKey then throw .malformed
  let l := if l.isBlock then l.beginBlock l.cursor.column .blockMapStart else l
  let l ← l.dropKey
  return { l.pushAt .key l.cursor.next with allowsKey := l.isBlock }

/-- A colon after a possible key makes it one, and begins a block there if the
key is indented further than the block around it. -/
def colonAfter (l : Lexer) (k : PossibleKey) : Lexer :=
  let l := { l with keys := l.keys.filter (·.flowLevel != l.flowLevel) }
  let l := l.insertToken k.tokenNumber .key
  let (isNew, l) := if l.isBlock then l.addIndent k.column else (false, l)
  let l := if isNew then l.insertToken k.tokenNumber .blockMapStart else l
  { l.pushAt .value l.cursor.next with allowsKey := false }

/-- A colon without a key before it on its line. -/
def colonAlone (l : Lexer) : Except Fault Lexer := do
  if l.isBlock && !l.allowsKey then throw .malformed
  let l := if l.isBlock then l.beginBlock l.cursor.column .blockMapStart else l
  let l ← { l with allowsKey := l.isBlock }.dropKey
  return l.pushAt .value l.cursor.next

def colon (l : Lexer) : Except Fault Lexer :=
  match l.keys.find? (·.flowLevel == l.flowLevel) with
  | some k => .ok (l.colonAfter k)
  | none => l.colonAlone

/-- A token that may be a key or its beginning. -/
def content (l : Lexer) (read : Cursor → Except Fault (Token × Cursor)) :
    Except Fault Lexer := do
  let l ← l.saveKey
  let (t, c) ← read l.cursor
  return { l.pushAt t c with allowsKey := false }

def blockText (l : Lexer) (isFolded : Bool) : Except Fault Lexer := do
  let l ← { l with allowsKey := true }.dropKey
  let (t, c) ← blockScalar isFolded l.indent l.cursor
  return l.pushAt t c

def plainText (l : Lexer) : Except Fault Lexer := do
  let l ← l.saveKey
  let (t, brokeLine, c) := plainScalar (!l.isBlock) l.indent l.cursor
  return { l.pushAt t c with allowsKey := brokeLine }

/-- The characters that a plain scalar cannot start with. -/
def indicators : List Char :=
  "-?:,[]\x7b\x7d#&*!|>'\"%@\x60".toList

/-- Whether a plain scalar starts here. -/
def startsPlain (l : Lexer) : Bool :=
  let ch := l.cursor.peek
  !(isBlankOrEnd ch || indicators.contains ch) ||
    (!isBlankOrEnd (l.cursor.peekAt 1) &&
      (ch == '-' || (l.isBlock && (ch == '?' || ch == ':'))))

/-- The token that comes next. -/
def next (l : Lexer) : Except Fault Lexer :=
  let c := l.cursor
  let ch := c.peek
  let isFirst := c.column == 0
  let isAlone := isBlankOrEnd (c.peekAt 1)
  if ch == '%' && isFirst then l.directiveLine
  else if isFirst && c.atSeparator then
    l.documentLine (if ch == '-' then .documentStart else .documentEnd)
  else if ch == '[' then l.openFlow .flowListStart
  else if ch == '\x7b' then l.openFlow .flowMapStart
  else if ch == ']' then l.closeFlow .flowListEnd
  else if ch == '\x7d' then l.closeFlow .flowMapEnd
  else if ch == ',' then l.comma
  else if ch == '-' && isAlone then l.dash
  else if ch == '?' && (!l.isBlock || isAlone) then l.questionMark
  else if ch == ':' && (!l.isBlock || isAlone) then l.colon
  else if ch == '*' then
    l.content fun c => (anchorName c).map fun (name, c) => (.alias name, c)
  else if ch == '&' then
    l.content fun c => (anchorName c).map fun (name, c) => (.anchor name, c)
  else if ch == '!' then l.content tag
  else if ch == '|' && l.isBlock then l.blockText false
  else if ch == '>' && l.isBlock then l.blockText true
  else if ch == '\'' then l.content (quotedScalar false)
  else if ch == '"' then l.content (quotedScalar true)
  else if l.startsPlain then l.plainText
  else .error .malformed

/-- Reads one token further. -/
def advance (l : Lexer) : Except Fault Lexer := do
  let l ← (l.skipToToken (l.cursor.rest.length + 1)).dropStaleKeys
  let l := l.unwind l.cursor.column
  if l.cursor.peek == endMark then l.finish else l.next

/-- The tokens that nothing can be put in front of any more: those before the
first place where a key could have started. -/
def settled (l : Lexer) : List Token :=
  let starts := (l.keys.filter (!l.isStale ·)).map (·.tokenNumber)
  l.tokens.toList.take (starts.foldl min l.tokens.size)

/-- Whether the whole text is read. -/
def isDone (l : Lexer) : Bool :=
  l.tokens.back? == some .streamEnd

end Lexer

/-- The tokens of a text as far as they can be told, and what is wrong with the
text after them. Without a fault they are all there, the end of the text being
the last. -/
structure Tokens where
  settled : List Token
  fault? : Option Fault
  deriving Repr

/-- Reads tokens up to the end of the text or to a fault. -/
def Lexer.readAll : (fuel : Nat) → Lexer → Tokens
  | 0, l => ⟨l.settled, some .malformed⟩
  | fuel + 1, l =>
    match l.advance with
    | .error fault => ⟨l.settled, some fault⟩
    | .ok l => if l.isDone then ⟨l.tokens.toList, none⟩ else readAll fuel l

/-- The characters that a YAML text may hold. -/
def isAllowed (c : Char) : Bool :=
  let n := c.toNat
  n == 0x09 || n == 0x0A || n == 0x0D || (0x20 ≤ n && n ≤ 0x7E) || n == 0x85 ||
    (0xA0 ≤ n && n ≤ 0xFFFD) || 0x10000 ≤ n

/-- The tokens of a text. A byte order mark at the front is passed over. -/
def tokensOf (text : List Char) : Tokens :=
  if !text.all isAllowed then ⟨[], some .malformed⟩
  else
    let l := Lexer.start text
    let l := if text.head? = some orderMark then { l with cursor := l.cursor.next } else l
    l.readAll (text.length + 2)

end Stencil.Yaml
