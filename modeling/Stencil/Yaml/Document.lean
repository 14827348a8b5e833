import Stencil.Yaml.Lexer
import Stencil.Yaml.Node

/-!
# Stencil — from the tokens of a YAML text to the nodes of its document

Tokens are looked at one at a time, and a fault in a later token counts only
when that token is looked at. An anchor is known from the beginning of its node
on, so that the node may hold itself.
-/

namespace Stencil.Yaml

/-- How far the reading of a document has come. -/
structure Progress where
  ahead : Tokens
  nodes : Nodes
  anchors : List (List Char × NodeId)
  handles : List (List Char × List Char)
  deriving Repr

/-- A step of reading a document. -/
abbrev Reading := StateT Progress (Except Fault)

namespace Reading

/-- The next token. -/
def peek : Reading Token := do
  let ahead := (← get).ahead
  match ahead.settled, ahead.fault? with
  | token :: _, _ => return token
  | [], some fault => throw fault
  | [], none => return .streamEnd

/-- Goes past the next token. -/
def skip : Reading Unit :=
  modify fun p => { p with ahead := { p.ahead with settled := p.ahead.settled.tail } }

/-- Goes past the next token if it is the given one, and says whether it is. -/
def accept (t : Token) : Reading Bool := do
  if (← peek) = t then
    skip
    return true
  else return false

/-- Goes past the given token. -/
def expect (t : Token) : Reading Unit := do
  if !(← accept t) then throw .malformed

/-- Whether the next token is one of these. -/
def isAt (ts : List Token) : Reading Bool :=
  return ts.contains (← peek)

/-! ## Nodes -/

/-- Adds a node. -/
def add (n : Node) : Reading NodeId :=
  modifyGet fun p => (p.nodes.size, { p with nodes := p.nodes.push n })

/-- Adds a scalar with nothing written. -/
def addEmpty : Reading NodeId :=
  add .empty

/-- What can stand before the content of a node. -/
structure Properties where
  anchor? : Option (List Char)
  tag? : Option Tag
  deriving DecidableEq, Repr

/-- Adds a node that an anchor may lead to. -/
def addNamed (p : Properties) (n : Node) : Reading NodeId := do
  let id ← add n
  match p.anchor? with
  | some name => modify fun p => { p with anchors := (name, id) :: p.anchors }
  | none => pure ()
  return id

/-- Adds a list whose items are still to be read. -/
def addList (p : Properties) (items : Reading (List NodeId)) : Reading NodeId := do
  let kind := (p.tag?.getD .unsaid).kindOr .list
  let id ← addNamed p ⟨kind, .list []⟩
  let items ← items
  modify fun p => { p with nodes := p.nodes.setIfInBounds id ⟨kind, .list items⟩ }
  return id

/-- Adds a map whose entries are still to be read. -/
def addMap (p : Properties) (entries : Reading (List (NodeId × NodeId))) : Reading NodeId := do
  let kind := (p.tag?.getD .unsaid).kindOr .map
  let id ← addNamed p ⟨kind, .map []⟩
  let entries ← entries
  modify fun p => { p with nodes := p.nodes.setIfInBounds id ⟨kind, .map entries⟩ }
  return id

/-- The tag of a scalar: one that is not plain and has no tag is a text. A tag
that says nothing makes every scalar count as plain. -/
def scalarTag (tag? : Option Tag) (isPlain : Bool) : Tag :=
  match tag? with
  | some t => t
  | none => if isPlain then .unsaid else .untagged

/-- The node that an alias leads to. -/
def followAlias (name : List Char) : Reading NodeId := do
  skip
  match (← get).anchors.lookup name with
  | some id => return id
  | none => throw .malformed

/-! ## Anchors and tags -/

/-- The handles that need not be declared. -/
def usualHandles : List (List Char × List Char) :=
  [(['!'], ['!']), (['!', '!'], "tag:yaml.org,2002:".toList)]

/-- The tag that a tag token stands for. -/
def tagOf (handle? : Option (List Char)) (suffix : List Char) : Reading Tag := do
  let leader ←
    match handle? with
    | none => pure []
    | some handle =>
      match (← get).handles.lookup handle with
      | some leader => pure leader
      | none => throw Fault.malformed
  let full := leader ++ suffix
  return if full = ['!'] then .unsaid else .named full

/-- An anchor, if one comes next. -/
def anchor? : Reading (Option (List Char)) := do
  match ← peek with
  | .anchor name =>
    skip
    return some name
  | _ => return none

/-- An anchor and a tag in either order. The handle of the tag must have been
declared. -/
def properties : Reading Properties := do
  let first? ← anchor?
  match ← peek with
  | .tag handle? suffix =>
    skip
    let anchor? ← if first?.isSome then pure first? else anchor?
    return ⟨anchor?, some (← tagOf handle? suffix)⟩
  | _ => return ⟨first?, none⟩

/-- Refuses an anchor that is already in use. -/
def refuseTaken (p : Properties) : Reading Unit := do
  let anchors := (← get).anchors
  if p.anchor?.any fun name => anchors.any (·.1 == name) then throw .malformed

/-! ## Lists and maps -/

mutual

/-- Reads a node. Only in a block may block lists and maps stand, and only as
the key or value of a map a list that is not indented. -/
def node : (fuel : Nat) → (isBlock mayBeFlush : Bool) → Reading NodeId
  | 0, _, _ => throw .malformed
  | fuel + 1, isBlock, mayBeFlush => do
    match ← peek with
    | .alias name => followAlias name
    | _ =>
      let p ← properties
      let token ← peek
      refuseTaken p
      match token with
      | .scalar isPlain text =>
        skip
        addNamed p (.scalar (scalarTag p.tag? isPlain) text)
      | .flowListStart =>
        skip
        addList p (flowList fuel true)
      | .flowMapStart =>
        skip
        addMap p (flowMap fuel true)
      | _ =>
        if mayBeFlush && token = .blockEntry then addList p (flushList fuel)
        else if isBlock && token = .blockListStart then
          skip
          addList p (blockList fuel)
        else if isBlock && token = .blockMapStart then
          skip
          addMap p (blockMap fuel)
        else if p.anchor?.isSome || p.tag?.isSome then
          addNamed p (.scalar (p.tag?.getD .unsaid) [])
        else throw .malformed

/-- Reads the rest of a block list. -/
def blockList : (fuel : Nat) → Reading (List NodeId)
  | 0 => throw .malformed
  | fuel + 1 => do
    if ← accept .blockEntry then
      let item ←
        if ← isAt [.blockEntry, .blockEnd] then addEmpty else node fuel true false
      return item :: (← blockList fuel)
    else
      expect .blockEnd
      return []

/-- Reads the rest of a list that is not indented. -/
def flushList : (fuel : Nat) → Reading (List NodeId)
  | 0 => throw .malformed
  | fuel + 1 => do
    if ← accept .blockEntry then
      let item ←
        if ← isAt [.blockEntry, .key, .value, .blockEnd] then addEmpty
        else node fuel true false
      return item :: (← flushList fuel)
    else return []

/-- Reads the rest of a block map. -/
def blockMap : (fuel : Nat) → Reading (List (NodeId × NodeId))
  | 0 => throw .malformed
  | fuel + 1 => do
    if (← peek) = .key then
      let key ← blockPart fuel .key
      let value ← blockPart fuel .value
      return (key, value) :: (← blockMap fuel)
    else
      expect .blockEnd
      return []

/-- Reads the key or the value of an entry in a block map; it may be missing. -/
def blockPart : (fuel : Nat) → (opening : Token) → Reading NodeId
  | 0, _ => throw .malformed
  | fuel + 1, opening => do
    if ← accept opening then
      if ← isAt [.key, .value, .blockEnd] then addEmpty else node fuel true true
    else addEmpty

/-- Reads the rest of a flow list. -/
def flowList : (fuel : Nat) → (isFirst : Bool) → Reading (List NodeId)
  | 0, _ => throw .malformed
  | fuel + 1, isFirst => do
    if ← accept .flowListEnd then return []
    if !isFirst then expect .flowEntry
    if (← peek) = .key then
      let item ← addMap ⟨none, none⟩ do
        let key ← flowPart fuel .key [.value, .flowEntry, .flowListEnd]
        let value ← flowPart fuel .value [.flowEntry, .flowListEnd]
        return [(key, value)]
      return item :: (← flowList fuel false)
    else if ← accept .flowListEnd then return []
    else
      let item ← node fuel false false
      return item :: (← flowList fuel false)

/-- Reads the key or the value of an entry inside flow brackets; it may be
missing. -/
def flowPart : (fuel : Nat) → (opening : Token) → (closing : List Token) → Reading NodeId
  | 0, _, _ => throw .malformed
  | fuel + 1, opening, closing => do
    if ← accept opening then
      if ← isAt closing then addEmpty else node fuel false false
    else addEmpty

/-- Reads the rest of a flow map. -/
def flowMap : (fuel : Nat) → (isFirst : Bool) → Reading (List (NodeId × NodeId))
  | 0, _ => throw .malformed
  | fuel + 1, isFirst => do
    if ← accept .flowMapEnd then return []
    if !isFirst then expect .flowEntry
    if ← accept .flowMapEnd then return []
    if (← peek) = .key then
      let key ← flowPart fuel .key [.value, .flowEntry, .flowMapEnd]
      let value ← flowPart fuel .value [.flowEntry, .flowMapEnd]
      return (key, value) :: (← flowMap fuel false)
    else
      let key ← node fuel false false
      let value ← addEmpty
      return (key, value) :: (← flowMap fuel false)

end

/-! ## Documents -/

/-- Reads the directives of a document; `seen` says whether one about the
version has come before. Only version 1 is known, and nothing is declared
twice. -/
def directives : (fuel : Nat) → (seen : Bool) → Reading Unit
  | 0, _ => throw .malformed
  | fuel + 1, seen => do
    match ← peek with
    | .versionDirective major =>
      skip
      if seen || major != 1 then throw .malformed
      directives fuel true
    | .tagDirective handle leader =>
      skip
      if (← get).handles.any (·.1 == handle) then throw .malformed
      modify fun p => { p with handles := (handle, leader) :: p.handles }
      directives fuel seen
    | .otherDirective =>
      skip
      directives fuel seen
    | _ => return ()

/-- Goes past the lines that end documents. -/
def skipEnds : (fuel : Nat) → Reading Unit
  | 0 => return ()
  | fuel + 1 => do
    if ← accept .documentEnd then skipEnds fuel

/-- Whether a token belongs to the frame of a document and not to its
content. -/
def isFrame : Token → Bool
  | .versionDirective _ => true
  | .tagDirective _ _ => true
  | .otherDirective => true
  | .documentStart => true
  | .documentEnd => true
  | .streamEnd => true
  | _ => false

/-- Reads the first lines of a document that has lines of its own. -/
def frame (fuel : Nat) : Reading Unit := do
  modify fun p => { p with handles := [] }
  directives fuel false
  expect .documentStart
  modify fun p => { p with handles := p.handles ++ usualHandles }

/-- Reads a document. One that starts without a line of its own has content. -/
def document (fuel : Nat) : Reading NodeId := do
  let token ← peek
  if token = .documentEnd || !isFrame token then
    modify fun p => { p with handles := usualHandles }
    node fuel true false
  else
    frame fuel
    if isFrame (← peek) then addEmpty else node fuel true false

/-- Reads the only document, if there is one at all. -/
def onlyDocument? (fuel : Nat) : Reading (Option NodeId) := do
  if (← peek) = .streamEnd then return none
  let root ← document fuel
  skipEnds fuel
  if (← peek) != .streamEnd then
    frame fuel
    throw .malformed
  return some root

end Reading

/-- The nodes of a text's only document, and the number of the outermost one;
nothing if there is no document. -/
def readDocument (tokens : Tokens) : Except Fault (Option (Nodes × NodeId)) := do
  let fuel := 4 * tokens.settled.length + 4
  let (root?, p) ← (Reading.onlyDocument? fuel).run ⟨tokens, #[], [], []⟩
  return root?.map fun root => (p.nodes, root)

end Stencil.Yaml
