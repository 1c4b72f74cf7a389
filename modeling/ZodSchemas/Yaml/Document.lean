import ZodSchemas.Yaml.Lexer
import ZodSchemas.Yaml.Node

namespace ZodSchemas.Yaml

/-!
# From tokens to nodes

The nodes of a document are read from its tokens by recursive descent.  Anchors
name nodes for later aliases, each name once; a collection has its name already
while its parts are read, so an alias inside it may stand for the collection.
-/

/-- What is known while nodes are read: the tokens ahead, the handles of tags, the numbers of the
anchored nodes, the nodes themselves, and how many collections are open. -/
structure Reading where
  ahead : List Token
  fault : Option Fault
  handles : List (String × String)
  anchored : List (String × Nat)
  nodes : NodeTable
  depth : Nat

/-- How many collections may lie inside one another. -/
def depthLimit : Nat := 488

/-- A step of reading. -/
abbrev Read (α : Type) := StateT Reading (Except Fault) α

namespace Read

/-- Give up. -/
def fail (fault : Fault) : Read α :=
  throw fault

/-- The next token; the fault in the text where the tokens end. -/
def peek : Read Token := do
  let reading ← get
  match reading.ahead with
  | token :: _ => pure token
  | [] => fail (reading.fault.getD .malformed)

/-- Go behind the next token. -/
def advance : Read Unit :=
  modify fun reading => { reading with ahead := reading.ahead.tail }

/-- Go behind the next token if it is the given one, and say whether it was. -/
def accept (token : Token) : Read Bool := do
  let next ← peek
  if next = token then
    advance
    pure true
  else
    pure false

/-- Go behind the given token. -/
def expect (token : Token) : Read Unit := do
  if !(← accept token) then
    fail .malformed

end Read

/-- The properties before the content of a node. -/
structure Properties where
  anchor : Option String
  tag : Option String
deriving Repr, DecidableEq

def fullTag (handle : Option String) (suffix : String) : Read String :=
  match handle with
  | none => pure suffix
  | some handle => do
      match (← get).handles.lookup handle with
      | some expansion => pure (expansion ++ suffix)
      | none => Read.fail .malformed

/-- Read an anchor, if one is next. -/
def readAnchorName : Read (Option String) := do
  match ← Read.peek with
  | .anchor name =>
      Read.advance
      pure (some name)
  | _ => pure none

/-- Read a tag, if one is next. -/
def readFullTag : Read (Option (Option String × String)) := do
  match ← Read.peek with
  | .tag handle suffix =>
      Read.advance
      pure (some (handle, suffix))
  | _ => pure none

/-- Read the properties of a node: an anchor and a tag, in either order. -/
def readProperties : Read Properties := do
  let before ← readAnchorName
  let written ← readFullTag
  let anchor ← if before.isNone && written.isSome then readAnchorName else pure before
  match written with
  | none => pure ⟨anchor, none⟩
  | some (handle, suffix) => do
      let tag ← fullTag handle suffix
      pure ⟨anchor, some tag⟩

namespace Properties

/-- Whether a node has any property. -/
def areAny (properties : Properties) : Bool :=
  properties.anchor.isSome || properties.tag.isSome

/-- The tag of a collection, given the one that collections of its kind have. -/
def collectionTag (properties : Properties) (usual : Tag) : Tag :=
  match properties.tag with
  | none | some "!" => usual
  | some tag => .ofText tag

/-- The tag of a scalar: a plain one without a tag, and any with the tag that says nothing, has the
tag that its text suggests. -/
def scalarTag (properties : Properties) (text : String) (plain : Bool) : Tag :=
  match properties.tag with
  | none => if plain then .ofPlain text else .text
  | some "!" => .ofPlain text
  | some tag => .ofText tag

end Properties

/-- Make sure that an anchor is new. -/
def checkAnchor (properties : Properties) : Read Unit := do
  match properties.anchor with
  | none => pure ()
  | some name =>
      if ((← get).anchored.lookup name).isSome then
        Read.fail .malformed

/-- Add a node and answer its number, which its anchor names from now on. -/
def addNode (properties : Properties) (node : Node) : Read Nat := do
  checkAnchor properties
  let number := (← get).nodes.size
  let named := properties.anchor.toList.map fun name => (name, number)
  modify fun reading =>
    { reading with nodes := reading.nodes.push node, anchored := named ++ reading.anchored }
  pure number

def addEmpty : Read Nat :=
  addNode ⟨none, none⟩ .empty

def addScalar (properties : Properties) (text : String) (plain : Bool) : Read Nat :=
  addNode properties ⟨properties.scalarTag text plain, .scalar text⟩

/-- Read what lies inside a collection. -/
def readInside (read : Read α) : Read α := do
  if depthLimit ≤ (← get).depth then
    Read.fail .tooDeep
  else
    modify fun reading => { reading with depth := reading.depth + 1 }
    let inside ← read
    modify fun reading => { reading with depth := reading.depth - 1 }
    pure inside

/-- Add a collection and then read what it holds, so that aliases inside may stand for it. -/
def addCollection (properties : Properties) (tag : Tag) (empty : Content) (read : Read Content) :
    Read Nat := do
  let number ← addNode properties ⟨properties.collectionTag tag, empty⟩
  let content ← readInside read
  modify fun reading => { reading with nodes := reading.nodes.setContent number content }
  pure number

def addSequence (properties : Properties) (read : Read (List Nat)) : Read Nat :=
  addCollection properties .sequence (.sequence []) (.sequence <$> read)

def addMapping (properties : Properties) (read : Read (List Entry)) : Read Nat :=
  addCollection properties .mapping (.mapping []) (.mapping <$> read)

/-- The node that an alias stands for. -/
def aliased (name : String) : Read Nat := do
  match (← get).anchored.lookup name with
  | some number => pure number
  | none => Read.fail .malformed

/-- Where a node stands: only outside flow collections may it be a block, and only in a block
mapping may the entries of a sequence stand without indentation. -/
inductive Place where
  | flow
  | block
  | blockMapping
deriving Repr, DecidableEq

mutual

def readNode (place : Place) : (fuel : Nat) → Read Nat
  | 0 => Read.fail .malformed
  | fuel + 1 => do
      match ← Read.peek with
      | .alias name =>
          Read.advance
          aliased name
      | _ =>
          let properties ← readProperties
          readContent place properties fuel

/-- Read the content of a node behind its properties. -/
def readContent (place : Place) (properties : Properties) : (fuel : Nat) → Read Nat
  | 0 => Read.fail .malformed
  | fuel + 1 => do
      match ← Read.peek, place with
      | .blockEntry, .blockMapping => addSequence properties (readPlainEntries fuel)
      | .scalar text plain, _ =>
          Read.advance
          addScalar properties text plain
      | .flowSequenceStart, _ =>
          Read.advance
          addSequence properties (readFlowItems true fuel)
      | .flowMappingStart, _ =>
          Read.advance
          addMapping properties (readFlowEntries true fuel)
      | .blockSequenceStart, .block | .blockSequenceStart, .blockMapping =>
          Read.advance
          addSequence properties (readBlockItems fuel)
      | .blockMappingStart, .block | .blockMappingStart, .blockMapping =>
          Read.advance
          addMapping properties (readBlockEntries fuel)
      | _, _ =>
          if properties.areAny then addScalar properties "" true else Read.fail .malformed

/-- Read a node, or the empty node before one of several tokens. -/
def readUnless (ends : List Token) (place : Place) : (fuel : Nat) → Read Nat
  | 0 => Read.fail .malformed
  | fuel + 1 => do
      if ends.contains (← Read.peek) then addEmpty else readNode place fuel

/-- Read the value of an entry behind its key, or the empty node without one. -/
def readValueUnless (ends : List Token) (place : Place) : (fuel : Nat) → Read Nat
  | 0 => Read.fail .malformed
  | fuel + 1 => do
      if ← Read.accept .value then readUnless ends place fuel else addEmpty

def readBlockItems : (fuel : Nat) → Read (List Nat)
  | 0 => Read.fail .malformed
  | fuel + 1 => do
      if ← Read.accept .blockEntry then
        let item ← readUnless [.blockEntry, .blockEnd] .block fuel
        let others ← readBlockItems fuel
        pure (item :: others)
      else
        Read.expect .blockEnd
        pure []

/-- Read the items of a sequence without indentation. -/
def readPlainEntries : (fuel : Nat) → Read (List Nat)
  | 0 => Read.fail .malformed
  | fuel + 1 => do
      if ← Read.accept .blockEntry then
        let item ← readUnless [.blockEntry, .key, .value, .blockEnd] .block fuel
        let others ← readPlainEntries fuel
        pure (item :: others)
      else
        pure []

def readBlockEntries : (fuel : Nat) → Read (List Entry)
  | 0 => Read.fail .malformed
  | fuel + 1 => do
      if ← Read.accept .key then
        let key ← readUnless [.key, .value, .blockEnd] .blockMapping fuel
        let value ← readValueUnless [.key, .value, .blockEnd] .blockMapping fuel
        let others ← readBlockEntries fuel
        pure ((key, value) :: others)
      else
        Read.expect .blockEnd
        pure []

/-- Read the items of a flow sequence; a pair alone is a mapping of one entry. -/
def readFlowItems (first : Bool) : (fuel : Nat) → Read (List Nat)
  | 0 => Read.fail .malformed
  | fuel + 1 => do
      if ← Read.accept .flowSequenceEnd then
        pure []
      else
        if !first then
          Read.expect .flowEntry
        if ← Read.accept .key then
          let item ← addMapping ⟨none, none⟩ do
            let key ← readUnless [.value, .flowEntry, .flowSequenceEnd] .flow fuel
            let value ← readValueUnless [.flowEntry, .flowSequenceEnd] .flow fuel
            pure [(key, value)]
          let others ← readFlowItems false fuel
          pure (item :: others)
        else if ← Read.accept .flowSequenceEnd then
          pure []
        else
          let item ← readNode .flow fuel
          let others ← readFlowItems false fuel
          pure (item :: others)

/-- Read the entries of a flow mapping; a node alone is a key without a value. -/
def readFlowEntries (first : Bool) : (fuel : Nat) → Read (List Entry)
  | 0 => Read.fail .malformed
  | fuel + 1 => do
      if ← Read.accept .flowMappingEnd then
        pure []
      else
        if !first then
          Read.expect .flowEntry
        if ← Read.accept .key then
          let key ← readUnless [.value, .flowEntry, .flowMappingEnd] .flow fuel
          let value ← readValueUnless [.flowEntry, .flowMappingEnd] .flow fuel
          let others ← readFlowEntries false fuel
          pure ((key, value) :: others)
        else if ← Read.accept .flowMappingEnd then
          pure []
        else
          let key ← readNode .flow fuel
          let empty ← addEmpty
          let others ← readFlowEntries false fuel
          pure ((key, empty) :: others)

end

def usualHandles : List (String × String) :=
  [("!", "!"), ("!!", Tag.commonExpansion)]

/-- Read directives on top of those read before. -/
def readDirectives (versioned : Bool) (handles : List (String × String)) :
    (fuel : Nat) → Read (List (String × String))
  | 0 => Read.fail .malformed
  | fuel + 1 => do
      match ← Read.peek with
      | .version major =>
          if versioned || major != 1 then Read.fail .malformed
          else
            Read.advance
            readDirectives true handles fuel
      | .handle handle expansion =>
          if (handles.lookup handle).isSome then Read.fail .malformed
          else
            Read.advance
            readDirectives versioned ((handle, expansion) :: handles) fuel
      | .directive =>
          Read.advance
          readDirectives versioned handles fuel
      | _ => pure handles

/-- Read a document that starts with directives or a separator. -/
def readExplicitDocument (fuel : Nat) : Read Nat := do
  let handles ← readDirectives false [] fuel
  Read.expect .documentStart
  modify fun reading => { reading with handles := handles ++ usualHandles }
  let next ← Read.peek
  if next.isDirective || [.documentStart, .documentEnd, .streamEnd].contains next then addEmpty
  else readNode .block fuel

/-- Go behind the separators that end a document. -/
def skipDocumentEnds : (fuel : Nat) → Read Unit
  | 0 => pure ()
  | fuel + 1 => do
      if ← Read.accept .documentEnd then
        skipDocumentEnds fuel

/-- Refuse what follows the only document, read up to where its own content would start. -/
def refuseSecond (fuel : Nat) : Read α := do
  let _ ← readDirectives false [] fuel
  let _ ← Read.peek
  Read.fail .malformed

/-- Read the only document of a text, or nothing from a text without one. -/
def readDocument (fuel : Nat) : Read (Option Nat) := do
  let next ← Read.peek
  if next = .streamEnd then pure none
  else
    let number ←
      if next.isDirective || next = .documentStart then readExplicitDocument fuel
      else readNode .block fuel
    skipDocumentEnds fuel
    if (← Read.peek) = .streamEnd then pure (some number) else refuseSecond fuel

def Document.ofTokens (tokens : Tokens) : Except Fault Document :=
  let start : Reading := ⟨tokens.tokens, tokens.fault, usualHandles, [], #[], 0⟩
  ((readDocument (4 * tokens.tokens.length + 8)).run start).map fun result =>
    ⟨result.2.nodes, result.1⟩

end ZodSchemas.Yaml
