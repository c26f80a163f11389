import EmulatedDevice.Yaml.Tag
import EmulatedDevice.Yaml.Token

/-!
# Nodes of a YAML document

Tokens are put together to nodes by the structure that they announce. Where a node
is missing that could be there, an empty scalar stands for it. An alias stands for
the node that was anchored under its name before; a name can be anchored once, and
not be used inside its own node.

Every step uses up a token or goes from one kind of node to a narrower one, so a
few units of fuel for each token are enough.
-/

namespace EmulatedDevice.Yaml

inductive Node where
  | scalar (tag : Tag) (text : String)
  | sequence (tag : Tag) (items : List Node)
  | mapping (tag : Tag) (pairs : List (Node × Node))
  deriving Repr

namespace Node

def empty : Node := .scalar .null ""

/-- What is left of the tokens, the anchored nodes, and the shorthands for tags. A name whose node
is not yet complete is anchored to nothing. -/
structure Composition where
  tokens : List Token
  anchors : List (String × Option Node)
  handles : List (String × String)

/-- A step of putting nodes together. -/
abbrev Compose := StateT Composition (Except Fault)

def peek : Compose (Option Token) := do
  return (← get).tokens.head?

/-- Passes over a token. -/
def advance : Compose Unit :=
  modify fun s => { s with tokens := s.tokens.tail }

/-- Passes over a token if it is the next one, and says whether it was. -/
def skip? (token : Token) : Compose Bool := do
  if (← peek) = some token then
    advance
    return true
  else return false

/-- Whether one of some tokens is next. -/
def nextIsOneOf (tokens : List Token) : Compose Bool := do
  return (← peek).any tokens.contains

def tagName (handle : Option String) (suffix : String) : Compose String := do
  match handle with
  | none => return suffix
  | some handle =>
    match Entries.get? (· == ·) handle (← get).handles with
    | some lead => return lead ++ suffix
    | none => throw .malformed

def takeAnchor : Compose (Option String) := do
  match ← peek with
  | some (.anchor name) =>
    advance
    return some name
  | _ => return none

def takeTag : Compose (Option String) := do
  match ← peek with
  | some (.tag handle suffix) =>
    advance
    return some (← tagName handle suffix)
  | _ => return none

/-- The anchor and the tag before a node, in either order. -/
def takeProperties : Compose (Option String × Option String) := do
  match ← takeAnchor with
  | some name => return (some name, ← takeTag)
  | none =>
    let tag ← takeTag
    return (← takeAnchor, tag)

/-- Whether a tag leaves it to the node what it is. -/
def isOpen (tag : Option String) : Bool :=
  tag == none || tag == some "!"

/-- The tag of a scalar. A scalar between quotes is text unless its tag says that its looks
count. -/
def scalarTag (tag : Option String) (text : String) (plain : Bool) : Tag :=
  match tag with
  | none => if plain then .resolve text else .string
  | some "!" => .resolve text
  | some name => .ofName name

def collectionTag (tag : Option String) (standard : Tag) : Tag :=
  if isOpen tag then standard else .ofName (tag.getD "")

def dereference (name : String) : Compose Node := do
  match Entries.get? (· == ·) name (← get).anchors with
  | some (some node) => return node
  | _ => throw .malformed

/-- Sets a name aside for a node that is about to be read. -/
def reserve (name : String) : Compose Unit := do
  if (Entries.get? (· == ·) name (← get).anchors).isSome then throw .malformed
  modify fun s => { s with anchors := (name, none) :: s.anchors }

/-- Anchors a node that has been read. -/
def bind (name : String) (node : Node) : Compose Unit :=
  modify fun s => { s with anchors := (name, some node) :: s.anchors }

mutual

/-- Reads a node. Blocks are allowed where `block` says so, and a sequence that is not indented
where `flush` says so. -/
def node (fuel : Nat) (block flush : Bool) : Compose Node :=
  match fuel with
  | 0 => throw .malformed
  | fuel + 1 => do
    match ← peek with
    | some (.alias name) =>
      advance
      dereference name
    | _ =>
      let (anchor, tag) ← takeProperties
      match anchor with
      | none => content fuel block flush tag false
      | some name =>
        reserve name
        let read ← content fuel block flush tag true
        bind name read
        return read

/-- Reads what a node consists of, after its properties. -/
def content (fuel : Nat) (block flush : Bool) (tag : Option String) (anchored : Bool) :
    Compose Node :=
  match fuel with
  | 0 => throw .malformed
  | fuel + 1 => do
    match ← peek with
    | some (.scalar text plain) =>
      advance
      return .scalar (scalarTag tag text plain) text
    | some .flowSequenceStart =>
      advance
      return .sequence (collectionTag tag .sequence) (← flowItems fuel true)
    | some .flowMappingStart =>
      advance
      return .mapping (collectionTag tag .mapping) (← flowPairs fuel true)
    | token =>
      if flush && token == some .blockEntry then
        return .sequence (collectionTag tag .sequence) (← flushItems fuel)
      else if block && token == some .blockSequenceStart then do
        advance
        return .sequence (collectionTag tag .sequence) (← blockItems fuel)
      else if block && token == some .blockMappingStart then do
        advance
        return .mapping (collectionTag tag .mapping) (← blockPairs fuel)
      else if anchored || tag.isSome then
        return .scalar (scalarTag tag "" true) ""
      else throw .malformed

/-- Reads a node, or gives the empty one when one of some tokens is next. -/
def nodeUnless (fuel : Nat) (stops : List Token) (block flush : Bool) : Compose Node :=
  match fuel with
  | 0 => throw .malformed
  | fuel + 1 => do
    if ← nextIsOneOf stops then return empty
    node fuel block flush

/-- Reads the value after a key, or gives the empty node when there is none. -/
def valueUnless (fuel : Nat) (stops : List Token) (block flush : Bool) : Compose Node :=
  match fuel with
  | 0 => throw .malformed
  | fuel + 1 => do
    if ← skip? .value then nodeUnless fuel stops block flush else return empty

/-- Reads the items of an indented sequence up to and with its end. -/
def blockItems (fuel : Nat) : Compose (List Node) :=
  match fuel with
  | 0 => throw .malformed
  | fuel + 1 => do
    if ← skip? .blockEntry then
      let item ← nodeUnless fuel [.blockEntry, .blockEnd] true false
      return item :: (← blockItems fuel)
    else if ← skip? .blockEnd then return []
    else throw .malformed

/-- Reads the items of a sequence that is not indented, as long as there are any. -/
def flushItems (fuel : Nat) : Compose (List Node) :=
  match fuel with
  | 0 => throw .malformed
  | fuel + 1 => do
    if ← skip? .blockEntry then
      let item ← nodeUnless fuel [.blockEntry, .key, .value, .blockEnd] true false
      return item :: (← flushItems fuel)
    else return []

/-- Reads the pairs of an indented mapping up to and with its end. -/
def blockPairs (fuel : Nat) : Compose (List (Node × Node)) :=
  match fuel with
  | 0 => throw .malformed
  | fuel + 1 => do
    let stops := [Token.key, .value, .blockEnd]
    if ← skip? .key then
      let key ← nodeUnless fuel stops true true
      let value ← valueUnless fuel stops true true
      return (key, value) :: (← blockPairs fuel)
    else if ← skip? .blockEnd then return []
    else throw .malformed

/-- Reads the items between brackets up to and with the closing one. A pair without braces is a
mapping of its own. -/
def flowItems (fuel : Nat) (first : Bool) : Compose (List Node) :=
  match fuel with
  | 0 => throw .malformed
  | fuel + 1 => do
    if ← skip? .flowSequenceEnd then return []
    if !first then
      if !(← skip? .flowEntry) then throw .malformed
    if ← skip? .key then
      let key ← nodeUnless fuel [.value, .flowEntry, .flowSequenceEnd] false false
      let value ← valueUnless fuel [.flowEntry, .flowSequenceEnd] false false
      return .mapping .mapping [(key, value)] :: (← flowItems fuel false)
    else if ← skip? .flowSequenceEnd then return []
    else
      let item ← node fuel false false
      return item :: (← flowItems fuel false)

/-- Reads the pairs between braces up to and with the closing one. A node alone is a key. -/
def flowPairs (fuel : Nat) (first : Bool) : Compose (List (Node × Node)) :=
  match fuel with
  | 0 => throw .malformed
  | fuel + 1 => do
    if ← skip? .flowMappingEnd then return []
    if !first then
      if !(← skip? .flowEntry) then throw .malformed
    if ← skip? .key then
      let key ← nodeUnless fuel [.value, .flowEntry, .flowMappingEnd] false false
      let value ← valueUnless fuel [.flowEntry, .flowMappingEnd] false false
      return (key, value) :: (← flowPairs fuel false)
    else if ← skip? .flowMappingEnd then return []
    else
      let key ← node fuel false false
      return (key, empty) :: (← flowPairs fuel false)

end

/-! ## Documents -/

/-- The shorthands that every document knows. -/
def standardHandles : List (String × String) :=
  [("!", "!"), ("!!", Tag.standardLead)]

/-- Reads directives: the version may be given once and has to be 1, and so may each shorthand. -/
def directives : Nat → Bool → List (String × String) → Compose (List (String × String))
  | 0, _, _ => throw .malformed
  | fuel + 1, versioned, handles => do
    match ← peek with
    | some (.directive d) =>
      advance
      match d with
      | .version major =>
        if versioned ∨ major ≠ 1 then throw .malformed
        directives fuel true handles
      | .tag handle lead =>
        if (Entries.get? (· == ·) handle handles).isSome then throw .malformed
        directives fuel versioned ((handle, lead) :: handles)
      | .other => directives fuel versioned handles
    | _ => return handles

/-- Passes over marks that end a document. -/
def skipEnds : Nat → Compose Unit
  | 0 => return
  | fuel + 1 => do
    if ← skip? .documentEnd then skipEnds fuel

/-- Reads a document that is introduced by directives and a mark. -/
def explicitDocument (fuel : Nat) : Compose Node := do
  let handles ← directives fuel false []
  modify fun s => { s with handles := handles ++ standardHandles }
  if !(← skip? .documentStart) then throw .malformed
  match ← peek with
  | none | some (.directive _) | some .documentStart | some .documentEnd => return empty
  | some _ => node fuel true false

/-- Reads the only document of a text. -/
def document (fuel : Nat) : Compose Node := do
  let root ← match ← peek with
    | none => pure empty
    | some (.directive _) | some .documentStart => explicitDocument fuel
    | some _ => node fuel true false
  skipEnds fuel
  if (← peek).isSome then throw .malformed
  return root

def ofTokens (tokens : List Token) : Except Fault Node := do
  let (root, _) ← (document (4 * tokens.length + 4)).run ⟨tokens, [], standardHandles⟩
  return root

end Node

end EmulatedDevice.Yaml
