import EmulatedDevice.Entries
import EmulatedDevice.Yaml.Scalar

/-!
# Tokens of a YAML text

Tokens make explicit what the layout of a text says: where a block begins and
ends, and that a scalar is a key. The last is known only when a colon follows, so
a place that could begin a key is remembered, and the token for the key is put in
there afterwards. Such a place is forgotten when the line ends or after 1024
characters; if a key was needed there, the text is malformed.

Outside brackets and braces, an indentation that grows opens a block and one that
shrinks closes blocks.
-/

namespace EmulatedDevice.Yaml

/-- A directive before a document: the version, a shorthand for tags, or one that is unknown. -/
inductive Directive where
  | version (major : Nat)
  | tag (handle lead : String)
  | other
  deriving DecidableEq, Repr

inductive Token where
  | directive (d : Directive)
  | documentStart
  | documentEnd
  | blockSequenceStart
  | blockMappingStart
  | blockEnd
  | flowSequenceStart
  | flowSequenceEnd
  | flowMappingStart
  | flowMappingEnd
  | blockEntry
  | flowEntry
  | key
  | value
  | alias (name : String)
  | anchor (name : String)
  | tag (handle : Option String) (suffix : String)
  | scalar (text : String) (plain : Bool)
  deriving DecidableEq, Repr

structure KeyPlace where
  token : Nat
  required : Bool
  index : Nat
  line : Nat
  column : Nat
  deriving Repr

/-- The state of a scan. The indentations are those of the open blocks, innermost first; the key
places are kept with the nesting depth that they are at. -/
structure Scan where
  cursor : Cursor
  tokens : Array Token
  depth : Nat
  indent : Int
  outer : List Int
  keyAllowed : Bool
  keys : List (Nat × KeyPlace)

namespace Scan

/-- The state before the first token. A byte order mark at the start is passed over. -/
def start (text : List Char) : Scan :=
  let cursor := Cursor.start text
  { cursor := if cursor.peek = some '\ufeff' then cursor.next else cursor
    tokens := #[]
    depth := 0
    indent := -1
    outer := []
    keyAllowed := true
    keys := [] }

def inFlow (s : Scan) : Bool := s.depth != 0

def push (s : Scan) (token : Token) : Scan := { s with tokens := s.tokens.push token }

/-- Adds a token for the next characters and passes over them. -/
def take (s : Scan) (token : Token) (length : Nat) : Scan :=
  { s.push token with cursor := s.cursor.skip length }

/-! ## Places of keys -/

/-- Forgets key places that are on another line or too far back. -/
def dropStaleKeys (s : Scan) : Except Fault Scan :=
  let isStale (place : KeyPlace) : Bool :=
    place.line != s.cursor.line || 1024 < s.cursor.index - place.index
  if s.keys.any fun (_, place) => isStale place && place.required then .error .malformed
  else .ok { s with keys := s.keys.filter fun (_, place) => !isStale place }

def keyHere? (s : Scan) : Option KeyPlace :=
  Entries.get? (· == ·) s.depth s.keys

/-- Forgets the key place at the present depth, which must not be needed. -/
def dropKey (s : Scan) : Except Fault Scan :=
  match s.keyHere? with
  | some place =>
    if place.required then .error .malformed
    else .ok { s with keys := s.keys.filter fun (depth, _) => depth != s.depth }
  | none => .ok s

/-- Remembers that a key may begin here. -/
def saveKey (s : Scan) : Except Fault Scan := do
  if !s.keyAllowed then return s
  let required := !s.inFlow && s.indent == s.cursor.column
  let place : KeyPlace :=
    ⟨s.tokens.size, required, s.cursor.index, s.cursor.line, s.cursor.column⟩
  let s ← s.dropKey
  return { s with keys := (s.depth, place) :: s.keys }

/-- Says whether a key may begin at what comes next. -/
def allowKey (s : Scan) (allowed : Bool) : Scan := { s with keyAllowed := allowed }

/-! ## Indentation -/

/-- Closes the blocks that are indented deeper than a column. -/
def closeFrom (column : Int) : Int → List Int → Array Token → Int × List Int × Array Token
  | indent, [], tokens => (indent, [], tokens)
  | indent, next :: outer, tokens =>
    if column < indent then closeFrom column next outer (tokens.push .blockEnd)
    else (indent, next :: outer, tokens)

/-- Closes the blocks that end at a column. -/
def closeBlocks (s : Scan) (column : Int) : Scan :=
  if s.inFlow then s
  else
    let (indent, outer, tokens) := closeFrom column s.indent s.outer s.tokens
    { s with indent, outer, tokens }

/-- Opens a block at a column if it is indented deeper than the present one. Its token goes to
the given place. -/
def openBlock (s : Scan) (column : Nat) (token : Token) (place : Nat) : Scan :=
  if s.indent < column then
    { s with
      indent := column
      outer := s.indent :: s.outer
      tokens := s.tokens.insertIdxIfInBounds place token }
  else s

/-! ## Between tokens -/

/-- Passes over blanks, comments and breaks. A line that begins outside of brackets may begin
with a key. -/
def skipBlanks : Nat → Scan → Scan
  | 0, s => s
  | fuel + 1, s =>
    let c := s.cursor.skipSpaces
    let c := if c.peek = some '#' then c.skipLine else c
    match c.takeBreak? with
    | none => { s with cursor := c }
    | some (_, c) =>
      skipBlanks fuel { s with cursor := c, keyAllowed := s.keyAllowed || !s.inFlow }

/-! ## Directives, anchors and tags -/

def isTagChar (c : Char) : Bool :=
  c.isAlphanum || "-;/?:@&=+$,_.!~*'()[]%".toList.contains c

/-- The octets that percent signs write. -/
def percentOctets : Nat → Cursor → Except Fault (List UInt8 × Cursor)
  | 0, c => .ok ([], c)
  | fuel + 1, c =>
    if c.peek = some '%' then
      match c.peekAt 1, c.peekAt 2 with
      | some a, some b =>
        match Text.hexNumber? [a, b] with
        | some n => do
          let (octets, c) ← percentOctets fuel (c.skip 3)
          return (UInt8.ofNat n :: octets, c)
        | none => .error .malformed
      | _, _ => .error .malformed
    else .ok ([], c)

/-- The characters of a tag, with what percent signs write. -/
def tagText : Nat → Cursor → Except Fault (List Char × Cursor)
  | 0, c => .ok ([], c)
  | fuel + 1, c =>
    match c.peek with
    | none => .ok ([], c)
    | some ch =>
      if ch = '%' then do
        let (octets, c) ← percentOctets (c.rest.length + 1) c
        match Text.decodeUtf8 octets with
        | .error _ => throw .malformed
        | .ok chars =>
          let (more, c) ← tagText fuel c
          return (chars ++ more, c)
      else if isTagChar ch then do
        let (more, c) ← tagText fuel c.next
        return (ch :: more, c)
      else .ok ([], c)

/-- The text of a tag, which is not empty. -/
def takeTagText (c : Cursor) : Except Fault (String × Cursor) := do
  let (chars, after) ← tagText (c.rest.length + 1) c
  if after.index = c.index then throw .malformed
  return (.ofList chars, after)

def takeHandle (c : Cursor) : Except Fault (String × Cursor) :=
  if c.peek ≠ some '!' then .error .malformed
  else
    let (word, after) := c.next.takeWhile isWordChar
    match after.peek with
    | some '!' => .ok (.ofList ('!' :: word ++ ['!']), after.next)
    | some ' ' => if word = [] then .ok ("!", c.next) else .error .malformed
    | _ => .error .malformed

/-- A tag: in angle brackets, alone, or after a handle. -/
def takeTag (c : Cursor) : Except Fault (Token × Cursor) := do
  let following := c.peekAt 1
  let (token, c) ←
    if following = some '<' then do
      let (suffix, c) ← takeTagText (c.skip 2)
      if c.peek ≠ some '>' then throw .malformed
      pure (Token.tag none suffix, c.next)
    else if endsIndicator following then pure (Token.tag none "!", c.next)
    else
      let word := c.next.rest.takeWhile fun ch => !endsWord (some ch)
      if word.contains '!' then do
        let (handle, c) ← takeHandle c
        let (suffix, c) ← takeTagText c
        pure (Token.tag (some handle) suffix, c)
      else do
        let (suffix, c) ← takeTagText c.next
        pure (Token.tag (some "!") suffix, c)
  if !endsWord c.peek then throw .malformed
  return (token, c)

def takeName (c : Cursor) : Except Fault (String × Cursor) :=
  let (name, c) := c.next.takeWhile isWordChar
  let ends := endsIndicator c.peek || (c.peek.any fun ch => "?:,]\x7d%@`".toList.contains ch)
  if name = [] ∨ !ends then .error .malformed else .ok (.ofList name, c)

def takeNumber (c : Cursor) : Except Fault (Nat × Cursor) :=
  match c.takeWhile Char.isDigit with
  | ([], _) => .error .malformed
  | (digits, c) => .ok (Nat.ofDigitChars 10 digits 0, c)

/-- A directive: a line that starts with a percent sign. -/
def takeDirective (c : Cursor) : Except Fault (Directive × Cursor) := do
  let (name, c) := c.next.takeWhile isWordChar
  if name = [] ∨ !endsWord c.peek then throw .malformed
  let (directive, c) ←
    if name = "YAML".toList then do
      let (major, c) ← takeNumber c.skipSpaces
      if c.peek ≠ some '.' then throw .malformed
      let (_, c) ← takeNumber c.next
      if !endsWord c.peek then throw .malformed
      pure (Directive.version major, c)
    else if name = "TAG".toList then do
      let (handle, c) ← takeHandle c.skipSpaces
      if c.peek ≠ some ' ' then throw .malformed
      let (lead, c) ← takeTagText c.skipSpaces
      if !endsWord c.peek then throw .malformed
      pure (Directive.tag handle lead, c)
    else pure (Directive.other, c.skipLine)
  return (directive, ← Scalar.finishLine c)

/-! ## Single tokens -/

/-- A line that belongs to no block: a directive or a document mark. -/
def outsideBlocks (s : Scan) : Except Fault Scan := do
  return (← (s.closeBlocks (-1)).dropKey).allowKey false

def document (s : Scan) (token : Token) : Except Fault Scan := do
  return (← s.outsideBlocks).take token 3

def openFlow (s : Scan) (token : Token) : Except Fault Scan := do
  let s ← s.saveKey
  return { (s.allowKey true).take token 1 with depth := s.depth + 1 }

/-- A closing bracket or brace; there has to be an open one. -/
def closeFlow (s : Scan) (token : Token) : Except Fault Scan := do
  let s ← s.dropKey
  if s.depth = 0 then throw .malformed
  return { (s.allowKey false).take token 1 with depth := s.depth - 1 }

def flowEntry (s : Scan) : Except Fault Scan := do
  return (← (s.allowKey true).dropKey).take .flowEntry 1

def blockEntry (s : Scan) : Except Fault Scan := do
  if !s.inFlow && !s.keyAllowed then throw .malformed
  let s := if s.inFlow then s
    else s.openBlock s.cursor.column .blockSequenceStart s.tokens.size
  return (← (s.allowKey true).dropKey).take .blockEntry 1

def explicitKey (s : Scan) : Except Fault Scan := do
  if !s.inFlow && !s.keyAllowed then throw .malformed
  let s := if s.inFlow then s
    else s.openBlock s.cursor.column .blockMappingStart s.tokens.size
  return (← (s.allowKey !s.inFlow).dropKey).take .key 1

/-- A colon after a key that was not announced: the tokens for it go where it began. -/
def valueOfKey (s : Scan) (place : KeyPlace) : Scan :=
  let s := { s with keys := s.keys.filter fun (depth, _) => depth != s.depth }
  let s := { s with tokens := s.tokens.insertIdxIfInBounds place.token .key }
  let s := if s.inFlow then s else s.openBlock place.column .blockMappingStart place.token
  (s.allowKey false).take .value 1

def value (s : Scan) : Except Fault Scan :=
  match s.keyHere? with
  | some place => .ok (s.valueOfKey place)
  | none => do
    if !s.inFlow && !s.keyAllowed then throw .malformed
    let s := if s.inFlow then s
      else s.openBlock s.cursor.column .blockMappingStart s.tokens.size
    return (← (s.allowKey !s.inFlow).dropKey).take .value 1

/-- A token that may begin a key. -/
def content (s : Scan) (read : Except Fault (Token × Cursor)) : Except Fault Scan := do
  let s ← s.saveKey
  let (token, cursor) ← read
  return { (s.allowKey false).push token with cursor }

def blockScalar (s : Scan) (folded : Bool) : Except Fault Scan := do
  let s ← (s.allowKey true).dropKey
  let (text, cursor) ← Scalar.block folded s.indent s.cursor
  return { s.push (.scalar (.ofList text) false) with cursor }

def quotedScalar [Text.HalfSigns] (s : Scan) (double : Bool) : Except Fault Scan :=
  s.content do
    let (text, c) ← Scalar.quoted double s.cursor
    return (.scalar (.ofList text) false, c)

/-- A plain scalar. After a break a key may begin. -/
def plainScalar (s : Scan) : Except Fault Scan := do
  let s ← s.saveKey
  let (text, cursor, broken) := Scalar.plain s.inFlow (s.indent + 1) s.cursor
  return { (s.allowKey broken).push (.scalar (.ofList text) true) with cursor }

/-- Whether a character, before what follows it, begins a plain scalar. -/
def beginsPlain (inFlow : Bool) (c : Char) (following : Option Char) : Bool :=
  let isIndicator := endsIndicator (some c) || "-?:,[]\x7b\x7d#&*!|>'\"%@`".toList.contains c
  !isIndicator
    || (!endsIndicator following && (c == '-' || (!inFlow && (c == '?' || c == ':'))))

/-- The token that a character begins. -/
def tokenAt [Text.HalfSigns] (s : Scan) (c : Char) : Except Fault Scan :=
  let following := s.cursor.peekAt 1
  let atMarker := s.cursor.column == 0 && s.cursor.atMarker
  let separated := endsIndicator following
  if c = '%' ∧ s.cursor.column = 0 then do
    let s ← s.outsideBlocks
    let (directive, cursor) ← takeDirective s.cursor
    return { s.push (.directive directive) with cursor }
  else if c = '-' ∧ atMarker then s.document .documentStart
  else if c = '.' ∧ atMarker then s.document .documentEnd
  else if c = '[' then s.openFlow .flowSequenceStart
  else if c = '{' then s.openFlow .flowMappingStart
  else if c = ']' then s.closeFlow .flowSequenceEnd
  else if c = '}' then s.closeFlow .flowMappingEnd
  else if c = ',' then s.flowEntry
  else if c = '-' ∧ separated then s.blockEntry
  else if c = '?' ∧ (s.inFlow ∨ separated) then s.explicitKey
  else if c = ':' ∧ (s.inFlow ∨ separated) then s.value
  else if c = '*' then s.content do
    let (name, c) ← takeName s.cursor
    return (.alias name, c)
  else if c = '&' then s.content do
    let (name, c) ← takeName s.cursor
    return (.anchor name, c)
  else if c = '!' then s.content (takeTag s.cursor)
  else if c = '|' ∧ !s.inFlow then s.blockScalar false
  else if c = '>' ∧ !s.inFlow then s.blockScalar true
  else if c = '\'' then s.quotedScalar false
  else if c = '"' then s.quotedScalar true
  else if beginsPlain s.inFlow c following then s.plainScalar
  else .error .malformed

def run [Text.HalfSigns] : Nat → Scan → Except Fault (Array Token)
  | 0, _ => .error .malformed
  | fuel + 1, s => do
    let s ← (skipBlanks (s.cursor.rest.length + 1) s).dropStaleKeys
    let s := s.closeBlocks s.cursor.column
    match s.cursor.peek with
    | none => return (← (s.closeBlocks (-1)).dropKey).tokens
    | some c => run fuel (← s.tokenAt c)

end Scan

def Token.scan [Text.HalfSigns] (text : List Char) : Except Fault (List Token) := do
  if !text.all isAllowed then throw .malformed
  return (← Scan.run (text.length + 1) (.start text)).toList

end EmulatedDevice.Yaml
