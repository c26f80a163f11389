import EmulatedDevice.Text.Halves
import EmulatedDevice.Text.Utf8
import EmulatedDevice.Yaml.Cursor

/-!
# Reading the text of a scalar

A scalar is plain, between quotes, or a block. Within each, a single line break
between two lines of text is folded into a space, and further breaks are kept;
only a literal block keeps all of them.

Every reader takes fuel for its lines or pieces. Each of them uses up at least one
character, so the length of the text is enough.
-/

namespace EmulatedDevice.Yaml.Scalar

/-! ## Folding -/

/-- What stands for the breaks between two pieces of text: the first break is a space when it is
the only one, and disappears when more follow; the special separators are never folded. -/
def foldBreaks (first : Char) (more : List Char) : List Char :=
  if first ≠ '\n' then first :: more
  else if more = [] then [' ']
  else more

/-! ## Plain scalars -/

/-- Whether a character structures what is inside brackets or braces. -/
def isFlowSign (c : Char) : Bool :=
  c == ',' || c == '[' || c == ']' || c == '\x7b' || c == '\x7d'

/-- Whether a colon ends a plain scalar before what follows it. -/
def colonEnds (inFlow : Bool) (following : Option Char) : Bool :=
  endsIndicator following || (inFlow && following.any isFlowSign)

/-- Whether a character ends a plain scalar inside brackets or braces. -/
def endsInFlow (c : Char) : Bool :=
  isFlowSign c || c == '?'

/-- The piece of a plain scalar that a text starts with: up to a blank, a break, or an indicator. -/
def plainPiece (inFlow : Bool) : List Char → List Char
  | [] => []
  | c :: rest =>
    if endsIndicator (some c) || (c == ':' && colonEnds inFlow rest.head?)
        || (inFlow && endsInFlow c) then []
    else c :: plainPiece inFlow rest

/-- The blanks between two pieces: what stands for them, the cursor past them, whether there was a
break, and whether a document mark follows it. -/
structure Gap where
  text : List Char
  cursor : Cursor
  broken : Bool
  marked : Bool

/-- Passes over spaces and breaks and gives the breaks, up to a document mark. -/
def gapBreaks : Nat → Cursor → List Char × Cursor × Bool
  | 0, c => ([], c, false)
  | fuel + 1, c =>
    let c := c.skipSpaces
    match c.takeBreak? with
    | none => ([], c, false)
    | some (brk, c) =>
      if c.atMarker then ([brk], c, true)
      else
        let (more, c, marked) := gapBreaks fuel c
        (brk :: more, c, marked)

def plainGap (c : Cursor) : Gap :=
  let (spaces, c) := c.takeWhile (· == ' ')
  match c.takeBreak? with
  | none => ⟨spaces, c, false, false⟩
  | some (first, c) =>
    if c.atMarker then ⟨[], c, true, true⟩
    else
      let (more, c, marked) := gapBreaks (c.rest.length + 1) c
      ⟨foldBreaks first more, c, true, marked⟩

/-- The rest of a plain scalar after `gap`, the cursor past it, and whether it ended after a
break. Lines that go on have to be indented by at least `indent`. -/
def plainFrom (inFlow : Bool) (indent : Int) : Nat → List Char → Bool → Cursor →
    List Char × Cursor × Bool
  | 0, _, broken, c => ([], c, broken)
  | fuel + 1, before, broken, c =>
    match if c.peek = some '#' then [] else plainPiece inFlow c.rest with
    | [] => ([], c, broken)
    | piece =>
      let gap := plainGap (c.skip piece.length)
      let stops := gap.marked || gap.text.isEmpty || gap.cursor.peek == some '#'
        || (!inFlow && (gap.cursor.column : Int) < indent)
      if stops then (before ++ piece, gap.cursor, gap.broken)
      else
        let (more, c, broken) := plainFrom inFlow indent fuel gap.text gap.broken gap.cursor
        (before ++ piece ++ more, c, broken)

/-- The plain scalar that starts at a cursor, the cursor past it, and whether a break stands
between it and what follows. -/
def plain (inFlow : Bool) (indent : Int) (c : Cursor) : List Char × Cursor × Bool :=
  plainFrom inFlow indent (c.rest.length + 1) [] false c

/-! ## Scalars between quotes -/

/-- The character that a one-letter escape stands for. -/
def simpleEscape? : Char → Option Char
  | '0' => some '\x00'
  | 'a' => some '\x07'
  | 'b' => some '\x08'
  | 't' => some '\t'
  | '\t' => some '\t'
  | 'n' => some '\n'
  | 'v' => some '\x0b'
  | 'f' => some '\x0c'
  | 'r' => some '\r'
  | 'e' => some '\x1b'
  | ' ' => some ' '
  | '"' => some '"'
  | '\\' => some '\\'
  | '/' => some '/'
  | 'N' => some '\x85'
  | '_' => some '\xa0'
  | 'L' => some '\u2028'
  | 'P' => some '\u2029'
  | _ => none

/-- The number of hexadecimal digits that an escape by code takes. -/
def codeLength? : Char → Option Nat
  | 'x' => some 2
  | 'u' => some 4
  | 'U' => some 8
  | _ => none

/-- The character of a code, or the sign for it if it is half of a surrogate pair. Two halves are
not joined. What takes more than 31 bits is not a code. -/
def charOfCode [Text.HalfSigns] (code : Nat) : Except Fault Char :=
  if 0x80000000 ≤ code then .error .malformed
  else if 0x110000 ≤ code then .error .badCharacter
  else if 0xd800 ≤ code ∧ code < 0xe000 then .ok (Text.HalfSigns.sign code)
  else .ok (Char.ofNat code)

/-- The breaks after a first break between quotes; a document mark must not follow. -/
def quotedBreaks : Nat → Cursor → Except Fault (List Char × Cursor)
  | 0, _ => .error .malformed
  | fuel + 1, c =>
    if c.atMarker then .error .malformed
    else
      let c := c.dropWhile fun ch => ch == ' ' || ch == '\t'
      match c.takeBreak? with
      | none => .ok ([], c)
      | some (brk, c) => do
        let (more, c) ← quotedBreaks fuel c
        return (brk :: more, c)

/-- What an escape after a backslash stands for, and the cursor past it. -/
def escape [Text.HalfSigns] (c : Cursor) : Except Fault (List Char × Cursor) :=
  match c.peek with
  | none => .error .malformed
  | some ch =>
    match simpleEscape? ch, codeLength? ch with
    | some escaped, _ => .ok ([escaped], c.next)
    | none, some length =>
      let digits := c.next.rest.take length
      match Text.hexNumber? digits with
      | none => .error .malformed
      | some code =>
        if digits.length < length then .error .malformed
        else do return ([← charOfCode code], c.next.skip length)
    | none, none =>
      if isBreak ch then quotedBreaks (c.rest.length + 1) c.skipBreak
      else .error .malformed

/-- What stands between quotes up to and with the closing one, and the cursor past that. -/
def quotedFrom [Text.HalfSigns] (double : Bool) : Nat → Cursor → Except Fault (List Char × Cursor)
  | 0, _ => .error .malformed
  | fuel + 1, c =>
    let go (text : List Char) (c : Cursor) : Except Fault (List Char × Cursor) := do
      let (more, c) ← quotedFrom double fuel c
      return (text ++ more, c)
    match c.peek with
    | none => .error .malformed
    | some ch =>
      if endsIndicator (some ch) then
        let (blanks, c) := c.takeWhile fun ch => ch == ' ' || ch == '\t'
        match c.peek, c.takeBreak? with
        | none, _ => .error .malformed
        | some _, none => go blanks c
        | some _, some (first, c) => do
          let (more, c) ← quotedBreaks (c.rest.length + 1) c
          go (foldBreaks first more) c
      else if double then
        if ch = '"' then .ok ([], c.next)
        else if ch = '\\' then do
          let (text, c) ← escape c.next
          go text c
        else go [ch] c.next
      else if ch = '\'' then
        if c.peekAt 1 = some '\'' then go ['\''] (c.skip 2) else .ok ([], c.next)
      else go [ch] c.next

def quoted [Text.HalfSigns] (double : Bool) (c : Cursor) : Except Fault (List Char × Cursor) :=
  quotedFrom double (c.rest.length + 1) c.next

/-! ## Block scalars -/

/-- What becomes of the breaks at the end of a block: all but the first are dropped, all are
dropped, or all are kept. -/
inductive Chomping where
  | clip
  | strip
  | keep
  deriving DecidableEq, Repr

def chomping? : Option Char → Option Chomping
  | some '+' => some .keep
  | some '-' => some .strip
  | _ => none

/-- The indentation that a digit asks for, at least one. -/
def indentation? : Option Char → Option Nat
  | some c => if c.isDigit then some (c.toNat - '0'.toNat) else none
  | none => none

/-- The signs after the indicator of a block, in either order, and the cursor past them. -/
def blockHeader (c : Cursor) : Except Fault (Chomping × Option Nat × Cursor) := do
  let (chomping, increment, c) := match chomping? c.peek with
    | some chomping =>
      match indentation? c.next.peek with
      | some n => (chomping, some n, c.skip 2)
      | none => (chomping, none, c.next)
    | none =>
      match indentation? c.peek with
      | none => (.clip, none, c)
      | some n =>
        match chomping? c.next.peek with
        | some chomping => (chomping, some n, c.skip 2)
        | none => (.clip, some n, c.next)
  if increment = some 0 then throw .malformed
  if !endsWord c.peek then throw .malformed
  return (chomping, increment, c)

/-- Past the blanks and the comment that may end a line, and past its break. -/
def finishLine (c : Cursor) : Except Fault Cursor :=
  let c := c.skipSpaces
  let c := if c.peek = some '#' then c.skipLine else c
  if endsLine c.peek then .ok c.skipBreak else .error .malformed

/-- The breaks before the first line of a block, the greatest column that its blank lines reach,
and the cursor past them. -/
def leadingBreaks : Nat → Cursor → Nat → List Char × Nat × Cursor
  | 0, c, widest => ([], widest, c)
  | fuel + 1, c, widest =>
    let c := c.skipSpaces
    let widest := max widest c.column
    match c.takeBreak? with
    | none => ([], widest, c)
    | some (brk, c) =>
      let (more, widest, c) := leadingBreaks fuel c widest
      (brk :: more, widest, c)

/-- Past the spaces ahead that are part of an indentation. -/
def skipIndentation (indent : Nat) (c : Cursor) : Cursor :=
  c.skip ((c.rest.takeWhile (· == ' ')).length.min (indent - c.column))

/-- The breaks between two lines of a block, and the cursor at the next line. -/
def blockBreaks (indent : Nat) : Nat → Cursor → List Char × Cursor
  | 0, c => ([], c)
  | fuel + 1, c =>
    let c := skipIndentation indent c
    match c.takeBreak? with
    | none => ([], c)
    | some (brk, c) =>
      let (more, c) := blockBreaks indent fuel c
      (brk :: more, c)

/-- What a block ends with: its text, its last break, the breaks after that, and the cursor. -/
structure BlockEnd where
  text : List Char
  lastBreak : List Char
  trailing : List Char
  cursor : Cursor

def isIndented (c : Cursor) : Bool :=
  c.peek == some ' ' || c.peek == some '\t'

/-- The lines of a block from a cursor on, where `breaks` stand before the line there. -/
def blockLines (folded : Bool) (indent : Nat) : Nat → List Char → List Char → Cursor → BlockEnd
  | 0, lastBreak, breaks, c => ⟨[], lastBreak, breaks, c⟩
  | fuel + 1, lastBreak, breaks, c =>
    if c.column = indent ∧ c.peek.isSome then
      let (line, after) := c.takeWhile fun ch => !isBreak ch
      let lineBreak := (after.takeBreak?.map Prod.fst).toList
      let (more, next) := blockBreaks indent (after.rest.length + 1) after.skipBreak
      let text := breaks ++ line
      if next.column = indent ∧ next.peek.isSome then
        let folds := folded && lineBreak == ['\n'] && !isIndented c && !isIndented next
        let joint := if folds then (if more = [] then [' '] else []) else lineBreak
        let ending := blockLines folded indent fuel lineBreak more next
        { ending with text := text ++ joint ++ ending.text }
      else ⟨text, lineBreak, more, next⟩
    else ⟨[], lastBreak, breaks, c⟩

/-- The block scalar that starts at a cursor on its indicator, in a node indented by `parent`. -/
def block (folded : Bool) (parent : Int) (c : Cursor) : Except Fault (List Char × Cursor) := do
  let (chomping, increment, c) ← blockHeader c.next
  let c ← finishLine c
  let least := max (parent + 1) 1 |>.toNat
  let fuel := c.rest.length + 1
  let (breaks, indent, c) := match increment with
    | some n =>
      let indent := least + n - 1
      let (breaks, c) := blockBreaks indent fuel c
      (breaks, indent, c)
    | none =>
      let (breaks, widest, c) := leadingBreaks fuel c 0
      (breaks, max least widest, c)
  let ending := blockLines folded indent fuel [] breaks c
  let tail := match chomping with
    | .strip => []
    | .clip => ending.lastBreak
    | .keep => ending.lastBreak ++ ending.trailing
  return (ending.text ++ tail, ending.cursor)

end EmulatedDevice.Yaml.Scalar
