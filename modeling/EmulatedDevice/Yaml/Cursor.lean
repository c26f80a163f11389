import EmulatedDevice.Yaml.Fault

/-!
# Characters and places of a YAML text

Five characters break lines. What a scanner sees next is a character or the end of
the text, and most rules treat the end like a break.

A cursor is the rest of a text together with the line and column where it starts.
All scanning is a walk of cursors, and a cursor only ever moves forward.
-/

namespace EmulatedDevice.Yaml

def isBreak (c : Char) : Bool :=
  c == '\n' || c == '\r' || c == '\x85' || c == '\u2028' || c == '\u2029'

def endsLine : Option Char → Bool
  | none => true
  | some c => isBreak c

/-- Whether what comes next is a space, a break, or the end. -/
def endsWord : Option Char → Bool
  | none => true
  | some c => c == ' ' || isBreak c

/-- Whether what comes next is a space, a tab, a break, or the end. -/
def endsIndicator : Option Char → Bool
  | none => true
  | some c => c == ' ' || c == '\t' || isBreak c

/-- Whether a character may stand in a YAML text at all. -/
def isAllowed (c : Char) : Bool :=
  let n := c.toNat
  n == 0x9 || n == 0xa || n == 0xd || (0x20 ≤ n && n ≤ 0x7e) || n == 0x85
    || (0xa0 ≤ n && n ≤ 0xd7ff) || (0xe000 ≤ n && n ≤ 0xfffd) || 0x10000 ≤ n

/-- Whether a character may stand in the name of an anchor or a handle. -/
def isWordChar (c : Char) : Bool :=
  c.isAlphanum || c == '-' || c == '_'

structure Cursor where
  rest : List Char
  index : Nat
  line : Nat
  column : Nat
  deriving Repr

namespace Cursor

def start (text : List Char) : Cursor := ⟨text, 0, 0, 0⟩

def peek (c : Cursor) : Option Char := c.rest.head?

/-- What comes after the next `n` characters. -/
def peekAt (c : Cursor) (n : Nat) : Option Char := c.rest[n]?

/-- Past one character. The two characters of a combined break are one break, and a byte order
mark takes no column. -/
def next (c : Cursor) : Cursor :=
  match c.rest with
  | [] => c
  | ch :: rest =>
    let breaks := isBreak ch && !(ch == '\r' && rest.head? == some '\n')
    if breaks then ⟨rest, c.index + 1, c.line + 1, 0⟩
    else ⟨rest, c.index + 1, c.line, if ch = '\ufeff' then c.column else c.column + 1⟩

def skip (c : Cursor) : Nat → Cursor
  | 0 => c
  | n + 1 => c.next.skip n

/-- The characters ahead that satisfy `p`, and the cursor past them. -/
def takeWhile (c : Cursor) (p : Char → Bool) : List Char × Cursor :=
  let taken := c.rest.takeWhile p
  (taken, c.skip taken.length)

def dropWhile (c : Cursor) (p : Char → Bool) : Cursor :=
  (c.takeWhile p).2

def skipSpaces (c : Cursor) : Cursor := c.dropWhile (· == ' ')

/-- Past the rest of a line, up to its break. -/
def skipLine (c : Cursor) : Cursor := c.dropWhile fun ch => !isBreak ch

/-- The break ahead in its plain form, and the cursor past it. -/
def takeBreak? (c : Cursor) : Option (Char × Cursor) :=
  match c.rest with
  | '\r' :: '\n' :: _ => some ('\n', c.skip 2)
  | '\u2028' :: _ => some ('\u2028', c.next)
  | '\u2029' :: _ => some ('\u2029', c.next)
  | ch :: _ => if isBreak ch then some ('\n', c.next) else none
  | [] => none

/-- Past the break ahead, if there is one. -/
def skipBreak (c : Cursor) : Cursor :=
  match c.takeBreak? with
  | some (_, c) => c
  | none => c

/-- Whether three characters stand ahead that mark the start or the end of a document. -/
def atMarker (c : Cursor) : Bool :=
  let mark := c.rest.take 3
  (mark == ['-', '-', '-'] || mark == ['.', '.', '.']) && endsIndicator (c.peekAt 3)

end Cursor

end EmulatedDevice.Yaml
