import EmulatedDevice.Json.Fault
import EmulatedDevice.Text.Halves
import EmulatedDevice.Text.Hex
import EmulatedDevice.Value

/-!
# Reading JSON

Each reader takes the rest of a text and gives what it read with the rest that is
left, or stops. Where it stopped is the rest from there on, kept as its length,
so that no reader has to count.

A number with a point or an exponent is a double, any other is a whole number of
whatever size; `NaN`, `Infinity` and `-Infinity` are doubles. A repeated name
keeps its first place and its last value.

Values nest, so their reader takes fuel. A step of it spends one unit, and two
steps together use up at least one character, so twice the length of the text is
enough. The interpreter reads by recursion and stops with a fault of its own at a
depth of about a thousand; this limit depends on where the reader is called and is
not part of this development, here or in reading YAML.
-/

namespace EmulatedDevice.Json

/-- Why reading stopped, and how many characters were left there. -/
structure Stop where
  cause : Cause
  remaining : Nat
  deriving DecidableEq, Repr

def stopAt {α : Type} (cause : Cause) (rest : List Char) : Except Stop α :=
  .error ⟨cause, rest.length⟩

def isBlank (c : Char) : Bool :=
  c == ' ' || c == '\t' || c == '\n' || c == '\r'

/-- The text after the blanks at its start. -/
def skipBlanks (text : List Char) : List Char :=
  text.dropWhile isBlank

/-! ## Strings -/

/-- Whether a code is the first half of a surrogate pair. -/
def isHighHalf (code : Nat) : Bool := 0xd800 ≤ code && code < 0xdc00

/-- Whether a code is the second half of a surrogate pair. -/
def isLowHalf (code : Nat) : Bool := 0xdc00 ≤ code && code < 0xe000

/-- The character of a code that stands alone, or the sign for it if it is half of a pair. -/
def charOfCode [Text.HalfSigns] (code : Nat) : Char :=
  if isHighHalf code || isLowHalf code then Text.HalfSigns.sign code else Char.ofNat code

/-- The character that a pair of halves stands for. -/
def charOfHalves (high low : Nat) : Char :=
  Char.ofNat (0x10000 + (high - 0xd800) * 0x400 + (low - 0xdc00))

def simpleEscape? : Char → Option Char
  | '"' => some '"'
  | '\\' => some '\\'
  | '/' => some '/'
  | 'b' => some '\x08'
  | 'f' => some '\x0c'
  | 'n' => some '\n'
  | 'r' => some '\r'
  | 't' => some '\t'
  | _ => none

/-- Reads the escape that follows a backslash: the character it stands for, and how many
characters after the backslash it takes. A high half is joined with the low half that follows it,
and any other half stands alone. -/
def readEscape [Text.HalfSigns] (opening : List Char) : List Char → Except Stop (Char × Nat)
  | [] => stopAt .unterminatedString opening
  | 'u' :: rest =>
    match rest with
    | a :: b :: c :: d :: e :: more =>
      match Text.hexNumber? [a, b, c, d] with
      | none => stopAt .badUnicodeEscape ('u' :: rest)
      | some code =>
        match isHighHalf code, e :: more with
        | true, '\\' :: 'u' :: a' :: b' :: c' :: d' :: e' :: more' =>
          match Text.hexNumber? [a', b', c', d'] with
          | none => stopAt .badUnicodeEscape ('u' :: a' :: b' :: c' :: d' :: e' :: more')
          | some low =>
            if isLowHalf low then .ok (charOfHalves code low, 11) else .ok (charOfCode code, 5)
        | _, _ => .ok (charOfCode code, 5)
    | _ => stopAt .badUnicodeEscape ('u' :: rest)
  | c :: rest =>
    match simpleEscape? c with
    | some escaped => .ok (escaped, 1)
    | none => stopAt .badEscape ('\\' :: c :: rest)

/-- Reads the characters of a string up to and with its closing quote, after `skip` characters
that are already accounted for; `opening` is the text from the opening quote on. -/
def readChars [Text.HalfSigns] (opening : List Char) :
    Nat → List Char → Except Stop (List Char × List Char)
  | _, [] => stopAt .unterminatedString opening
  | skip + 1, _ :: rest => readChars opening skip rest
  | 0, c :: rest =>
    if c = '"' then .ok ([], rest)
    else if c = '\\' then do
      let (escaped, used) ← readEscape opening rest
      let (chars, rest) ← readChars opening used rest
      return (escaped :: chars, rest)
    else if c.toNat < 0x20 then stopAt .controlCharacter (c :: rest)
    else do
      let (chars, rest) ← readChars opening 0 rest
      return (c :: chars, rest)

/-! ## Numbers -/

def splitFraction : List Char → Option (List Char × List Char)
  | '.' :: c :: rest =>
    if c.isDigit then some ((c :: rest).takeWhile Char.isDigit, (c :: rest).dropWhile Char.isDigit)
    else none
  | _ => none

/-- The number that digits write, with a sign. -/
def signed (negative : Bool) (digits : List Char) : Int :=
  if negative then -(Nat.ofDigitChars 10 digits 0 : Int) else Nat.ofDigitChars 10 digits 0

/-- The exponent that a text starts with: a letter, perhaps a sign, and at least one digit. -/
def splitExponent : List Char → Option (Int × List Char)
  | c :: rest =>
    if c = 'e' ∨ c = 'E' then
      let (negative, body) := match rest with
        | '-' :: more => (true, more)
        | '+' :: more => (false, more)
        | more => (false, more)
      match body.takeWhile Char.isDigit with
      | [] => none
      | digits => some (signed negative digits, body.dropWhile Char.isDigit)
    else none
  | [] => none

def splitWhole : List Char → Option (List Char × List Char)
  | '0' :: rest => some (['0'], rest)
  | c :: rest =>
    if c.isDigit then some ((c :: rest).takeWhile Char.isDigit, (c :: rest).dropWhile Char.isDigit)
    else none
  | [] => none

def splitMagnitude (negative : Bool) (text : List Char) : Option (Value × List Char) := do
  let (whole, rest) ← splitWhole text
  match splitFraction rest, splitExponent rest with
  | some (fraction, rest), _ =>
    let (power, rest) := (splitExponent rest).getD (0, rest)
    let digits := Nat.ofDigitChars 10 (whole ++ fraction) 0
    return (.float (.ofDecimal negative digits (power - fraction.length)), rest)
  | none, some (power, rest) =>
    return (.float (.ofDecimal negative (Nat.ofDigitChars 10 whole 0) power), rest)
  | none, none => return (.int (signed negative whole), rest)

def splitNumber : List Char → Option (Value × List Char)
  | '-' :: rest => splitMagnitude true rest
  | text => splitMagnitude false text

def words : List (String × Value) :=
  [ ("null", .null), ("true", .bool true), ("false", .bool false), ("NaN", .float .nan)
  , ("Infinity", .float (.infinity false)), ("-Infinity", .float (.infinity true)) ]

def splitWord (text : List Char) : Option (Value × List Char) :=
  words.findSome? fun (word, value) =>
    if word.toList.isPrefixOf text then some (value, text.drop word.length) else none

/-! ## Values -/

mutual

/-- Reads the value that a text starts with. -/
def readValue [Text.HalfSigns] : Nat → List Char → Except Stop (Value × List Char)
  | 0, text => stopAt .expectedValue text
  | fuel + 1, text =>
    match text with
    | '"' :: rest => do
      let (chars, rest) ← readChars text 0 rest
      return (.text (.ofList chars), rest)
    | '[' :: rest =>
      match skipBlanks rest with
      | ']' :: rest => .ok (.list [], rest)
      | rest => do
        let (items, rest) ← readItems fuel rest
        return (.list items, rest)
    | '{' :: rest =>
      match skipBlanks rest with
      | '}' :: rest => .ok (.mapping [], rest)
      | rest => do
        let (pairs, rest) ← readMembers fuel rest
        return (.mappingOfPairs pairs, rest)
    | text =>
      match splitWord text <|> splitNumber text with
      | some read => .ok read
      | none => stopAt .expectedValue text

/-- Reads the items of a list up to and with its closing bracket. -/
def readItems [Text.HalfSigns] : Nat → List Char → Except Stop (List Value × List Char)
  | 0, text => stopAt .expectedValue text
  | fuel + 1, text => do
    let (item, rest) ← readValue fuel text
    match skipBlanks rest with
    | ']' :: rest => return ([item], rest)
    | ',' :: rest =>
      let (items, rest) ← readItems fuel (skipBlanks rest)
      return (item :: items, rest)
    | rest => stopAt .expectedComma rest

/-- Reads the members of a mapping up to and with its closing brace. -/
def readMembers [Text.HalfSigns] :
    Nat → List Char → Except Stop (List (Value × Value) × List Char)
  | 0, text => stopAt .expectedValue text
  | fuel + 1, text =>
    match text with
    | '"' :: rest => do
      let (name, rest) ← readChars text 0 rest
      match skipBlanks rest with
      | ':' :: rest =>
        let (value, rest) ← readValue fuel (skipBlanks rest)
        let member := (Value.text (.ofList name), value)
        match skipBlanks rest with
        | '}' :: rest => return ([member], rest)
        | ',' :: rest =>
          let (members, rest) ← readMembers fuel (skipBlanks rest)
          return (member :: members, rest)
        | rest => stopAt .expectedComma rest
      | rest => stopAt .expectedColon rest
    | text => stopAt .expectedName text

end

def readDocument [Text.HalfSigns] (text : List Char) : Except Stop Value :=
  if text.head? = some '\ufeff' then .error ⟨.byteOrderMark, text.length⟩
  else do
    let (value, rest) ← readValue (2 * text.length + 2) (skipBlanks text)
    match skipBlanks rest with
    | [] => return value
    | rest => .error ⟨.extraData, rest.length⟩

def parse [Text.HalfSigns] (text : List Char) : Except Fault Value :=
  match readDocument text with
  | .ok value => .ok value
  | .error stop => .error ⟨stop.cause, Text.position text (text.length - stop.remaining)⟩

end EmulatedDevice.Json
