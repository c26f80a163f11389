import EmulatedDevice.Binary64
import EmulatedDevice.Text.Integer
import EmulatedDevice.Yaml.Tag

/-!
# Numbers and octets in YAML scalars

A scalar that is tagged as a number is read more generously than its looks would
ask for: separators between digits are dropped, and what remains is a numeral with
a base, numbers of sixties between colons, or a decimal number.
-/

namespace EmulatedDevice.Yaml.Number

/-- A text without separators, split into its sign and the rest. -/
def splitSign (text : List Char) : Except Fault (Bool × List Char) :=
  match text.filter (· ≠ '_') with
  | [] => .error .emptyNumber
  | '-' :: rest => .ok (true, rest)
  | '+' :: rest => .ok (false, rest)
  | rest => .ok (false, rest)

/-- The whole number that a numeral in a base writes. -/
def integerIn (base : Nat) (text : List Char) : Except Fault Int :=
  match Text.readInteger base text with
  | some n => .ok n
  | none => .error (.badInteger base (.ofList text))

/-- The whole number whose parts count sixties of each other. -/
def sexagesimalInteger : Int → List (List Char) → Except Fault Int
  | total, [] => .ok total
  | total, part :: rest => do sexagesimalInteger (total * 60 + (← integerIn 10 part)) rest

/-- The whole number of a text without separators and sign. -/
def magnitude (text : List Char) : Except Fault Int :=
  match text with
  | [] => .error .emptyNumber
  | ['0'] => .ok 0
  | '0' :: 'b' :: rest => integerIn 2 rest
  | '0' :: 'x' :: rest => integerIn 16 rest
  | '0' :: _ => integerIn 8 text
  | _ => if ':' ∈ text then sexagesimalInteger 0 (Tag.colonParts text) else integerIn 10 text

def integer (text : List Char) : Except Fault Int := do
  let (negative, rest) ← splitSign text
  let n ← magnitude rest
  return if negative then -n else n

/-- The value of a digit of any script, for reading decimal numbers. -/
def decimalDigits (text : List Char) : Option (List Nat) :=
  text.mapM Text.digitValue?

def ofDigits (digits : List Nat) : Nat :=
  digits.foldl (fun value d => value * 10 + d) 0

/-- The power of ten after the letter of an exponent. -/
def exponentOf (text : List Char) : Option Int := do
  let negative := text.head? = some '-'
  let digits ← decimalDigits (Tag.dropSign text)
  if digits = [] then none
  else some (if negative then -(ofDigits digits : Int) else ofDigits digits)

/-- The double that a decimal number without a sign writes. -/
def unsignedDecimal (negative : Bool) (text : List Char) : Option Binary64 :=
  if text = "inf".toList ∨ text = "infinity".toList then some (.infinity negative)
  else if text = "nan".toList then some .nan
  else do
    let mantissa := text.takeWhile (· ≠ 'e')
    let power ← match text.drop mantissa.length with
      | [] => some 0
      | _ :: rest => exponentOf rest
    let whole := mantissa.takeWhile (· ≠ '.')
    let wholeDigits ← decimalDigits whole
    let fractionDigits ← decimalDigits (mantissa.drop (whole.length + 1))
    let digits := wholeDigits ++ fractionDigits
    if digits = [] then none
    else some (.ofDecimal negative (ofDigits digits) (power - fractionDigits.length))

def decimal (text : List Char) : Except Fault Binary64 :=
  let trimmed := Text.trimBlanks text
  match unsignedDecimal (trimmed.head? = some '-') (Tag.dropSign trimmed) with
  | some x => .ok x
  | none => .error (.badFloat (.ofList text))

/-- The double whose parts count sixties of each other, from the last part on; what a part counts,
each product and each sum is rounded. A part that counts more than a double can hold is refused. -/
def sexagesimalFloat : Nat → Binary64 → List Binary64 → Except Fault Binary64
  | _, total, [] => .ok total
  | base, total, part :: rest =>
    match Binary64.ofNat? base with
    | some factor => sexagesimalFloat (base * 60) (total.add (part.mul factor)) rest
    | none => .error .malformed

def float (text : List Char) : Except Fault Binary64 := do
  let (negative, rest) ← splitSign (text.map Char.toLower)
  let x ←
    if rest = ".inf".toList then pure (.infinity false)
    else if rest = ".nan".toList then pure .nan
    else if ':' ∈ rest then do
      let parts ← (Tag.colonParts rest).mapM decimal
      sexagesimalFloat 1 (.zero false) parts.reverse
    else decimal rest
  return if negative then x.neg else x

/-- The value of a character that carries six bits. -/
def sixBits? (c : Char) : Option Nat :=
  if 'A' ≤ c ∧ c ≤ 'Z' then some (c.toNat - 'A'.toNat)
  else if 'a' ≤ c ∧ c ≤ 'z' then some (c.toNat - 'a'.toNat + 26)
  else if c.isDigit then some (c.toNat - '0'.toNat + 52)
  else if c = '+' then some 62
  else if c = '/' then some 63
  else none

/-- The octets that characters of six bits write. Other characters are passed over. `count` is how
many of a group of four were read, `bits` what they left, and `pads` how many signs of padding
came since; enough of them end the text, and a text must not end inside a group. -/
def octetsFrom (count bits pads : Nat) : List Char → Except Fault (List UInt8)
  | [] => if count = 0 then .ok [] else .error .malformed
  | c :: rest =>
    if c = '=' then
      if 2 ≤ count ∧ 4 ≤ count + pads + 1 then .ok []
      else octetsFrom count bits (if 2 ≤ count then pads + 1 else pads) rest
    else
      match sixBits? c with
      | none => octetsFrom count bits pads rest
      | some v =>
        match count with
        | 0 => octetsFrom 1 v 0 rest
        | 1 => do return UInt8.ofNat (bits * 4 + v / 16) :: (← octetsFrom 2 (v % 16) 0 rest)
        | 2 => do return UInt8.ofNat (bits * 16 + v / 4) :: (← octetsFrom 3 (v % 4) 0 rest)
        | _ => do return UInt8.ofNat (bits * 64 + v) :: (← octetsFrom 0 0 0 rest)

def octets (text : List Char) : Except Fault (List UInt8) :=
  if text.all fun c => c.toNat < 0x80 then octetsFrom 0 0 0 text else .error .malformed

end EmulatedDevice.Yaml.Number
