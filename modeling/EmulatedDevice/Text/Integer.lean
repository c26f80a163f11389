import EmulatedDevice.Text.Digit

/-!
# Whole numbers as people write them

A numeral may have blanks around it, a sign, zeros in front, and single
underscores between its digits, and its digits may be of any script. In base two,
eight or sixteen it may announce its base.
-/

namespace EmulatedDevice.Text

/-- The value of a digit in a base; letters go on where the decimal digits end. -/
def digitIn? (base : Nat) (c : Char) : Option Nat :=
  let value? :=
    if 'a' ≤ c ∧ c ≤ 'z' then some (c.toNat - 'a'.toNat + 10)
    else if 'A' ≤ c ∧ c ≤ 'Z' then some (c.toNat - 'A'.toNat + 10)
    else digitValue? c
  value?.filter (· < base)

/-- Reads on after a digit; an underscore has to be followed by a digit. -/
def readDigits (base : Nat) : Nat → List Char → Option Nat
  | value, [] => some value
  | value, '_' :: c :: rest => do readDigits base (value * base + (← digitIn? base c)) rest
  | value, c :: rest => do readDigits base (value * base + (← digitIn? base c)) rest

/-- The letters that announce a base. -/
def baseLetters : Nat → List Char
  | 2 => ['b', 'B']
  | 8 => ['o', 'O']
  | 16 => ['x', 'X']
  | _ => []

/-- The text after a zero and a letter that announce the base; one underscore may follow them. -/
def dropBaseMark (base : Nat) : List Char → List Char
  | '0' :: c :: rest =>
    if c ∈ baseLetters base then
      match rest with
      | '_' :: more => more
      | more => more
    else '0' :: c :: rest
  | text => text

/-- The natural number that a numeral without a sign writes. -/
def readNatural (base : Nat) (text : List Char) : Option Nat :=
  match dropBaseMark base text with
  | [] => none
  | c :: rest => do readDigits base (← digitIn? base c) rest

/-- The text without the blanks at its ends. -/
def trimBlanks (text : List Char) : List Char :=
  ((text.dropWhile isBlank).reverse.dropWhile isBlank).reverse

/-- The whole number that a numeral writes. -/
def readInteger (base : Nat) (text : List Char) : Option Int :=
  match trimBlanks text with
  | '-' :: rest => (readNatural base rest).map fun n => -(n : Int)
  | '+' :: rest => (readNatural base rest).map Int.ofNat
  | rest => (readNatural base rest).map Int.ofNat

end EmulatedDevice.Text
