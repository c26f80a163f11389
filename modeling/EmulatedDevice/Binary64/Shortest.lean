import EmulatedDevice.Binary64

/-!
# The shortest decimal text of a double

The real numbers that round to a double form an interval around it, whose ends
belong to it when the mantissa is even. A decimal text reads back as the double
when its value lies in that interval. For one digit, two digits and so on, the two
neighbours of the value on the decimal grid of that width are tried; the first
width at which one of them lies in the interval is the shortest there is, because
a grid that has any point in the interval has one of these two there. Of two that
fit, the nearer one is taken, and the even one of two equally near.

All of it is arithmetic on natural numbers.
-/

namespace EmulatedDevice.Binary64

/-- Digits `d₁d₂…dₖ` and a power of ten, for `d₁d₂…dₖ · 10^power`. -/
structure Decimal where
  digits : Nat
  power : Int
  deriving DecidableEq, Repr

/-- The power of ten of the leading digit of `n / d`, for positive `n` and `d`. -/
def leadingPower (n d : Nat) : Int :=
  if d ≤ n then (decimalLength (n / d) : Int) - 1
  else
    let k := decimalLength d - decimalLength n
    if d ≤ n * Nat.pow 10 k then -(k : Int) else -(k : Int) - 1

/-- The ends of the interval that rounds to `m · 2^e`, in units of `2^(e - 2)`. Below a power of
two the neighbour is only half as far away. -/
def interval (m : Nat) (e : Int) : Nat × Nat :=
  (if m = leastMantissa ∧ minExponent < e then 4 * m - 1 else 4 * m - 2, 4 * m + 2)

/-- Whether `k · 10^p` rounds to `m · 2^e`. -/
def roundsTo (m : Nat) (e : Int) (k : Nat) (p : Int) : Bool :=
  let (low, high) := interval m e
  let (un, ud) := ratio 1 (e - 2)
  let (kn, kd) := scale 10 k 1 p
  if m % 2 = 0 then low * un * kd ≤ kn * ud && kn * ud ≤ high * un * kd
  else low * un * kd < kn * ud && kn * ud < high * un * kd

/-- The grid point of a width that rounds to `m · 2^e`, if one of the two neighbours does. -/
def onGrid? (m : Nat) (e : Int) (width : Nat) : Option Decimal :=
  let (n, d) := ratio m e
  let p := leadingPower n d + 1 - width
  let (n', d') := scale 10 n d (-p)
  let below := n' / d'
  let lowFits := roundsTo m e below p
  let highFits := roundsTo m e (below + 1) p
  let nearest := roundQuotient n' d'
  if lowFits && highFits then some ⟨nearest, p⟩
  else if lowFits then some ⟨below, p⟩
  else if highFits then some ⟨below + 1, p⟩
  else none

/-- The first of the given widths at which a decimal fits; seventeen digits always do. -/
def shortestFrom (m : Nat) (e : Int) : List Nat → Decimal
  | [] => ⟨0, 0⟩
  | width :: widths => (onGrid? m e width).getD (shortestFrom m e widths)

/-- The shortest decimal that reads back as the positive double `m · 2^e`. -/
def shortest (m : Nat) (e : Int) : Decimal :=
  shortestFrom m e ((List.range 17).map (· + 1))

/-- The text of a digit string whose leading digit has the given power of ten. Powers from -4 to 15
are written out, with a point and at least one digit on both sides of it; others get an exponent
with a sign and at least two digits. -/
def layOut (digits : List Char) (power : Int) : String :=
  let written : List Char :=
    if power < -4 ∨ 16 ≤ power then
      let fraction := match digits.drop 1 with
        | [] => []
        | more => '.' :: more
      let exponent := Nat.toDigits 10 power.natAbs
      digits.take 1 ++ fraction ++ ['e', if power < 0 then '-' else '+']
        ++ List.replicate (2 - exponent.length) '0' ++ exponent
    else if power < 0 then
      ['0', '.'] ++ List.replicate (power.natAbs - 1) '0' ++ digits
    else
      let whole := power.toNat + 1
      let fraction := digits.drop whole
      digits.take whole ++ List.replicate (whole - digits.length) '0' ++ ['.']
        ++ (if fraction = [] then ['0'] else fraction)
  .ofList written

def trimZeros (digits : List Char) : List Char :=
  match (digits.reverse.dropWhile (· = '0')).reverse with
  | [] => ['0']
  | trimmed => trimmed

/-- The text of a double: the fewest digits that read back as it. -/
def toText : Binary64 → String
  | .nan => "nan"
  | .infinity negative => if negative then "-inf" else "inf"
  | .finite negative m e =>
    let sign := if negative then "-" else ""
    if m = 0 then sign ++ "0.0" else
      let decimal := shortest m e
      let digits := Nat.toDigits 10 decimal.digits
      sign ++ layOut (trimZeros digits) (decimal.power + digits.length - 1)

end EmulatedDevice.Binary64
