/-!
# Double-precision numbers, exactly

A finite double is `± m · 2^q` for natural `m` and integer `q`. Everything here is
arithmetic on `m` and `q`: a quotient of two naturals goes to the nearest double,
and of two equally near ones to the one with the even `m`. Nothing is lost before
that one rounding, so reading a decimal number is correctly rounded by
construction.

Values are kept in canonical form: `m < 2^53`, `-1074 ≤ q ≤ 971`, and `m ≥ 2^52`
unless `q = -1074`. Two canonical values are equal exactly when they are the same
double; `0` and `-0` are different values and equal numbers.
-/

namespace EmulatedDevice

inductive Binary64 where
  | nan
  | infinity (negative : Bool)
  | finite (negative : Bool) (mantissa : Nat) (exponent : Int)
  deriving DecidableEq, Repr

namespace Binary64

/-- The exponent of the smallest positive double. -/
def minExponent : Int := -1074

/-- The exponent of the greatest doubles. -/
def maxExponent : Int := 971

/-- The least mantissa of a double that is not among the smallest. -/
def leastMantissa : Nat := 0x10000000000000

def zero (negative : Bool) : Binary64 := .finite negative 0 minExponent

def one : Binary64 := .finite false leastMantissa (-52)

/-- `n / d` to the nearest natural number, a half to the even neighbour. -/
def roundQuotient (n d : Nat) : Nat :=
  let q := n / d
  let r := n % d
  if d < 2 * r ∨ (d = 2 * r ∧ q % 2 = 1) then q + 1 else q

/-- `n / d` times `base^e`, as a quotient of naturals. -/
def scale (base n d : Nat) (e : Int) : Nat × Nat :=
  if e < 0 then (n, d * Nat.pow base (-e).toNat) else (n * Nat.pow base e.toNat, d)

/-- The exponent at which `n / d` has 53 binary digits, not below the smallest there is. -/
def exponentFor (n d : Nat) : Int :=
  let guess : Int := (n.log2 : Int) - (d.log2 : Int) - 53
  let (n', d') := scale 2 n d (-guess)
  max minExponent (if n' / d' < 2 * leastMantissa then guess else guess + 1)

/-- The double nearest to `± n / d`, for positive `d`. -/
def ofRatio (negative : Bool) (n d : Nat) : Binary64 :=
  if n = 0 then zero negative else
    let e := exponentFor n d
    let (n', d') := scale 2 n d (-e)
    let m := roundQuotient n' d'
    let (m, e) := if m = 2 * leastMantissa then (leastMantissa, e + 1) else (m, e)
    if maxExponent < e then .infinity negative else .finite negative m e

def decimalLength (n : Nat) : Nat := (Nat.toDigits 10 n).length

/-- The double nearest to `± digits · 10^exponent`. Numbers beyond the range by many orders of
magnitude are settled without writing them out. -/
def ofDecimal (negative : Bool) (digits : Nat) (exponent : Int) : Binary64 :=
  if digits = 0 then zero negative
  else if 310 < exponent + decimalLength digits then .infinity negative
  else if exponent + decimalLength digits < -330 then zero negative
  else
    let (n, d) := scale 10 digits 1 exponent
    ofRatio negative n d

/-- The magnitude of a finite double as a quotient of naturals. -/
def ratio (mantissa : Nat) (exponent : Int) : Nat × Nat :=
  scale 2 mantissa 1 exponent

def toInt? : Binary64 → Option Int
  | .finite negative m e =>
    let (n, d) := ratio m e
    if n % d = 0 then some (if negative then -((n / d : Nat) : Int) else ((n / d : Nat) : Int))
    else none
  | _ => none

def truncate (negative : Bool) (mantissa : Nat) (exponent : Int) : Int :=
  let (n, d) := ratio mantissa exponent
  if negative then -((n / d : Nat) : Int) else ((n / d : Nat) : Int)

def neg : Binary64 → Binary64
  | .nan => .nan
  | .infinity s => .infinity (!s)
  | .finite s m e => .finite (!s) m e

def mul : Binary64 → Binary64 → Binary64
  | .nan, _ | _, .nan => .nan
  | .infinity s, .infinity t => .infinity (s != t)
  | .infinity s, .finite t m _ | .finite t m _, .infinity s =>
    if m = 0 then .nan else .infinity (s != t)
  | .finite s m e, .finite t k f =>
    let (n₁, d₁) := ratio m e
    let (n₂, d₂) := ratio k f
    ofRatio (s != t) (n₁ * n₂) (d₁ * d₂)

/-- The double nearest to a natural number, unless this is beyond the range. -/
def ofNat? (n : Nat) : Option Binary64 :=
  match ofRatio false n 1 with
  | .finite s m e => some (.finite s m e)
  | _ => none

def add : Binary64 → Binary64 → Binary64
  | .nan, _ | _, .nan => .nan
  | .infinity s, .infinity t => if s = t then .infinity s else .nan
  | .infinity s, _ => .infinity s
  | _, .infinity t => .infinity t
  | .finite s m e, .finite t k f =>
    let (n₁, d₁) := ratio m e
    let (n₂, d₂) := ratio k f
    let signed (negative : Bool) (n : Nat) : Int := if negative then -(n : Int) else n
    let total := signed s (n₁ * d₂) + signed t (n₂ * d₁)
    if total = 0 then zero (s && t) else ofRatio (total < 0) total.natAbs (d₁ * d₂)

end Binary64

end EmulatedDevice
