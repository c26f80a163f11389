import EmulatedDevice.Declaration.Attributes
import EmulatedDevice.Proofs.Acceptance
import EmulatedDevice.Proofs.NearestDoubles

/-!
# Values that are whole numbers

A finite double is a rational number, and it is kept as a mantissa and an exponent
of two. Whether it has a fraction is found out by a remainder of naturals,
and what is left without the fraction is their quotient. Here both are tied to the
rational number itself: a double passes for an integer exactly when the number it
is an integer, and what is read from it is that integer. So an attribute that may be
read from a double loses nothing in the reading.
-/

namespace EmulatedDevice

namespace Binary64

variable {negative : Bool} {mantissa : Nat} {exponent n : Int}

/-- The number that a finite double is. -/
def rational (negative : Bool) (mantissa : Nat) (exponent : Int) : ℚ :=
  (if negative then -1 else 1) * (mantissa * 2 ^ exponent)

/-- The magnitude of a double times the denominator of its ratio is the numerator. -/
theorem mul_ratio (mantissa : Nat) (exponent : Int) :
    (mantissa : ℚ) * 2 ^ exponent * (ratio mantissa exponent).2 =
      (ratio mantissa exponent).1 := by
  have hpos : ((ratio mantissa exponent).2 : ℚ) ≠ 0 :=
    Nat.cast_ne_zero.2 (ratio_pos mantissa exponent).ne'
  exact ((div_eq_iff hpos).1 (ratio_div mantissa exponent)).symm

/-- An integer is the number of a double just when its multiple is the signed numerator. -/
theorem eq_rational_iff :
    (n : ℚ) = rational negative mantissa exponent ↔
      n * (ratio mantissa exponent).2 =
        (if negative then -1 else 1) * ((ratio mantissa exponent).1 : Int) := by
  have hpos : ((ratio mantissa exponent).2 : ℚ) ≠ 0 :=
    Nat.cast_ne_zero.2 (ratio_pos mantissa exponent).ne'
  rw [← mul_left_inj' hpos, rational, mul_assoc, mul_ratio, ← @Int.cast_inj ℚ]
  cases negative <;> simp

/-- A double passes for an integer exactly when it is one. -/
theorem toInt?_finite_iff :
    (finite negative mantissa exponent).toInt? = some n ↔
      (n : ℚ) = rational negative mantissa exponent := by
  rw [eq_rational_iff]
  have hpos := ratio_pos mantissa exponent
  unfold toInt?
  simp only
  generalize (ratio mantissa exponent).1 = p
  generalize (ratio mantissa exponent).2 = d at hpos ⊢
  have hd : (d : Int) ≠ 0 := by omega
  split
  · next hmod =>
    obtain ⟨k, rfl⟩ := Nat.dvd_of_mod_eq_zero hmod
    rw [Nat.mul_div_cancel_left k hpos, Option.some_inj, Nat.cast_mul, mul_comm (d : Int) k,
      ← mul_assoc, mul_left_inj' hd]
    cases negative <;> simp [eq_comm]
  · next hmod =>
    refine iff_of_false nofun fun heq => hmod (Nat.mod_eq_zero_of_dvd ?_)
    have hdvd : (d : Int) ∣ (if negative then -1 else 1) * (p : Int) := Dvd.intro_left n heq
    cases negative <;> simpa [Int.natCast_dvd_natCast] using hdvd

/-- What is left of a double that is an integer is that integer. -/
theorem truncate_eq (h : (n : ℚ) = rational negative mantissa exponent) :
    truncate negative mantissa exponent = n := by
  have hint := toInt?_finite_iff.2 h
  unfold toInt? at hint
  unfold truncate
  simp only at hint ⊢
  split at hint
  · exact Option.some_inj.1 hint
  · cases hint

end Binary64

namespace Value

/-- A value that is a whole number: an integer, or a finite double without a fraction. -/
inductive IsWhole : Value → Int → Prop where
  | int (n : Int) : IsWhole (.int n) n
  | float {negative : Bool} {mantissa : Nat} {exponent n : Int}
      (h : (n : ℚ) = Binary64.rational negative mantissa exponent) :
      IsWhole (.float (.finite negative mantissa exponent)) n

theorem accepts_integer_iff_isWhole {value : Value} :
    Schema.integer.Accepts value ↔ ∃ n, value.IsWhole n := by
  rw [Schema.accepts_integer_iff]
  constructor
  · rintro (⟨n, rfl⟩ | ⟨x, n, rfl, hx⟩)
    · exact ⟨n, .int n⟩
    · cases x with
      | finite negative mantissa exponent =>
          exact ⟨n, .float (Binary64.toInt?_finite_iff.1 hx)⟩
      | nan | infinity => cases hx
  · rintro ⟨n, h⟩
    cases h with
    | int => exact .inl ⟨n, rfl⟩
    | float h => exact .inr ⟨_, n, rfl, Binary64.toInt?_finite_iff.2 h⟩

theorem IsWhole.toInteger {value : Value} {n : Int} (h : value.IsWhole n) :
    value.toInteger = .ok n := by
  cases h with
  | int => rfl
  | float h => rw [Value.toInteger, Binary64.truncate_eq h]

end Value

end EmulatedDevice
