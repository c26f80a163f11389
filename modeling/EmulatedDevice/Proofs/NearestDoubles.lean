import EmulatedDevice.Binary64.Shortest
import Mathlib.Algebra.Order.Field.Rat
import Mathlib.Data.Nat.Cast.Order.Field
import Mathlib.Tactic.FieldSimp
import Mathlib.Tactic.Linarith
import Mathlib.Tactic.NormNum
import Mathlib.Tactic.Ring

/-!
# A quotient goes to the nearest double

The rational numbers that round to a double form an interval around it. Its ends are
half way to the neighbours, and they belong to it when the mantissa is even. Here
`ofRatio` is tied to these intervals: a quotient that lies in the interval of a double
in canonical form is rounded to that double. The one delicate place is just below a
power of two. There the quotient is scaled as its neighbours below are, and the
rounding carries it over.
-/

namespace EmulatedDevice.Binary64

/-! ## Scaling -/

section Scaling

variable {base n d : Nat}

theorem scale_pos (hbase : 0 < base) (hd : 0 < d) (e : Int) : 0 < (scale base n d e).2 := by
  unfold scale
  split
  · exact Nat.mul_pos hd (Nat.pow_pos hbase)
  · exact hd

theorem scale_fst_pos (hbase : 0 < base) (hn : 0 < n) (e : Int) : 0 < (scale base n d e).1 := by
  unfold scale
  split
  · exact hn
  · exact Nat.mul_pos hn (Nat.pow_pos hbase)

/-- Scaling is multiplication with a power. -/
theorem scale_div (hbase : 0 < base) (e : Int) :
    ((scale base n d e).1 : ℚ) / (scale base n d e).2 = n / d * (base : ℚ) ^ e := by
  have hne : (base : ℚ) ≠ 0 := Nat.cast_ne_zero.2 hbase.ne'
  unfold scale
  split
  · next h =>
    obtain ⟨k, rfl⟩ : ∃ k : Nat, e = -k := ⟨(-e).toNat, by omega⟩
    simp only [neg_neg, Int.toNat_natCast, Nat.pow_eq, Nat.cast_mul, Nat.cast_pow, zpow_neg,
      zpow_natCast]
    field_simp
  · next h =>
    obtain ⟨k, rfl⟩ : ∃ k : Nat, e = k := ⟨e.toNat, by omega⟩
    simp only [Int.toNat_natCast, Nat.pow_eq, Nat.cast_mul, Nat.cast_pow, zpow_natCast]
    field_simp

theorem ratio_pos (m : Nat) (e : Int) : 0 < (ratio m e).2 :=
  scale_pos two_pos one_pos e

theorem ratio_div (m : Nat) (e : Int) : ((ratio m e).1 : ℚ) / (ratio m e).2 = m * 2 ^ e := by
  rw [ratio, scale_div two_pos, Nat.cast_one, div_one, Nat.cast_ofNat]

/-- A quotient lies between powers of a base by the lengths of its two sides. -/
theorem pow_lt_div_lt_pow (base : Nat) {a b : Nat} (hbase : 0 < base)
    (hn : base ^ a ≤ n ∧ n < base ^ (a + 1)) (hd : base ^ b ≤ d ∧ d < base ^ (b + 1)) :
    (base : ℚ) ^ ((a : Int) - b - 1) < (n : ℚ) / d ∧
      (n : ℚ) / d < (base : ℚ) ^ ((a : Int) - b + 1) := by
  have hne : (base : ℚ) ≠ 0 := Nat.cast_ne_zero.2 hbase.ne'
  have hdpos : 0 < d := Nat.lt_of_lt_of_le (Nat.pow_pos hbase) hd.1
  have hdcast : (0 : ℚ) < d := Nat.cast_pos.2 hdpos
  have hlow : (base : ℚ) ^ ((a : Int) - b - 1) =
      ((base ^ a : Nat) : ℚ) / (base ^ (b + 1) : Nat) := by
    rw [sub_sub, zpow_sub₀ hne, ← Nat.cast_succ, zpow_natCast, zpow_natCast, Nat.cast_pow,
      Nat.cast_pow]
  have hhigh : (base : ℚ) ^ ((a : Int) - b + 1) =
      ((base ^ (a + 1) : Nat) : ℚ) / (base ^ b : Nat) := by
    rw [sub_add_eq_add_sub, zpow_sub₀ hne, ← Nat.cast_succ, zpow_natCast, zpow_natCast,
      Nat.cast_pow, Nat.cast_pow]
  rw [hlow, hhigh, div_lt_div_iff₀ (Nat.cast_pos.2 (Nat.pow_pos hbase)) hdcast,
    div_lt_div_iff₀ hdcast (Nat.cast_pos.2 (Nat.pow_pos hbase))]
  norm_cast
  constructor
  · calc base ^ a * d ≤ n * d := Nat.mul_le_mul_right d hn.1
      _ < n * base ^ (b + 1) :=
        Nat.mul_lt_mul_of_pos_left hd.2 (Nat.lt_of_lt_of_le (Nat.pow_pos hbase) hn.1)
  · calc n * base ^ b ≤ n * d := Nat.mul_le_mul_left n hd.1
      _ < base ^ (a + 1) * d := Nat.mul_lt_mul_of_pos_right hn.2 hdpos

/-- The whole part of a quotient is less than a number exactly when the quotient is. -/
theorem div_lt_iff {k : Nat} (hd : 0 < d) : n / d < k ↔ (n : ℚ) / d < k := by
  rw [Nat.div_lt_iff_lt_mul hd, div_lt_iff₀ (Nat.cast_pos.2 hd)]
  norm_cast

end Scaling

/-! ## Rounding to a natural number -/

theorem div_eq_add_mod_div {n d : Nat} (hd : 0 < d) :
    (n : ℚ) / d = (n / d : Nat) + ((n % d : Nat) : ℚ) / d := by
  have hdcast : (0 : ℚ) < d := Nat.cast_pos.2 hd
  have hdiv : ((d * (n / d) + n % d : Nat) : ℚ) = n := congrArg _ (Nat.div_add_mod n d)
  rw [← hdiv]
  push_cast
  field_simp

/-- Rounding is up from more than a half, and from a half if the whole part is odd. -/
theorem roundQuotient_eq_ite {n d : Nat} (hd : 0 < d) :
    roundQuotient n d =
      if 1 / 2 < ((n % d : Nat) : ℚ) / d ∨ 1 / 2 = ((n % d : Nat) : ℚ) / d ∧ n / d % 2 = 1 then
        n / d + 1
      else n / d := by
  have hdcast : (0 : ℚ) < d := Nat.cast_pos.2 hd
  have hover : d < 2 * (n % d) ↔ 1 / 2 < ((n % d : Nat) : ℚ) / d := by
    rw [div_lt_div_iff₀ two_pos hdcast, one_mul, mul_comm]
    norm_cast
  have htie : d = 2 * (n % d) ↔ 1 / 2 = ((n % d : Nat) : ℚ) / d := by
    rw [div_eq_div_iff two_ne_zero hdcast.ne', one_mul, mul_comm]
    norm_cast
  unfold roundQuotient
  simp only [hover, htie]

/-- A quotient within a half of a natural number is rounded to it; at a half it has to be even. -/
theorem roundQuotient_eq {n d k : Nat} (hd : 0 < d) (hlow : (k : ℚ) - 1 / 2 ≤ n / d)
    (hhigh : (n : ℚ) / d ≤ k + 1 / 2)
    (hodd : k % 2 = 1 → (k : ℚ) - 1 / 2 < n / d ∧ (n : ℚ) / d < k + 1 / 2) :
    roundQuotient n d = k := by
  have hdcast : (0 : ℚ) < d := Nat.cast_pos.2 hd
  have hmod : ((n % d : Nat) : ℚ) / d < 1 := by
    rw [div_lt_one hdcast]
    exact Nat.cast_lt.2 (Nat.mod_lt n hd)
  have hmod0 : 0 ≤ ((n % d : Nat) : ℚ) / d := div_nonneg (Nat.cast_nonneg _) hdcast.le
  rw [roundQuotient_eq_ite hd]
  rw [div_eq_add_mod_div hd] at hlow hhigh hodd
  generalize n / d = q at hlow hhigh hodd ⊢
  generalize ((n % d : Nat) : ℚ) / d = r at hlow hhigh hodd hmod hmod0 ⊢
  have hle : q ≤ k := by
    have hcast : (q : ℚ) < k + 1 := by linarith
    exact Nat.lt_succ_iff.1 (by exact_mod_cast hcast)
  have hge : k ≤ q + 1 := by
    have hcast : (k : ℚ) < q + 2 := by linarith
    have hnat : k < q + 2 := by exact_mod_cast hcast
    omega
  obtain rfl | rfl : k = q ∨ k = q + 1 := by omega
  · refine if_neg fun h => ?_
    rcases h with h | ⟨h, hq⟩
    · linarith
    · linarith [(hodd hq).2]
  · refine if_pos ?_
    push_cast at hlow hodd
    rcases lt_or_eq_of_le (show (1 / 2 : ℚ) ≤ r by linarith) with h | h
    · exact .inl h
    · refine .inr ⟨h, ?_⟩
      by_contra heven
      linarith [(hodd (by omega)).1]

/-! ## The interval of a double -/

/-- The form in which doubles are kept. Every finite double has exactly one. -/
def IsCanonical : Binary64 → Prop
  | .finite _ m e =>
    m < 2 * leastMantissa ∧ minExponent ≤ e ∧ e ≤ maxExponent ∧
      (leastMantissa ≤ m ∨ e = minExponent)
  | _ => True

theorem isCanonical_zero (negative : Bool) : (zero negative).IsCanonical :=
  ⟨by decide, by decide, by decide, .inr rfl⟩

theorem isCanonical_one : one.IsCanonical :=
  ⟨by decide, by decide, by decide, .inl (by decide)⟩

/-- The numbers that round to `m · 2^e`, the ends of its interval only when `m` is even. -/
def Nearest (m : Nat) (e : Int) (v : ℚ) : Prop :=
  ((interval m e).1 * 2 ^ (e - 2) ≤ v ∧ v ≤ (interval m e).2 * 2 ^ (e - 2)) ∧
    (m % 2 = 1 → (interval m e).1 * 2 ^ (e - 2) < v ∧ v < (interval m e).2 * 2 ^ (e - 2))

section Nearest

variable {m n d : Nat} {e : Int} {v : ℚ}

theorem two_zpow_pos (e : Int) : (0 : ℚ) < 2 ^ e := zpow_pos two_pos e

/-- The interval, measured with the last place of the mantissa. -/
theorem nearest_mul_zpow_iff {y : ℚ} :
    Nearest m e (y * 2 ^ e) ↔
      ((interval m e).1 ≤ 4 * y ∧ 4 * y ≤ (interval m e).2) ∧
        (m % 2 = 1 → (interval m e).1 < 4 * y ∧ 4 * y < (interval m e).2) := by
  have hscale : y * 2 ^ e = 4 * y * 2 ^ (e - 2) := by
    rw [zpow_sub₀ two_ne_zero]
    ring
  rw [Nearest, hscale]
  simp only [mul_le_mul_iff_left₀ (two_zpow_pos (e - 2)),
    mul_lt_mul_iff_left₀ (two_zpow_pos (e - 2))]

theorem interval_bounds (hm : 0 < m) :
    4 * m ≤ (interval m e).1 + 2 ∧ (interval m e).1 < 4 * m ∧ (interval m e).2 = 4 * m + 2 := by
  unfold interval
  refine ⟨?_, ?_, rfl⟩ <;> simp only <;> split <;> omega

/-- Whether a quotient, scaled down, has at most as many binary digits. -/
theorem scaled_lt_iff (hd : 0 < d) (e : Int) (k : Nat) :
    (scale 2 n d (-e)).1 / (scale 2 n d (-e)).2 < 2 ^ k ↔ (n : ℚ) / d < 2 ^ (e + k) := by
  rw [div_lt_iff (scale_pos two_pos hd _), scale_div two_pos, Nat.cast_ofNat, zpow_neg,
    ← div_eq_mul_inv, div_lt_iff₀ (two_zpow_pos _), zpow_add₀ two_ne_zero, mul_comm, zpow_natCast,
    Nat.cast_pow, Nat.cast_ofNat]

/-- The exponent of a positive quotient: it has at most 53 binary digits there, and fewer only at
the smallest exponent. -/
theorem exponentFor_spec (hn : 0 < n) (hd : 0 < d) :
    (n : ℚ) / d < 2 ^ (exponentFor n d + 53) ∧ minExponent ≤ exponentFor n d ∧
      (exponentFor n d = minExponent ∨ 2 ^ (exponentFor n d + 52) ≤ (n : ℚ) / d) := by
  obtain ⟨hlow, hhigh⟩ := pow_lt_div_lt_pow 2 two_pos
    ⟨Nat.log2_self_le hn.ne', Nat.lt_log2_self⟩ ⟨Nat.log2_self_le hd.ne', Nat.lt_log2_self⟩
  unfold exponentFor
  simp only
  generalize hguess : (n.log2 : Int) - d.log2 - 53 = guess
  have hlong : (scale 2 n d (-guess)).1 / (scale 2 n d (-guess)).2 < 2 * leastMantissa ↔
      (n : ℚ) / d < 2 ^ (guess + 53) := scaled_lt_iff hd guess 53
  simp only [hlong]
  have hfull : ∃ f, (if (n : ℚ) / d < 2 ^ (guess + 53) then guess else guess + 1) = f ∧
      2 ^ (f + 52) ≤ (n : ℚ) / d ∧ (n : ℚ) / d < 2 ^ (f + 53) := by
    split
    · next h =>
      refine ⟨guess, rfl, le_of_lt ?_, h⟩
      rwa [← hguess, show (n.log2 : Int) - d.log2 - 53 + 52 = n.log2 - d.log2 - 1 by omega]
    · next h =>
      refine ⟨guess + 1, rfl, ?_, ?_⟩
      · rw [show guess + 1 + 52 = guess + 53 by omega]
        exact le_of_not_gt h
      · rwa [← hguess, show (n.log2 : Int) - d.log2 - 53 + 1 + 53 = n.log2 - d.log2 + 1 by omega]
  obtain ⟨f, hf, hleast, hmost⟩ := hfull
  rw [hf]
  refine ⟨hmost.trans_le ?_, le_max_left .., ?_⟩
  · exact zpow_le_zpow_right₀ one_le_two (by omega)
  · rcases le_total f minExponent with h | h
    · exact .inl (max_eq_left h)
    · rw [max_eq_right h]
      exact .inr hleast

/-- What rounds to a double is at least every power of two that its interval lies above. -/
theorem Nearest.zpow_le (h : Nearest m e v) {k : Nat} (hk : 2 ^ k ≤ (interval m e).1) :
    2 ^ (e - 2 + k) ≤ v := by
  refine le_trans ?_ h.1.1
  rw [add_comm, zpow_add₀ two_ne_zero, zpow_natCast]
  exact mul_le_mul_of_nonneg_right (by exact_mod_cast hk) (two_zpow_pos _).le

theorem Nearest.lt_zpow (h : Nearest m e v) {k : Nat} (hk : (interval m e).2 < 2 ^ k) :
    v < 2 ^ (e - 2 + k) := by
  refine lt_of_le_of_lt h.1.2 ?_
  rw [add_comm, zpow_add₀ two_ne_zero, zpow_natCast]
  exact mul_lt_mul_of_pos_right (by exact_mod_cast hk) (two_zpow_pos _)

/-- Only positive numbers round to a positive double. -/
theorem Nearest.half_le (h : Nearest m e v) (hm : 0 < m) : 2 ^ (e - 1) ≤ v := by
  obtain ⟨hlow, -, -⟩ := interval_bounds (m := m) (e := e) hm
  have hle := h.zpow_le (show 2 ^ 1 ≤ _ by omega)
  rwa [show e - 2 + (1 : Nat) = e - 1 by omega] at hle

theorem Nearest.lt (h : Nearest m e v) (hm : m < 2 * leastMantissa) : v < 2 ^ (e + 53) := by
  have hlt := h.lt_zpow (k := 55) (by simp only [interval, leastMantissa] at hm ⊢; omega)
  rwa [show e - 2 + (55 : Nat) = e + 53 by omega] at hlt

/-- The exponent of a quotient that rounds to a double is the exponent of the double, or one less
just below a power of two. -/
theorem exponentFor_of_nearest {negative : Bool} (hcanonical : (finite negative m e).IsCanonical)
    (hn : 0 < n) (hd : 0 < d) (h : Nearest m e ((n : ℚ) / d)) :
    exponentFor n d = e ∨ m = leastMantissa ∧ exponentFor n d + 1 = e := by
  obtain ⟨hlt, hmin, _, hfull⟩ := hcanonical
  obtain ⟨hmost, hmin', hleast⟩ := exponentFor_spec hn hd
  generalize exponentFor n d = f at hmost hmin' hleast ⊢
  have hle : f ≤ e := by
    rcases hleast with rfl | hleast
    · exact hmin
    · have hpow := (zpow_lt_zpow_iff_right₀ one_lt_two).1 (hleast.trans_lt (h.lt hlt))
      omega
  by_cases heq : e = minExponent
  · exact .inl (by omega)
  have hleastm : leastMantissa = 2 ^ 52 := rfl
  have hfullm : leastMantissa ≤ m := hfull.resolve_right heq
  obtain ⟨hlow, -, -⟩ := interval_bounds (m := m) (e := e) (by omega)
  have hpow := h.zpow_le (show 2 ^ 53 ≤ _ by omega)
  have hge : e ≤ f + 1 := by
    have hpow := (zpow_lt_zpow_iff_right₀ one_lt_two).1 (hpow.trans_lt hmost)
    omega
  by_cases hf : f = e
  · exact .inl hf
  refine .inr ⟨?_, by omega⟩
  by_contra hm
  have hpow := h.zpow_le (show 2 ^ 54 ≤ _ by omega)
  have hpow := (zpow_lt_zpow_iff_right₀ one_lt_two).1 (hpow.trans_lt hmost)
  omega

/-- At the exponent of the double, the quotient is rounded to the mantissa. -/
theorem roundQuotient_of_nearest (hm : 0 < m) (hd : 0 < d) (h : Nearest m e ((n : ℚ) / d)) :
    roundQuotient (scale 2 n d (-e)).1 (scale 2 n d (-e)).2 = m := by
  obtain ⟨hlow, -, hhigh⟩ := interval_bounds (m := m) (e := e) hm
  have hlow : 4 * (m : ℚ) ≤ (interval m e).1 + 2 := by exact_mod_cast hlow
  have hhigh : ((interval m e).2 : ℚ) = 4 * m + 2 := by exact_mod_cast hhigh
  have hunit : (n : ℚ) / d = n / d * 2 ^ (-e) * 2 ^ e := by
    rw [mul_assoc, ← zpow_add₀ two_ne_zero, neg_add_cancel, zpow_zero, mul_one]
  rw [hunit, nearest_mul_zpow_iff] at h
  obtain ⟨⟨hge, hle⟩, hodd⟩ := h
  refine roundQuotient_eq (scale_pos two_pos hd _) ?_ ?_ fun hm => ?_
  all_goals rw [scale_div two_pos, Nat.cast_ofNat]
  · linarith
  · linarith
  · obtain ⟨hgt, hlt⟩ := hodd hm
    constructor <;> linarith

/-- One exponent below, a quotient just below a power of two is rounded up to it. -/
theorem roundQuotient_carry (hd : 0 < d) (h : Nearest leastMantissa (e + 1) ((n : ℚ) / d))
    (he : minExponent ≤ e) (hlt : (n : ℚ) / d < 2 ^ (e + 53)) :
    roundQuotient (scale 2 n d (-e)).1 (scale 2 n d (-e)).2 = 2 * leastMantissa := by
  have hunit : (n : ℚ) / d = n / d * 2 ^ (-e) / 2 * 2 ^ (e + 1) := by
    rw [zpow_add_one₀ two_ne_zero, div_mul_eq_mul_div, mul_comm ((2 : ℚ) ^ e), ← mul_assoc,
      mul_right_comm, mul_div_cancel_right₀ _ two_ne_zero, mul_assoc, ← zpow_add₀ two_ne_zero,
      neg_add_cancel, zpow_zero, mul_one]
  have hmost : (n : ℚ) / d * 2 ^ (-e) < 2 ^ 53 := by
    rwa [zpow_neg, ← div_eq_mul_inv, div_lt_iff₀ (two_zpow_pos _), mul_comm,
      ← zpow_natCast, ← zpow_add₀ two_ne_zero]
  rw [hunit, nearest_mul_zpow_iff] at h
  obtain ⟨⟨hge, -⟩, -⟩ := h
  have hinterval : (interval leastMantissa (e + 1)).1 = 2 ^ 54 - 1 := by
    rw [interval, if_pos ⟨rfl, by omega⟩]
    rfl
  rw [hinterval] at hge
  norm_num at hge hmost
  refine roundQuotient_eq (scale_pos two_pos hd _) ?_ ?_ fun hodd => ?_
  · rw [scale_div two_pos, Nat.cast_ofNat]
    norm_num [leastMantissa]
    linarith
  · rw [scale_div two_pos, Nat.cast_ofNat]
    norm_num [leastMantissa]
    linarith
  · cases hodd

/-- A quotient that lies in the interval of a double is rounded to it. -/
theorem ofRatio_of_nearest {negative : Bool} (hcanonical : (finite negative m e).IsCanonical)
    (hm : 0 < m) (hn : 0 < n) (hd : 0 < d) (h : Nearest m e ((n : ℚ) / d)) :
    ofRatio negative n d = finite negative m e := by
  have hexponent := exponentFor_of_nearest hcanonical hn hd h
  obtain ⟨hmost, hmin, -⟩ := exponentFor_spec hn hd
  obtain ⟨hlt, _, hmax, _⟩ := hcanonical
  rw [ofRatio, if_neg hn.ne']
  rcases hexponent with heq | ⟨rfl, hnext⟩
  · simp only [heq, roundQuotient_of_nearest hm hd h]
    rw [if_neg hlt.ne]
    exact if_neg (not_lt.2 hmax)
  · rw [← hnext] at h hmax ⊢
    simp only [roundQuotient_carry hd h hmin hmost, if_true]
    exact if_neg (not_lt.2 hmax)

end Nearest

end EmulatedDevice.Binary64
