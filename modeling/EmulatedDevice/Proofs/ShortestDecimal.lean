import EmulatedDevice.Proofs.NearestDoubles

/-!
# The shortest decimal rounds to its double

A decimal is taken for a double only after it has been found in the interval of the
double, so whatever the search comes to is right. What has to be shown is that the
search comes to something. With seventeen digits the decimal grid is finer than the
interval is wide, since a double has less than 10^16 mantissas, and then one of the
two neighbours of the double on the grid lies in the interval.
-/

namespace EmulatedDevice.Binary64

variable {m n d : Nat} {e : Int}

/-! ## The leading digit -/

theorem pow_le_of_decimalLength (hn : 0 < n) :
    ∃ k, decimalLength n = k + 1 ∧ 10 ^ k ≤ n ∧ n < 10 ^ (k + 1) := by
  obtain ⟨k, hk⟩ : ∃ k, decimalLength n = k + 1 :=
    Nat.exists_eq_succ_of_ne_zero Nat.length_toDigits_pos.ne'
  refine ⟨k, hk, ?_, ?_⟩
  · by_contra hlt
    rcases Nat.eq_zero_or_pos k with rfl | hpos
    · omega
    · have hle := (Nat.length_toDigits_le_iff (by decide) hpos).2 (Nat.lt_of_not_le hlt)
      rw [← decimalLength] at hle
      omega
  · exact (Nat.length_toDigits_le_iff (by decide) k.succ_pos).1 hk.le

theorem zpow_leadingPower_le (hn : 0 < n) (hd : 0 < d) :
    (10 : ℚ) ^ leadingPower n d ≤ n / d := by
  unfold leadingPower
  split
  · next hle =>
    obtain ⟨k, hk, hpow, -⟩ := pow_le_of_decimalLength (Nat.div_pos hle hd)
    rw [hk, Nat.cast_succ, add_sub_cancel_right, zpow_natCast, le_div_iff₀ (Nat.cast_pos.2 hd)]
    exact_mod_cast (Nat.le_div_iff_mul_le hd).1 hpow
  · next hlt =>
    obtain ⟨a, ha, hna⟩ := pow_le_of_decimalLength hn
    obtain ⟨b, hb, hdb⟩ := pow_le_of_decimalLength hd
    obtain ⟨hpow, -⟩ := pow_lt_div_lt_pow 10 (by decide) hna hdb
    have hab : a ≤ b := by
      by_contra hba
      have hle : 10 ^ (b + 1) ≤ 10 ^ a := Nat.pow_le_pow_right (by decide) (by omega)
      omega
    simp only
    split
    · next hfirst =>
      rw [zpow_neg, zpow_natCast, inv_le_comm₀ (by positivity) (by positivity), inv_div,
        div_le_iff₀ (Nat.cast_pos.2 hn), mul_comm]
      exact_mod_cast hfirst
    · rw [show -((decimalLength d - decimalLength n : Nat) : Int) - 1 = a - b - 1 by omega]
      exact hpow.le

/-! ## Decimals in the interval -/

/-- The number that a decimal is. -/
def Decimal.value (decimal : Decimal) : ℚ :=
  decimal.digits * 10 ^ decimal.power

theorem roundsTo_iff {k : Nat} {p : Int} :
    roundsTo m e k p = true ↔ Nearest m e (Decimal.value ⟨k, p⟩) := by
  have hunit := ratio_div 1 (e - 2)
  have hvalue : ((scale 10 k 1 p).1 : ℚ) / (scale 10 k 1 p).2 = Decimal.value ⟨k, p⟩ := by
    rw [scale_div (by decide), Nat.cast_one, div_one]
    rfl
  have hud : 0 < (ratio 1 (e - 2)).2 := scale_pos two_pos one_pos _
  have hkd : 0 < (scale 10 k 1 p).2 := scale_pos (by decide) one_pos p
  rw [Nat.cast_one, one_mul] at hunit
  rw [Nearest, ← hunit, ← hvalue]
  unfold roundsTo
  simp only
  generalize (interval m e).1 = low
  generalize (interval m e).2 = high
  generalize (ratio 1 (e - 2)).1 = un, (ratio 1 (e - 2)).2 = ud at hud ⊢
  generalize (scale 10 k 1 p).1 = kn, (scale 10 k 1 p).2 = kd at hkd ⊢
  have hud' : (0 : ℚ) < ud := Nat.cast_pos.2 hud
  have hkd' : (0 : ℚ) < kd := Nat.cast_pos.2 hkd
  rw [← mul_div_assoc, ← mul_div_assoc, div_le_div_iff₀ hud' hkd', div_le_div_iff₀ hkd' hud',
    div_lt_div_iff₀ hud' hkd', div_lt_div_iff₀ hkd' hud']
  norm_cast
  split
  · next heven => simp [heven]
  · next hodd =>
    simp only [Bool.and_eq_true, decide_eq_true_eq]
    constructor
    · rintro ⟨hlow, hhigh⟩
      exact ⟨⟨hlow.le, hhigh.le⟩, fun _ => ⟨hlow, hhigh⟩⟩
    · rintro ⟨-, hstrict⟩
      exact hstrict (by omega)

/-- What is found on a grid lies in the interval. -/
theorem nearest_of_onGrid? {width : Nat} {decimal : Decimal}
    (h : onGrid? m e width = some decimal) : Nearest m e decimal.value := by
  unfold onGrid? at h
  simp only at h
  split at h
  · next hboth =>
    rw [Bool.and_eq_true, roundsTo_iff, roundsTo_iff] at hboth
    obtain rfl := Option.some.inj h
    unfold roundQuotient
    simp only
    split
    · exact hboth.2
    · exact hboth.1
  split at h
  · next hbelow =>
    obtain rfl := Option.some.inj h
    exact roundsTo_iff.1 hbelow
  split at h
  · next habove =>
    obtain rfl := Option.some.inj h
    exact roundsTo_iff.1 habove
  · cases h

/-- The interval is wider than what seventeen digits can leave out. -/
theorem interval_wide (hm : m < 2 * leastMantissa) :
    (interval m e).1 * 10 ^ 16 + 4 * m < (interval m e).2 * 10 ^ 16 := by
  have hleast : leastMantissa = 2 ^ 52 := rfl
  simp only [interval]
  split <;> omega

/-- Of two neighbours on a grid of seventeen digits, one lies in the interval. -/
theorem nearest_of_neighbours {k : Nat} {p : Int} (hm : 0 < m) (hlt : m < 2 * leastMantissa)
    (hbelow : Decimal.value ⟨k, p⟩ ≤ m * 2 ^ e) (habove : m * 2 ^ e < Decimal.value ⟨k + 1, p⟩)
    (hfine : (10 : ℚ) ^ p * 10 ^ 16 ≤ m * 2 ^ e) :
    Nearest m e (Decimal.value ⟨k, p⟩) ∨ Nearest m e (Decimal.value ⟨k + 1, p⟩) := by
  have hstep : Decimal.value ⟨k + 1, p⟩ = Decimal.value ⟨k, p⟩ + 10 ^ p := by
    simp only [Decimal.value]
    push_cast
    ring
  obtain ⟨-, hlow, hhigh⟩ := interval_bounds (m := m) (e := e) hm
  have hwide := interval_wide (m := m) (e := e) hlt
  have hunit : (2 : ℚ) ^ e = 4 * 2 ^ (e - 2) := by
    rw [zpow_sub₀ two_ne_zero]
    ring
  have hu := two_zpow_pos (e - 2)
  unfold Nearest
  generalize (interval m e).1 = low at hlow hwide ⊢
  generalize (interval m e).2 = high at hhigh hwide ⊢
  rw [hunit] at hbelow habove hfine
  generalize (2 : ℚ) ^ (e - 2) = u at hbelow habove hfine hu ⊢
  have hlow : (low : ℚ) * u < m * (4 * u) := by
    have hcast : (low : ℚ) < 4 * m := by exact_mod_cast hlow
    nlinarith
  have hhigh : m * (4 * u) < (high : ℚ) * u := by
    have hcast : (high : ℚ) = 4 * m + 2 := by exact_mod_cast hhigh
    nlinarith
  have hwide : (low : ℚ) * u * 10 ^ 16 + m * (4 * u) < high * u * 10 ^ 16 := by
    have hcast : (low : ℚ) * 10 ^ 16 + 4 * m < high * 10 ^ 16 := by exact_mod_cast hwide
    nlinarith
  -- otherwise the step of the grid would be wider than the interval
  by_cases hfits : (low : ℚ) * u < Decimal.value ⟨k, p⟩
  · have hin := And.intro hfits (hbelow.trans_lt hhigh)
    exact .inl ⟨⟨hin.1.le, hin.2.le⟩, fun _ => hin⟩
  · have hin := And.intro (hlow.trans habove)
      (show Decimal.value ⟨k + 1, p⟩ < high * u by linarith)
    exact .inr ⟨⟨hin.1.le, hin.2.le⟩, fun _ => hin⟩

/-- The two neighbours of a quotient on a decimal grid. -/
theorem grid_bounds (hd : 0 < d) (p : Int) :
    Decimal.value ⟨(scale 10 n d (-p)).1 / (scale 10 n d (-p)).2, p⟩ ≤ (n : ℚ) / d ∧
      (n : ℚ) / d < Decimal.value ⟨(scale 10 n d (-p)).1 / (scale 10 n d (-p)).2 + 1, p⟩ := by
  have hpow : (0 : ℚ) < 10 ^ p := zpow_pos (by decide) p
  have hdpos : 0 < (scale 10 n d (-p)).2 := scale_pos (by decide) hd _
  have hscaled : (n : ℚ) / d =
      ((scale 10 n d (-p)).1 : ℚ) / (scale 10 n d (-p)).2 * 10 ^ p := by
    rw [scale_div (by decide), Nat.cast_ofNat, mul_assoc, ← zpow_add₀ (by decide),
      neg_add_cancel, zpow_zero, mul_one]
  rw [hscaled]
  exact ⟨mul_le_mul_of_nonneg_right Nat.cast_div_le hpow.le,
    mul_lt_mul_of_pos_right ((div_lt_iff hdpos).1 (Nat.lt_succ_self _)) hpow⟩

/-- Seventeen digits always do. -/
theorem exists_onGrid?_seventeen (hm : 0 < m) (hlt : m < 2 * leastMantissa) :
    ∃ decimal, onGrid? m e 17 = some decimal := by
  have hvalue := ratio_div m e
  have hd : 0 < (ratio m e).2 := scale_pos two_pos one_pos e
  have hn : 0 < (ratio m e).1 := scale_fst_pos two_pos hm e
  have hleading := zpow_leadingPower_le hn hd
  unfold onGrid?
  simp only
  generalize hp : leadingPower (ratio m e).1 (ratio m e).2 + 1 - ((17 : Nat) : Int) = p
  obtain ⟨hbelow, habove⟩ := grid_bounds (n := (ratio m e).1) hd p
  have hfine : (10 : ℚ) ^ p * 10 ^ 16 ≤ m * 2 ^ e := by
    rw [← zpow_natCast, ← zpow_add₀ (by decide), ← hp, ← hvalue]
    convert hleading using 2
    omega
  rw [hvalue] at hbelow habove
  have hfits := nearest_of_neighbours hm hlt hbelow habove hfine
  rw [← roundsTo_iff, ← roundsTo_iff] at hfits
  split
  · exact ⟨_, rfl⟩
  split
  · exact ⟨_, rfl⟩
  split
  · exact ⟨_, rfl⟩
  · next hbelow habove => exact absurd hfits (not_or.2 ⟨hbelow, habove⟩)

theorem nearest_shortestFrom (hm : 0 < m) (hlt : m < 2 * leastMantissa) {widths : List Nat}
    (h : 17 ∈ widths) : Nearest m e (shortestFrom m e widths).value := by
  induction widths with
  | nil => cases h
  | cons width widths ih =>
      rw [shortestFrom]
      cases hgrid : onGrid? m e width with
      | some decimal => exact nearest_of_onGrid? hgrid
      | none =>
          rcases List.mem_cons.1 h with rfl | h
          · obtain ⟨decimal, hfound⟩ := exists_onGrid?_seventeen (e := e) hm hlt
            rw [hfound] at hgrid
            cases hgrid
          · exact ih h

/-- The shortest decimal of a double rounds to it. -/
theorem nearest_shortest (hm : 0 < m) (hlt : m < 2 * leastMantissa) :
    Nearest m e (shortest m e).value :=
  nearest_shortestFrom hm hlt (by decide)

/-- It has a digit that is not zero. -/
theorem shortest_digits_pos (hm : 0 < m) (hlt : m < 2 * leastMantissa) :
    0 < (shortest m e).digits := by
  have hpos := (two_zpow_pos (e - 1)).trans_le ((nearest_shortest (e := e) hm hlt).half_le hm)
  by_contra hzero
  rw [Decimal.value, Nat.eq_zero_of_not_pos hzero, Nat.cast_zero, zero_mul] at hpos
  exact lt_irrefl 0 hpos

end EmulatedDevice.Binary64
