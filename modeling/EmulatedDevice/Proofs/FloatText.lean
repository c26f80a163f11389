import EmulatedDevice.Proofs.JsonScalars
import EmulatedDevice.Proofs.ShortestDecimal

/-!
# The text of a double is read back

A double is written as the digits of its shortest decimal, and where the point goes
depends on their power of ten. However they are laid out, a reader takes the same
decimal from them: zeros are left out at the end, filled in between the digits and
the point, and count for nothing in front. The decimal lies in the interval of the
double, so reading it gives the double again. A sign is put in front of all that and
taken off first, so a zero keeps it, too.
-/

namespace EmulatedDevice

namespace Binary64

/-- At least two digits for a number. -/
def exponentDigits (n : Nat) : List Char :=
  List.replicate (2 - (Nat.toDigits 10 n).length) '0' ++ Nat.toDigits 10 n

/-- The exponent of a double, as it is laid out. -/
def exponentText (power : Int) : List Char :=
  'e' :: (if power < 0 then '-' else '+') :: exponentDigits power.natAbs

theorem isDigit_of_mem_exponentDigits {c : Char} {n : Nat} (h : c ∈ exponentDigits n) :
    c.isDigit = true := by
  rcases List.mem_append.1 h with h | h
  · rw [List.eq_of_mem_replicate h]
    rfl
  · exact Numeral.isDigit_of_mem_toDigits h

theorem ofDigitChars_exponentDigits (n : Nat) : Nat.ofDigitChars 10 (exponentDigits n) 0 = n := by
  rw [exponentDigits, Nat.ofDigitChars_append, Nat.ofDigitChars_replicate_zero, Nat.mul_zero,
    Nat.ofDigitChars_ten_toDigits]

theorem exponentDigits_ne_nil (n : Nat) : exponentDigits n ≠ [] :=
  List.append_ne_nil_of_right_ne_nil _ Nat.toDigits_ne_nil

end Binary64

namespace Json

open Binary64 (Decimal exponentText)

/-! ## Numbers with a fraction or an exponent -/

section Numbers

variable {fraction rest : List Char}

/-- A text that is read as a float: with either sign, as the double of a decimal. -/
structure IsDecimal (text : List Char) (v : ℚ) : Prop where
  head : ∃ c more, text = c :: more ∧ c.isDigit = true
  read : ∀ negative rest, Follows rest → ∃ n p,
    splitMagnitude negative (text ++ rest) = some (.float (.ofDecimal negative n p), rest) ∧
      Decimal.value ⟨n, p⟩ = v
  noReturn : '\r' ∉ text

theorem IsDecimal.isScalar {text : List Char} {v : ℚ} {negative : Bool} {x : Binary64}
    (h : IsDecimal text v)
    (hvalue : ∀ n p, Decimal.value ⟨n, p⟩ = v → .ofDecimal negative n p = x) :
    IsScalar ((if negative then ['-'] else []) ++ text) (.float x) := by
  refine isScalar_of_splitMagnitude h.head h.noReturn fun rest hrest => ?_
  obtain ⟨n, p, hread, hv⟩ := h.read negative rest hrest
  rw [hread, hvalue n p hv]

theorem return_not_mem_digits {digits : List Char} (h : ∀ c ∈ digits, c.isDigit = true) :
    '\r' ∉ digits := by
  intro hmem
  cases h _ hmem

theorem not_isDigit_of_head {c : Char} {more : List Char} (hc : c.isDigit = false) :
    ∀ d, (c :: more).head? = some d → d.isDigit = false := by
  rintro d hd
  cases hd
  exact hc

theorem return_not_mem_exponentText (power : Int) : '\r' ∉ exponentText power := by
  have hsign : '\r' ∉ ['e', if power < 0 then '-' else '+'] := by split <;> decide
  intro h
  rcases List.mem_append.1 (show '\r' ∈ ['e', if power < 0 then '-' else '+'] ++ _ from h)
    with h | h
  · exact hsign h
  · cases Binary64.isDigit_of_mem_exponentDigits h

theorem splitFraction_append (hne : fraction ≠ []) (hdigits : ∀ c ∈ fraction, c.isDigit = true)
    (hrest : ∀ c, rest.head? = some c → c.isDigit = false) :
    splitFraction ('.' :: fraction ++ rest) = some (fraction, rest) := by
  obtain ⟨htake, hdrop⟩ := span_run hdigits hrest
  obtain ⟨c, more, rfl⟩ := List.exists_cons_of_ne_nil hne
  have hc : c.isDigit = true := hdigits c (List.mem_cons_self ..)
  rw [List.cons_append] at htake hdrop
  rw [List.cons_append, List.cons_append, splitFraction, if_pos hc, htake, hdrop]

theorem splitExponent_exponentText (power : Int)
    (hrest : ∀ c, rest.head? = some c → c.isDigit = false) :
    splitExponent (exponentText power ++ rest) = some (power, rest) := by
  obtain ⟨htake, hdrop⟩ := span_run
    (fun _ => Binary64.isDigit_of_mem_exponentDigits (n := power.natAbs)) hrest
  have hvalue := Binary64.ofDigitChars_exponentDigits power.natAbs
  obtain ⟨c, more, hdigits⟩ := List.exists_cons_of_ne_nil
    (Binary64.exponentDigits_ne_nil power.natAbs)
  rw [hdigits, List.cons_append] at htake hdrop
  rw [hdigits] at hvalue
  rw [exponentText, hdigits]
  by_cases hneg : power < 0
  · have hsigned : signed true (c :: more) = power := by
      rw [signed, if_pos rfl, hvalue]
      omega
    rw [if_pos hneg]
    simp [splitExponent, htake, hdrop, hsigned]
  · have hsigned : signed false (c :: more) = power := by
      rw [signed, if_neg Bool.false_ne_true, hvalue]
      omega
    rw [if_neg hneg]
    simp [splitExponent, htake, hdrop, hsigned]

/-- Digits on both sides of a point are a decimal. -/
theorem isDecimal_point (whole fraction : List Char) (hwhole : whole ≠ [])
    (hwholeDigits : ∀ c ∈ whole, c.isDigit = true)
    (hzero : ∀ more, whole = '0' :: more → more = []) (hfraction : fraction ≠ [])
    (hfractionDigits : ∀ c ∈ fraction, c.isDigit = true) :
    IsDecimal (whole ++ '.' :: fraction)
      (Decimal.value ⟨Nat.ofDigitChars 10 (whole ++ fraction) 0, -(fraction.length : Int)⟩) := by
  refine ⟨?_, fun negative rest hrest => ⟨_, _, ?_, rfl⟩, ?_⟩
  · obtain ⟨c, more, rfl⟩ := List.exists_cons_of_ne_nil hwhole
    exact ⟨c, _, rfl, hwholeDigits c (List.mem_cons_self ..)⟩
  · have hpoint : ∀ d, ('.' :: fraction ++ rest).head? = some d → d.isDigit = false :=
      not_isDigit_of_head rfl
    unfold splitMagnitude
    rw [List.append_assoc, splitWhole_append hwhole hwholeDigits hzero hpoint]
    simp only [Option.bind_eq_bind, Option.bind_some, hrest.splitExponent,
      splitFraction_append hfraction hfractionDigits hrest.not_isDigit, Option.getD_none, zero_sub]
    rfl
  · rw [List.mem_append, List.mem_cons, not_or, not_or]
    exact ⟨return_not_mem_digits hwholeDigits, by decide, return_not_mem_digits hfractionDigits⟩

/-- So is a first digit, others behind a point if there are any, and an exponent. -/
theorem isDecimal_exponent {c : Char} {more : List Char} (hzero : c ≠ '0')
    (hdigits : ∀ d ∈ c :: more, d.isDigit = true) (power : Int) :
    IsDecimal (c :: ((if more = [] then [] else '.' :: more) ++ exponentText power))
      (Decimal.value ⟨Nat.ofDigitChars 10 (c :: more) 0, power - more.length⟩) := by
  obtain ⟨hc, hmore⟩ := List.forall_mem_cons.1 hdigits
  refine ⟨⟨c, _, rfl, hc⟩, fun negative rest hrest => ⟨_, _, ?_, rfl⟩, ?_⟩
  · have hexponent := splitExponent_exponentText power hrest.not_isDigit
    have hletter : ∀ d, (exponentText power ++ rest).head? = some d → d.isDigit = false :=
      not_isDigit_of_head rfl
    have hwhole : ∀ tail, (∀ d, tail.head? = some d → d.isDigit = false) →
        splitWhole ([c] ++ tail) = some ([c], tail) := fun tail htail =>
      splitWhole_append (by simp) (by simpa using hc)
        (fun _ h => absurd (List.cons.inj h).1 hzero) htail
    unfold splitMagnitude
    split
    · next hnone =>
      subst hnone
      have hfraction : splitFraction (exponentText power ++ rest) = none := rfl
      rw [List.nil_append, List.cons_append, ← List.singleton_append, hwhole _ hletter]
      simp only [Option.bind_eq_bind, Option.bind_some, hfraction, hexponent, List.length_nil,
        Nat.cast_zero, sub_zero]
      rfl
    · next hsome =>
      have hfraction := splitFraction_append hsome hmore hletter
      have hpoint : ∀ d, ('.' :: more ++ (exponentText power ++ rest)).head? = some d →
          d.isDigit = false :=
        not_isDigit_of_head rfl
      rw [List.cons_append, List.append_assoc, ← List.singleton_append, hwhole _ hpoint]
      simp only [Option.bind_eq_bind, Option.bind_some, hfraction, hexponent, Option.getD_some]
      rfl
  · rw [List.mem_cons, List.mem_append, not_or, not_or]
    refine ⟨fun h => ?_, ?_, return_not_mem_exponentText power⟩
    · rw [← h] at hc
      cases hc
    · split
      · nofun
      · exact List.not_mem_cons_of_ne_of_not_mem (by decide) (return_not_mem_digits hmore)

end Numbers

end Json

namespace Binary64

/-! ## The layout of digits -/

section Layout

variable {digits : List Char}

/-- Only zeros are left out at the end. -/
theorem trimZeros_spec {c : Char} {more : List Char} (h : digits = c :: more) (hc : c ≠ '0') :
    ∃ kept count, trimZeros digits = c :: kept ∧
      digits = c :: kept ++ List.replicate count '0' := by
  have hsplit : digits = (digits.reverse.dropWhile (· = '0')).reverse ++
      (digits.reverse.takeWhile (· = '0')).reverse := by
    rw [← List.reverse_append, List.takeWhile_append_dropWhile, List.reverse_reverse]
  have hzeros : (digits.reverse.takeWhile (· = '0')).reverse =
      List.replicate (digits.reverse.takeWhile (· = '0')).length '0' := by
    refine List.eq_replicate_iff.2 ⟨List.length_reverse, fun d hd => ?_⟩
    simpa using List.all_eq_true.1 List.all_takeWhile d (List.mem_reverse.1 hd)
  unfold trimZeros
  rw [hzeros] at hsplit
  generalize (digits.reverse.dropWhile (· = '0')).reverse = kept at hsplit ⊢
  cases kept with
  | nil =>
      have hmem : c ∈ List.replicate (digits.reverse.takeWhile (· = '0')).length '0' := by
        rw [List.nil_append, h] at hsplit
        rw [h, ← hsplit]
        exact List.mem_cons_self ..
      exact absurd (List.eq_of_mem_replicate hmem) hc
  | cons d kept =>
      obtain rfl : c = d := by
        rw [h] at hsplit
        exact (List.cons.inj hsplit).1
      exact ⟨kept, _, rfl, hsplit⟩

/-- Zeros in front of digits count for nothing. -/
theorem ofDigitChars_zeros (count : Nat) (digits : List Char) :
    Nat.ofDigitChars 10 (List.replicate count '0' ++ digits) 0 = Nat.ofDigitChars 10 digits 0 := by
  rw [Nat.ofDigitChars_append, Nat.ofDigitChars_replicate_zero, Nat.mul_zero]

/-- Zeros behind digits count as powers of ten. -/
theorem value_append_zeros (count : Nat) (power : Int) :
    Decimal.value ⟨Nat.ofDigitChars 10 (digits ++ List.replicate count '0') 0, power⟩ =
      Decimal.value ⟨Nat.ofDigitChars 10 digits 0, power + count⟩ := by
  simp only [Decimal.value, Nat.ofDigitChars_append, Nat.ofDigitChars_replicate_zero]
  rw [zpow_add₀ (by decide), zpow_natCast]
  push_cast
  ring

theorem isDigit_of_mem_zeros {count : Nat} : ∀ d ∈ List.replicate count '0', d.isDigit = true := by
  intro d hd
  rw [List.eq_of_mem_replicate hd]
  rfl

/-- `0.` and zeros before the digits. -/
theorem isDecimal_below {c : Char} {more : List Char} (hdigits : ∀ d ∈ c :: more, d.isDigit = true)
    (count : Nat) :
    Json.IsDecimal ('0' :: '.' :: (List.replicate count '0' ++ c :: more))
      (Decimal.value ⟨Nat.ofDigitChars 10 (c :: more) 0, -(count + 1 : Int) - more.length⟩) := by
  have htext := Json.isDecimal_point ['0'] (List.replicate count '0' ++ c :: more) (by simp)
    (by simp) (by simp) (by simp) (List.forall_mem_append.2 ⟨isDigit_of_mem_zeros, hdigits⟩)
  have hvalue : Nat.ofDigitChars 10 (['0'] ++ (List.replicate count '0' ++ c :: more)) 0 =
      Nat.ofDigitChars 10 (c :: more) 0 :=
    ofDigitChars_zeros (count + 1) (c :: more)
  rw [hvalue] at htext
  convert htext using 3
  · rfl
  · rw [List.length_append, List.length_replicate, List.length_cons]
    omega

/-- Zeros behind the digits up to the point, and one behind it. -/
theorem isDecimal_above {c : Char} {more : List Char} (hzero : c ≠ '0')
    (hdigits : ∀ d ∈ c :: more, d.isDigit = true) (count : Nat) :
    Json.IsDecimal (c :: more ++ List.replicate count '0' ++ ['.', '0'])
      (Decimal.value ⟨Nat.ofDigitChars 10 (c :: more) 0, count⟩) := by
  have htext := Json.isDecimal_point (c :: more ++ List.replicate count '0') ['0'] (by simp)
    (List.forall_mem_append.2 ⟨hdigits, isDigit_of_mem_zeros⟩)
    (fun _ h => absurd (List.cons.inj h).1 hzero) (by simp) (by simp)
  rw [List.append_assoc _ _ ['0'], ← List.replicate_succ', value_append_zeros] at htext
  convert htext using 3
  simp

/-- The point between the digits. -/
theorem isDecimal_between {c : Char} {more : List Char} (hzero : c ≠ '0')
    (hdigits : ∀ d ∈ c :: more, d.isDigit = true) {p : Nat} (hp : p < more.length) :
    Json.IsDecimal (c :: more.take p ++ '.' :: more.drop p)
      (Decimal.value ⟨Nat.ofDigitChars 10 (c :: more) 0, p - more.length⟩) := by
  have hparts : c :: more.take p ++ more.drop p = c :: more := by
    rw [List.cons_append, List.take_append_drop]
  have hlong : more.drop p ≠ [] := by
    rw [Ne, List.drop_eq_nil_iff]
    omega
  have hdigits' := List.forall_mem_append.1 (hparts ▸ hdigits)
  have htext := Json.isDecimal_point _ _ (by simp) hdigits'.1
    (fun _ h => absurd (List.cons.inj h).1 hzero) hlong hdigits'.2
  rw [hparts] at htext
  convert htext using 3
  simp
  omega

/-- However digits are laid out, a reader takes the decimal from them. -/
theorem isDecimal_layOut {c : Char} {more : List Char} (hzero : c ≠ '0')
    (hdigits : ∀ d ∈ c :: more, d.isDigit = true) (power : Int) :
    Json.IsDecimal (layOut (c :: more) power).toList
      (Decimal.value ⟨Nat.ofDigitChars 10 (c :: more) 0, power - more.length⟩) := by
  unfold layOut
  rw [String.toList_ofList]
  split
  · have htext := Json.isDecimal_exponent hzero hdigits power
    convert htext using 1
    cases more <;> simp [exponentText, exponentDigits]
  split
  · next hneg =>
    obtain ⟨count, rfl⟩ : ∃ count : Nat, power = -(count + 1 : Int) :=
      ⟨power.natAbs - 1, by omega⟩
    have htext := isDecimal_below hdigits count
    convert htext using 1
    simp
    omega
  · next hneg =>
    obtain ⟨p, rfl⟩ : ∃ p : Nat, power = p := ⟨power.toNat, by omega⟩
    simp only [Int.toNat_natCast, List.take_succ_cons, List.drop_succ_cons, List.length_cons,
      Nat.add_sub_add_right]
    split
    · next hshort =>
      obtain ⟨count, rfl⟩ := Nat.exists_eq_add_of_le (List.drop_eq_nil_iff.1 hshort)
      have htext := isDecimal_above hzero hdigits count
      convert htext using 1
      · simp [List.take_of_length_le]
      · congr 2
        omega
    · next hlong =>
      have hlt : p < more.length := by
        rw [List.drop_eq_nil_iff] at hlong
        omega
      have htext := isDecimal_between hzero hdigits hlt
      convert htext using 1
      simp
      omega

end Layout

/-! ## Reading the double again -/

variable {m : Nat} {e : Int}

theorem two_pow_lt_ten_pow : 2 ^ 1024 < 10 ^ 309 ∧ 2 ^ 1075 < 10 ^ 324 := by
  decide +kernel

/-- The powers of ten between which the interval of a double lies. -/
theorem range_of_nearest {negative : Bool} {v : ℚ}
    (hcanonical : (finite negative m e).IsCanonical) (hm : 0 < m) (h : Nearest m e v) :
    (10 : ℚ) ^ (-324 : Int) < v ∧ v < 10 ^ (309 : Int) := by
  obtain ⟨hlt, hmin, hmax, -⟩ := hcanonical
  simp only [minExponent, maxExponent] at hmin hmax
  constructor
  · have hpos : (0 : ℚ) < (2 ^ 1075 : Nat) := by
      rw [Nat.cast_pow]
      exact pow_pos two_pos _
    calc (10 : ℚ) ^ (-324 : Int) = ((10 ^ 324 : Nat) : ℚ)⁻¹ := by rw [Nat.cast_pow]; rfl
      _ < ((2 ^ 1075 : Nat) : ℚ)⁻¹ := inv_strictAnti₀ hpos (Nat.cast_lt.2 two_pow_lt_ten_pow.2)
      _ = 2 ^ (-1075 : Int) := by rw [Nat.cast_pow]; rfl
      _ ≤ 2 ^ (e - 1) := zpow_le_zpow_right₀ one_le_two (by omega)
      _ ≤ v := h.half_le hm
  · calc v < 2 ^ (e + 53) := h.lt hlt
      _ ≤ 2 ^ (1024 : Int) := zpow_le_zpow_right₀ one_le_two (by omega)
      _ = ((2 ^ 1024 : Nat) : ℚ) := by rw [Nat.cast_pow]; rfl
      _ < ((10 ^ 309 : Nat) : ℚ) := Nat.cast_lt.2 two_pow_lt_ten_pow.1
      _ = 10 ^ (309 : Int) := by rw [Nat.cast_pow]; rfl

/-- A decimal in the interval of a double is read as it, and not put beyond the range. -/
theorem ofDecimal_of_nearest {negative : Bool} {digits : Nat} {power : Int}
    (hcanonical : (finite negative m e).IsCanonical) (hm : 0 < m)
    (h : Nearest m e (Decimal.value ⟨digits, power⟩)) :
    ofDecimal negative digits power = finite negative m e := by
  have hten : (1 : ℚ) < 10 := by norm_num
  have hpower : (0 : ℚ) < 10 ^ power := zpow_pos (by norm_num) power
  obtain ⟨hlow, hhigh⟩ := range_of_nearest hcanonical hm h
  have hdigits : 0 < digits := by
    by_contra hzero
    rw [Decimal.value, Nat.eq_zero_of_not_pos hzero, Nat.cast_zero, zero_mul] at hlow
    exact absurd hlow (not_lt.2 (zpow_pos (by norm_num) _).le)
  obtain ⟨k, hk, hleast, hmost⟩ := pow_le_of_decimalLength hdigits
  have hbelow : k + power < 309 := by
    refine (zpow_lt_zpow_iff_right₀ hten).1 (lt_of_le_of_lt ?_ hhigh)
    rw [zpow_add₀ (by decide), zpow_natCast]
    exact mul_le_mul_of_nonneg_right (by exact_mod_cast hleast) hpower.le
  have habove : -324 < (k + 1 : Nat) + power := by
    refine (zpow_lt_zpow_iff_right₀ hten).1 (hlow.trans ?_)
    rw [zpow_add₀ (by decide), zpow_natCast]
    exact mul_lt_mul_of_pos_right (by exact_mod_cast hmost) hpower
  unfold ofDecimal
  rw [if_neg hdigits.ne', if_neg (by omega), if_neg (by omega)]
  have hquotient : ((scale 10 digits 1 power).1 : ℚ) / (scale 10 digits 1 power).2 =
      Decimal.value ⟨digits, power⟩ := by
    rw [scale_div (by decide), Nat.cast_one, div_one]
    rfl
  exact ofRatio_of_nearest hcanonical hm (scale_fst_pos (by decide) hdigits power)
    (scale_pos (by decide) one_pos power) (hquotient ▸ h)

/-- The digits of the shortest decimal, laid out, are read as that decimal. -/
theorem isDecimal_shortest (hm : 0 < m) (hlt : m < 2 * leastMantissa) :
    Json.IsDecimal (layOut (trimZeros (Nat.toDigits 10 (shortest m e).digits))
      ((shortest m e).power + (Nat.toDigits 10 (shortest m e).digits).length - 1)).toList
      (shortest m e).value := by
  have hpos := shortest_digits_pos (e := e) hm hlt
  generalize shortest m e = decimal at hpos ⊢
  obtain ⟨c, more, hdigits⟩ := List.exists_cons_of_ne_nil
    (Nat.toDigits_ne_nil (n := decimal.digits) (b := 10))
  have hc : c ≠ '0' := by
    rintro rfl
    exact hpos.ne' (Numeral.eq_zero_of_toDigits hdigits).1
  obtain ⟨kept, count, htrim, hsplit⟩ := trimZeros_spec hdigits hc
  have hall : ∀ d ∈ c :: kept, d.isDigit = true := fun d hd =>
    Numeral.isDigit_of_mem_toDigits (hsplit ▸ List.mem_append_left _ hd)
  have hvalue : Decimal.value ⟨Nat.ofDigitChars 10 (c :: kept) 0, decimal.power + count⟩ =
      decimal.value := by
    rw [← value_append_zeros, ← hsplit, Nat.ofDigitChars_ten_toDigits]
  have hpower : decimal.power + (Nat.toDigits 10 decimal.digits).length - 1 - kept.length =
      decimal.power + count := by
    rw [hsplit, List.length_append, List.length_cons, List.length_replicate]
    omega
  rw [htrim, ← hvalue, ← hpower]
  exact isDecimal_layOut hc hall _

/-- A double is read from its text. -/
theorem isScalar_renderFloat {x : Binary64} (h : x.IsCanonical) :
    Json.IsScalar (Json.renderFloat x) (.float x) := by
  cases x with
  | nan => exact Json.isScalar_word (by simp [Json.words])
  | infinity negative => cases negative <;> exact Json.isScalar_word (by simp [Json.words])
  | finite negative m e =>
      have hsign : Json.renderFloat (finite negative m e) = (if negative then ['-'] else []) ++
          (if m = 0 then "0.0" else
            layOut (trimZeros (Nat.toDigits 10 (shortest m e).digits))
              ((shortest m e).power + (Nat.toDigits 10 (shortest m e).digits).length - 1)).toList
            := by
        cases negative <;> by_cases hm : m = 0 <;> simp [Json.renderFloat, toText, hm]
      rw [hsign]
      by_cases hm : m = 0
      · subst hm
        obtain rfl : e = minExponent := h.2.2.2.resolve_left (by decide)
        have htext := Json.isDecimal_point ['0'] ['0'] (by simp) (by simp)
          (by simp) (by simp) (by simp)
        refine htext.isScalar fun n p hvalue => ?_
        have hzero : n = 0 := by
          simpa [Decimal.value, Nat.ofDigitChars_cons, zpow_ne_zero] using hvalue
        rw [hzero, ofDecimal, if_pos rfl, zero]
      · have hpos : 0 < m := Nat.pos_of_ne_zero hm
        rw [if_neg hm]
        refine (isDecimal_shortest hpos h.1).isScalar fun n p hvalue => ?_
        exact ofDecimal_of_nearest h hpos (hvalue ▸ nearest_shortest hpos h.1)

end Binary64

end EmulatedDevice
