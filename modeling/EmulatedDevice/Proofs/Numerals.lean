import Mathlib.Data.List.Basic

/-!
# The texts of whole numbers

A whole number is written as its decimal digits, with a hyphen before them when it
is negative. Digits are only digits, so a numeral ends where anything else begins,
and the first of several is no zero, so a numeral does not break off after a zero
either. The digits tell the magnitude and the hyphen the sign: a numeral belongs to
one number.
-/

namespace EmulatedDevice

theorem ne_of_isDigit {c d : Char} (h : c.isDigit = true) (hd : d.isDigit = false) : c ≠ d := by
  rintro rfl
  rw [h] at hd
  cases hd

/-- A run of characters up to one that does not belong to it. -/
theorem span_run {p : Char → Bool} {run rest : List Char} (hrun : ∀ c ∈ run, p c = true)
    (hrest : ∀ c, rest.head? = some c → p c = false) :
    (run ++ rest).takeWhile p = run ∧ (run ++ rest).dropWhile p = rest := by
  rw [List.takeWhile_append_of_pos hrun, List.dropWhile_append_of_pos hrun]
  cases rest with
  | nil => simp
  | cons c rest => simp [hrest c rfl]

namespace Numeral

theorem isDigit_of_mem_toDigits {c : Char} {n : Nat} (h : c ∈ Nat.toDigits 10 n) :
    c.isDigit = true :=
  Nat.isDigit_of_mem_toDigits (by omega) (by omega) h

theorem not_mem_toDigits {c : Char} (hc : c.isDigit = false) (n : Nat) :
    c ∉ Nat.toDigits 10 n := by
  intro h
  rw [isDigit_of_mem_toDigits h] at hc
  cases hc

/-- A numeral that starts with a zero is that zero. -/
theorem eq_zero_of_toDigits {n : Nat} {rest : List Char}
    (h : Nat.toDigits 10 n = '0' :: rest) : n = 0 ∧ rest = [] := by
  induction n using Nat.strongRecOn generalizing rest with
  | ind n ih =>
      by_cases hsmall : n < 10
      · rw [Nat.toDigits_of_lt_base hsmall] at h
        obtain ⟨hzero, rfl⟩ := List.cons.inj h
        exact ⟨Nat.digitChar_eq_zero.1 hzero, rfl⟩
      · have hlarge : 10 ≤ n := by omega
        rw [Nat.toDigits_of_base_le (by omega) hlarge] at h
        -- the digits before the last one start with the same zero
        obtain ⟨c, more, hdigits⟩ := List.exists_cons_of_ne_nil
          (Nat.toDigits_ne_nil (n := n / 10) (b := 10))
        rw [hdigits, List.cons_append] at h
        obtain ⟨rfl, _⟩ := List.cons.inj h
        have hzero := (ih (n / 10) (by omega) hdigits).1
        omega

/-- How an integer is written. -/
theorem toList_toString (n : Int) :
    (toString n).toList =
      (if n < 0 then ['-'] else []) ++ Nat.toDigits 10 n.natAbs := by
  rw [Int.toString_eq_repr, Int.repr_eq_if]
  by_cases h : n < 0
  · have hnot : ¬ 0 ≤ n := by omega
    have habs : (-n).toNat = n.natAbs := by omega
    rw [if_pos h, if_neg hnot, habs, String.toList_append, Nat.toList_repr]
    rfl
  · have habs : n.toNat = n.natAbs := by omega
    rw [if_neg h, if_pos (by omega), habs, Nat.toList_repr, List.nil_append]

theorem not_mem_toString {c : Char} (hc : c.isDigit = false) (hhyphen : c ≠ '-') (n : Int) :
    c ∉ (toString n).toList := by
  rw [toList_toString, List.mem_append, not_or]
  refine ⟨fun h => ?_, not_mem_toDigits hc _⟩
  split at h
  · exact hhyphen (List.mem_singleton.1 h)
  · cases h

theorem toDigits_injective {n m : Nat} (h : Nat.toDigits 10 n = Nat.toDigits 10 m) : n = m := by
  rw [← Nat.ofDigitChars_ten_toDigits (n := n), h, Nat.ofDigitChars_ten_toDigits]

theorem hyphen_mem_toString_iff {n : Int} : '-' ∈ (toString n).toList ↔ n < 0 := by
  rw [toList_toString, List.mem_append]
  constructor
  · rintro (h | h)
    · split at h
      · next hneg => exact hneg
      · cases h
    · exact absurd h (not_mem_toDigits rfl _)
  · intro hneg
    rw [if_pos hneg]
    exact .inl (List.mem_singleton.2 rfl)

theorem toString_ne_empty (n : Int) : toString n ≠ "" := by
  intro hempty
  have htext := toList_toString n
  rw [hempty] at htext
  exact Nat.toDigits_ne_nil (List.append_eq_nil_iff.1 htext.symm).2

/-- A numeral belongs to one integer. -/
theorem toString_inj {n m : Int} : toString n = toString m ↔ n = m := by
  refine ⟨fun h => ?_, congrArg toString⟩
  have hsign : n < 0 ↔ m < 0 := by
    rw [← hyphen_mem_toString_iff, h, hyphen_mem_toString_iff]
  have htext := congrArg String.toList h
  rw [toList_toString, toList_toString] at htext
  simp only [hsign] at htext
  have habs := toDigits_injective (List.append_cancel_left htext)
  omega

end Numeral

end EmulatedDevice
