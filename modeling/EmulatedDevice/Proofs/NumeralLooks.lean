import EmulatedDevice.Proofs.DeviceDocuments
import EmulatedDevice.Proofs.JsonSpelling
import EmulatedDevice.Yaml.Tag

/-!
# What the numerals of JSON look like in YAML

What a plain scalar of YAML stands for is told by its looks. A numeral with a point looks
like a double, unless it has an exponent without a sign. One with neither point nor
exponent looks like a whole number. What is left, an exponent without a point in front,
looks like text. So an exponent is shared only with a point and with a sign.
-/

namespace EmulatedDevice

open Json (Numeral Exponent IsDigits)

theorem Yaml.Tag.dropSign_digit {c : Char} (h : c.isDigit = true) (more : List Char) :
    Yaml.Tag.dropSign (c :: more) = c :: more := by
  unfold Yaml.Tag.dropSign
  split
  · next heq => cases heq; cases h
  · next heq => cases heq; cases h
  · rfl

/-- An exponent may stand only behind a point, and with a sign. -/
def Json.Numeral.IsShared (n : Numeral) : Prop :=
  ∀ e ∈ n.exponent, n.fraction.isSome = true ∧ e.sign ≠ []

namespace Json.Numeral

variable {n : Numeral} {c : Char}

theorem WellFormed.exists_head (h : n.WellFormed) :
    ∃ w more, n.magnitudeText = w :: more ∧ w.isDigit = true := by
  obtain ⟨hne, hdigits⟩ := h.whole
  obtain ⟨w, ws, hw⟩ := List.exists_cons_of_ne_nil hne
  refine ⟨w, _, by rw [Numeral.magnitudeText, hw]; rfl, hdigits w ?_⟩
  rw [hw]
  exact List.mem_cons_self

/-- A character that is no digit, point, sign or letter of an exponent is not in a numeral. -/
theorem WellFormed.not_mem_text (h : n.WellFormed) (hdigit : c.isDigit = false)
    (hother : c ∉ ['.', '-', '+', 'e', 'E']) : c ∉ n.text := by
  intro hc
  rcases h.mem_text hc with hd | hmem
  · rw [hdigit] at hd
    cases hd
  · exact hother hmem

theorem WellFormed.head_text (h : n.WellFormed) {first : Char} {rest : List Char}
    (htext : n.text = first :: rest) : first = '-' ∨ first.isDigit = true := by
  obtain ⟨w, more, hhead, hw⟩ := h.exists_head
  rw [Numeral.text, hhead] at htext
  cases hn : n.negative <;> rw [hn] at htext <;> cases htext
  · exact .inr hw
  · exact .inl rfl

theorem dropSign_text (h : n.WellFormed) : Yaml.Tag.dropSign n.text = n.magnitudeText := by
  obtain ⟨w, more, hhead, hw⟩ := h.exists_head
  rw [Numeral.text, hhead]
  cases n.negative with
  | true => rfl
  | false => exact Yaml.Tag.dropSign_digit hw more

end Json.Numeral

namespace Yaml.Tag

variable {n : Numeral} {e : Exponent} {fraction : List Char}

theorem isGrouped_digits {digits : List Char} (h : IsDigits digits) : isGrouped digits = true := by
  obtain ⟨hne, hdigits⟩ := h
  obtain ⟨c, more, rfl⟩ := List.exists_cons_of_ne_nil hne
  have hmore : ∀ d ∈ more, d.isDigit = true := fun d hd => hdigits d (List.mem_cons_of_mem c hd)
  simp only [isGrouped, hdigits c List.mem_cons_self, Bool.true_and, List.all_eq_true]
  intro d hd
  simp [isDigitOrLine, hmore d hd]

theorem isExponent_text (h : e.WellFormed) (hsign : e.sign ≠ []) : isExponent e.text = true := by
  obtain ⟨hne, hdigits⟩ := h.digits
  obtain ⟨c, more, hc⟩ := List.exists_cons_of_ne_nil hne
  rw [hc] at hdigits
  rw [Exponent.text, hc]
  rcases h.sign with hnone | hplus | hminus
  · exact absurd hnone hsign
  · rcases h.letter with hletter | hletter <;> simp [hplus, hletter, isExponent] <;>
      simpa using hdigits
  · rcases h.letter with hletter | hletter <;> simp [hminus, hletter, isExponent] <;>
      simpa using hdigits

/-- None of the spellings of a truth value begins like a numeral. -/
theorem not_truthWord (text : List Char)
    (h : ∀ c, text.head? = some c → c = '-' ∨ c.isDigit = true) :
    truthWords.any (fun (word, _) => isCasingOf word text) = false := by
  have hcasings : ∀ pair ∈ truthWords, ∀ spelling ∈
      [pair.1.toList, pair.1.toList.map Char.toUpper,
        (pair.1.toList.map Char.toUpper).take 1 ++ pair.1.toList.drop 1],
      spelling.head?.any (fun c => c != '-' && !c.isDigit) = true := by decide
  rw [List.any_eq_false]
  rintro ⟨word, b⟩ hmem hcasing
  have hspelling := hcasings (word, b) hmem text (by
    simpa [isCasingOf, Bool.or_eq_true, beq_iff_eq, or_assoc] using hcasing)
  cases hhead : text.head? with
  | none => simp [hhead] at hspelling
  | some c =>
      rcases h c hhead with rfl | hdigit
      · simp [hhead] at hspelling
      · simp [hhead, hdigit] at hspelling

theorem magnitudeText_pointed (hfraction : n.fraction = some fraction) :
    n.magnitudeText = n.whole ++ '.' :: (fraction ++ n.exponent.elim [] Exponent.text) := by
  rw [Numeral.magnitudeText, hfraction]
  rfl

theorem takeWhile_point {digits : List Char} (h : IsDigits digits) (more : List Char) :
    (digits ++ '.' :: more).takeWhile (fun c => decide (c ≠ '.')) = digits :=
  (span_run (fun c hc => by simpa using ne_of_isDigit (h.2 c hc) rfl) (by simp)).1

/-- An exponent begins with its letter. -/
theorem exists_exponent_of_head {c : Char}
    (hc : (n.exponent.elim [] Exponent.text).head? = some c) :
    ∃ e, n.exponent = some e ∧ c = e.letter := by
  cases hexponent : n.exponent with
  | none => simp [hexponent] at hc
  | some e =>
      rw [hexponent] at hc
      cases hc
      exact ⟨e, rfl, rfl⟩

theorem looksPointed_eq (h : n.WellFormed) (hfraction : n.fraction = some fraction)
    (hshared : n.IsShared) : looksPointed n.magnitudeText = true := by
  have hdigits := h.fraction fraction hfraction
  have htail : ∀ c, (n.exponent.elim [] Exponent.text).head? = some c →
      isDigitOrLine c = false := by
    intro c hc
    obtain ⟨e, hexponent, rfl⟩ := exists_exponent_of_head hc
    rcases (h.exponent e hexponent).letter with hletter | hletter <;> rw [hletter] <;> rfl
  have hlooks : isExponent (n.exponent.elim [] Exponent.text) = true := by
    cases hexponent : n.exponent with
    | none => rfl
    | some e => exact isExponent_text (h.exponent e hexponent) (hshared e hexponent).2
  have hgrouped : ∀ c ∈ fraction, isDigitOrLine c = true := fun c hc => by
    simp [isDigitOrLine, hdigits.2 c hc]
  obtain ⟨hgroup, -⟩ := span_run hgrouped htail
  rw [looksPointed, magnitudeText_pointed hfraction]
  simp only [takeWhile_point h.whole, hgroup, List.drop_left, isGrouped_digits h.whole, hlooks,
    Bool.true_and, Bool.true_or]

theorem magnitudeText_whole (hfraction : n.fraction = none) (hexponent : n.exponent = none) :
    n.magnitudeText = n.whole := by
  simp [Numeral.magnitudeText, hfraction, hexponent]

theorem looksFloat_eq_false (h : n.WellFormed) (hfraction : n.fraction = none)
    (hexponent : n.exponent = none) : looksFloat n.text = false := by
  have hpointed : looksPointed n.whole = false := by
    have hwhole : n.whole.takeWhile (fun c => decide (c ≠ '.')) = n.whole :=
      List.takeWhile_eq_self_iff.2 fun c hc => by simpa using ne_of_isDigit (h.whole.2 c hc) rfl
    rw [looksPointed]
    simp only [hwhole, List.drop_length]
  obtain ⟨w, more, hhead, hw⟩ := h.exists_head
  rw [magnitudeText_whole hfraction hexponent] at hhead
  obtain ⟨first, rest, htext⟩ := List.exists_cons_of_ne_nil h.text_ne_nil
  have hpoint : w ≠ '.' := ne_of_isDigit hw rfl
  have hpoint' : first ≠ '.' := by
    rcases h.head_text htext with rfl | hdigit
    · decide
    · exact ne_of_isDigit hdigit rfl
  unfold looksFloat
  rw [Numeral.dropSign_text h, magnitudeText_whole hfraction hexponent]
  dsimp only
  rw [hpointed, hhead, htext]
  simp only [String.reduceToList, List.cons_beq_cons, beq_eq_false_iff_ne.2 hpoint,
    beq_eq_false_iff_ne.2 hpoint', Bool.false_and, Bool.false_or]
  split
  · next heq => exact absurd (List.cons.inj heq).1 hpoint'
  · rfl

theorem looksInt_eq (h : n.WellFormed) (hfraction : n.fraction = none)
    (hexponent : n.exponent = none) : looksInt n.text = true := by
  rw [looksInt, Numeral.dropSign_text h, magnitudeText_whole hfraction hexponent]
  split
  · next heq => cases h.zero _ heq
  · next heq => cases h.zero _ heq
  · rfl
  · next rest _ _ hzero heq =>
    obtain rfl := h.zero rest heq
    exact absurd rfl hzero
  · rw [isGrouped_digits h.whole, Bool.true_or]

/-- A numeral is neither empty nor a word, so its looks as a number decide. -/
theorem resolve_text (h : n.WellFormed)
    (hlooks : looksFloat n.text = true ∨ looksInt n.text = true) :
    resolve (.ofList n.text) = if looksFloat n.text then .float else .int := by
  have hkeep : Text.dropFinalNewline n.text = n.text :=
    Schema.dropFinalNewline_of_not_mem (h.not_mem_text rfl (by decide))
  have hword := not_truthWord n.text fun c hc => by
    obtain ⟨first, rest, htext⟩ := List.exists_cons_of_ne_nil h.text_ne_nil
    rw [htext] at hc
    cases hc
    exact h.head_text htext
  have hne : String.ofList n.text ≠ "" := by
    intro hempty
    refine h.text_ne_nil ?_
    rw [← String.toList_ofList (l := n.text), hempty]
    rfl
  unfold resolve
  simp only [String.toList_ofList, hkeep, hword]
  rw [if_neg hne, if_neg h.text_ne_nil, if_neg Bool.false_ne_true]
  rcases hlooks with hfloat | hint
  · rw [if_pos hfloat, if_pos hfloat]
  · rw [if_pos hint]

end Yaml.Tag

end EmulatedDevice
