import EmulatedDevice.Proofs.NumeralLooks
import EmulatedDevice.Yaml.Document

/-!
# Words and numerals that both notations read alike

The words of JSON for truth and for nothing, and its numerals, are plain scalars of
YAML. The words for what is no number are text there, and so is a numeral with an
exponent, unless it has a point and the exponent a sign. Any other numeral that looks
like a whole number or a double is read as the number that it is in JSON: both readers
come down to the digits in front of the point and behind it.
-/

namespace EmulatedDevice

open Json (Numeral Exponent IsDigits)

/-! ## Digits as numbers -/

section Digits

variable {c : Char} {digits : List Char}

theorem Text.isBlank_digit (h : c.isDigit = true) : Text.isBlank c = false := by
  have hspace : (c == ' ') = false := beq_eq_false_iff_ne.2 (ne_of_isDigit h rfl)
  have hrange := Char.isDigit_iff_toNat.1 h
  simp only [Char.reduceToNat] at hrange
  simp only [Text.isBlank, hspace, Bool.false_or, Bool.or_eq_false_iff, beq_eq_false_iff_ne,
    Bool.and_eq_false_iff, decide_eq_false_iff_not]
  omega

theorem Text.trimBlanks_eq {text : List Char} (h : ∀ c ∈ text, Text.isBlank c = false) :
    Text.trimBlanks text = text := by
  have hkeep : ∀ text : List Char, (∀ c ∈ text, Text.isBlank c = false) →
      text.dropWhile Text.isBlank = text := by
    intro text htext
    cases text with
    | nil => rfl
    | cons c text => rw [List.dropWhile_cons_of_neg (by simp [htext c List.mem_cons_self])]
  rw [Text.trimBlanks, hkeep text h, hkeep text.reverse fun c hc => h c (List.mem_reverse.1 hc),
    List.reverse_reverse]

theorem Text.digitIn?_digit (h : c.isDigit = true) :
    Text.digitIn? 10 c = some (c.toNat - '0'.toNat) := by
  have hrange := Char.isDigit_iff_toNat.1 h
  have hlower : ¬ ('a' ≤ c ∧ c ≤ 'z') := fun ⟨hle, _⟩ => by
    have hle' : 'a'.toNat ≤ c.toNat := hle
    simp only [Char.reduceToNat] at *
    omega
  have hupper : ¬ ('A' ≤ c ∧ c ≤ 'Z') := fun ⟨hle, _⟩ => by
    have hle' : 'A'.toNat ≤ c.toNat := hle
    simp only [Char.reduceToNat] at *
    omega
  have hsmall : c.toNat - '0'.toNat < 10 := by
    simp only [Char.reduceToNat] at *
    omega
  rw [Text.digitIn?, if_neg hlower, if_neg hupper, Text.digitValue?, if_pos h]
  simpa using hsmall

theorem Text.readDigits_digits (h : ∀ c ∈ digits, c.isDigit = true) (start : Nat) :
    Text.readDigits 10 start digits = some (Nat.ofDigitChars 10 digits start) := by
  induction digits generalizing start with
  | nil => rfl
  | cons c digits ih =>
      have hc : c.isDigit = true := h c List.mem_cons_self
      rw [Text.readDigits, Text.digitIn?_digit hc, Nat.ofDigitChars_cons, Nat.mul_comm 10]
      · exact ih (fun d hd => h d (List.mem_cons_of_mem c hd)) _
      · rintro _ _ rfl
        cases hc

theorem Text.readInteger_digits (h : IsDigits digits) :
    Text.readInteger 10 digits = some (Nat.ofDigitChars 10 digits 0 : Int) := by
  obtain ⟨hne, hdigits⟩ := h
  have htrim := Text.trimBlanks_eq fun c hc => Text.isBlank_digit (hdigits c hc)
  obtain ⟨c, more, rfl⟩ := List.exists_cons_of_ne_nil hne
  have hc : c.isDigit = true := hdigits c List.mem_cons_self
  have hmark : Text.dropBaseMark 10 (c :: more) = c :: more := by
    unfold Text.dropBaseMark
    split
    · next heq => rw [if_neg (by simp [Text.baseLetters]), heq]
    · rfl
  have hnatural : Text.readNatural 10 (c :: more) = some (Nat.ofDigitChars 10 (c :: more) 0) := by
    rw [Text.readNatural, hmark, Nat.ofDigitChars_cons, Nat.mul_zero, Nat.zero_add]
    dsimp only
    rw [Text.digitIn?_digit hc]
    exact Text.readDigits_digits (fun d hd => hdigits d (List.mem_cons_of_mem c hd)) _
  unfold Text.readInteger
  rw [htrim]
  split
  · next heq => cases heq; cases hc
  · next heq => cases heq; cases hc
  · rw [hnatural]
    rfl

theorem Yaml.Number.decimalDigits_digits (h : ∀ c ∈ digits, c.isDigit = true) :
    Yaml.Number.decimalDigits digits = some (digits.map fun c => c.toNat - '0'.toNat) := by
  induction digits with
  | nil => rfl
  | cons c digits ih =>
      have hc : Text.digitValue? c = some (c.toNat - '0'.toNat) := if_pos (h c List.mem_cons_self)
      have hmore := ih fun d hd => h d (List.mem_cons_of_mem c hd)
      rw [Yaml.Number.decimalDigits] at hmore ⊢
      rw [List.mapM_cons, hc, hmore]
      rfl

theorem Yaml.Number.ofDigits_map (digits : List Char) :
    Yaml.Number.ofDigits (digits.map fun c => c.toNat - '0'.toNat) =
      Nat.ofDigitChars 10 digits 0 := by
  rw [Yaml.Number.ofDigits, Nat.ofDigitChars, List.foldl_map]
  congr 1
  funext value c
  rw [Nat.mul_comm]

end Digits

/-! ## What a numeral stands for -/

theorem Binary64.neg_ofDecimal (digits : Nat) (power : Int) :
    (Binary64.ofDecimal false digits power).neg = Binary64.ofDecimal true digits power := by
  unfold Binary64.ofDecimal Binary64.ofRatio Binary64.zero
  dsimp only
  split_ifs <;> rfl

namespace Yaml.Number

variable {n : Numeral} {e : Exponent} {digits fraction body : List Char} {w : Char}

/-- A text with its sign, as numerals have one. -/
def signedText (negative : Bool) (body : List Char) : List Char :=
  (if negative then ['-'] else []) ++ body

theorem splitSign_signedText (negative : Bool) (hw : w.isDigit = true)
    (hline : '_' ∉ w :: body) :
    splitSign (signedText negative (w :: body)) = .ok (negative, w :: body) := by
  have hkeep : (signedText negative (w :: body)).filter (· ≠ '_') =
      signedText negative (w :: body) := by
    rw [List.filter_eq_self]
    intro c hc
    rw [signedText, List.mem_append] at hc
    rcases hc with hsign | hbody
    · cases negative <;> simp at hsign
      rw [hsign]
      rfl
    · simpa using fun heq : c = '_' => hline (heq ▸ hbody)
  rw [splitSign, hkeep]
  cases negative with
  | true => rfl
  | false =>
      have hbody : signedText false (w :: body) = w :: body := rfl
      rw [hbody]
      split
      · next heq => cases heq
      · next heq => cases heq; cases hw
      · next heq => cases heq; cases hw
      · rfl

theorem magnitude_whole (h : n.WellFormed) :
    magnitude n.whole = .ok (Nat.ofDigitChars 10 n.whole 0 : Int) := by
  unfold magnitude
  split
  · next heq => exact absurd heq h.whole.1
  · next heq => rw [heq]; rfl
  · next heq => cases h.zero _ heq
  · next heq => cases h.zero _ heq
  · next rest hzero _ _ heq =>
    obtain rfl := h.zero rest heq
    exact absurd rfl hzero
  · rw [if_neg fun hcolon => ne_of_isDigit (h.whole.2 ':' hcolon) rfl rfl, integerIn,
      Text.readInteger_digits h.whole]

theorem integer_text (h : n.WellFormed) (hfraction : n.fraction = none)
    (hexponent : n.exponent = none) :
    integer n.text = .ok (Json.signed n.negative n.whole) := by
  have htext : n.text = signedText n.negative n.whole := by
    rw [Numeral.text, Tag.magnitudeText_whole hfraction hexponent]
    rfl
  have hline : '_' ∉ n.whole := fun hmem => ne_of_isDigit (h.whole.2 _ hmem) rfl rfl
  obtain ⟨w, more, hhead, hw⟩ := h.exists_head
  rw [Tag.magnitudeText_whole hfraction hexponent] at hhead
  have hsplit : splitSign n.text = .ok (n.negative, n.whole) := by
    rw [hhead] at hline
    rw [htext, hhead, splitSign_signedText n.negative hw hline]
  rw [integer, hsplit]
  simp only [bind, Except.bind, magnitude_whole h]
  cases n.negative <;> rfl

theorem exponentOf_eq (h : e.WellFormed) : exponentOf (e.sign ++ e.digits) = some e.power := by
  obtain ⟨hne, hdigits⟩ := h.digits
  obtain ⟨c, more, hc⟩ := List.exists_cons_of_ne_nil hne
  have hdigit : c.isDigit = true := hdigits c (by rw [hc]; exact List.mem_cons_self)
  have hdrop : Tag.dropSign (e.sign ++ e.digits) = e.digits := by
    rcases h.sign with hsign | hsign | hsign <;> rw [hsign]
    · rw [hc]
      exact Tag.dropSign_digit hdigit more
    · rfl
    · rfl
  have hminus : (e.sign ++ e.digits).head? = some '-' ↔ e.sign = ['-'] := by
    rcases h.sign with hsign | hsign | hsign <;> rw [hsign]
    · rw [hc]
      simpa using ne_of_isDigit hdigit rfl
    · simp
    · simp
  unfold exponentOf
  rw [hdrop, decimalDigits_digits hdigits]
  simp only [hminus, Option.bind_eq_bind, Option.bind_some, List.map_eq_nil_iff, hne, if_false,
    ofDigits_map, Exponent.power, Json.signed, decide_eq_true_eq]

/-- A numeral is cut at the letter before its exponent. -/
theorem span_mantissa (h : n.WellFormed) (hfraction : n.fraction = some fraction)
    (hletter : ∀ e ∈ n.exponent, e.letter = 'e') :
    n.magnitudeText.takeWhile (fun c => decide (c ≠ 'e')) = n.whole ++ '.' :: fraction ∧
      n.magnitudeText.drop (n.whole ++ '.' :: fraction).length =
        n.exponent.elim [] Exponent.text := by
  rw [Tag.magnitudeText_pointed hfraction, ← List.cons_append, ← List.append_assoc]
  refine ⟨(span_run (fun c hc => ?_) fun c hc => ?_).1, List.drop_left⟩
  · rw [List.mem_append, List.mem_cons] at hc
    rcases hc with hwhole | rfl | hmem
    · simpa using ne_of_isDigit (h.whole.2 c hwhole) rfl
    · rfl
    · simpa using ne_of_isDigit ((h.fraction fraction hfraction).2 c hmem) rfl
  · obtain ⟨e, hexponent, rfl⟩ := Tag.exists_exponent_of_head hc
    simpa using hletter e hexponent

/-- A numeral with a point and a small letter before its exponent is a decimal number. -/
theorem unsignedDecimal_text (h : n.WellFormed) (hfraction : n.fraction = some fraction)
    (hletter : ∀ e ∈ n.exponent, e.letter = 'e') (negative : Bool) :
    unsignedDecimal negative n.magnitudeText =
      some (.ofDecimal negative (Nat.ofDigitChars 10 (n.whole ++ fraction) 0)
        (n.exponent.elim 0 Exponent.power - fraction.length)) := by
  have hdigits := h.fraction fraction hfraction
  obtain ⟨hmantissa, htail⟩ := span_mantissa h hfraction hletter
  have hafter : (n.whole ++ '.' :: fraction).drop (n.whole.length + 1) = fraction := by
    rw [← List.drop_drop, List.drop_left]
    rfl
  obtain ⟨w, more, hhead, hw⟩ := h.exists_head
  have hi : w ≠ 'i' := ne_of_isDigit hw rfl
  have hn : w ≠ 'n' := ne_of_isDigit hw rfl
  unfold unsignedDecimal
  rw [if_neg (by rw [hhead]; simp [hi]), if_neg (by rw [hhead]; simp [hn])]
  simp only [hmantissa, htail, Tag.takeWhile_point h.whole, hafter, decimalDigits_digits h.whole.2,
    decimalDigits_digits hdigits.2, Option.bind_eq_bind, Option.bind_some, ← List.map_append,
    ofDigits_map, List.map_eq_nil_iff, List.append_eq_nil_iff, h.whole.1, false_and, if_false,
    List.length_map]
  cases hexponent : n.exponent with
  | none => rfl
  | some e =>
      simp only [Option.elim_some, Exponent.text]
      rw [exponentOf_eq (h.exponent e hexponent)]
      rfl

end Yaml.Number

namespace Json.Numeral

variable {n : Numeral}

/-- The numeral with a small letter before its exponent. -/
def lower (n : Numeral) : Numeral :=
  { n with exponent := n.exponent.map fun e => { e with letter := 'e' } }

theorem WellFormed.lower (h : n.WellFormed) : n.lower.WellFormed := by
  refine ⟨h.whole, h.zero, h.fraction, fun lowered hlowered => ?_⟩
  obtain ⟨e, he, rfl⟩ := Option.map_eq_some_iff.1 hlowered
  obtain ⟨-, hsign, hdigits⟩ := h.exponent e he
  exact ⟨.inl rfl, hsign, hdigits⟩

theorem value_lower (n : Numeral) : n.lower.value = n.value := by
  obtain ⟨negative, whole, fraction, exponent⟩ := n
  cases exponent <;> rfl

theorem toLower_digit {c : Char} (h : c.isDigit = true) : c.toLower = c := by
  unfold Char.toLower
  rw [dif_neg]
  rintro ⟨hle, -⟩
  have hle' : 'A'.toNat ≤ c.toNat := hle
  have hrange := Char.isDigit_iff_toNat.1 h
  simp only [Char.reduceToNat] at *
  omega

theorem map_toLower_digits {digits : List Char} (h : ∀ c ∈ digits, c.isDigit = true) :
    digits.map Char.toLower = digits := by
  rw [List.map_congr_left fun c hc => toLower_digit (h c hc), List.map_id']

theorem text_lower (h : n.WellFormed) : n.lower.text = n.text.map Char.toLower := by
  have hsign : (if n.negative then ['-'] else []).map Char.toLower =
      if n.negative then ['-'] else [] := by
    cases n.negative <;> rfl
  have hfraction : (n.fraction.elim [] ('.' :: ·)).map Char.toLower =
      n.fraction.elim [] ('.' :: ·) := by
    cases hdigits : n.fraction with
    | none => rfl
    | some digits => exact congrArg ('.' :: ·) (map_toLower_digits (h.fraction digits hdigits).2)
  have hexponent : (n.exponent.elim [] Exponent.text).map Char.toLower =
      n.lower.exponent.elim [] Exponent.text := by
    cases he : n.exponent with
    | none => simp [lower, he]
    | some e =>
        obtain ⟨hletter, hsign, hdigits⟩ := h.exponent e he
        rcases hletter with hletter | hletter <;> rcases hsign with hsign | hsign | hsign <;>
          simp [lower, he, Exponent.text, hletter, hsign, map_toLower_digits hdigits.2]
  rw [text, text, magnitudeText, magnitudeText, List.map_append, List.map_append, List.map_append,
    hsign, map_toLower_digits h.whole.2, hfraction, hexponent]
  rfl

end Json.Numeral

namespace Yaml.Number

variable {n : Numeral} {fraction : List Char}

theorem decimal_text (h : n.WellFormed) (hfraction : n.fraction = some fraction)
    (hletter : ∀ e ∈ n.exponent, e.letter = 'e') :
    decimal n.magnitudeText =
      .ok (.ofDecimal false (Nat.ofDigitChars 10 (n.whole ++ fraction) 0)
        (n.exponent.elim 0 Exponent.power - fraction.length)) := by
  have hblank : ∀ c ∈ n.magnitudeText, Text.isBlank c = false := by
    intro c hc
    have hkept : (!Text.isBlank c) = true :=
      h.of_mem_text (fun c => !Text.isBlank c) (fun d hd => by simp [Text.isBlank_digit hd])
        (by decide) (List.mem_append_right _ hc)
    simpa using hkept
  obtain ⟨w, more, hhead, hw⟩ := h.exists_head
  have hminus : w ≠ '-' := ne_of_isDigit hw rfl
  have hdrop : Tag.dropSign n.magnitudeText = n.magnitudeText := by
    rw [hhead]
    exact Tag.dropSign_digit hw more
  have hpositive : decide (n.magnitudeText.head? = some '-') = false := by
    rw [hhead]
    simp [hminus]
  rw [decimal, Text.trimBlanks_eq hblank, hpositive, hdrop,
    unsignedDecimal_text h hfraction hletter]

/-- A numeral with a point is the same double in both notations. -/
theorem float_text (h : n.WellFormed) (hfraction : n.fraction = some fraction) :
    (float n.text).map .float = .ok n.value := by
  have hlower := h.lower
  have hletter : ∀ e ∈ n.lower.exponent, e.letter = 'e' := by
    intro lowered hlowered
    obtain ⟨e, -, rfl⟩ := Option.map_eq_some_iff.1 hlowered
    rfl
  have hdecimal := decimal_text hlower hfraction hletter
  have hcolon : ':' ∉ n.lower.magnitudeText := fun hmem =>
    hlower.not_mem_text rfl (by decide) (List.mem_append_right _ hmem)
  have hline : '_' ∉ n.lower.magnitudeText := fun hmem =>
    hlower.not_mem_text rfl (by decide) (List.mem_append_right _ hmem)
  obtain ⟨w, more, hhead, hw⟩ := hlower.exists_head
  have hpoint : w ≠ '.' := ne_of_isDigit hw rfl
  have hsplit : splitSign n.lower.text = .ok (n.negative, n.lower.magnitudeText) := by
    have htext : n.lower.text = signedText n.negative n.lower.magnitudeText := rfl
    rw [htext, hhead]
    rw [hhead] at hline
    exact splitSign_signedText n.negative hw hline
  have hinf : n.lower.magnitudeText ≠ ".inf".toList := by
    rw [hhead]
    simp [hpoint]
  have hnan : n.lower.magnitudeText ≠ ".nan".toList := by
    rw [hhead]
    simp [hpoint]
  have hvalue : n.value = .float (.ofDecimal n.negative
      (Nat.ofDigitChars 10 (n.lower.whole ++ fraction) 0)
      (n.lower.exponent.elim 0 Exponent.power - fraction.length)) := by
    rw [← Numeral.value_lower, Numeral.value, if_neg]
    · rw [show n.lower.fraction = some fraction from hfraction]
      rfl
    · rw [show n.lower.fraction = some fraction from hfraction]
      simp
  rw [float, ← Numeral.text_lower h, hsplit]
  simp only [bind, Except.bind, hinf, hnan, hcolon, if_false, hdecimal, hvalue]
  cases n.negative with
  | false => rfl
  | true => exact congrArg (fun x => Except.ok (Value.float x)) (Binary64.neg_ofDecimal _ _)

end Yaml.Number

namespace Yaml.Node

variable {n : Numeral}

/-- A shared numeral is resolved to the number that it is in JSON. -/
theorem scalarValue_numeral (h : n.WellFormed) (hshared : n.IsShared) :
    scalarValue (Tag.resolve (.ofList n.text)) (.ofList n.text) = .ok n.value := by
  cases hfraction : n.fraction with
  | some fraction =>
      have hfloat : Tag.looksFloat n.text = true := by
        unfold Tag.looksFloat
        rw [Numeral.dropSign_text h]
        simp only [Tag.looksPointed_eq h hfraction hshared, Bool.true_or]
      rw [Tag.resolve_text h (.inl hfloat), if_pos hfloat]
      simp only [scalarValue, String.toList_ofList]
      exact Number.float_text h hfraction
  | none =>
      have hexponent : n.exponent = none := by
        cases hexponent : n.exponent with
        | none => rfl
        | some e =>
            have hpoint := (hshared e hexponent).1
            rw [hfraction] at hpoint
            cases hpoint
      rw [Tag.resolve_text h (.inr (Tag.looksInt_eq h hfraction hexponent)),
        if_neg (by rw [Tag.looksFloat_eq_false h hfraction hexponent]; exact Bool.false_ne_true)]
      simp only [scalarValue, String.toList_ofList, Number.integer_text h hfraction hexponent]
      simp [Numeral.value, hfraction, hexponent, Except.map]

/-- What the words of JSON are in YAML. Those for what is no number are texts. -/
def jsonWords : List (String × Value) :=
  [ ("null", .null), ("true", .bool true), ("false", .bool false), ("NaN", .text "NaN")
  , ("Infinity", .text "Infinity"), ("-Infinity", .text "-Infinity") ]

theorem scalarValue_word {word : String} {v : Value} (h : (word, v) ∈ jsonWords) :
    scalarValue (Tag.resolve word) word = .ok v := by
  have hnull : Tag.resolve "null" = .null := by decide
  have htrue : Tag.resolve "true" = .bool := by decide
  have hfalse : Tag.resolve "false" = .bool := by decide
  have htext : ∀ word ∈ ["NaN", "Infinity", "-Infinity"], Tag.resolve word = .string := by decide
  simp only [jsonWords, List.mem_cons, Prod.mk.injEq, List.not_mem_nil, or_false] at h
  rcases h with ⟨rfl, rfl⟩ | ⟨rfl, rfl⟩ | ⟨rfl, rfl⟩ | ⟨rfl, rfl⟩ | ⟨rfl, rfl⟩ | ⟨rfl, rfl⟩
  · rw [hnull]
    rfl
  · rw [htrue]
    rfl
  · rw [hfalse]
    rfl
  all_goals
    rw [htext _ (by simp)]
    rfl

end Yaml.Node

end EmulatedDevice
