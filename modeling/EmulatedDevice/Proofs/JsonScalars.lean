import EmulatedDevice.Json.Printer
import EmulatedDevice.Json.Reader
import EmulatedDevice.Proofs.Numerals

/-!
# Scalars in JSON

A string is written with escapes, and the reader undoes one escape after the other:
each character is read back from what it was written as, whatever follows. A whole
number is its digits, and no digit, point or letter of an exponent follows them in
what is written. The words for null and the booleans are told apart by their first
letters.
-/

namespace EmulatedDevice.Json

/-! ## Strings -/

section Strings

variable {opening more : List Char} {c : Char}

/-- A character that is read in front of what is read behind it. -/
def withChar (c : Char) (read : Except Stop (List Char × List Char)) :
    Except Stop (List Char × List Char) :=
  read.map fun (chars, rest) => (c :: chars, rest)

theorem readChars_plain (hquote : c ≠ '"') (hescape : c ≠ '\\') (hcontrol : ¬ c.toNat < 0x20) :
    readChars opening 0 (c :: more) = withChar c (readChars opening 0 more) := by
  rw [readChars, if_neg hquote, if_neg hescape, if_neg hcontrol]
  cases readChars opening 0 more <;> rfl

theorem readChars_escape {used : Nat} (h : readEscape opening more = .ok (c, used)) :
    readChars opening 0 ('\\' :: more) = withChar c (readChars opening used more) := by
  rw [readChars, if_neg (by decide), if_pos rfl, h]
  simp only [bind, Except.bind]
  cases readChars opening used more <;> rfl

theorem readEscape_simple {letter : Char} (h : simpleEscape? letter = some c) :
    readEscape opening (letter :: more) = .ok (c, 1) := by
  unfold readEscape
  split
  · next heq => cases heq
  · next heq =>
    obtain ⟨rfl, rfl⟩ := List.cons.inj heq
    cases h
  · next heq =>
    obtain ⟨rfl, rfl⟩ := List.cons.inj heq
    rw [h]

/-- The code of a control character is read back from its four digits. -/
theorem hexNumber?_hexPadded : ∀ n < 0x20, (Text.hexPadded 4 n).length = 4 ∧
    Text.hexNumber? (Text.hexPadded 4 n) = some n := by
  decide

theorem readEscape_control {last : Char} (h : c.toNat < 0x20) :
    readEscape opening ('u' :: Text.hexPadded 4 c.toNat ++ last :: more) = .ok (c, 5) := by
  obtain ⟨hlength, hnumber⟩ := hexNumber?_hexPadded c.toNat h
  obtain ⟨d₁, d₂, d₃, d₄, hdigits⟩ := List.length_eq_four.1 hlength
  have hhigh : isHighHalf c.toNat = false := by
    simp only [isHighHalf, Bool.and_eq_false_iff, decide_eq_false_iff_not]
    omega
  have hlow : isLowHalf c.toNat = false := by
    simp only [isLowHalf, Bool.and_eq_false_iff, decide_eq_false_iff_not]
    omega
  rw [hdigits] at hnumber ⊢
  simp only [List.cons_append, List.nil_append, readEscape, hnumber, hhigh]
  rw [charOfCode, hhigh, hlow]
  simp [Char.ofNat_toNat]

/-- A character is read back from what it was written as. -/
theorem readChars_escapeChar (opening : List Char) (c last : Char) (more : List Char) :
    readChars opening 0 (escapeChar c ++ last :: more) =
      withChar c (readChars opening 0 (last :: more)) := by
  unfold escapeChar
  split
  · next h => subst h; exact readChars_escape (readEscape_simple rfl)
  split
  · next h => subst h; exact readChars_escape (readEscape_simple rfl)
  split
  · next h => subst h; exact readChars_escape (readEscape_simple rfl)
  split
  · next h => subst h; exact readChars_escape (readEscape_simple rfl)
  split
  · next h => subst h; exact readChars_escape (readEscape_simple rfl)
  split
  · next h => subst h; exact readChars_escape (readEscape_simple rfl)
  split
  · next h => subst h; exact readChars_escape (readEscape_simple rfl)
  split
  · next h =>
    obtain ⟨hlength, _⟩ := hexNumber?_hexPadded c.toNat h
    obtain ⟨d₁, d₂, d₃, d₄, hdigits⟩ := List.length_eq_four.1 hlength
    have hread : readEscape opening ('u' :: Text.hexPadded 4 c.toNat ++ last :: more) =
        .ok (c, 5) := readEscape_control h
    rw [hdigits] at hread ⊢
    exact readChars_escape hread
  · next hquote hescape _ _ _ _ _ hcontrol => exact readChars_plain hquote hescape hcontrol

/-- A string is read back up to its closing quote. -/
theorem readChars_escaped (opening text rest : List Char) :
    readChars opening 0 (text.flatMap escapeChar ++ '"' :: rest) = .ok (text, rest) := by
  induction text with
  | nil => rfl
  | cons c text ih =>
      rw [List.flatMap_cons, List.append_assoc]
      obtain ⟨last, more, hmore⟩ : ∃ last more,
          text.flatMap escapeChar ++ '"' :: rest = last :: more :=
        List.exists_cons_of_ne_nil (by simp)
      rw [hmore, readChars_escapeChar, ← hmore, ih]
      rfl

end Strings

/-- No control character is left in an escaped text. -/
theorem le_toNat_of_mem_escapeChar {c d : Char} (h : d ∈ escapeChar c) : 0x20 ≤ d.toNat := by
  have hpair : ∀ letter ∈ ['"', '\\', 'n', 'r', 't', 'b', 'f', 'u'], ∀ d ∈ ['\\', letter],
      0x20 ≤ d.toNat := by
    simp
  have hhex : ∀ n < 0x20, (Text.hexPadded 4 n).all (0x20 ≤ ·.toNat) = true := by decide
  unfold escapeChar at h
  iterate 7
    split at h
    · exact hpair _ (by decide) d h
  split at h
  · next hcontrol =>
    rcases List.mem_append.1 h with h | h
    · exact hpair _ (by decide) d h
    · simpa using List.all_eq_true.1 (hhex _ hcontrol) d h
  · next hcontrol =>
    rw [List.mem_singleton.1 h]
    exact Nat.le_of_not_lt hcontrol

theorem return_not_mem_renderText (text : String) : '\r' ∉ renderText text := by
  intro h
  rw [renderText, List.mem_append, List.mem_cons, List.mem_singleton, List.mem_flatMap] at h
  rcases h with (h | ⟨c, _, h⟩) | h
  · cases h
  · exact absurd (le_toNat_of_mem_escapeChar h) (by decide)
  · cases h

/-! ## Numbers and words -/

/-- What can stand behind a value. -/
def Follows (rest : List Char) : Prop :=
  ∃ more, rest = ',' :: more ∨ rest = '\n' :: more

/-- A text that is read as a scalar when a value may end behind it. -/
structure IsScalar (text : List Char) (value : Value) : Prop where
  head : ∃ c more, text = c :: more ∧ (c.isAlphanum = true ∨ c = '-')
  read : ∀ rest, Follows rest →
    (splitWord (text ++ rest) <|> splitNumber (text ++ rest)) = some (value, rest)
  noReturn : '\r' ∉ text

theorem isScalar_word {word : String} {value : Value} (h : (word, value) ∈ words) :
    IsScalar word.toList value := by
  simp only [words, List.mem_cons, Prod.mk.injEq, List.not_mem_nil, or_false] at h
  rcases h with ⟨rfl, rfl⟩ | ⟨rfl, rfl⟩ | ⟨rfl, rfl⟩ | ⟨rfl, rfl⟩ | ⟨rfl, rfl⟩ |
    ⟨rfl, rfl⟩ <;>
    exact ⟨⟨_, _, rfl, by decide⟩, fun rest _ => rfl, by decide⟩

variable {digits rest more : List Char}

/-- Digits are a whole number, if the first of several is no zero. -/
theorem splitWhole_append (hne : digits ≠ []) (hdigits : ∀ c ∈ digits, c.isDigit = true)
    (hzero : ∀ more, digits = '0' :: more → more = [])
    (hrest : ∀ c, rest.head? = some c → c.isDigit = false) :
    splitWhole (digits ++ rest) = some (digits, rest) := by
  obtain ⟨htake, hdrop⟩ := span_run hdigits hrest
  obtain ⟨c, more, rfl⟩ := List.exists_cons_of_ne_nil hne
  by_cases h : c = '0'
  · subst h
    obtain rfl := hzero more rfl
    rfl
  · rw [List.cons_append] at htake hdrop ⊢
    unfold splitWhole
    split
    · next heq => exact absurd (List.cons.inj heq).1 h
    · next heq =>
      obtain ⟨rfl, rfl⟩ := List.cons.inj heq
      rw [if_pos (hdigits _ (List.mem_cons_self ..)), htake, hdrop]
    · next heq => cases heq

theorem splitWhole_toDigits (n : Nat) (hrest : ∀ c, rest.head? = some c → c.isDigit = false) :
    splitWhole (Nat.toDigits 10 n ++ rest) = some (Nat.toDigits 10 n, rest) :=
  splitWhole_append Nat.toDigits_ne_nil (fun _ => Numeral.isDigit_of_mem_toDigits)
    (fun _ h => (Numeral.eq_zero_of_toDigits h).2) hrest

theorem Follows.not_isDigit (h : Follows rest) (c : Char) (hc : rest.head? = some c) :
    c.isDigit = false := by
  obtain ⟨more, rfl | rfl⟩ := h <;> cases hc <;> rfl

theorem Follows.splitFraction (h : Follows rest) : splitFraction rest = none := by
  obtain ⟨more, rfl | rfl⟩ := h <;> rfl

theorem Follows.splitExponent (h : Follows rest) : splitExponent rest = none := by
  obtain ⟨more, rfl | rfl⟩ := h <;> rfl

theorem splitWord_eq_none {text : List Char} (h : ∀ pair ∈ words, ¬ pair.1.toList <+: text) :
    splitWord text = none := by
  rw [splitWord, List.findSome?_eq_none_iff]
  intro pair hpair
  exact if_neg fun hprefix => h pair hpair (List.isPrefixOf_iff_prefix.1 hprefix)

/-- No word starts with a digit, or with a hyphen and a digit. -/
theorem splitWord_digit {c : Char} (h : c.isDigit = true) :
    splitWord (c :: more) = none ∧ splitWord ('-' :: c :: more) = none := by
  have hne : ∀ d : Char, d.isDigit = false → d ≠ c := by
    rintro d hd rfl
    cases hd.symm.trans h
  have hfirst : ∀ pair ∈ words, ∃ d rest, pair.1.toList = d :: rest ∧ d.isDigit = false ∧
      (d = '-' → ∃ e rest', rest = e :: rest' ∧ e.isDigit = false) := by
    simp only [words, List.forall_mem_cons]
    refine ⟨?_, ?_, ?_, ?_, ?_, ⟨'-', _, rfl, rfl, fun _ => ⟨'I', _, rfl, rfl⟩⟩, nofun⟩ <;>
      exact ⟨_, _, rfl, rfl, nofun⟩
  constructor
  · refine splitWord_eq_none fun pair hpair hprefix => ?_
    obtain ⟨d, rest, htext, hd, _⟩ := hfirst pair hpair
    rw [htext, List.cons_prefix_cons] at hprefix
    exact hne d hd hprefix.1
  · refine splitWord_eq_none fun pair hpair hprefix => ?_
    obtain ⟨d, rest, htext, _, hhyphen⟩ := hfirst pair hpair
    rw [htext, List.cons_prefix_cons] at hprefix
    obtain ⟨rfl, hprefix⟩ := hprefix
    obtain ⟨e, rest', rfl, he⟩ := hhyphen rfl
    exact hne e he (List.cons_prefix_cons.1 hprefix).1

/-- A text that starts with a digit is read as a number. -/
theorem splitNumber_digit {c : Char} (h : c.isDigit = true) :
    splitNumber (c :: more) = splitMagnitude false (c :: more) := by
  unfold splitNumber
  split
  · next heq =>
    obtain ⟨rfl, _⟩ := List.cons.inj heq
    cases h
  · rfl

/-- What is read as a number behind its sign is a scalar. -/
theorem isScalar_of_splitMagnitude {text : List Char} {negative : Bool} {value : Value}
    (hhead : ∃ c more, text = c :: more ∧ c.isDigit = true) (hreturn : '\r' ∉ text)
    (hread : ∀ rest, Follows rest → splitMagnitude negative (text ++ rest) = some (value, rest)) :
    IsScalar ((if negative then ['-'] else []) ++ text) value := by
  obtain ⟨c, more, rfl, hc⟩ := hhead
  cases negative with
  | true =>
      refine ⟨⟨'-', _, rfl, .inr rfl⟩, fun rest hrest => ?_, ?_⟩
      · show (splitWord ('-' :: c :: (more ++ rest)) <|> _) = _
        rw [(splitWord_digit hc).2]
        exact hread rest hrest
      · exact List.not_mem_cons_of_ne_of_not_mem (by decide) hreturn
  | false =>
      refine ⟨⟨c, more, rfl, .inl ?_⟩, fun rest hrest => ?_, hreturn⟩
      · rw [Char.isAlphanum, hc, Bool.or_true]
      · show (splitWord (c :: (more ++ rest)) <|> _) = _
        rw [(splitWord_digit hc).1]
        show splitNumber (c :: (more ++ rest)) = _
        rw [splitNumber_digit hc]
        exact hread rest hrest

/-- A whole number is read back. -/
theorem isScalar_int (n : Int) : IsScalar (toString n).toList (.int n) := by
  obtain ⟨c, more, hdigits⟩ := List.exists_cons_of_ne_nil
    (Nat.toDigits_ne_nil (n := n.natAbs) (b := 10))
  have hc : c.isDigit = true :=
    Numeral.isDigit_of_mem_toDigits (hdigits ▸ List.mem_cons_self ..)
  have hscalar : IsScalar ((if decide (n < 0) then ['-'] else []) ++ Nat.toDigits 10 n.natAbs)
      (.int n) := by
    refine isScalar_of_splitMagnitude ⟨c, more, hdigits, hc⟩ (Numeral.not_mem_toDigits rfl _) ?_
    intro rest hrest
    unfold splitMagnitude
    rw [splitWhole_toDigits _ hrest.not_isDigit]
    simp only [Option.bind_eq_bind, Option.bind_some, hrest.splitFraction, hrest.splitExponent]
    have hvalue : signed (decide (n < 0)) (Nat.toDigits 10 n.natAbs) = n := by
      rw [signed, Nat.ofDigitChars_ten_toDigits]
      split
      · next hneg => simp at hneg; omega
      · next hneg => simp at hneg; omega
    rw [hvalue]
    rfl
  rw [Numeral.toList_toString]
  simpa using hscalar

/-! ## Scalars as values -/

/-- A text that starts like a scalar is read as one. -/
theorem readValue_scalar {text rest : List Char} {value : Value} (h : IsScalar text value)
    (hrest : Follows rest) (fuel : Nat) :
    readValue (fuel + 1) (text ++ rest) = .ok (value, rest) := by
  obtain ⟨c, more, htext, hc⟩ := h.head
  have hread := h.read rest hrest
  have hother : c ≠ '"' ∧ c ≠ '[' ∧ c ≠ '\x7b' := by
    refine ⟨?_, ?_, ?_⟩ <;> rintro rfl <;> rcases hc with hc | hc <;> cases hc
  rw [htext, List.cons_append] at hread ⊢
  unfold readValue
  split
  · next heq => exact absurd (List.cons.inj heq).1 hother.1
  · next heq => exact absurd (List.cons.inj heq).1 hother.2.1
  · next heq => exact absurd (List.cons.inj heq).1 hother.2.2
  · rw [hread]

theorem renderText_append (text : String) (rest : List Char) :
    renderText text ++ rest = '"' :: (text.toList.flatMap escapeChar ++ '"' :: rest) := by
  simp [renderText]

theorem readValue_text (text : String) (rest : List Char) (fuel : Nat) :
    readValue (fuel + 1) (renderText text ++ rest) = .ok (.text text, rest) := by
  rw [renderText_append, readValue, readChars_escaped]
  simp only [bind, Except.bind, String.ofList_toList]
  rfl

end EmulatedDevice.Json
