import EmulatedDevice.Proofs.Faults
import EmulatedDevice.Proofs.JsonScalars
import Mathlib.Data.List.TakeWhile

/-!
# How scalars are spelled in JSON

Whatever the reader takes from a text for a string or for a number, it takes from the
front of the text and leaves the rest as it is. So what was taken can be looked at by
itself: the characters between two quotes, with an escape for some of them, and the
parts of a numeral, of which all but the first run of digits may be missing.
-/

namespace EmulatedDevice.Json

/-! ## Strings -/

/-- How an escape is spelled behind its backslash, and the character that it stands for. -/
inductive Escapes : List Char → Char → Prop where
  | simple {letter c : Char} (h : simpleEscape? letter = some c) : Escapes [letter] c
  | code {digits : List Char} {code : Nat} (hlength : digits.length = 4)
    (hcode : Text.hexNumber? digits = some code) : Escapes ('u' :: digits) (charOfCode code)
  | pair {digits digits' : List Char} {high low : Nat} (hlength : digits.length = 4)
    (hhigh : Text.hexNumber? digits = some high) (hhalf : isHighHalf high = true)
    (hlength' : digits'.length = 4) (hlow : Text.hexNumber? digits' = some low)
    (hhalf' : isLowHalf low = true) :
    Escapes ('u' :: (digits ++ '\\' :: 'u' :: digits')) (charOfHalves high low)

/-- The characters between two quotes, and those that they stand for. -/
inductive Decodes : List Char → List Char → Prop where
  | nil : Decodes [] []
  | plain {c : Char} {raw chars : List Char} (hquote : c ≠ '"') (hescape : c ≠ '\\')
    (hcontrol : ¬ c.toNat < 0x20) (h : Decodes raw chars) : Decodes (c :: raw) (c :: chars)
  | escape {spelled raw chars : List Char} {c : Char} (hspelled : Escapes spelled c)
    (h : Decodes raw chars) : Decodes ('\\' :: (spelled ++ raw)) (c :: chars)

section Strings

variable {opening text rest chars : List Char} {c : Char} {used : Nat}

theorem isSome_hexValue? {start n : Nat} {digits : List Char}
    (h : digits.foldlM (fun value c => (Text.hexValue? c).map (value * 16 + ·)) start = some n) :
    ∀ c ∈ digits, (Text.hexValue? c).isSome := by
  induction digits generalizing start with
  | nil => simp
  | cons d digits ih =>
      rw [List.foldlM_cons] at h
      obtain ⟨value, hvalue, hmore⟩ := Option.bind_eq_some_iff.1 h
      obtain ⟨_, hd, _⟩ := Option.map_eq_some_iff.1 hvalue
      rw [List.forall_mem_cons]
      exact ⟨by rw [hd]; rfl, ih hmore⟩

/-- Hexadecimal digits are neither quotes nor backslashes. -/
theorem ne_of_mem_hexNumber? {digits : List Char} {n : Nat} (h : Text.hexNumber? digits = some n)
    (hc : c ∈ digits) : c ≠ '"' ∧ c ≠ '\\' := by
  have hsome := isSome_hexValue? h c hc
  constructor <;> rintro rfl <;> exact absurd hsome (by decide)

theorem hexValue?_not_control (h : (Text.hexValue? c).isSome = true) : ¬ c.toNat < 0x20 := by
  intro hcontrol
  have hdigit : c.isDigit = false := by
    rw [Bool.eq_false_iff, ne_eq, Char.isDigit_iff_toNat]
    simp only [Char.reduceToNat]
    omega
  have hlower : ¬ ('a' ≤ c ∧ c ≤ 'f') := fun ⟨hle, _⟩ => by
    have hle' : 'a'.toNat ≤ c.toNat := hle
    simp only [Char.reduceToNat] at hle'
    omega
  have hupper : ¬ ('A' ≤ c ∧ c ≤ 'F') := fun ⟨hle, _⟩ => by
    have hle' : 'A'.toNat ≤ c.toNat := hle
    simp only [Char.reduceToNat] at hle'
    omega
  simp [Text.hexValue?, hdigit, hlower, hupper] at h

theorem Escapes.not_control {spelled : List Char} (h : Escapes spelled c) :
    ∀ d ∈ spelled, ¬ d.toNat < 0x20 := by
  have hdigits : ∀ {digits : List Char} {n : Nat}, Text.hexNumber? digits = some n →
      ∀ d ∈ digits, ¬ d.toNat < 0x20 := fun hcode d hd =>
    hexValue?_not_control (isSome_hexValue? hcode d hd)
  cases h with
  | @simple letter _ hletter =>
      simp only [List.forall_mem_cons, List.not_mem_nil, IsEmpty.forall_iff, implies_true, and_true]
      unfold simpleEscape? at hletter
      split at hletter <;> first | decide | cases hletter
  | code _ hcode =>
      rw [List.forall_mem_cons]
      exact ⟨by decide, hdigits hcode⟩
  | pair _ hhigh _ _ hlow _ =>
      simp only [List.forall_mem_cons, List.forall_mem_append]
      exact ⟨by decide, hdigits hhigh, by decide, by decide, hdigits hlow⟩

/-- There are no control characters between quotes. -/
theorem Decodes.not_control {raw : List Char} (h : Decodes raw chars) :
    ∀ d ∈ raw, ¬ d.toNat < 0x20 := by
  induction h with
  | nil => simp
  | plain _ _ hcontrol _ ih => exact List.forall_mem_cons.2 ⟨hcontrol, ih⟩
  | escape hspelled _ ih =>
      rw [List.forall_mem_cons, List.forall_mem_append]
      exact ⟨by decide, hspelled.not_control, ih⟩

/-- An escape that was read is spelled at the start of the text. -/
theorem exists_of_readEscape (h : readEscape opening text = .ok (c, used)) :
    ∃ spelled more, text = spelled ++ more ∧ spelled.length = used ∧ Escapes spelled c := by
  unfold readEscape at h
  split at h
  · cases h
  · split at h
    · next a b c' d e more =>
      split at h
      · cases h
      · next code hcode =>
        split at h
        · next hhigh heq =>
          split at h
          · cases h
          · next low hlow =>
            obtain ⟨rfl, rfl⟩ := List.cons.inj heq
            split at h
            · next hhalf =>
              obtain ⟨rfl, rfl⟩ := Prod.mk.inj (Except.ok.inj h)
              exact ⟨['u', a, b, c', d, '\\', 'u', _, _, _, _], _, rfl, rfl,
                @Escapes.pair [a, b, c', d] _ _ _ rfl hcode hhigh rfl hlow hhalf⟩
            · cases h
              exact ⟨['u', a, b, c', d], _, rfl, rfl, .code rfl hcode⟩
        · cases h
          exact ⟨['u', a, b, c', d], _, rfl, rfl, .code rfl hcode⟩
    · cases h
  · split at h
    · next hletter =>
      cases h
      exact ⟨[_], _, rfl, rfl, .simple hletter⟩
    · cases h

/-- Characters that are accounted for are passed over. -/
theorem readChars_skip (opening spelled more : List Char) :
    readChars opening spelled.length (spelled ++ more) = readChars opening 0 more := by
  induction spelled with
  | nil => rfl
  | cons c spelled ih =>
      rw [List.length_cons, List.cons_append, readChars, ih]

/-- A string that was read is what its characters stand for up to the first quote that closes. -/
theorem exists_of_readChars (h : readChars opening 0 text = .ok (chars, rest)) :
    ∃ raw, text = raw ++ '"' :: rest ∧ Decodes raw chars := by
  induction hn : text.length using Nat.strongRecOn generalizing text chars with
  | ind n ih =>
      cases text with
      | nil => cases h
      | cons c text =>
          rw [readChars] at h
          split at h
          · next hquote =>
            subst hquote
            cases h
            exact ⟨[], rfl, .nil⟩
          split at h
          · next hescape =>
            subst hescape
            obtain ⟨⟨escaped, used⟩, hescaped, hread⟩ := exists_of_bind_eq_ok h
            obtain ⟨⟨chars', rest'⟩, hchars, hresult⟩ := exists_of_bind_eq_ok hread
            cases hresult
            obtain ⟨spelled, more, rfl, rfl, hspelled⟩ := exists_of_readEscape hescaped
            rw [readChars_skip] at hchars
            have hshorter : more.length < n := by
              rw [← hn, List.length_cons, List.length_append]
              omega
            obtain ⟨raw, rfl, hraw⟩ := ih _ hshorter hchars rfl
            exact ⟨_, by simp, .escape hspelled hraw⟩
          split at h
          · cases h
          · next hquote hescape hcontrol =>
            obtain ⟨⟨chars', rest'⟩, hchars, hresult⟩ := exists_of_bind_eq_ok h
            cases hresult
            obtain ⟨raw, rfl, hraw⟩ := ih _ (by rw [← hn]; exact Nat.lt_succ_self _) hchars rfl
            exact ⟨_, rfl, .plain hquote hescape hcontrol hraw⟩

end Strings

/-! ## Numbers -/

/-- An exponent: its letter, perhaps a sign, and its digits. -/
structure Exponent where
  letter : Char
  sign : List Char
  digits : List Char

/-- The parts of a numeral. -/
structure Numeral where
  negative : Bool
  whole : List Char
  fraction : Option (List Char)
  exponent : Option Exponent

def IsDigits (text : List Char) : Prop :=
  text ≠ [] ∧ ∀ c ∈ text, c.isDigit = true

/-- The spelling of an exponent is one that a numeral may have. -/
structure Exponent.WellFormed (e : Exponent) : Prop where
  letter : e.letter = 'e' ∨ e.letter = 'E'
  sign : e.sign = [] ∨ e.sign = ['+'] ∨ e.sign = ['-']
  digits : IsDigits e.digits

structure Numeral.WellFormed (n : Numeral) : Prop where
  whole : IsDigits n.whole
  zero : ∀ more, n.whole = '0' :: more → more = []
  fraction : ∀ digits ∈ n.fraction, IsDigits digits
  exponent : ∀ e ∈ n.exponent, e.WellFormed

def Exponent.text (e : Exponent) : List Char := e.letter :: (e.sign ++ e.digits)

def Exponent.power (e : Exponent) : Int := signed (e.sign = ['-']) e.digits

/-- A numeral without its sign. -/
def Numeral.magnitudeText (n : Numeral) : List Char :=
  n.whole ++ (n.fraction.elim [] ('.' :: ·) ++ n.exponent.elim [] Exponent.text)

def Numeral.text (n : Numeral) : List Char :=
  (if n.negative then ['-'] else []) ++ n.magnitudeText

/-- A numeral up to its exponent. -/
def Numeral.front (n : Numeral) : List Char :=
  (if n.negative then ['-'] else []) ++ (n.whole ++ n.fraction.elim [] ('.' :: ·))

def Numeral.value (n : Numeral) : Value :=
  if n.fraction.isNone ∧ n.exponent.isNone then .int (signed n.negative n.whole)
  else
    .float (.ofDecimal n.negative (Nat.ofDigitChars 10 (n.whole ++ n.fraction.getD []) 0)
      (n.exponent.elim 0 Exponent.power - (n.fraction.getD []).length))

section Numbers

variable {text rest : List Char}

theorem Exponent.WellFormed.mem_text {e : Exponent} (h : e.WellFormed) {c : Char}
    (hc : c ∈ e.text) : c.isDigit = true ∨ c ∈ ['-', '+', 'e', 'E'] := by
  rw [Exponent.text, List.mem_cons, List.mem_append] at hc
  rcases hc with rfl | hsign | hdigit
  · rcases h.letter with hletter | hletter <;> simp [hletter]
  · rcases h.sign with hnone | hplus | hminus <;> simp_all
  · exact .inl (h.digits.2 c hdigit)

theorem Numeral.text_eq (n : Numeral) :
    n.text = n.front ++ n.exponent.elim [] Exponent.text := by
  simp [Numeral.text, Numeral.magnitudeText, Numeral.front]

theorem Numeral.WellFormed.mem_front {n : Numeral} (h : n.WellFormed) {c : Char}
    (hc : c ∈ n.front) : c.isDigit = true ∨ c = '-' ∨ c = '.' ∧ n.fraction.isSome = true := by
  rw [Numeral.front] at hc
  simp only [List.mem_append] at hc
  rcases hc with hsign | hwhole | hfraction
  · cases hn : n.negative <;> simp_all
  · exact .inl (h.whole.2 c hwhole)
  · cases hdigits : n.fraction with
    | none => simp [hdigits] at hfraction
    | some digits =>
        rw [hdigits, Option.elim_some, List.mem_cons] at hfraction
        rcases hfraction with rfl | hdigit
        · exact .inr (.inr ⟨rfl, rfl⟩)
        · exact .inl ((h.fraction digits hdigits).2 c hdigit)

theorem Numeral.WellFormed.mem_text {n : Numeral} (h : n.WellFormed) {c : Char}
    (hc : c ∈ n.text) : c.isDigit = true ∨ c ∈ ['.', '-', '+', 'e', 'E'] := by
  rw [Numeral.text_eq, List.mem_append] at hc
  rcases hc with hfront | hexponent
  · rcases h.mem_front hfront with hdigit | rfl | ⟨rfl, -⟩
    · exact .inl hdigit
    · exact .inr (by simp)
    · exact .inr (by simp)
  · cases he : n.exponent with
    | none => simp [he] at hexponent
    | some e =>
        rw [he, Option.elim_some] at hexponent
        rcases (h.exponent e he).mem_text hexponent with hdigit | hother
        · exact .inl hdigit
        · exact .inr (List.mem_cons_of_mem _ hother)

/-- What holds of digits and of the few other characters holds of all in a numeral. -/
theorem Numeral.WellFormed.of_mem_text {n : Numeral} (h : n.WellFormed) (p : Char → Bool)
    (hdigit : ∀ c, c.isDigit = true → p c = true)
    (hother : ['.', '-', '+', 'e', 'E'].all p = true) {c : Char} (hc : c ∈ n.text) :
    p c = true := by
  rcases h.mem_text hc with hc | hc
  · exact hdigit c hc
  · exact List.all_eq_true.1 hother c hc

theorem Numeral.WellFormed.text_ne_nil {n : Numeral} (h : n.WellFormed) : n.text ≠ [] := by
  simp [Numeral.text, Numeral.magnitudeText, h.whole.1]

theorem isDigits_takeWhile {c : Char} {more : List Char} (hc : c.isDigit = true) :
    IsDigits ((c :: more).takeWhile Char.isDigit) := by
  refine ⟨?_, fun d hd => List.mem_takeWhile_imp hd⟩
  rw [List.takeWhile_cons_of_pos hc]
  exact List.cons_ne_nil _ _

theorem splitWhole_spec {whole : List Char} (h : splitWhole text = some (whole, rest)) :
    text = whole ++ rest ∧ IsDigits whole ∧ ∀ more, whole = '0' :: more → more = [] := by
  unfold splitWhole at h
  split at h
  · cases h
    exact ⟨rfl, ⟨by simp, List.forall_mem_singleton.2 rfl⟩,
      fun more hmore => (List.cons.inj hmore).2.symm⟩
  · next c more hzero =>
    split at h
    · next hc =>
      cases h
      refine ⟨List.takeWhile_append_dropWhile.symm, isDigits_takeWhile hc, fun more' hmore => ?_⟩
      rw [List.takeWhile_cons_of_pos hc] at hmore
      exact absurd (List.cons.inj hmore).1 hzero
    · cases h
  · cases h

theorem splitFraction_spec {fraction : List Char} (h : splitFraction text = some (fraction, rest)) :
    text = '.' :: fraction ++ rest ∧ IsDigits fraction := by
  unfold splitFraction at h
  split at h
  · split at h
    · next hc =>
      cases h
      refine ⟨?_, isDigits_takeWhile hc⟩
      rw [List.cons_append, List.takeWhile_append_dropWhile]
    · cases h
  · cases h

theorem splitExponent_spec {power : Int} (h : splitExponent text = some (power, rest)) :
    ∃ e : Exponent, e.WellFormed ∧ text = e.text ++ rest ∧ power = e.power := by
  unfold splitExponent at h
  split at h
  · next c more =>
    split at h
    · next hletter =>
      split at h
      next negative body hbody =>
      obtain ⟨sign, hsign, rfl, rfl⟩ : ∃ sign, (sign = [] ∨ sign = ['+'] ∨ sign = ['-']) ∧
          negative = decide (sign = ['-']) ∧ more = sign ++ body := by
        split at hbody <;> cases hbody
        · exact ⟨['-'], .inr (.inr rfl), rfl, rfl⟩
        · exact ⟨['+'], .inr (.inl rfl), rfl, rfl⟩
        · exact ⟨[], .inl rfl, rfl, rfl⟩
      split at h
      · cases h
      · next hdigits =>
        cases h
        refine ⟨⟨c, sign, body.takeWhile Char.isDigit⟩, ⟨hletter, hsign, hdigits, ?_⟩, ?_, rfl⟩
        · exact fun d hd => List.mem_takeWhile_imp hd
        · rw [Exponent.text, List.cons_append, List.append_assoc,
            List.takeWhile_append_dropWhile]
    · cases h
  · cases h

theorem splitMagnitude_spec {negative : Bool} {value : Value}
    (h : splitMagnitude negative text = some (value, rest)) :
    ∃ n : Numeral, n.WellFormed ∧ n.negative = negative ∧ text = n.magnitudeText ++ rest ∧
      value = n.value := by
  obtain ⟨⟨whole, more⟩, hwhole, hread⟩ := Option.bind_eq_some_iff.1 h
  obtain ⟨rfl, hdigits, hzero⟩ := splitWhole_spec hwhole
  simp only at hread
  split at hread
  · next fraction more' hfraction =>
    obtain ⟨rfl, hdigits'⟩ := splitFraction_spec hfraction
    cases hexponent : splitExponent more' with
    | none =>
        rw [hexponent] at hread
        cases hread
        refine ⟨⟨negative, whole, some fraction, none⟩, ⟨hdigits, hzero, ?_, nofun⟩, rfl, ?_, rfl⟩
        · rintro _ ⟨⟩
          exact hdigits'
        · simp [Numeral.magnitudeText]
    | some exponent =>
        rw [hexponent] at hread
        obtain ⟨e, he, rfl, hpower⟩ := splitExponent_spec hexponent
        cases hread
        refine ⟨⟨negative, whole, some fraction, some e⟩, ⟨hdigits, hzero, ?_, ?_⟩, rfl, ?_, ?_⟩
        · rintro _ ⟨⟩
          exact hdigits'
        · rintro _ ⟨⟩
          exact he
        · simp [Numeral.magnitudeText]
        · rw [Option.getD_some, hpower]
          rfl
  · next power more' _ hexponent =>
    obtain ⟨e, he, rfl, hpower⟩ := splitExponent_spec hexponent
    cases hread
    refine ⟨⟨negative, whole, none, some e⟩, ⟨hdigits, hzero, nofun, ?_⟩, rfl, ?_, ?_⟩
    · rintro _ ⟨⟩
      exact he
    · simp [Numeral.magnitudeText]
    · simp [Numeral.value, hpower]
  · cases hread
    refine ⟨⟨negative, whole, none, none⟩, ⟨hdigits, hzero, nofun, nofun⟩, rfl, ?_, rfl⟩
    simp [Numeral.magnitudeText]

/-- A number that was read is a numeral at the start of the text. -/
theorem exists_of_splitNumber {value : Value} (h : splitNumber text = some (value, rest)) :
    ∃ n : Numeral, n.WellFormed ∧ text = n.text ++ rest ∧ value = n.value := by
  unfold splitNumber at h
  split at h
  · obtain ⟨n, hn, hnegative, rfl, rfl⟩ := splitMagnitude_spec h
    exact ⟨n, hn, by rw [Numeral.text, hnegative]; rfl, rfl⟩
  · obtain ⟨n, hn, hnegative, rfl, rfl⟩ := splitMagnitude_spec h
    exact ⟨n, hn, by rw [Numeral.text, hnegative]; rfl, rfl⟩

theorem exists_of_splitWord {value : Value} (h : splitWord text = some (value, rest)) :
    ∃ word, (word, value) ∈ words ∧ text = word.toList ++ rest := by
  obtain ⟨⟨word, value'⟩, hmem, h⟩ := List.exists_of_findSome?_eq_some h
  simp only at h
  split at h
  · next hprefix =>
    cases h
    obtain ⟨more, rfl⟩ := List.isPrefixOf_iff_prefix.1 hprefix
    refine ⟨word, hmem, ?_⟩
    rw [← String.length_toList, List.drop_left]
  · cases h

end Numbers

end EmulatedDevice.Json
