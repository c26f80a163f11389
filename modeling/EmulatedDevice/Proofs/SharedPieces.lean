import EmulatedDevice.Proofs.JsonPieces
import EmulatedDevice.Proofs.PlainScalars
import EmulatedDevice.Proofs.SharedNumerals
import EmulatedDevice.Proofs.SharedStrings

/-!
# Pieces that both notations read alike

Every piece of a JSON text can be looked at by itself to see whether YAML has the same
use for it. A tab is no blank in YAML. A string and a numeral may mean something else. A
name has to begin on the line of its colon and at most 1024 characters before it, for
else YAML does not take it for a key. A word is always shared, though those for what is
no number stand for a text in YAML.

A piece without such differences is shared, and is made of characters that may stand in
a YAML text.
-/

namespace EmulatedDevice.Json

/-- Whether a numeral has no exponent, or one with a sign behind a point. -/
def sharesExponent (raw : List Char) : Bool :=
  match raw.dropWhile fun c => c != 'e' && c != 'E' with
  | [] => true
  | _ :: rest => raw.contains '.' && (rest.head? == some '+' || rest.head? == some '-')

/-- A word, or a numeral that stands for the same number in both notations. -/
def IsSharedBare (raw : List Char) : Prop :=
  raw ∈ words.map (fun pair => pair.1.toList) ∨ sharesExponent raw = true

instance (raw : List Char) : Decidable (IsSharedBare raw) :=
  inferInstanceAs (Decidable (_ ∨ _))

/-- A name with the gap before its colon is a key in both notations. -/
structure IsSharedName (raw gap : List Char) : Prop where
  shared : IsSharedString raw
  unbroken : ∀ c ∈ raw, isSeparator c = false
  spaces : ∀ c ∈ gap, c = ' '
  short : raw.length + gap.length + 2 ≤ 1024

instance (raw gap : List Char) : Decidable (IsSharedName raw gap) :=
  decidable_of_iff (IsSharedString raw ∧ raw.all (fun c => !isSeparator c) = true ∧
      gap.all (· == ' ') = true ∧ raw.length + gap.length + 2 ≤ 1024)
    ⟨fun ⟨h₁, h₂, h₃, h₄⟩ => ⟨h₁, by simpa using h₂, by simpa using h₃, h₄⟩,
      fun ⟨h₁, h₂, h₃, h₄⟩ => ⟨h₁, by simpa using h₂, by simpa using h₃, h₄⟩⟩

/-- Both notations have the same use for a piece. -/
def Piece.IsShared : Piece → Prop
  | .blank c => c ≠ '\t'
  | .sign _ => True
  | .string raw => IsSharedString raw
  | .name raw gap => IsSharedName raw gap
  | .bare raw => IsSharedBare raw

instance (p : Piece) : Decidable p.IsShared := by
  cases p <;> unfold Piece.IsShared <;> infer_instance

section Bare

variable {n : Numeral} {e : Exponent} {c : Char}

theorem sharesExponent_numeral (h : n.WellFormed) (hshared : IsSharedBare n.text) :
    sharesExponent n.text = true := by
  rcases hshared with hword | hexponent
  · -- every word has a letter in it that no numeral has
    have hletters : (words.map Prod.fst).all (fun word => word.toList.any fun c =>
        !c.isDigit && !(['.', '-', '+', 'e', 'E'].contains c)) = true := by decide
    obtain ⟨pair, hpair, hword⟩ := List.mem_map.1 hword
    have hletter := List.all_eq_true.1 hletters pair.1 (List.mem_map_of_mem hpair)
    rw [hword, List.any_eq_true] at hletter
    obtain ⟨c, hc, hother⟩ := hletter
    simp only [Bool.and_eq_true, Bool.not_eq_true', List.contains_eq_mem,
      decide_eq_false_iff_not] at hother
    exact absurd hc (h.not_mem_text hother.1 hother.2)
  · exact hexponent

theorem dropWhile_text (h : n.WellFormed) (he : n.exponent = some e) :
    n.text.dropWhile (fun c => c != 'e' && c != 'E') = e.text := by
  have hfront : ∀ c ∈ n.front, (c != 'e' && c != 'E') = true := by
    intro c hc
    rcases h.mem_front hc with hdigit | rfl | ⟨rfl, -⟩
    · have hne : c ≠ 'e' ∧ c ≠ 'E' := ⟨ne_of_isDigit hdigit rfl, ne_of_isDigit hdigit rfl⟩
      simp [hne]
    · rfl
    · rfl
  rw [Numeral.text_eq, he, List.dropWhile_append_of_pos hfront, Option.elim_some, Exponent.text]
  rcases (h.exponent e he).letter with hletter | hletter <;> simp [hletter]

/-- A point in a numeral is that of its fraction. -/
theorem isSome_of_point_mem (h : n.WellFormed) (hpoint : '.' ∈ n.text) :
    n.fraction.isSome = true := by
  rw [Numeral.text_eq, List.mem_append] at hpoint
  rcases hpoint with hfront | hexponent
  · rcases h.mem_front hfront with hdigit | hminus | ⟨-, hsome⟩
    · cases hdigit
    · cases hminus
    · exact hsome
  · cases he : n.exponent with
    | none => simp [he] at hexponent
    | some e =>
        rw [he, Option.elim_some] at hexponent
        rcases (h.exponent e he).mem_text hexponent with hdigit | hother
        · cases hdigit
        · simp at hother

/-- A shared numeral has an exponent only behind a point, and with a sign. -/
theorem isShared_of_isSharedBare (h : n.WellFormed) (hshared : IsSharedBare n.text) :
    n.IsShared := by
  intro e he
  have hexponent := sharesExponent_numeral h hshared
  rw [sharesExponent, dropWhile_text h he, Exponent.text] at hexponent
  simp only [Bool.and_eq_true, List.contains_iff_mem, Bool.or_eq_true, beq_iff_eq] at hexponent
  obtain ⟨hpoint, hhead⟩ := hexponent
  refine ⟨isSome_of_point_mem h hpoint, fun hsign => ?_⟩
  obtain ⟨hne, hdigits⟩ := (h.exponent e he).digits
  obtain ⟨c, more, hc⟩ := List.exists_cons_of_ne_nil hne
  have hdigit : c.isDigit = true := hdigits c (by rw [hc]; exact List.mem_cons_self)
  rw [hsign, hc] at hhead
  rcases hhead with hplus | hminus
  · cases hplus
    cases hdigit
  · cases hminus
    cases hdigit

end Bare

/-! ## Characters of shared pieces -/

section Characters

variable {n : Numeral} {c : Char} {ps : List Piece} {part : Part} {gap : List Char}

/-- Whether a character may stand in YAML and go on with a plain scalar there. -/
def isPlainAllowed (c : Char) : Bool := Yaml.isAllowed c && Yaml.Scalar.isPlain c

theorem isPlainAllowed_digit (h : c.isDigit = true) : isPlainAllowed c = true := by
  have hne : ∀ d : Char, d.isDigit = false → c ≠ d := fun d hd => ne_of_isDigit h hd
  have hrange := Char.isDigit_iff_toNat.1 h
  simp only [Char.reduceToNat] at hrange
  have hallowed : Yaml.isAllowed c = true := by
    have hascii : 0x20 ≤ c.toNat ∧ c.toNat ≤ 0x7e := by omega
    simp [Yaml.isAllowed, hascii]
  simp [isPlainAllowed, hallowed, Yaml.Scalar.isPlain, Yaml.endsIndicator, Yaml.isBreak,
    Yaml.Scalar.endsInFlow, Yaml.Scalar.isFlowSign, hne]

theorem isPlainAllowed_numeral (h : n.WellFormed) (hc : c ∈ n.text) : isPlainAllowed c = true :=
  h.of_mem_text isPlainAllowed (fun _ hdigit => isPlainAllowed_digit hdigit) (by decide) hc

theorem isPlainAllowed_word {word : String} (h : word ∈ words.map Prod.fst)
    (hc : c ∈ word.toList) : isPlainAllowed c = true :=
  of_mem_word h (by decide) hc

theorem isSpacing_of_isBlank (h : isBlank c = true) (htab : c ≠ '\t') :
    Yaml.isSpacing c = true := by
  simpa [isBlank, Yaml.isSpacing, htab] using h

theorem isAllowed_spacing (h : Yaml.isSpacing c = true) : Yaml.isAllowed c = true := by
  simp only [Yaml.isSpacing, Bool.or_eq_true, beq_iff_eq] at h
  rcases h with (rfl | rfl) | rfl <;> rfl

/-- What is known of the characters of a piece because the reader of JSON has taken it. -/
def Piece.IsProper : Piece → Prop
  | .blank c => isBlank c = true
  | .sign c => isSign c = true
  | .string _ => True
  | .name _ _ => True
  | .bare raw => ∀ c ∈ raw, isPlainAllowed c = true

theorem isProper_blanks (h : IsGap gap) : ∀ p ∈ blanks gap, p.IsProper := by
  intro p hp
  obtain ⟨c, hc, rfl⟩ := List.mem_map.1 hp
  exact h c hc

theorem isProper_sign (h : isSign c = true) : (Piece.sign c).IsProper := h

theorem isProper_of_spells (h : Spells words ps part) : ∀ p ∈ ps, p.IsProper := by
  induction h with
  | string => simp [Piece.IsProper]
  | word hmem => simpa [Piece.IsProper] using fun c hc =>
      isPlainAllowed_word (List.mem_map_of_mem hmem) hc
  | number hn => simpa [Piece.IsProper] using fun c hc => isPlainAllowed_numeral hn hc
  | emptyList hgap | emptyMapping hgap =>
      simp only [List.forall_mem_cons, List.forall_mem_append]
      exact ⟨isProper_sign rfl, isProper_blanks hgap, isProper_sign rfl, nofun⟩
  | list hgap _ ih | mapping hgap _ ih =>
      simp only [List.forall_mem_cons, List.forall_mem_append]
      exact ⟨isProper_sign rfl, isProper_blanks hgap, ih⟩
  | lastItem _ hgap ih =>
      simp only [List.forall_mem_cons, List.forall_mem_append]
      exact ⟨ih, isProper_blanks hgap, isProper_sign rfl, nofun⟩
  | item _ hgap hgap' _ ih ihmore =>
      simp only [List.forall_mem_cons, List.forall_mem_append]
      exact ⟨ih, isProper_blanks hgap, isProper_sign rfl, isProper_blanks hgap', ihmore⟩
  | lastMember _ _ hgap' _ hgap'' ih =>
      simp only [List.forall_mem_cons, List.forall_mem_append]
      exact ⟨trivial, isProper_blanks hgap', ih, isProper_blanks hgap'', isProper_sign rfl, nofun⟩
  | member _ _ hgap' _ hgap'' hgap₃ _ ih ihmore =>
      simp only [List.forall_mem_cons, List.forall_mem_append]
      exact ⟨trivial, isProper_blanks hgap', ih, isProper_blanks hgap'', isProper_sign rfl,
        isProper_blanks hgap₃, ihmore⟩

/-- The characters of shared pieces may stand in a YAML text. -/
theorem isAllowed_of_isShared {p : Piece} (h : p.IsProper) (hshared : p.IsShared)
    (hc : c ∈ p.text) :
    Yaml.isAllowed c = true := by
  cases p with
  | blank d =>
      obtain rfl := List.mem_singleton.1 hc
      exact isAllowed_spacing (isSpacing_of_isBlank h hshared)
  | sign d =>
      obtain rfl := List.mem_singleton.1 hc
      simp only [Piece.IsProper, isSign, Bool.or_eq_true, beq_iff_eq] at h
      rcases h with ((((rfl | rfl) | rfl) | rfl) | rfl) | rfl <;> rfl
  | string raw =>
      simp only [Piece.text, List.mem_cons, List.mem_append, List.not_mem_nil, or_false] at hc
      rcases hc with rfl | hraw | rfl
      · rfl
      · exact hshared.allowed c hraw
      · rfl
  | name raw gap =>
      simp only [Piece.text, List.mem_cons, List.mem_append, List.not_mem_nil, or_false] at hc
      rcases hc with rfl | hraw | rfl | hgap | rfl
      · rfl
      · exact hshared.shared.allowed c hraw
      · rfl
      · rw [hshared.spaces c hgap]
        rfl
      · rfl
  | bare raw =>
      have hplain := h c hc
      rw [isPlainAllowed, Bool.and_eq_true] at hplain
      exact hplain.1

end Characters

end EmulatedDevice.Json
