import EmulatedDevice.Proofs.CursorMoves
import EmulatedDevice.Proofs.JsonSpelling
import EmulatedDevice.Yaml.Scalar
import Mathlib.Algebra.Group.Nat.Defs

/-!
# Strings that both notations read alike

A string of JSON is a double-quoted scalar of YAML, and most of what may stand between
the quotes means the same. Four things do not:

* some characters have no place in a YAML text;
* a next line (U+0085) is a break, which is folded into a space;
* the separators of lines and paragraphs are breaks too. They are kept, but the spaces
  beside them are not, and a document mark must not follow them;
* two escapes that make up one character beyond the first plane are two characters.

A string without them is shared. Where its spaces and separators stand in runs, the
reader of YAML takes a whole run at once, and the proofs below look at a run one
character at a time.
-/

namespace EmulatedDevice

namespace Json

/-! ## Shared strings -/

def isSeparator (c : Char) : Bool := c == '\u2028' || c == '\u2029'

/-- Whether a text starts with three characters that mark the start or the end of a document, and
a blank or a break behind them. -/
def startsMark (text : List Char) : Bool :=
  (text.take 3 == ['-', '-', '-'] || text.take 3 == ['.', '.', '.'])
    && text[3]?.any fun c => Yaml.endsIndicator (some c)

/-- Whether every separator stands apart from spaces and document marks. -/
def keepsSeparators : List Char → Bool
  | [] => true
  | c :: rest =>
    !(c == ' ' && rest.head?.any isSeparator)
      && !(isSeparator c && (rest.head? == some ' ' || startsMark rest))
      && keepsSeparators rest

/-- Whether a text behind the letter of an escape is the code of a first half, and an escape for a
second half follows. -/
def startsPair (text : List Char) : Bool :=
  (Text.hexNumber? (text.take 4)).any isHighHalf
    && (text.drop 4).take 2 == ['\\', 'u']
    && (Text.hexNumber? ((text.drop 6).take 4)).any isLowHalf

/-- Whether two escapes stand for one character together. -/
def joinsHalves : List Char → Bool
  | [] => false
  | ['\\'] => false
  | '\\' :: c :: rest => (c == 'u' && startsPair rest) || joinsHalves rest
  | _ :: rest => joinsHalves rest

/-- The text between the quotes of a string means the same in both notations. -/
structure IsSharedString (raw : List Char) : Prop where
  allowed : ∀ c ∈ raw, Yaml.isAllowed c = true
  notNextLine : '\x85' ∉ raw
  keepsSeparators : keepsSeparators raw = true
  notJoined : joinsHalves raw = false

instance (raw : List Char) : Decidable (IsSharedString raw) :=
  decidable_of_iff (raw.all Yaml.isAllowed = true ∧ '\x85' ∉ raw ∧
      keepsSeparators raw = true ∧ joinsHalves raw = false)
    ⟨fun ⟨h₁, h₂, h₃, h₄⟩ => ⟨List.all_eq_true.1 h₁, h₂, h₃, h₄⟩,
      fun ⟨h₁, h₂, h₃, h₄⟩ => ⟨List.all_eq_true.2 h₁, h₂, h₃, h₄⟩⟩

section Shared

variable {c : Char} {raw spelled rest : List Char}

theorem IsSharedString.of_cons (h : IsSharedString (c :: raw)) (hc : c ≠ '\\') :
    IsSharedString raw := by
  obtain ⟨hallowed, hline, hkeeps, hjoined⟩ := h
  refine ⟨fun d hd => hallowed d (List.mem_cons_of_mem c hd),
    fun hmem => hline (List.mem_cons_of_mem c hmem), ?_, ?_⟩
  · rw [Json.keepsSeparators, Bool.and_eq_true] at hkeeps
    exact hkeeps.2
  · rwa [joinsHalves] at hjoined
    · rintro rfl
      exact absurd rfl hc
    · rintro _ _ rfl
      exact absurd rfl hc

theorem IsSharedString.not_separator (h : IsSharedString (' ' :: c :: raw)) :
    isSeparator c = false := by
  have hkeeps := h.keepsSeparators
  simp only [Json.keepsSeparators, Bool.and_eq_true, Bool.not_eq_true'] at hkeeps
  simpa using hkeeps.1.1

theorem IsSharedString.after_separator (h : IsSharedString (c :: raw))
    (hc : isSeparator c = true) : raw.head? ≠ some ' ' ∧ startsMark raw = false := by
  have hkeeps := h.keepsSeparators
  simp only [Json.keepsSeparators, hc, Bool.and_eq_true, Bool.not_eq_true', Bool.true_and,
    Bool.or_eq_false_iff] at hkeeps
  exact ⟨by simpa using hkeeps.1.2.1, hkeeps.1.2.2⟩

theorem keepsSeparators_of_append (h : keepsSeparators (spelled ++ raw) = true) :
    keepsSeparators raw = true := by
  induction spelled with
  | nil => exact h
  | cons c spelled ih =>
      rw [List.cons_append, keepsSeparators, Bool.and_eq_true] at h
      exact ih h.2

theorem joinsHalves_append (h : ∀ c ∈ spelled, c ≠ '\\') :
    joinsHalves (spelled ++ raw) = joinsHalves raw := by
  induction spelled with
  | nil => rfl
  | cons c spelled ih =>
      have hc : c ≠ '\\' := h c List.mem_cons_self
      rw [List.cons_append, joinsHalves, ih fun d hd => h d (List.mem_cons_of_mem c hd)]
      · rintro rfl
        exact absurd rfl hc
      · rintro _ _ rfl
        exact absurd rfl hc

/-- A shared string goes on shared behind an escape, and the escape is not one of a pair. -/
theorem IsSharedString.of_escape (h : IsSharedString ('\\' :: (spelled ++ raw)))
    (hspelled : Escapes spelled c) : IsSharedString raw ∧ spelled.length ≤ 5 := by
  obtain ⟨hallowed, hline, hkeeps, hjoined⟩ := h
  suffices hraw : joinsHalves raw = false ∧ spelled.length ≤ 5 by
    refine ⟨⟨fun d hd => hallowed d (by simp [hd]), fun hmem => hline (by simp [hmem]), ?_,
      hraw.1⟩, hraw.2⟩
    have hkeeps' : Json.keepsSeparators (('\\' :: spelled) ++ raw) = true := hkeeps
    exact keepsSeparators_of_append hkeeps'
  cases hspelled with
  | simple =>
      rw [List.cons_append, List.nil_append, joinsHalves, Bool.or_eq_false_iff] at hjoined
      exact ⟨hjoined.2, by simp⟩
  | code hlength hcode =>
      rw [List.cons_append, joinsHalves, Bool.or_eq_false_iff,
        joinsHalves_append fun c hc => (ne_of_mem_hexNumber? hcode hc).2] at hjoined
      exact ⟨hjoined.2, by simp [hlength]⟩
  | @pair digits _ _ _ hlength hhigh hhalf hlength' hlow hhalf' =>
      have hdrop : digits.drop 6 = [] := List.drop_eq_nil_of_le (by omega)
      simp [joinsHalves, startsPair, List.take_append, List.drop_append, hlength, hhigh, hhalf,
        hlength', hlow, hhalf', hdrop] at hjoined

end Shared

end Json

namespace Yaml.Scalar

open Json (Decodes Escapes IsSharedString isSeparator startsMark)

variable {c e : Cursor} {ch d : Char} {fuel n : Nat} {raw chars spelled rest more : List Char}

/-! ## Escapes -/

theorem simpleEscape?_eq_some {letter : Char} (h : Json.simpleEscape? letter = some ch) :
    simpleEscape? letter = some ch := by
  unfold Json.simpleEscape? at h
  split at h <;> cases h <;> rfl

theorem hexValue?_lt {v : Nat} (h : Text.hexValue? ch = some v) : v < 16 := by
  unfold Text.hexValue? at h
  split at h
  · next hdigit =>
    have hrange := Char.isDigit_iff_toNat.1 hdigit
    cases h
    simp only [Char.reduceToNat] at *
    omega
  · split at h
    · next hrange =>
      cases h
      have hlow : 'a'.toNat ≤ ch.toNat := hrange.1
      have hhigh : ch.toNat ≤ 'f'.toNat := hrange.2
      simp only [Char.reduceToNat] at *
      omega
    · split at h
      · next hrange =>
        cases h
        have hlow : 'A'.toNat ≤ ch.toNat := hrange.1
        have hhigh : ch.toNat ≤ 'F'.toNat := hrange.2
        simp only [Char.reduceToNat] at *
        omega
      · cases h

/-- Digits behind a number below a bound leave it below a power of sixteen more. -/
theorem foldlM_hexValue?_lt {start bound : Nat} {digits : List Char} (hstart : start < bound)
    (h : digits.foldlM (fun value c => (Text.hexValue? c).map (value * 16 + ·)) start = some n) :
    n < bound * 16 ^ digits.length := by
  induction digits generalizing start bound with
  | nil =>
      cases h
      simpa using hstart
  | cons d digits ih =>
      rw [List.foldlM_cons] at h
      obtain ⟨value, hvalue, hmore⟩ := Option.bind_eq_some_iff.1 h
      obtain ⟨v, hv, rfl⟩ := Option.map_eq_some_iff.1 hvalue
      have hlt : start * 16 + v < bound * 16 := by
        have := hexValue?_lt hv
        omega
      rw [List.length_cons, Nat.pow_succ', ← Nat.mul_assoc]
      exact ih hlt hmore

theorem charOfCode_eq (h : n < 0x10000) : charOfCode n = .ok (Json.charOfCode n) := by
  unfold charOfCode Json.charOfCode Json.isHighHalf Json.isLowHalf
  rw [if_neg (by omega), if_neg (by omega)]
  split
  · next hhalf =>
    rw [if_pos]
    simp only [Bool.or_eq_true, Bool.and_eq_true, decide_eq_true_eq]
    omega
  · next hwhole =>
    rw [if_neg]
    simp only [Bool.or_eq_true, Bool.and_eq_true, decide_eq_true_eq]
    omega

/-- An escape that does not make up a pair stands for the same character. -/
theorem escape_eq (h : Escapes spelled ch) (hlength : spelled.length ≤ 5)
    (hrest : c.rest = spelled ++ rest) : escape c = .ok ([ch], c.skip spelled.length) := by
  cases h with
  | simple hletter =>
      unfold escape
      rw [Cursor.peek_eq hrest]
      simp only [simpleEscape?_eq_some hletter]
      rfl
  | @code digits n hdigits hcode =>
      have hnext : c.next.rest.take 4 = digits := by
        rw [Cursor.rest_next, hrest, List.cons_append, List.tail_cons, ← hdigits, List.take_left]
      have hsmall : n < 0x10000 := by
        have := foldlM_hexValue?_lt Nat.one_pos hcode
        rw [hdigits] at this
        omega
      have hletter : simpleEscape? 'u' = none := rfl
      have hfour : codeLength? 'u' = some 4 := rfl
      unfold escape
      rw [Cursor.peek_eq hrest]
      simp only [hletter, hfour, hnext, hcode, hdigits, charOfCode_eq hsmall]
      rw [List.length_cons, hdigits]
      rfl
  | pair hdigits _ _ hdigits' =>
      simp [hdigits, hdigits'] at hlength

/-! ## One character at a time -/

/-- Text before what was read. -/
def prepend (text : List Char) (read : Except Fault (List Char × Cursor)) :
    Except Fault (List Char × Cursor) := do
  let (more, c) ← read
  return (text ++ more, c)

theorem prepend_ok (text more : List Char) (c : Cursor) :
    prepend text (.ok (more, c)) = .ok (text ++ more, c) := rfl

theorem prepend_prepend (text more : List Char) (read : Except Fault (List Char × Cursor)) :
    prepend text (prepend more read) = prepend (text ++ more) read := by
  cases read with
  | error f => rfl
  | ok read => rw [prepend_ok, prepend_ok, prepend_ok, List.append_assoc]

/-- Whether a character is a space or a tab. -/
def isInlineBlank (ch : Char) : Bool := ch == ' ' || ch == '\t'

theorem quotedFrom_close (h : c.rest = '"' :: rest) :
    quotedFrom true (fuel + 1) c = .ok ([], c.next) := by
  rw [quotedFrom, Cursor.peek_eq h]
  rfl

theorem quotedFrom_plain (h : c.rest = ch :: rest) (hends : endsIndicator (some ch) = false)
    (hquote : ch ≠ '"') (hescape : ch ≠ '\\') :
    quotedFrom true (fuel + 1) c = prepend [ch] (quotedFrom true fuel c.next) := by
  rw [quotedFrom, Cursor.peek_eq h]
  simp only [hends, Bool.false_eq_true, if_false, if_true, hquote, hescape]
  rfl

theorem quotedFrom_escape (h : c.rest = '\\' :: (spelled ++ rest)) (hspelled : Escapes spelled ch)
    (hlength : spelled.length ≤ 5) :
    quotedFrom true (fuel + 1) c =
      prepend [ch] (quotedFrom true fuel (c.skip (spelled.length + 1))) := by
  have hnext : c.next.rest = spelled ++ rest := by
    rw [Cursor.rest_next, h]
    rfl
  have hread : escape c.next = .ok ([ch], c.skip (spelled.length + 1)) :=
    escape_eq hspelled hlength hnext
  rw [quotedFrom, Cursor.peek_eq h]
  simp only [show endsIndicator (some '\\') = false from rfl, hread, Bool.false_eq_true, if_false,
    if_true, show ('\\' : Char) ≠ '"' by decide]
  rfl

/-- A run of blanks is kept, unless a break follows; then the break stands for it. -/
theorem quotedFrom_blank (h : c.rest = ch :: rest) (hends : endsIndicator (some ch) = true) :
    quotedFrom true (fuel + 1) c =
      match (c.dropWhile isInlineBlank).peek, (c.dropWhile isInlineBlank).takeBreak? with
      | none, _ => .error .malformed
      | some _, none =>
        prepend (c.rest.takeWhile isInlineBlank)
          (quotedFrom true fuel (c.dropWhile isInlineBlank))
      | some _, some (first, c) =>
        (quotedBreaks (c.rest.length + 1) c).bind fun (more, c) =>
          prepend (foldBreaks first more) (quotedFrom true fuel c) := by
  rw [quotedFrom, Cursor.peek_eq h]
  simp only [hends, if_true]
  rfl

/-- Before a character that is no break, a run of blanks is kept. -/
theorem quotedFrom_run (h : c.rest = ' ' :: rest)
    (hafter : (rest.dropWhile isInlineBlank).head? = some d) (hd : isBreak d = false) :
    quotedFrom true (fuel + 1) c =
      prepend (c.rest.takeWhile isInlineBlank)
        (quotedFrom true fuel (c.dropWhile isInlineBlank)) := by
  have hpeek : (c.dropWhile isInlineBlank).peek = some d := by
    rw [Cursor.peek, Cursor.rest_dropWhile, h]
    exact hafter
  have hnone : (c.dropWhile isInlineBlank).takeBreak? = none := by
    refine Cursor.takeBreak?_eq_none fun ch hch => ?_
    rw [← Cursor.peek, hpeek] at hch
    exact Option.some.inj hch ▸ hd
  rw [quotedFrom_blank h rfl, hpeek, hnone]

theorem quotedFrom_last_space (h : c.rest = ' ' :: d :: rest) (hd : isBreak d = false)
    (hspace : d ≠ ' ') (htab : d ≠ '\t') :
    quotedFrom true (fuel + 1) c = prepend [' '] (quotedFrom true fuel c.next) := by
  have hstop : isInlineBlank d = false := by simp [isInlineBlank, hspace, htab]
  have hrun : c.rest.takeWhile isInlineBlank = [' '] := by
    rw [h]
    simp [isInlineBlank, hspace, htab]
  have hnext : c.dropWhile isInlineBlank = c.next := by
    rw [Cursor.dropWhile, Cursor.takeWhile, hrun]
    rfl
  rw [quotedFrom_run h (by rw [List.dropWhile_cons_of_neg (by simp [hstop])]; rfl) hd, hrun, hnext]

theorem quotedFrom_space_space (h : c.rest = ' ' :: ' ' :: rest)
    (hafter : (rest.dropWhile isInlineBlank).head? = some d) (hd : isBreak d = false) :
    quotedFrom true (fuel + 1) c = prepend [' '] (quotedFrom true (fuel + 1) c.next) := by
  have hnext : c.next.rest = ' ' :: rest := by
    rw [Cursor.rest_next, h]
    rfl
  have hrun : c.rest.takeWhile isInlineBlank = ' ' :: c.next.rest.takeWhile isInlineBlank := by
    rw [hnext, h]
    rfl
  have hpast : c.next.dropWhile isInlineBlank = c.dropWhile isInlineBlank := by
    rw [Cursor.dropWhile, Cursor.dropWhile, Cursor.takeWhile, Cursor.takeWhile, hrun]
    rfl
  rw [quotedFrom_run h hafter hd, quotedFrom_run hnext hafter hd, prepend_prepend, hrun, hpast]
  rfl

theorem eq_of_isSeparator (h : isSeparator ch = true) : ch = '\u2028' ∨ ch = '\u2029' := by
  simpa [isSeparator] using h

theorem takeBreak?_separator (h : c.rest = ch :: rest) (hch : isSeparator ch = true) :
    c.takeBreak? = some (ch, c.next) := by
  rw [Cursor.takeBreak?, h]
  rcases eq_of_isSeparator hch with rfl | rfl <;> rfl

/-- No blanks stand where some other character does. -/
theorem dropWhile_isInlineBlank (h : c.rest = ch :: rest) (hch : isInlineBlank ch = false) :
    c.dropWhile isInlineBlank = c := by
  rw [Cursor.dropWhile, Cursor.takeWhile, h, List.takeWhile_cons_of_neg (by simp [hch])]
  rfl

theorem isInlineBlank_separator (h : isSeparator ch = true) : isInlineBlank ch = false := by
  rcases eq_of_isSeparator h with rfl | rfl <;> rfl

/-- A separator is kept, and so are the breaks after it. -/
theorem quotedFrom_separator (h : c.rest = ch :: rest) (hch : isSeparator ch = true) :
    quotedFrom true (fuel + 1) c =
      (quotedBreaks (c.next.rest.length + 1) c.next).bind fun (more, c) =>
        prepend (ch :: more) (quotedFrom true fuel c) := by
  have hends : endsIndicator (some ch) = true := by
    rcases eq_of_isSeparator hch with rfl | rfl <;> rfl
  have hfold : ∀ more, foldBreaks ch more = ch :: more := by
    intro more
    rcases eq_of_isSeparator hch with rfl | rfl <;> rfl
  rw [quotedFrom_blank h hends, dropWhile_isInlineBlank h (isInlineBlank_separator hch),
    Cursor.peek_eq h, takeBreak?_separator h hch]
  simp only [hfold]

theorem quotedBreaks_succ (hmark : c.atMarker = false) :
    quotedBreaks (fuel + 1) c =
      match (c.dropWhile isInlineBlank).takeBreak? with
      | none => .ok ([], c.dropWhile isInlineBlank)
      | some (brk, c) => prepend [brk] (quotedBreaks fuel c) := by
  rw [quotedBreaks, hmark]
  rfl

theorem quotedFrom_last_separator (h : c.rest = ch :: d :: rest) (hch : isSeparator ch = true)
    (hmark : c.next.atMarker = false) (hd : isBreak d = false) (hblank : isInlineBlank d = false) :
    quotedFrom true (fuel + 1) c = prepend [ch] (quotedFrom true fuel c.next) := by
  have hnext : c.next.rest = d :: rest := by
    rw [Cursor.rest_next, h]
    rfl
  have hnone : c.next.takeBreak? = none := by
    refine Cursor.takeBreak?_eq_none fun ch hch => ?_
    rw [hnext] at hch
    exact Option.some.inj hch ▸ hd
  rw [quotedFrom_separator h hch, quotedBreaks_succ hmark, dropWhile_isInlineBlank hnext hblank,
    hnone]
  rfl

theorem quotedFrom_separator_separator (h : c.rest = ch :: d :: rest)
    (hch : isSeparator ch = true) (hd : isSeparator d = true) (hmark : c.next.atMarker = false) :
    quotedFrom true (fuel + 1) c = prepend [ch] (quotedFrom true (fuel + 1) c.next) := by
  have hnext : c.next.rest = d :: rest := by
    rw [Cursor.rest_next, h]
    rfl
  have hlength : c.next.rest.length = c.next.next.rest.length + 1 := by
    rw [Cursor.rest_next c.next, hnext]
    rfl
  rw [quotedFrom_separator h hch, quotedFrom_separator hnext hd, quotedBreaks_succ hmark,
    dropWhile_isInlineBlank hnext (isInlineBlank_separator hd), takeBreak?_separator hnext hd,
    hlength]
  dsimp only
  cases quotedBreaks (c.next.next.rest.length + 1) c.next.next with
  | error f => rfl
  | ok read => exact (prepend_prepend [ch] (d :: read.1) (quotedFrom true fuel read.2)).symm

/-! ## Whole strings -/

/-- A text in front of a quote starts with a document mark only if it does so by itself. -/
theorem atMarker_quote (hrest : c.rest = raw ++ '"' :: rest) (hmark : startsMark raw = false) :
    c.atMarker = false := by
  rw [startsMark] at hmark
  rw [Cursor.atMarker, Cursor.peekAt, hrest]
  rcases raw with _ | ⟨a, _ | ⟨b, _ | ⟨d, _ | ⟨e, raw⟩⟩⟩⟩
  · simp
  · simp
  · simp
  · simp [endsIndicator, isBreak]
  · simpa using hmark

theorem endsIndicator_eq_false (hspace : ch ≠ ' ') (htab : ch ≠ '\t')
    (hbreak : isBreak ch = false) : endsIndicator (some ch) = false := by
  simp [endsIndicator, hspace, htab, hbreak]

theorem isBreak_eq_false (hcontrol : ¬ d.toNat < 0x20) (hline : d ≠ '\x85')
    (hd : isSeparator d = false) : isBreak d = false := by
  have hne : ∀ ch : Char, ch.toNat < 0x20 → d ≠ ch := fun ch hch heq => hcontrol (heq ▸ hch)
  simp only [isSeparator, Bool.or_eq_false_iff] at hd
  simp [isBreak, hd.1, hd.2, hline, hne]

/-- What a string goes on with, or ends with, is no control character. A space or a separator there
is part of the string. -/
theorem exists_head (h : Decodes raw chars) (hline : '\x85' ∉ raw) (rest : List Char) :
    ∃ d more, raw ++ '"' :: rest = d :: more ∧ ¬ d.toNat < 0x20 ∧ d ≠ '\x85' ∧
      ((d = ' ' ∨ isSeparator d = true) → ∃ raw', raw = d :: raw') := by
  cases h with
  | nil => exact ⟨'"', rest, rfl, by decide, by decide, fun h => absurd h (by decide)⟩
  | @plain d raw _ _ _ hcontrol =>
      exact ⟨d, _, rfl, hcontrol, fun heq => hline (heq ▸ List.mem_cons_self), fun _ => ⟨raw, rfl⟩⟩
  | escape => exact ⟨'\\', _, rfl, by decide, by decide, fun h => absurd h (by decide)⟩

/-- Behind a run of spaces in a shared string there is no break. -/
theorem exists_after_spaces (h : Decodes raw chars) (hshared : IsSharedString (' ' :: raw))
    (rest : List Char) :
    ∃ d, ((raw ++ '"' :: rest).dropWhile isInlineBlank).head? = some d ∧ isBreak d = false := by
  induction h with
  | nil => exact ⟨'"', rfl, rfl⟩
  | @plain d raw _ _ _ hcontrol _ ih =>
      have hraw := hshared.of_cons (by decide)
      by_cases hspace : d = ' '
      · subst hspace
        exact ih hraw
      · have htab : d ≠ '\t' := by
          rintro rfl
          exact hcontrol (by decide)
        refine ⟨d, by simp [isInlineBlank, hspace, htab], isBreak_eq_false hcontrol ?_ ?_⟩
        · rintro rfl
          exact hraw.notNextLine List.mem_cons_self
        · exact hshared.not_separator
  | escape => exact ⟨'\\', rfl, rfl⟩

/-- A separator in a shared string stands for itself, whether another one is behind it or not. -/
theorem exists_quotedFrom_separator (h : Decodes raw chars) (hch : isSeparator ch = true)
    (hescape : ch ≠ '\\') (hshared : IsSharedString (ch :: raw))
    (hrest : c.rest = ch :: (raw ++ '"' :: rest)) (fuel : Nat) :
    ∃ fuel', fuel ≤ fuel' ∧
      quotedFrom true (fuel + 1) c = prepend [ch] (quotedFrom true fuel' c.next) := by
  obtain ⟨d, more, hmore, hd, hline, hinside⟩ :=
    exists_head h (hshared.of_cons hescape).notNextLine rest
  obtain ⟨hspace, hmark⟩ := hshared.after_separator hch
  have hmark' : c.next.atMarker = false := by
    have hnext : c.next.rest = raw ++ '"' :: rest := by
      rw [Cursor.rest_next, hrest]
      rfl
    exact atMarker_quote hnext hmark
  rw [hmore] at hrest
  by_cases hagain : isSeparator d = true
  · exact ⟨fuel + 1, Nat.le_succ fuel, quotedFrom_separator_separator hrest hch hagain hmark'⟩
  · have hd' : d ≠ ' ' := by
      rintro rfl
      obtain ⟨_, rfl⟩ := hinside (.inl rfl)
      exact hspace rfl
    have htab : d ≠ '\t' := by
      rintro rfl
      exact hd (by decide)
    exact ⟨fuel, le_rfl, quotedFrom_last_separator hrest hch hmark'
      (isBreak_eq_false hd hline (by simpa using hagain)) (by simp [isInlineBlank, hd', htab])⟩

/-- So does a space, whether another one is behind it or not. -/
theorem exists_quotedFrom_space (h : Decodes raw chars) (hshared : IsSharedString (' ' :: raw))
    (hrest : c.rest = ' ' :: (raw ++ '"' :: rest)) (fuel : Nat) :
    ∃ fuel', fuel ≤ fuel' ∧
      quotedFrom true (fuel + 1) c = prepend [' '] (quotedFrom true fuel' c.next) := by
  obtain ⟨d, more, hmore, hd, hline, hinside⟩ :=
    exists_head h (hshared.of_cons (by decide)).notNextLine rest
  by_cases hagain : d = ' '
  · subst hagain
    obtain ⟨raw, rfl⟩ := hinside (.inl rfl)
    obtain ⟨d, hafter, hd⟩ := exists_after_spaces h hshared rest
    exact ⟨fuel + 1, Nat.le_succ fuel, quotedFrom_space_space hrest hafter hd⟩
  · rw [hmore] at hrest
    have hd' : isSeparator d = false := by
      by_contra htrue
      obtain ⟨_, rfl⟩ := hinside (.inr (by simpa using htrue))
      exact htrue hshared.not_separator
    have htab : d ≠ '\t' := by
      rintro rfl
      exact hd (by decide)
    exact ⟨fuel, le_rfl, quotedFrom_last_space hrest (isBreak_eq_false hd hline hd') hagain htab⟩

/-- A character of a shared string stands for itself. -/
theorem exists_quotedFrom_plain (h : Decodes raw chars) (hquote : ch ≠ '"') (hescape : ch ≠ '\\')
    (hcontrol : ¬ ch.toNat < 0x20) (hshared : IsSharedString (ch :: raw))
    (hrest : c.rest = ch :: (raw ++ '"' :: rest)) (fuel : Nat) :
    ∃ fuel', fuel ≤ fuel' ∧
      quotedFrom true (fuel + 1) c = prepend [ch] (quotedFrom true fuel' c.next) := by
  by_cases hseparator : isSeparator ch = true
  · exact exists_quotedFrom_separator h hseparator hescape hshared hrest fuel
  by_cases hspace : ch = ' '
  · subst hspace
    exact exists_quotedFrom_space h hshared hrest fuel
  · obtain ⟨d, more, hmore, -⟩ := exists_head h (hshared.of_cons hescape).notNextLine rest
    refine ⟨fuel, le_rfl, quotedFrom_plain hrest (endsIndicator_eq_false hspace ?_ ?_) hquote
      hescape⟩
    · rintro rfl
      exact hcontrol (by decide)
    · refine isBreak_eq_false hcontrol ?_ (by simpa using hseparator)
      rintro rfl
      exact hshared.notNextLine List.mem_cons_self

/-- A shared string up to its closing quote stands for the same characters in both notations. -/
theorem quotedFrom_decodes (h : Decodes raw chars) (hshared : IsSharedString raw)
    (hrest : c.rest = raw ++ '"' :: rest) (hfuel : raw.length < fuel) :
    quotedFrom true fuel c = .ok (chars, c.skip (raw.length + 1)) := by
  induction h generalizing c fuel with
  | nil =>
      obtain ⟨fuel, rfl⟩ := Nat.exists_eq_add_one_of_ne_zero (Nat.ne_zero_of_lt hfuel)
      exact quotedFrom_close hrest
  | @plain ch raw chars hquote hescape hcontrol h ih =>
      obtain ⟨fuel, rfl⟩ := Nat.exists_eq_add_one_of_ne_zero (Nat.ne_zero_of_lt hfuel)
      obtain ⟨fuel', hle, heq⟩ :=
        exists_quotedFrom_plain h hquote hescape hcontrol hshared hrest fuel
      have hnext : c.next.rest = raw ++ '"' :: rest := by
        rw [Cursor.rest_next, hrest]
        rfl
      have hfuel' : raw.length < fuel' := by
        rw [List.length_cons] at hfuel
        omega
      rw [heq, ih (hshared.of_cons hescape) hnext hfuel']
      rfl
  | @escape spelled raw chars ch hspelled h ih =>
      obtain ⟨fuel, rfl⟩ := Nat.exists_eq_add_one_of_ne_zero (Nat.ne_zero_of_lt hfuel)
      obtain ⟨hraw, hlength⟩ := hshared.of_escape hspelled
      have hnext : (c.skip (spelled.length + 1)).rest = raw ++ '"' :: rest := by
        rw [Cursor.rest_skip, hrest]
        simp
      have hfuel' : raw.length < fuel := by
        rw [List.length_cons, List.length_append] at hfuel
        omega
      have hpast : (c.skip (spelled.length + 1)).skip (raw.length + 1) =
          c.skip (('\\' :: (spelled ++ raw)).length + 1) := by
        rw [← Cursor.skip_add, List.length_cons, List.length_append]
        congr 1
        omega
      rw [quotedFrom_escape (by simpa using hrest) hspelled hlength, ih hraw hnext hfuel', hpast]
      rfl

theorem quoted_decodes (h : Decodes raw chars) (hshared : IsSharedString raw)
    (hrest : c.rest = '"' :: (raw ++ '"' :: rest)) :
    quoted true c = .ok (chars, c.skip (raw.length + 2)) := by
  have hnext : c.next.rest = raw ++ '"' :: rest := by
    rw [Cursor.rest_next, hrest]
    rfl
  exact quotedFrom_decodes h hshared hnext (by rw [hrest]; simp; omega)

end Yaml.Scalar

end EmulatedDevice
