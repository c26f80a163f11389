import EmulatedDevice.Yaml.Cursor
import Mathlib.Data.List.TakeWhile

/-!
# Where a cursor gets to

A cursor that has passed over some characters has the rest of the text without them
ahead, and as many more characters behind it. It is still on its line if none of them
broke it.

Between the tokens of a document inside brackets there is nothing but spaces and breaks
of two kinds. Every walk over them ends at the first character that is neither.
-/

namespace EmulatedDevice.Yaml

/-- Whether a character is a space, a newline or a carriage return. -/
def isSpacing (c : Char) : Bool :=
  c == ' ' || c == '\n' || c == '\r'

namespace Cursor

variable {c : Cursor} {n : Nat} {ch : Char} {rest : List Char}

theorem skip_add (c : Cursor) (n m : Nat) : c.skip (n + m) = (c.skip n).skip m := by
  induction n generalizing c with
  | zero => rw [Nat.zero_add]; rfl
  | succ n ih => rw [Nat.succ_add]; exact ih c.next

theorem rest_next (c : Cursor) : c.next.rest = c.rest.tail := by
  unfold next
  split
  · next h => rw [h]; rfl
  · next h => rw [h]; dsimp only; split <;> rfl

@[simp] theorem rest_skip (c : Cursor) (n : Nat) : (c.skip n).rest = c.rest.drop n := by
  induction n generalizing c with
  | zero => rfl
  | succ n ih => rw [skip, ih, rest_next, List.drop_tail]

theorem index_next (h : c.rest ≠ []) : c.next.index = c.index + 1 := by
  unfold next
  split
  · next hnil => exact absurd hnil h
  · dsimp only; split <;> rfl

theorem index_skip (h : n ≤ c.rest.length) : (c.skip n).index = c.index + n := by
  induction n generalizing c with
  | zero => rfl
  | succ n ih =>
      have hne : c.rest ≠ [] := List.ne_nil_of_length_pos (Nat.zero_lt_of_lt h)
      have hlength : n ≤ c.next.rest.length := by
        rw [rest_next, List.length_tail]
        omega
      rw [skip, ih hlength, index_next hne]
      omega

theorem line_next (h : c.rest = ch :: rest) (hch : isBreak ch = false) :
    c.next.line = c.line := by
  unfold next
  rw [h]
  simp [hch]

theorem line_skip (h : ∀ ch ∈ c.rest.take n, isBreak ch = false) : (c.skip n).line = c.line := by
  induction n generalizing c with
  | zero => rfl
  | succ n ih =>
      cases hrest : c.rest with
      | nil =>
          have hnext : c.next = c := by
            unfold next
            rw [hrest]
          rw [skip, ih, hnext]
          simp [rest_next, hrest]
      | cons ch rest =>
          rw [hrest, List.take_succ_cons, List.forall_mem_cons] at h
          rw [skip, ih, line_next hrest h.1]
          rw [rest_next, hrest]
          exact h.2

theorem rest_dropWhile (c : Cursor) (p : Char → Bool) :
    (c.dropWhile p).rest = c.rest.dropWhile p := by
  calc (c.skip (c.rest.takeWhile p).length).rest
      = (c.rest.takeWhile p ++ c.rest.dropWhile p).drop (c.rest.takeWhile p).length := by
        rw [rest_skip, List.takeWhile_append_dropWhile]
    _ = c.rest.dropWhile p := List.drop_left

theorem peek_eq (h : c.rest = ch :: rest) : c.peek = some ch := by
  rw [peek, h]
  rfl

/-! ## Breaks -/

theorem takeBreak?_eq_none (h : ∀ ch, c.rest.head? = some ch → isBreak ch = false) :
    c.takeBreak? = none := by
  cases hrest : c.rest with
  | nil => simp [takeBreak?, hrest]
  | cons ch rest =>
      have hch : isBreak ch = false := h ch (by rw [hrest]; rfl)
      unfold takeBreak?
      rw [hrest]
      split
      · next heq => cases heq; cases hch
      · next heq => cases heq; cases hch
      · next heq => cases heq; cases hch
      · next heq => cases heq; rw [if_neg (by rw [hch]; exact Bool.false_ne_true)]
      · rfl

/-- Past one of the breaks between tokens, and perhaps both characters of a combined one. -/
theorem exists_takeBreak? (h : c.rest = ch :: rest) (hspacing : isSpacing ch = true)
    (hspace : ch ≠ ' ') :
    ∃ c', c.takeBreak? = some ('\n', c') ∧ c'.rest.length < c.rest.length ∧
      c'.rest.dropWhile isSpacing = c.rest.dropWhile isSpacing := by
  simp only [isSpacing, Bool.or_eq_true, beq_iff_eq, hspace, false_or] at hspacing
  unfold takeBreak?
  rw [h]
  split
  · next more heq =>
    obtain ⟨rfl, rfl⟩ := List.cons.inj heq
    exact ⟨c.skip 2, rfl, by rw [rest_skip, h]; exact Nat.lt_add_of_pos_right (Nat.succ_pos 1),
      by rw [rest_skip, h]; rfl⟩
  · next heq => cases heq; simp at hspacing
  · next heq => cases heq; simp at hspacing
  · next heq =>
    obtain ⟨rfl, rfl⟩ := List.cons.inj heq
    refine ⟨c.next, ?_, by rw [rest_next, h]; exact Nat.lt_succ_self _, ?_⟩
    · rw [if_pos]
      rcases hspacing with rfl | rfl <;> rfl
    · rw [rest_next, h]
      rcases hspacing with rfl | rfl <;> rfl
  · next heq => cases heq

theorem rest_skipSpaces (c : Cursor) : c.skipSpaces.rest = c.rest.dropWhile (· == ' ') :=
  rest_dropWhile c _

theorem dropWhile_isSpacing_dropWhile (text : List Char) :
    (text.dropWhile (· == ' ')).dropWhile isSpacing = text.dropWhile isSpacing := by
  induction text with
  | nil => rfl
  | cons ch text ih =>
      by_cases hspace : ch = ' '
      · subst hspace
        exact ih
      · rw [List.dropWhile_cons_of_neg (by simpa using hspace)]

/-- Past some spaces a cursor is at the end of a gap, or at a break inside it. -/
theorem skipSpaces_cases (h : c.rest.dropWhile isSpacing = rest)
    (hrest : ∀ ch, rest.head? = some ch → isBreak ch = false) :
    (c.skipSpaces.rest = rest ∧ c.skipSpaces.takeBreak? = none) ∨
      c.skipSpaces.peek ≠ some '#' ∧ ∃ c', c.skipSpaces.takeBreak? = some ('\n', c') ∧
        c'.rest.length < c.rest.length ∧ c'.rest.dropWhile isSpacing = rest := by
  have hpast : c.skipSpaces.rest.dropWhile isSpacing = rest := by
    rw [rest_skipSpaces, dropWhile_isSpacing_dropWhile, h]
  have hlength : c.skipSpaces.rest.length ≤ c.rest.length := by
    rw [rest_skipSpaces]
    exact (List.dropWhile_sublist _).length_le
  cases hahead : c.skipSpaces.rest with
  | nil =>
      rw [hahead] at hpast
      refine .inl ⟨hpast, takeBreak?_eq_none ?_⟩
      rw [hahead]
      nofun
  | cons ch more =>
      by_cases hspacing : isSpacing ch = true
      · have hspace : ch ≠ ' ' := by
          rintro rfl
          have hstop := List.head?_dropWhile_not (· == ' ') c.rest
          rw [← rest_skipSpaces, hahead] at hstop
          cases hstop
        obtain ⟨c', hbreak, hshorter, hc'⟩ := exists_takeBreak? hahead hspacing hspace
        refine .inr ⟨?_, c', hbreak, hshorter.trans_le hlength, hc'.trans hpast⟩
        rw [peek_eq hahead]
        rintro ⟨⟩
        cases hspacing
      · rw [hahead, List.dropWhile_cons_of_neg hspacing] at hpast
        refine .inl ⟨hpast, takeBreak?_eq_none ?_⟩
        rw [hahead, hpast]
        exact hrest

end Cursor

end EmulatedDevice.Yaml
