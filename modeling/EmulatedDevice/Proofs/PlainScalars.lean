import EmulatedDevice.Proofs.CursorMoves
import EmulatedDevice.Yaml.Scalar

/-!
# Plain scalars inside brackets

Inside brackets a plain scalar ends before the first blank or sign. What follows it up
to the next sign is passed over with it, and since this is no text, the scalar does not
go on there.
-/

namespace EmulatedDevice.Yaml.Scalar

variable {c : Cursor} {d : Char} {fuel : Nat} {indent : Int} {raw rest more : List Char}

theorem isBreak_of_isFlowSign (h : isFlowSign d = true) : isBreak d = false := by
  simp only [isFlowSign, Bool.or_eq_true, beq_iff_eq] at h
  rcases h with (((rfl | rfl) | rfl) | rfl) | rfl <;> rfl

/-- Text in front of a gap and a sign does not start with a document mark. -/
theorem atMarker_gap (h : c.rest.dropWhile isSpacing = d :: more) (hd : isFlowSign d = true) :
    c.atMarker = false := by
  have hhead : c.rest.head? ≠ some '-' ∧ c.rest.head? ≠ some '.' := by
    cases hrest : c.rest with
    | nil => simp
    | cons ch rest =>
        rw [hrest] at h
        constructor <;> rintro ⟨⟩ <;> cases h <;> cases hd
  rw [Cursor.atMarker]
  cases hrest : c.rest with
  | nil => rfl
  | cons ch rest =>
      rw [hrest] at hhead
      simp only [List.head?_cons, ne_eq, Option.some.injEq] at hhead
      simp [hhead.1, hhead.2]

theorem exists_gapBreaks (h : c.rest.dropWhile isSpacing = d :: more) (hd : isFlowSign d = true)
    (hfuel : c.rest.length < fuel) :
    ∃ breaks c', gapBreaks fuel c = (breaks, c', false) ∧ c'.rest = d :: more := by
  have hbreak : ∀ ch, (d :: more).head? = some ch → isBreak ch = false := by
    rintro _ ⟨⟩
    exact isBreak_of_isFlowSign hd
  induction fuel generalizing c with
  | zero => exact absurd hfuel (Nat.not_lt_zero _)
  | succ fuel ih =>
      rw [gapBreaks]
      rcases Cursor.skipSpaces_cases h hbreak with
        ⟨hrest, hnone⟩ | ⟨-, c', htake, hshorter, hc'⟩
      · exact ⟨[], c.skipSpaces, by simp only [hnone], hrest⟩
      · obtain ⟨breaks, c'', heq, hrest⟩ := ih hc' (by omega)
        refine ⟨'\n' :: breaks, c'', ?_, hrest⟩
        simp only [htake, atMarker_gap hc' hd, heq, Bool.false_eq_true, if_false]

theorem rest_plainGap (h : c.rest.dropWhile isSpacing = d :: more) (hd : isFlowSign d = true) :
    (plainGap c).cursor.rest = d :: more := by
  have hbreak : ∀ ch, (d :: more).head? = some ch → isBreak ch = false := by
    rintro _ ⟨⟩
    exact isBreak_of_isFlowSign hd
  have hspaces : c.takeWhile (· == ' ') = (c.rest.takeWhile (· == ' '), c.skipSpaces) := rfl
  unfold plainGap
  rw [hspaces]
  rcases Cursor.skipSpaces_cases h hbreak with ⟨hrest, hnone⟩ | ⟨-, c', htake, -, hc'⟩
  · simp only [hnone]
    exact hrest
  · obtain ⟨breaks, c'', heq, hrest⟩ := exists_gapBreaks hc' hd (Nat.lt_succ_self _)
    simp only [htake, atMarker_gap hc' hd, heq, Bool.false_eq_true, if_false]
    exact hrest

/-- Whether a character goes on with a plain scalar inside brackets, whatever follows it. -/
def isPlain (ch : Char) : Bool :=
  !endsIndicator (some ch) && ch != ':' && ch != '#' && !endsInFlow ch

theorem plainPiece_append (hraw : ∀ ch ∈ raw, isPlain ch = true)
    (hrest : plainPiece true rest = []) : plainPiece true (raw ++ rest) = raw := by
  induction raw with
  | nil => exact hrest
  | cons ch raw ih =>
      have hch : isPlain ch = true := hraw ch List.mem_cons_self
      simp only [isPlain, Bool.and_eq_true, Bool.not_eq_true', bne_iff_ne] at hch
      obtain ⟨⟨⟨hends, hcolon⟩, -⟩, hflow⟩ := hch
      rw [List.cons_append, plainPiece, ih fun d hd => hraw d (List.mem_cons_of_mem ch hd)]
      simp [hends, hcolon, hflow]

theorem plainPiece_gap (h : rest.dropWhile isSpacing = d :: more) (hd : isFlowSign d = true) :
    plainPiece true rest = [] := by
  cases rest with
  | nil => rfl
  | cons ch rest =>
      by_cases hspacing : isSpacing ch = true
      · simp only [isSpacing, Bool.or_eq_true, beq_iff_eq] at hspacing
        rcases hspacing with (rfl | rfl) | rfl <;> rfl
      · rw [List.dropWhile_cons_of_neg hspacing] at h
        obtain ⟨rfl, rfl⟩ := List.cons.inj h
        simp [plainPiece, endsInFlow, hd]

/-- A plain scalar in front of a gap and a sign. The gap is passed over with it. -/
theorem exists_plain (c : Cursor) (indent : Int) (hne : raw ≠ [])
    (hraw : ∀ ch ∈ raw, isPlain ch = true) (hrest : c.rest = raw ++ rest)
    (h : rest.dropWhile isSpacing = d :: more) (hd : isFlowSign d = true) :
    ∃ c' broken, plain true indent c = (raw, c', broken) ∧ c'.rest = d :: more := by
  have hpiece : plainPiece true c.rest = raw := by
    rw [hrest, plainPiece_append hraw (plainPiece_gap h hd)]
  have hpeek : c.peek ≠ some '#' := by
    obtain ⟨ch, raw, rfl⟩ := List.exists_cons_of_ne_nil hne
    rw [Cursor.peek_eq hrest]
    rintro ⟨⟩
    cases hraw '#' List.mem_cons_self
  have hgap : (plainGap (c.skip raw.length)).cursor.rest = d :: more := by
    refine rest_plainGap ?_ hd
    rw [Cursor.rest_skip, hrest, List.drop_left, h]
  have hend : ∀ fuel text broken, plainFrom true indent fuel text broken
      (plainGap (c.skip raw.length)).cursor =
        ([], (plainGap (c.skip raw.length)).cursor, broken) := by
    intro fuel text broken
    cases fuel with
    | zero => rfl
    | succ fuel =>
        have hnone : plainPiece true (d :: more) = [] := by simp [plainPiece, endsInFlow, hd]
        rw [plainFrom, hgap, hnone]
        simp
  rw [plain, plainFrom, if_neg hpeek, hpiece]
  split
  · exact absurd rfl hne
  · dsimp only
    split
    · exact ⟨_, _, rfl, hgap⟩
    · rw [hend]
      exact ⟨_, (plainGap (c.skip raw.length)).broken, by simp, hgap⟩

end EmulatedDevice.Yaml.Scalar
