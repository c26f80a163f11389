import EmulatedDevice.Artifact
import Mathlib.Data.List.Nodup

/-!
# First occurrences

A list of artifacts is gone through once, with those met so far at hand, and an
artifact is kept where it is met for the first time. What is kept depends on
which artifacts have been met and not on the order in which they came. So a list can
be gone through in two parts, the second with the first as what was met, and a part
that has nothing new to offer can be left out. That is all that a concatenation of
many lists needs, in which any artifact may be repeated.

The order is said by positions: what is kept stands in the order of the places
where the artifacts come first, and it is what stands at these places.
-/

namespace EmulatedDevice.Artifact

variable {a : Artifact} {seen xs ys : List Artifact}

theorem mem_uniqueAfter : a ∈ uniqueAfter seen xs ↔ a ∈ xs ∧ a ∉ seen := by
  induction xs generalizing seen with
  | nil => simp [uniqueAfter]
  | cons x rest ih =>
      rw [uniqueAfter, List.mem_cons]
      split
      · next hx =>
        rw [ih]
        constructor
        · rintro ⟨hrest, hseen⟩
          exact ⟨.inr hrest, hseen⟩
        · rintro ⟨rfl | hrest, hseen⟩
          · exact absurd hx hseen
          · exact ⟨hrest, hseen⟩
      · next hx =>
        rw [List.mem_cons, ih, List.mem_cons, not_or]
        constructor
        · rintro (rfl | ⟨hrest, _, hseen⟩)
          · exact ⟨.inl rfl, hx⟩
          · exact ⟨.inr hrest, hseen⟩
        · rintro ⟨rfl | hrest, hseen⟩
          · exact .inl rfl
          · exact (Decidable.em (a = x)).imp_right fun hne => ⟨hrest, hne, hseen⟩

theorem nodup_uniqueAfter (seen xs : List Artifact) : (uniqueAfter seen xs).Nodup := by
  induction xs generalizing seen with
  | nil => exact List.nodup_nil
  | cons x rest ih =>
      rw [uniqueAfter]
      split
      · exact ih seen
      · refine List.nodup_cons.2 ⟨fun hmem => ?_, ih (x :: seen)⟩
        exact (mem_uniqueAfter.1 hmem).2 (List.mem_cons_self ..)

/-- What was met matters, and not in which order. -/
theorem uniqueAfter_congr {seen' : List Artifact} (h : ∀ a, a ∈ seen ↔ a ∈ seen') :
    uniqueAfter seen xs = uniqueAfter seen' xs := by
  induction xs generalizing seen seen' with
  | nil => rfl
  | cons x rest ih =>
      have hmore : ∀ a, a ∈ x :: seen ↔ a ∈ x :: seen' := fun a => by
        rw [List.mem_cons, List.mem_cons, h a]
      rw [uniqueAfter, uniqueAfter, ih h, ih hmore]
      simp only [h x]

/-- A list in two parts: the second part is gone through with the first as what was met. -/
theorem uniqueAfter_append (seen xs ys : List Artifact) :
    uniqueAfter seen (xs ++ ys) = uniqueAfter seen xs ++ uniqueAfter (xs ++ seen) ys := by
  induction xs generalizing seen with
  | nil => rfl
  | cons x rest ih =>
      rw [List.cons_append, uniqueAfter, uniqueAfter]
      split
      · next hx =>
        rw [ih]
        refine congrArg _ (uniqueAfter_congr fun a => ?_)
        simp only [List.cons_append, List.mem_cons, List.mem_append]
        exact ⟨.inr, fun h => h.elim (fun heq => .inr (heq ▸ hx)) id⟩
      · rw [ih, List.cons_append]
        refine congrArg _ (congrArg _ (uniqueAfter_congr fun a => ?_))
        simp only [List.cons_append, List.mem_cons, List.mem_append, or_left_comm]

/-- A part that has nothing new to offer. -/
theorem uniqueAfter_of_subset (h : ∀ a ∈ xs, a ∈ seen) : uniqueAfter seen xs = [] := by
  rw [List.eq_nil_iff_forall_not_mem]
  intro a ha
  obtain ⟨hmem, hnew⟩ := mem_uniqueAfter.1 ha
  exact hnew (h a hmem)

/-- A part in which everything is new. -/
theorem uniqueAfter_of_nodup (hnodup : xs.Nodup) (hnew : ∀ a ∈ xs, a ∉ seen) :
    uniqueAfter seen xs = xs := by
  induction xs generalizing seen with
  | nil => rfl
  | cons x rest ih =>
      rw [List.nodup_cons] at hnodup
      rw [uniqueAfter, if_neg (hnew x (List.mem_cons_self ..)), ih hnodup.2]
      intro a ha
      rw [List.mem_cons, not_or]
      exact ⟨fun heq => hnodup.1 (heq ▸ ha), hnew a (List.mem_cons_of_mem _ ha)⟩

/-- What is kept stands in the order of the places where it comes first. -/
theorem uniqueAfter_inOrder (seen xs : List Artifact) :
    (uniqueAfter seen xs).Pairwise fun a b => xs.idxOf a < xs.idxOf b := by
  induction xs generalizing seen with
  | nil => exact List.Pairwise.nil
  | cons x rest ih =>
      -- what is kept of the rest is not `x`, so one place is added to each position
      have hrest : ∀ seen', x ∈ seen' → (uniqueAfter seen' rest).Pairwise
          fun a b => (x :: rest).idxOf a < (x :: rest).idxOf b := by
        intro seen' hx
        refine (ih seen').imp_of_mem fun {a b} ha hb hlt => ?_
        have hne : ∀ c ∈ uniqueAfter seen' rest, x ≠ c := fun c hc heq =>
          (mem_uniqueAfter.1 hc).2 (heq ▸ hx)
        rw [List.idxOf_cons_ne rest (hne a ha), List.idxOf_cons_ne rest (hne b hb)]
        omega
      rw [uniqueAfter]
      split
      · next hx => exact hrest seen hx
      · refine List.pairwise_cons.2 ⟨fun b hb => ?_, hrest _ (List.mem_cons_self ..)⟩
        have hne : x ≠ b := fun heq => (mem_uniqueAfter.1 hb).2 (heq ▸ List.mem_cons_self ..)
        rw [List.idxOf_cons_self, List.idxOf_cons_ne rest hne]
        omega

/-- What is kept when more was met: of what would be kept, that which is not among it. -/
theorem uniqueAfter_append_seen (more seen xs : List Artifact) :
    uniqueAfter (more ++ seen) xs = (uniqueAfter seen xs).filter (· ∉ more) := by
  induction xs generalizing seen with
  | nil => rfl
  | cons x rest ih =>
      rw [uniqueAfter, uniqueAfter]
      by_cases hseen : x ∈ seen
      · rw [if_pos (List.mem_append_right _ hseen), if_pos hseen, ih]
      -- what is met with `x` in the middle is what is met with `x` in front
      have hmove : uniqueAfter (more ++ x :: seen) rest = uniqueAfter (x :: (more ++ seen)) rest :=
        uniqueAfter_congr fun a => List.perm_middle.mem_iff
      rw [if_neg hseen]
      by_cases hmore : x ∈ more
      · have hknown : uniqueAfter (x :: (more ++ seen)) rest = uniqueAfter (more ++ seen) rest :=
          uniqueAfter_congr fun a => by
            rw [List.mem_cons, or_iff_right_of_imp]
            rintro rfl
            exact List.mem_append_left _ hmore
        rw [if_pos (List.mem_append_left _ hmore), List.filter_cons_of_neg (by simpa using hmore),
          ← ih, hmove, hknown]
      · have hnew : x ∉ more ++ seen := fun h => (List.mem_append.1 h).elim hmore hseen
        rw [if_neg hnew, List.filter_cons_of_pos (by simpa using hmore), ← ih, hmove]

theorem uniqueAfter_sublist (seen xs : List Artifact) : (uniqueAfter seen xs).Sublist xs := by
  induction xs generalizing seen with
  | nil => exact List.Sublist.slnil
  | cons x rest ih =>
      rw [uniqueAfter]
      split
      · exact (ih seen).cons x
      · exact (ih (x :: seen)).cons_cons x

/-- What is kept is what stands at the first places of the artifacts that have not been met. The
places are counted from `n`. -/
theorem uniqueAfter_eq_filter_zipIdx (seen xs : List Artifact) (n : Nat) :
    uniqueAfter seen xs =
      ((xs.zipIdx n).filter fun place =>
        place.1 ∉ seen ∧ xs.idxOf place.1 + n = place.2).map Prod.fst := by
  induction xs generalizing seen n with
  | nil => rfl
  | cons x rest ih =>
      -- behind `x`, an artifact is at its first place if it is no other `x` and is so in the rest
      have hrest : ∀ seen' : List Artifact, (∀ a, a ∈ seen' ↔ a = x ∨ a ∈ seen) →
          (rest.zipIdx (n + 1)).filter (fun place =>
            decide (place.1 ∉ seen ∧ (x :: rest).idxOf place.1 + n = place.2)) =
          (rest.zipIdx (n + 1)).filter (fun place =>
            decide (place.1 ∉ seen' ∧ rest.idxOf place.1 + (n + 1) = place.2)) := by
        intro seen' hseen'
        refine List.filter_congr fun place hplace => ?_
        have hbehind : n + 1 ≤ place.2 := List.le_snd_of_mem_zipIdx hplace
        rw [decide_eq_decide, hseen', not_or]
        by_cases heq : place.1 = x
        · rw [heq, List.idxOf_cons_self]
          constructor
          · rintro ⟨_, h⟩
            omega
          · rintro ⟨⟨h, _⟩, _⟩
            exact absurd rfl h
        · rw [List.idxOf_cons_ne rest fun h => heq h.symm]
          constructor
          · rintro ⟨hnew, h⟩
            exact ⟨⟨heq, hnew⟩, by omega⟩
          · rintro ⟨⟨_, hnew⟩, h⟩
            exact ⟨hnew, by omega⟩
      rw [uniqueAfter, List.zipIdx_cons]
      split
      · next hx =>
        rw [List.filter_cons_of_neg (by simpa using hx), ih,
          hrest seen fun a => by rw [or_iff_right_of_imp]; rintro rfl; exact hx]
      · next hx =>
        rw [List.filter_cons_of_pos (by simpa using hx), List.map_cons, ih,
          hrest (x :: seen) fun a => List.mem_cons]

/-- The elements of a list at the places where they come first. -/
def atFirstPlaces (xs : List Artifact) : List Artifact :=
  (xs.zipIdx.filter fun place => xs.idxOf place.1 = place.2).map Prod.fst

theorem stableUnique_eq_atFirstPlaces (xs : List Artifact) :
    stableUnique xs = atFirstPlaces xs := by
  rw [stableUnique, uniqueAfter_eq_filter_zipIdx [] xs 0, atFirstPlaces]
  simp

theorem mem_stableUnique : a ∈ stableUnique xs ↔ a ∈ xs := by
  rw [stableUnique, mem_uniqueAfter]
  simp

theorem stableUnique_append (xs ys : List Artifact) :
    stableUnique (xs ++ ys) = stableUnique xs ++ (stableUnique ys).filter (· ∉ xs) := by
  rw [stableUnique, uniqueAfter_append, uniqueAfter_append_seen]
  rfl

/-- A list without its repeats has the artifacts of the list, each once, and is what stands in it at
their first places. It has no repeats to lose. A second list adds what the first one does not have,
and nothing when there is no such artifact. -/
theorem stableUnique_keeps_firsts (xs ys : List Artifact) :
    (stableUnique xs).Nodup ∧
    (∀ a, a ∈ stableUnique xs ↔ a ∈ xs) ∧
    (stableUnique xs).Sublist xs ∧
    stableUnique xs = atFirstPlaces xs ∧
    stableUnique (stableUnique xs) = stableUnique xs ∧
    stableUnique (xs ++ ys) = stableUnique xs ++ (stableUnique ys).filter (· ∉ xs) ∧
    (stableUnique (xs ++ ys) = stableUnique xs ↔ ys ⊆ xs) := by
  refine ⟨nodup_uniqueAfter [] xs, fun a => mem_stableUnique, uniqueAfter_sublist [] xs,
    stableUnique_eq_atFirstPlaces xs, ?_, stableUnique_append xs ys, ?_⟩
  · exact uniqueAfter_of_nodup (nodup_uniqueAfter [] xs) fun a _ => List.not_mem_nil
  · rw [stableUnique_append, List.append_right_eq_self, List.filter_eq_nil_iff]
    constructor
    · intro h a ha
      simpa using h a (mem_stableUnique.2 ha)
    · intro h a ha
      simpa using h (mem_stableUnique.1 ha)

end EmulatedDevice.Artifact
