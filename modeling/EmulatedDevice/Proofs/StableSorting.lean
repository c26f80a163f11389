import Mathlib.Data.List.Basic
import Mathlib.Order.Lattice

/-!
# Stable sorting

A list is sorted by the keys of its elements, and elements with the same key keep
the order that they have. For a merge sort this follows from the fact that a sorted
list in what is given stays a part of what results: the elements with one key are
such a list. There is no choice in it, so that a stable sort is known by its
properties, whichever way it was come by.
-/

namespace EmulatedDevice

variable {α β : Type} [LinearOrder β] {key : α → β} {l sorted sorted' : List α}

/-- The elements of a list in the order of their keys, those with the same key in the order in which
they stand in the list. -/
structure IsStableSort (key : α → β) (l sorted : List α) : Prop where
  perm : sorted.Perm l
  ordered : sorted.Pairwise fun a b => key a ≤ key b
  stable : ∀ k, sorted.filter (fun a => key a = k) = l.filter fun a => key a = k

theorem isStableSort_mergeSort (l : List α) {le : α → α → Bool}
    (hle : ∀ a b, le a b = true ↔ key a ≤ key b) : IsStableSort key l (l.mergeSort le) := by
  have htrans : ∀ a b c, le a b = true → le b c = true → le a c = true := fun a b c hab hbc =>
    (hle a c).2 (le_trans ((hle a b).1 hab) ((hle b c).1 hbc))
  have htotal : ∀ a b, (le a b || le b a) = true := fun a b => by
    rw [Bool.or_eq_true, hle, hle]
    exact le_total _ _
  have hperm := List.mergeSort_perm l le
  refine ⟨hperm, (List.pairwise_mergeSort htrans htotal l).imp fun h => (hle _ _).1 h, fun k => ?_⟩
  have hequal : (l.filter fun a => key a = k).Pairwise fun a b => le a b = true := by
    refine List.pairwise_of_forall_mem_list fun a ha b hb => (hle a b).2 (le_of_eq ?_)
    rw [of_decide_eq_true (List.mem_filter.1 ha).2, of_decide_eq_true (List.mem_filter.1 hb).2]
  have hsublist := (List.sublist_mergeSort htrans htotal hequal List.filter_sublist).filter
    fun a => key a = k
  rw [List.filter_filter] at hsublist
  simp only [Bool.and_self] at hsublist
  exact (hsublist.eq_of_length (hperm.filter _).length_eq.symm).symm

/-- Lists in the order of the keys are the same if they have the same elements for every key. -/
theorem eq_of_filter_eq (h : sorted.Pairwise fun a b => key a ≤ key b)
    (h' : sorted'.Pairwise fun a b => key a ≤ key b)
    (heq : ∀ k, sorted.filter (fun a => key a = k) = sorted'.filter fun a => key a = k) :
    sorted = sorted' := by
  induction sorted generalizing sorted' with
  | nil =>
      cases sorted' with
      | nil => rfl
      | cons b rest' => simpa using heq (key b)
  | cons a rest ih =>
      cases sorted' with
      | nil => simpa using heq (key a)
      | cons b rest' =>
          obtain ⟨ha, hrest⟩ := List.pairwise_cons.1 h
          obtain ⟨hb, hrest'⟩ := List.pairwise_cons.1 h'
          -- each of the two heads comes first in the order, so they have the same key
          have hkey : key a = key b := by
            have hmem : b ∈ a :: rest :=
              List.mem_of_mem_filter (p := fun c => key c = key b) (by rw [heq]; simp)
            have hmem' : a ∈ b :: rest' :=
              List.mem_of_mem_filter (p := fun c => key c = key a) (by rw [← heq]; simp)
            rcases List.mem_cons.1 hmem with rfl | hmem
            · rfl
            rcases List.mem_cons.1 hmem' with rfl | hmem'
            · rfl
            exact le_antisymm (ha b hmem) (hb a hmem')
          have hfirst := heq (key a)
          rw [List.filter_cons_of_pos (by simp), List.filter_cons_of_pos (by simp [hkey])] at hfirst
          obtain ⟨rfl, -⟩ := List.cons.inj hfirst
          refine congrArg _ (ih hrest hrest' fun k => ?_)
          have hboth := heq k
          rw [List.filter_cons, List.filter_cons] at hboth
          split at hboth
          · exact (List.cons.inj hboth).2
          · exact hboth

theorem IsStableSort.unique (h : IsStableSort key l sorted) (h' : IsStableSort key l sorted') :
    sorted = sorted' :=
  eq_of_filter_eq h.ordered h'.ordered fun k => (h.stable k).trans (h'.stable k).symm

/-- What two elements with the same key have to each other in a list, they have in the sorted
list. -/
theorem IsStableSort.pairwise {R : α → α → Prop} (h : IsStableSort key l sorted)
    (hl : l.Pairwise fun a b => key a = key b → R a b) :
    sorted.Pairwise fun a b => key a = key b → R a b := by
  rw [List.pairwise_iff_forall_sublist] at hl ⊢
  intro a b hab hkey
  have hfilter := hab.filter fun c => key c = key b
  rw [h.stable, List.filter_eq_self.2 (by simp [hkey])] at hfilter
  exact hl (hfilter.trans List.filter_sublist) hkey

end EmulatedDevice
