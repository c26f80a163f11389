import EmulatedDevice.Entries
import Mathlib.Data.List.Nodup

/-!
# Keys that come once

A value that is put under a key takes the place of an entry with the same key, or
else goes to the end with a key that no entry has. Either way no two entries have
the same key if none had before; so pairs that are put in one after the other give
entries with distinct keys, and pairs with distinct keys are the entries they give.
-/

namespace EmulatedDevice.Entries

variable {κ β : Type} {same : κ → κ → Bool} {key : κ} {value : β} {entries : List (κ × β)}

/-- Entries of which no two have the same key. -/
def Distinct (same : κ → κ → Bool) (entries : List (κ × β)) : Prop :=
  entries.Pairwise fun a b => same a.1 b.1 = false

theorem put_eq_append (h : ∀ entry ∈ entries, same entry.1 key = false) :
    put same key value entries = entries ++ [(key, value)] := by
  induction entries with
  | nil => rfl
  | cons entry entries ih =>
      obtain ⟨hentry, hentries⟩ := List.forall_mem_cons.1 h
      rw [put, hentry, ih hentries]
      rfl

/-- A key that is there keeps its place, and so do all others. -/
theorem keys_put_of_mem (h : ∃ entry ∈ entries, same entry.1 key = true) :
    (put same key value entries).map Prod.fst = entries.map Prod.fst := by
  induction entries with
  | nil => simp at h
  | cons entry entries ih =>
      rw [put]
      split
      · rfl
      · next hne =>
        have hrest : ∃ entry ∈ entries, same entry.1 key = true := by
          obtain ⟨found, hfound, hsame⟩ := h
          rcases List.mem_cons.1 hfound with rfl | hfound
          · exact absurd hsame hne
          · exact ⟨found, hfound, hsame⟩
        rw [List.map_cons, List.map_cons, ih hrest]

theorem distinct_put (h : Distinct same entries) : Distinct same (put same key value entries) := by
  by_cases hmem : ∃ entry ∈ entries, same entry.1 key = true
  · refine List.pairwise_map.1 (?_ : List.Pairwise (fun a b => same a b = false) _)
    rw [keys_put_of_mem hmem]
    exact List.pairwise_map.2 h
  · have hnew : ∀ entry ∈ entries, same entry.1 key = false := fun entry hentry =>
      Bool.eq_false_iff.2 fun hsame => hmem ⟨entry, hentry, hsame⟩
    rw [put_eq_append hnew]
    refine List.pairwise_append.2 ⟨h, List.pairwise_singleton _ _, fun entry hentry => ?_⟩
    exact List.forall_mem_singleton.2 (hnew entry hentry)

/-- Whatever pairs are put in, no key comes twice. -/
theorem distinct_ofPairs (same : κ → κ → Bool) (pairs : List (κ × β)) :
    Distinct same (ofPairs same pairs) :=
  List.foldlRecOn pairs _ List.Pairwise.nil fun _ hentries _ _ => distinct_put hentries

/-- Pairs of which no two have the same key are the entries that they give. -/
theorem ofPairs_eq_self {pairs : List (κ × β)} (h : Distinct same pairs) :
    ofPairs same pairs = pairs := by
  have hfold : ∀ more entries : List (κ × β), Distinct same (entries ++ more) →
      more.foldl (fun entries pair => put same pair.1 pair.2 entries) entries =
        entries ++ more := by
    intro more
    induction more with
    | nil => intro entries _; rw [List.append_nil]; rfl
    | cons pair more ih =>
        intro entries hpairs
        have hput : put same pair.1 pair.2 entries = entries ++ [pair] :=
          put_eq_append fun entry hentry =>
            (List.pairwise_append.1 hpairs).2.2 entry hentry pair (List.mem_cons_self ..)
        have happend : entries ++ pair :: more = entries ++ [pair] ++ more := by simp
        rw [happend] at hpairs ⊢
        rw [List.foldl_cons, hput, ih _ hpairs]
  exact hfold pairs [] h

/-- What is put in is a value that was there or the new one. -/
theorem value_of_mem_put {entry : κ × β} (h : entry ∈ put same key value entries) :
    entry.2 = value ∨ entry ∈ entries := by
  induction entries with
  | nil => exact .inl (congrArg Prod.snd (List.mem_singleton.1 h))
  | cons first entries ih =>
      rw [put] at h
      split at h
      · rcases List.mem_cons.1 h with rfl | h
        · exact .inl rfl
        · exact .inr (List.mem_cons_of_mem _ h)
      · rcases List.mem_cons.1 h with rfl | h
        · exact .inr (List.mem_cons_self ..)
        · exact (ih h).imp_right (List.mem_cons_of_mem _)

/-- What holds of all values that are put in holds of the values of the entries. -/
theorem forall_value_ofPairs {P : β → Prop} {pairs : List (κ × β)}
    (h : ∀ pair ∈ pairs, P pair.2) : ∀ entry ∈ ofPairs same pairs, P entry.2 := by
  refine List.foldlRecOn (motive := fun entries : List (κ × β) => ∀ entry ∈ entries, P entry.2)
    pairs _ nofun ?_
  intro entries hentries pair hpair entry hentry
  rcases value_of_mem_put hentry with heq | hmem
  · rw [heq]
    exact h pair hpair
  · exact hentries entry hmem

/-! ## Looking up -/

theorem get?_eq_none_iff :
    get? same key entries = none ↔ ∀ entry ∈ entries, same entry.1 key = false := by
  induction entries with
  | nil => exact iff_of_true rfl nofun
  | cons entry entries ih =>
      rw [get?, List.forall_mem_cons]
      cases hsame : same entry.1 key with
      | true => simp
      | false => simpa using ih

/-- What is found stands in an entry, if only equal keys are the same as the one looked for. -/
theorem mem_of_get? (hsame : ∀ k, same k key = true → k = key)
    (h : get? same key entries = some value) : (key, value) ∈ entries := by
  induction entries with
  | nil => cases h
  | cons entry entries ih =>
      rw [get?] at h
      split at h
      · next heq =>
        obtain rfl := Option.some.inj h
        rw [← hsame _ heq]
        exact List.mem_cons_self ..
      · exact List.mem_cons_of_mem _ (ih h)

/-- With distinct keys, what stands in an entry is found. -/
theorem get?_of_mem (hself : same key key = true) (hdistinct : Distinct same entries)
    (h : (key, value) ∈ entries) : get? same key entries = some value := by
  induction entries with
  | nil => cases h
  | cons entry entries ih =>
      obtain ⟨hentry, hentries⟩ := List.pairwise_cons.1 hdistinct
      rw [get?]
      rcases List.mem_cons.1 h with rfl | h
      · rw [hself]
        rfl
      · rw [hentry _ h]
        exact ih hentries h

theorem nodup_ofPairs [BEq κ] [LawfulBEq κ] (pairs : List (κ × β)) :
    ((ofPairs (· == ·) pairs).map Prod.fst).Nodup :=
  List.pairwise_map.2 ((distinct_ofPairs (· == ·) pairs).imp ne_of_beq_false)

end EmulatedDevice.Entries
