import EmulatedDevice.Proofs.LoadedValues
import Mathlib.Data.List.Forall2

/-!
# Values with their keys in another order

Two values differ in the order of keys only if one comes from the other by putting the
entries of mappings in another order, at any depth. Where no key comes twice, the same
is found under a key in both, again but for the order of keys, and this and the keys
that it has is all that the order leaves of a mapping. So values that are alike are two
equal scalars, two lists with items that are alike, or two mappings of this sort.
-/

namespace EmulatedDevice

namespace Value

/-- The same value, but for the order in which mappings have their keys, at any depth. -/
inductive Reordered : Value → Value → Prop where
  | scalar {value : Value} (h : value.isScalar = true) : Reordered value value
  | list {items items' : List Value} (h : List.Forall₂ Reordered items items') :
      Reordered (.list items) (.list items')
  /-- The entries are put in another order, and what stands under the keys is reordered. -/
  | mapping {entries moved entries' : List (Value × Value)} (hmoved : entries.Perm moved)
      (hkeys : moved.map Prod.fst = entries'.map Prod.fst)
      (h : List.Forall₂ Reordered (moved.map Prod.snd) (entries'.map Prod.snd)) :
      Reordered (.mapping entries) (.mapping entries')

theorem reordered_ofFields {fields moved fields' : List (String × Value)}
    (hmoved : fields.Perm moved) (hkeys : moved.map Prod.fst = fields'.map Prod.fst)
    (h : List.Forall₂ Reordered (moved.map Prod.snd) (fields'.map Prod.snd)) :
    (ofFields fields).Reordered (ofFields fields') := by
  refine .mapping (hmoved.map _) ?_ ?_
  · rw [List.map_map, List.map_map]
    have htexts := congrArg (List.map Value.text) hkeys
    rwa [List.map_map, List.map_map] at htexts
  · rwa [List.map_map, List.map_map]

/-- A value without repeated keys, and the value reordered. -/
structure Alike (v w : Value) : Prop where
  wellKeyed : v.WellKeyed
  reordered : v.Reordered w

/-- Entries with the same keys, and with values that are alike under each. -/
structure AlikeEntries (entries entries' : List (Value × Value)) : Prop where
  keys : (entries.map Prod.fst).Perm (entries'.map Prod.fst)
  fields : ∀ key, Option.Rel Alike (field? key entries) (field? key entries')

/-! ## What is found under a key -/

theorem sameKey_text_iff {key : Value} {s : String} :
    sameKey key (.text s) = true ↔ key = .text s := by
  cases key <;> simp [sameKey, number?]

theorem field?_eq_none_iff {key : String} {entries : List (Value × Value)} :
    field? key entries = none ↔ .text key ∉ entries.map Prod.fst := by
  rw [field?, Entries.get?_eq_none_iff, List.mem_map, not_exists]
  refine forall_congr' fun entry => ?_
  rw [not_and, ← Bool.not_eq_true, sameKey_text_iff]

theorem mem_of_field? {key : String} {value : Value} {entries : List (Value × Value)}
    (h : field? key entries = some value) : (.text key, value) ∈ entries :=
  Entries.mem_of_get? (fun _ => sameKey_text_iff.1) h

variable {entries moved entries' : List (Value × Value)}

/-- What stands in an entry has stood there before it was reordered itself. -/
theorem exists_of_mem (hkeys : moved.map Prod.fst = entries'.map Prod.fst)
    (h : List.Forall₂ Reordered (moved.map Prod.snd) (entries'.map Prod.snd)) {key w : Value}
    (hw : (key, w) ∈ entries') : ∃ v, (key, v) ∈ moved ∧ v.Reordered w := by
  induction moved generalizing entries' with
  | nil =>
      rw [List.map_eq_nil_iff.1 hkeys.symm] at hw
      cases hw
  | cons entry moved ih =>
      cases entries' with
      | nil => cases hw
      | cons entry' rest =>
          obtain ⟨hkey, hkeys⟩ := List.cons.inj hkeys
          obtain ⟨hfirst, hrest⟩ := List.forall₂_cons.1 h
          rcases List.mem_cons.1 hw with rfl | hw
          · obtain rfl : entry.1 = key := hkey
            exact ⟨entry.2, List.mem_cons_self .., hfirst⟩
          · obtain ⟨v, hv, hvw⟩ := ih hkeys hrest hw
            exact ⟨v, List.mem_cons_of_mem _ hv, hvw⟩

/-- With distinct keys, the same is found before and after. -/
theorem alikeEntries_of_reordered (hkeyed : WellKeyed (.mapping entries))
    (hmoved : entries.Perm moved)
    (hkeys : moved.map Prod.fst = entries'.map Prod.fst)
    (h : List.Forall₂ Reordered (moved.map Prod.snd) (entries'.map Prod.snd)) :
    AlikeEntries entries entries' := by
  cases hkeyed with
  | scalar hscalar => cases hscalar
  | mapping hdistinct hvalues =>
      have hperm : (entries.map Prod.fst).Perm (entries'.map Prod.fst) :=
        hkeys ▸ hmoved.map Prod.fst
      refine ⟨hperm, fun key => ?_⟩
      cases hw : field? key entries' with
      | none =>
          have hnone : field? key entries = none :=
            field?_eq_none_iff.2 fun hmem => field?_eq_none_iff.1 hw (hperm.mem_iff.1 hmem)
          rw [hnone]
          exact .none
      | some w =>
          obtain ⟨v, hv, hvw⟩ := exists_of_mem hkeys h (mem_of_field? hw)
          have hmem := hmoved.mem_iff.2 hv
          rw [field?, Entries.get?_of_mem (sameKey_text_iff.2 rfl) hdistinct hmem]
          exact .some ⟨hvalues _ hmem, hvw⟩

/-- What values that are alike can be. -/
inductive AlikeForm : Value → Value → Prop where
  | scalar {value : Value} (h : value.isScalar = true) : AlikeForm value value
  | list {items items' : List Value} (h : List.Forall₂ Alike items items') :
      AlikeForm (.list items) (.list items')
  | mapping {entries entries' : List (Value × Value)} (h : AlikeEntries entries entries') :
      AlikeForm (.mapping entries) (.mapping entries')

theorem Alike.form {v w : Value} (h : v.Alike w) : AlikeForm v w := by
  obtain ⟨hkeyed, hreordered⟩ := h
  cases hreordered with
  | scalar hscalar => exact .scalar hscalar
  | list hitems =>
      cases hkeyed with
      | scalar hscalar => cases hscalar
      | list hkeyed =>
          refine .list (List.forall₂_iff_zip.2 ⟨hitems.length_eq, fun {v w} hmem => ?_⟩)
          exact ⟨hkeyed _ (List.of_mem_zip hmem).1, (List.forall₂_iff_zip.1 hitems).2 hmem⟩
  | mapping hmoved hkeys hvalues =>
      exact .mapping (alikeEntries_of_reordered hkeyed hmoved hkeys hvalues)

/-- A value without parts has no other order. -/
theorem Alike.eq_of_isScalar {v w : Value} (h : v.Alike w) (hscalar : v.isScalar = true) :
    w = v := by
  cases h.form with
  | scalar => rfl
  | list | mapping => cases hscalar

end Value

end EmulatedDevice
