import EmulatedDevice.Proofs.Acceptance
import EmulatedDevice.Proofs.ReorderedValues

/-!
# Values that can be shown

A complaint shows values, and there are no words for it when one of them has a number
with too many digits. What it shows is a part of the value that is checked, or the
keys of a part. So when all numbers of a value can be written, a schema can say all
that is wrong with it, by an induction that goes down the schema as the checker does.

In which order a mapping has its keys makes no difference to that.
-/

namespace EmulatedDevice

namespace Value

/-! ## The parts of a value -/

theorem areWritable_iff {items : List Value} :
    areWritable items = true ↔ ∀ item ∈ items, item.isWritable = true := by
  induction items with
  | nil => simp [areWritable]
  | cons item rest ih => rw [areWritable, Bool.and_eq_true, ih, List.forall_mem_cons]

theorem areWritable_perm {items items' : List Value} (h : items.Perm items') :
    areWritable items = areWritable items' := by
  rw [Bool.eq_iff_iff, areWritable_iff, areWritable_iff]
  exact forall_congr' fun item => by rw [h.mem_iff]

/-- Of a mapping, the keys and the values under them are what is shown. -/
theorem areWritableEntries_eq (entries : List (Value × Value)) :
    areWritableEntries entries =
      (areWritable (entries.map Prod.fst) && areWritable (entries.map Prod.snd)) := by
  induction entries with
  | nil => rfl
  | cons entry rest ih =>
      obtain ⟨key, value⟩ := entry
      rw [areWritableEntries, ih, List.map_cons, List.map_cons, areWritable, areWritable]
      ac_rfl

theorem isWritable_mapping_iff {entries : List (Value × Value)} :
    (mapping entries).isWritable = true ↔
      (∀ key ∈ entries.map Prod.fst, key.isWritable = true) ∧
        ∀ value ∈ entries.map Prod.snd, value.isWritable = true := by
  rw [isWritable, areWritableEntries_eq, Bool.and_eq_true, areWritable_iff, areWritable_iff]

/-! ## Values in another order -/

theorem areWritable_congr {items items' : List Value} (h : List.Forall₂ Reordered items items')
    (hitems : ∀ v ∈ items, ∀ w, v.Reordered w → v.isWritable = w.isWritable) :
    areWritable items = areWritable items' := by
  induction h with
  | nil => rfl
  | cons hfirst _ ih =>
      obtain ⟨hitem, hrest⟩ := List.forall_mem_cons.1 hitems
      rw [areWritable, areWritable, hitem _ hfirst, ih hrest]

/-- A value that can be shown can be shown in any order of its keys. -/
theorem Reordered.isWritable_eq {v w : Value} (h : v.Reordered w) :
    v.isWritable = w.isWritable := by
  cases h with
  | scalar => rfl
  | list h =>
      rw [isWritable, isWritable, areWritable_congr h fun v hv w hvw => hvw.isWritable_eq]
  | mapping hmoved hkeys h =>
      rw [isWritable, isWritable, areWritableEntries_eq, areWritableEntries_eq,
        areWritable_perm (hmoved.map Prod.fst), areWritable_perm (hmoved.map Prod.snd), hkeys,
        areWritable_congr h fun v hv w hvw => hvw.isWritable_eq]
termination_by sizeOf v
decreasing_by
  · simp only [Value.list.sizeOf_spec]
    have := List.sizeOf_lt_of_mem hv
    omega
  · obtain ⟨entry, hentry, rfl⟩ := List.mem_map.1 hv
    have := List.sizeOf_lt_of_mem (hmoved.mem_iff.2 hentry)
    obtain ⟨key, value⟩ := entry
    simp only [Prod.mk.sizeOf_spec] at this
    simp only [Value.mapping.sizeOf_spec]
    omega

end Value

namespace Schema

open Value

/-! ## What is wrong with a value -/

variable {v : Violation} {entries : List (Value × Value)}

theorem isWritable_of_mem_complain {complaint : Complaint} (hv : v ∈ complain complaint)
    (h : complaint.isWritable = true) : v.complaint.isWritable = true := by
  rw [List.mem_singleton.1 hv]
  exact h

theorem isWritable_of_mem_unknownKeyViolations {known : List String}
    (h : (mapping entries).isWritable = true) (hv : v ∈ unknownKeyViolations known entries) :
    v.complaint.isWritable = true := by
  unfold unknownKeyViolations at hv
  split at hv
  · cases hv
  · have hkeys : ∀ key ∈ unknownKeys known entries, key.isWritable = true := by
      intro key hkey
      have hmem := (List.mergeSort_perm _ _).mem_iff.1 hkey
      exact (isWritable_mapping_iff.1 h).1 key (List.mem_filter.1 hmem).1
    exact isWritable_of_mem_complain hv (List.all_eq_true.2 hkeys)

theorem isWritable_of_mem_missingKeyViolations {required : List String}
    (hv : v ∈ missingKeyViolations required entries) : v.complaint.isWritable = true := by
  obtain ⟨key, _, rfl⟩ := List.mem_map.1 hv
  rfl

/-- A part that can be spoken of can be spoken of from further out. -/
theorem isWritable_of_mem_map_under {vs : List Violation} {step : Step}
    (h : ∀ v ∈ vs, v.complaint.isWritable = true) (hv : v ∈ vs.map (.under step)) :
    v.complaint.isWritable = true := by
  obtain ⟨w, hw, rfl⟩ := List.mem_map.1 hv
  exact h w hw

mutual

/-- All numbers of a value can be written, so all that is wrong with it can be said. -/
theorem canReport_of_isWritable (schema : Schema) (value : Value)
    (h : value.isWritable = true) : schema.CanReport value := by
  intro v hv
  match schema with
  | .null =>
      cases value with
      | null => cases hv
      | _ => exact isWritable_of_mem_complain hv h
  | .integer =>
      cases value with
      | int => cases hv
      | float x =>
          replace hv : v ∈ if x.toInt?.isSome then [] else complain _ := hv
          split at hv
          · cases hv
          · exact isWritable_of_mem_complain hv h
      | _ => exact isWritable_of_mem_complain hv h
  | .text rule =>
      cases value with
      | text s =>
          cases rule with
          | nonEmpty =>
              replace hv : v ∈ if s = "" then complain .emptyText else [] := hv
              split at hv
              · exact isWritable_of_mem_complain hv rfl
              · cases hv
          | name =>
              replace hv : v ∈ if isName s then [] else complain (.noName s) := hv
              split at hv
              · cases hv
              · exact isWritable_of_mem_complain hv rfl
      | _ => exact isWritable_of_mem_complain hv h
  | .list items =>
      cases value with
      | list values =>
          obtain ⟨⟨item, i⟩, hitem, hv⟩ := List.mem_flatMap.1 hv
          have hmem : item ∈ values := List.fst_mem_of_mem_zipIdx hitem
          have hitem := canReport_of_isWritable items item (areWritable_iff.1 h item hmem)
          exact isWritable_of_mem_map_under hitem hv
      | _ => exact isWritable_of_mem_complain hv h
  | .record required properties =>
      cases value with
      | mapping entries =>
          replace hv : v ∈ unknownKeyViolations _ entries ++ missingKeyViolations required entries
            ++ propertyViolations properties entries := hv
          rw [List.mem_append, List.mem_append] at hv
          rcases hv with (hv | hv) | hv
          · exact isWritable_of_mem_unknownKeyViolations h hv
          · exact isWritable_of_mem_missingKeyViolations hv
          · exact isWritable_of_mem_propertyViolations properties entries h v hv
      | _ => exact isWritable_of_mem_complain hv h
  | .oneOf alternatives =>
      replace hv : v ∈ if fitsAny alternatives value then [] else complain _ := hv
      split at hv
      · cases hv
      · exact isWritable_of_mem_complain hv h
  | .named _ body => exact canReport_of_isWritable body value h v hv

theorem isWritable_of_mem_propertyViolations (properties : List (String × Schema))
    (entries : List (Value × Value)) (h : (mapping entries).isWritable = true) :
    ∀ v ∈ propertyViolations properties entries, v.complaint.isWritable = true := by
  intro v hv
  match properties with
  | [] => cases hv
  | (key, schema) :: rest =>
      rw [propertyViolations, List.mem_append] at hv
      rcases hv with hv | hv
      · cases hpart : field? key entries with
        | none =>
            rw [hpart] at hv
            cases hv
        | some part =>
            rw [hpart] at hv
            have hmem : part ∈ entries.map Prod.snd := List.mem_map_of_mem (mem_of_field? hpart)
            have hwritable := (isWritable_mapping_iff.1 h).2 part hmem
            exact isWritable_of_mem_map_under (canReport_of_isWritable schema part hwritable) hv
      · exact isWritable_of_mem_propertyViolations rest entries h v hv

end

end Schema

end EmulatedDevice
