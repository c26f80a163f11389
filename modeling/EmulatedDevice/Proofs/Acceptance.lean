import EmulatedDevice.Schema.Report
import Mathlib.Data.List.Basic

/-!
# What a schema accepts

A schema lists violations, and a value is acceptable when the list is empty. Here
acceptance is said constructor by constructor and without the list: what kind of
value it is, and what holds of its parts. Nothing about the order or the wording
of violations is left in these statements, so whoever takes an accepted document
apart needs them and not the checker.

A record is the one constructor with three things to say, and each is empty for a
reason of its own: no key is unknown, no required key is missing, and whatever
stands under a known key is acceptable there.

The checker computes on the constructors of a schema and a value, so where both
are known its next step is shown and not rewritten to.
-/

namespace EmulatedDevice

namespace Schema

/-- A value that a schema finds nothing wrong with. -/
def Accepts (schema : Schema) (value : Value) : Prop :=
  schema.violations value = []

/-- A value of which a schema can say all that is wrong with it: every complaint can be put into
words. -/
def CanReport (schema : Schema) (value : Value) : Prop :=
  ∀ v ∈ schema.violations value, v.complaint.isWritable = true

instance (schema : Schema) (value : Value) : Decidable (schema.CanReport value) :=
  inferInstanceAs (Decidable (∀ v ∈ schema.violations value, v.complaint.isWritable = true))

section Checking

variable {schema : Schema} {place : String} {value : Value}

theorem check_eq_ok_iff : schema.check place value = .ok () ↔ schema.Accepts value := by
  unfold check Accepts
  split
  · next h => exact iff_of_true rfl h
  · next h =>
    refine iff_of_false (fun hok => ?_) h
    split at hok <;> cases hok

theorem check_of_canReport (h : ¬ schema.Accepts value) (hreport : schema.CanReport value) :
    schema.check place value = .error (.rejected ⟨place, schema.violations value⟩) := by
  unfold check
  split
  · next hnil => exact absurd hnil h
  · exact if_pos (List.all_eq_true.2 hreport)

/-- A value with nothing wrong needs no words, so where they fail the value is not accepted. -/
theorem check_of_not_canReport (h : ¬ schema.CanReport value) :
    schema.check place value = .error .tooManyDigits := by
  unfold check
  split
  · next hnil => exact absurd (fun v hv => by rw [hnil] at hv; cases hv) h
  · exact if_neg fun hall => h (List.all_eq_true.1 hall)

theorem check_error {fault : CheckFault} (h : schema.check place value = .error fault) :
    ¬ schema.Accepts value ∧
      (schema.CanReport value ∧ fault = .rejected ⟨place, schema.violations value⟩ ∨
        ¬ schema.CanReport value ∧ fault = .tooManyDigits) := by
  have hrefused : ¬ schema.Accepts value := fun haccepts => by
    cases h.symm.trans (check_eq_ok_iff.2 haccepts)
  refine ⟨hrefused, ?_⟩
  by_cases hreport : schema.CanReport value
  · exact .inl ⟨hreport, Except.error.inj (h.symm.trans (check_of_canReport hrefused hreport))⟩
  · exact .inr ⟨hreport, Except.error.inj (h.symm.trans (check_of_not_canReport hreport))⟩

end Checking

/-! ## Plain values -/

theorem complain_ne_nil (complaint : Complaint) : complain complaint ≠ [] :=
  List.cons_ne_nil _ _

theorem accepts_null_iff {value : Value} : null.Accepts value ↔ value = .null := by
  cases value with
  | null => exact iff_of_true rfl rfl
  | _ => exact iff_of_false (complain_ne_nil _) nofun

/-- A whole number may be written as a double that is one. -/
theorem accepts_integer_iff {value : Value} :
    integer.Accepts value ↔
      (∃ n, value = .int n) ∨ ∃ x n, value = .float x ∧ x.toInt? = some n := by
  cases value with
  | int n => exact iff_of_true rfl (.inl ⟨n, rfl⟩)
  | float x =>
      show (if x.toInt?.isSome then [] else complain _) = [] ↔ _
      simp [complain, Option.isSome_iff_exists]
  | _ =>
      refine iff_of_false (complain_ne_nil _) ?_
      rintro (⟨_, h⟩ | ⟨_, _, h, _⟩) <;> cases h

theorem accepts_nonEmpty_iff {value : Value} :
    (text .nonEmpty).Accepts value ↔ ∃ s, value = .text s ∧ s ≠ "" := by
  cases value with
  | text s =>
      show (if s = "" then complain .emptyText else []) = [] ↔ _
      simp [complain]
  | _ => exact iff_of_false (complain_ne_nil _) fun ⟨_, h, _⟩ => nomatch h

theorem accepts_name_iff {value : Value} :
    (text .name).Accepts value ↔ ∃ s, value = .text s ∧ isName s = true := by
  cases value with
  | text s =>
      show (if isName s then [] else complain (.noName s)) = [] ↔ _
      simp [complain]
  | _ => exact iff_of_false (complain_ne_nil _) fun ⟨_, h, _⟩ => nomatch h

theorem accepts_named_iff {name : String} {body : Schema} {value : Value} :
    (named name body).Accepts value ↔ body.Accepts value :=
  Iff.rfl

/-! ## Lists and alternatives -/

theorem accepts_list_iff {items : Schema} {value : Value} :
    (list items).Accepts value ↔
      ∃ vs, value = .list vs ∧ ∀ v ∈ vs, items.Accepts v := by
  cases value with
  | list vs =>
      show (vs.zipIdx.flatMap fun entry =>
        (items.violations entry.1).map (Violation.under (.index entry.2))) = [] ↔ _
      simp only [List.flatMap_eq_nil_iff, List.map_eq_nil_iff, Value.list.injEq,
        exists_eq_left']
      constructor
      · intro h v hv
        obtain ⟨i, hi, rfl⟩ := List.getElem_of_mem hv
        exact h (vs[i], i) (List.mk_mem_zipIdx_iff_getElem?.2 (List.getElem?_eq_getElem hi))
      · intro h entry hentry
        exact h entry.1 (List.fst_mem_of_mem_zipIdx hentry)
  | _ => exact iff_of_false (complain_ne_nil _) fun ⟨_, h, _⟩ => nomatch h

theorem fitsAny_iff {alternatives : List Schema} {value : Value} :
    fitsAny alternatives value = true ↔
      ∃ schema ∈ alternatives, schema.Accepts value := by
  induction alternatives with
  | nil => exact iff_of_false nofun fun ⟨_, h, _⟩ => nomatch h
  | cons schema rest ih =>
      show ((schema.violations value).isEmpty || fitsAny rest value) = true ↔ _
      simp [ih, Accepts]

theorem accepts_oneOf_iff {alternatives : List Schema} {value : Value} :
    (oneOf alternatives).Accepts value ↔
      ∃ schema ∈ alternatives, schema.Accepts value := by
  rw [← fitsAny_iff]
  show (if fitsAny alternatives value then [] else complain _) = [] ↔ _
  cases fitsAny alternatives value <;> simp [complain]

/-! ## Records -/

theorem unknownKeyViolations_eq_nil_iff {known : List String}
    {entries : List (Value × Value)} :
    unknownKeyViolations known entries = [] ↔
      ∀ entry ∈ entries, ∃ name ∈ known, entry.1 = .text name := by
  have hnil : unknownKeyViolations known entries = [] ↔
      unknownKeys known entries = [] := by
    unfold unknownKeyViolations
    split
    · next h => exact iff_of_true rfl h
    · next h => exact iff_of_false (complain_ne_nil _) h
  rw [hnil, ← List.length_eq_zero_iff, unknownKeys, List.length_mergeSort,
    List.length_eq_zero_iff, List.filter_eq_nil_iff, List.forall_mem_map]
  refine forall₂_congr fun entry _ => ?_
  obtain ⟨key, value⟩ := entry
  cases key <;> simp

theorem missingKeyViolations_eq_nil_iff {required : List String}
    {entries : List (Value × Value)} :
    missingKeyViolations required entries = [] ↔
      ∀ key ∈ required, (Value.field? key entries).isSome := by
  unfold missingKeyViolations
  simp [List.filter_eq_nil_iff, Option.isSome_iff_ne_none]

theorem propertyViolations_eq_nil_iff {properties : List (String × Schema)}
    {entries : List (Value × Value)} :
    propertyViolations properties entries = [] ↔
      ∀ property ∈ properties, ∀ value,
        Value.field? property.1 entries = some value → property.2.Accepts value := by
  induction properties with
  | nil => exact iff_of_true rfl nofun
  | cons property rest ih =>
      obtain ⟨key, schema⟩ := property
      show _ ++ propertyViolations rest entries = [] ↔ _
      rw [List.append_eq_nil_iff, ih, List.forall_mem_cons]
      refine and_congr_left' ?_
      cases Value.field? key entries with
      | none => simp
      | some value => simp [Accepts]

theorem accepts_record_iff {required : List String}
    {properties : List (String × Schema)} {value : Value} :
    (record required properties).Accepts value ↔
      ∃ entries, value = .mapping entries ∧
        (∀ entry ∈ entries, ∃ name ∈ properties.map Prod.fst, entry.1 = .text name) ∧
        (∀ key ∈ required, (Value.field? key entries).isSome) ∧
        ∀ property ∈ properties, ∀ part,
          Value.field? property.1 entries = some part → property.2.Accepts part := by
  cases value with
  | mapping entries =>
      show unknownKeyViolations _ entries ++ missingKeyViolations required entries
        ++ propertyViolations properties entries = [] ↔ _
      rw [List.append_eq_nil_iff, List.append_eq_nil_iff, unknownKeyViolations_eq_nil_iff,
        missingKeyViolations_eq_nil_iff, propertyViolations_eq_nil_iff, and_assoc]
      simp only [Value.mapping.injEq, exists_eq_left']
  | _ => exact iff_of_false (complain_ne_nil _) fun ⟨_, h, _⟩ => nomatch h

end Schema

end EmulatedDevice
