import EmulatedDevice.Proofs.DeviceDocuments
import EmulatedDevice.Proofs.StableSorting
import Mathlib.Data.String.Basic

/-!
# What can be wrong with a value

A schema can find six things wrong, each at its own place in a value: the wrong kind
of value, a text that is no name or is empty, unknown keys, a missing key, and a
value that fits no alternative. `Schema.Fails` says when each of them is the case,
without a list and without an order, and by induction over a schema the violations
that the checker lists are those and no others.

A value of the wrong kind has this violation only, whatever the schema asks for
besides, so this case is dealt with once for all kinds. What is left are values of
the right kind, for which only a record has more than one thing to say.

The induction is over schemas in which no key is required twice and none is described
twice, which is not needed here; but this is what it takes for a violation not to be
listed twice.
-/

namespace EmulatedDevice

namespace Schema

/-- The kind of value that a schema asks for, if it asks for one. -/
def kind? : Schema → Option String
  | .null => some "null"
  | .integer => some "integer"
  | .text _ => some "string"
  | .list _ => some "array"
  | .record .. => some "object"
  | .oneOf _ | .named .. => none

/-- A value of the kind that a schema asks for. -/
inductive OfKind : Schema → Value → Prop where
  | null : OfKind .null .null
  | whole {value : Value} {n : Int} (h : value.IsWhole n) : OfKind .integer value
  | text (rule : TextRule) (s : String) : OfKind (.text rule) (.text s)
  | list (items : Schema) (values : List Value) : OfKind (.list items) (.list values)
  | mapping (required : List String) (properties : List (String × Schema))
      (entries : List (Value × Value)) : OfKind (.record required properties) (.mapping entries)

/-- Whether a key is none of the known names. -/
def isUnknown (known : List String) : Value → Bool
  | .text key => !known.contains key
  | _ => true

/-- What is wrong with a value. -/
inductive Fails : Schema → Value → Violation → Prop where
  | wrongKind {schema : Schema} {value : Value} {kind : String} (hkind : schema.kind? = some kind)
      (h : ¬ schema.OfKind value) : Fails schema value ⟨[], .wrongKind value kind⟩
  | noName {s : String} (h : ¬ Value.IsName (.text s) s) :
      Fails (.text .name) (.text s) ⟨[], .noName s⟩
  | emptyText : Fails (.text .nonEmpty) (.text "") ⟨[], .emptyText⟩
  | unknownKeys {required : List String} {properties : List (String × Schema)}
      {entries : List (Value × Value)} {keys : List Value} (hne : keys ≠ [])
      (h : IsStableSort Value.plain
        ((entries.map Prod.fst).filter (isUnknown (properties.map Prod.fst))) keys) :
      Fails (.record required properties) (.mapping entries) ⟨[], .unknownKeys keys⟩
  | missingKey {required : List String} {properties : List (String × Schema)}
      {entries : List (Value × Value)} {key : String} (hkey : key ∈ required)
      (h : Value.field? key entries = none) :
      Fails (.record required properties) (.mapping entries) ⟨[], .missingKey key⟩
  /-- Something is wrong with a value under every alternative. -/
  | noAlternative {alternatives : List Schema} {value : Value} (fault : Schema → Violation)
      (h : ∀ schema ∈ alternatives, Fails schema value (fault schema)) :
      Fails (.oneOf alternatives) value ⟨[], .noAlternative value⟩
  | item {items : Schema} {values : List Value} {i : Nat} {value : Value} {v : Violation}
      (hitem : values[i]? = some value) (h : Fails items value v) :
      Fails (.list items) (.list values) (v.under (.index i))
  | field {required : List String} {properties : List (String × Schema)}
      {entries : List (Value × Value)} {key : String} {schema : Schema} {value : Value}
      {v : Violation} (hproperty : (key, schema) ∈ properties)
      (hfield : Value.field? key entries = some value) (h : Fails schema value v) :
      Fails (.record required properties) (.mapping entries) (v.under (.key key))
  | named {name : String} {body : Schema} {value : Value} {v : Violation}
      (h : Fails body value v) : Fails (.named name body) value v

/-- A schema that requires each key once and describes each key once, at every depth. -/
inductive Tidy : Schema → Prop where
  | null : Tidy .null
  | integer : Tidy .integer
  | text (rule : TextRule) : Tidy (.text rule)
  | list {items : Schema} (h : Tidy items) : Tidy (.list items)
  | record {required : List String} {properties : List (String × Schema)}
      (hrequired : required.Nodup) (hkeys : (properties.map Prod.fst).Nodup)
      (h : ∀ property ∈ properties, Tidy property.2) : Tidy (.record required properties)
  | oneOf {alternatives : List Schema} (h : ∀ schema ∈ alternatives, Tidy schema) :
      Tidy (.oneOf alternatives)
  | named {name : String} {body : Schema} (h : Tidy body) : Tidy (.named name body)

theorem tidy_pathEntry : pathEntry.Tidy := by
  have hparts : ∀ property ∈ [("path", text .nonEmpty), ("root", text .nonEmpty)],
      property.2.Tidy := by
    simp only [List.forall_mem_cons]
    exact ⟨.text _, .text _, nofun⟩
  refine .named (.oneOf ?_)
  simp only [List.forall_mem_cons]
  exact ⟨.text _, .record (by decide) (by decide) hparts, nofun⟩

theorem tidy_device : device.Tidy := by
  have himage : ∀ property ∈ [("label", text .nonEmpty), ("files", list pathEntry)],
      property.2.Tidy := by
    simp only [List.forall_mem_cons]
    exact ⟨.text _, .list tidy_pathEntry, nofun⟩
  have hproperties : ∀ schema ∈ [null, pathEntry], schema.Tidy := by
    simp only [List.forall_mem_cons]
    exact ⟨.null, tidy_pathEntry, nofun⟩
  refine .record (by decide) (by decide) ?_
  simp only [List.forall_mem_cons]
  exact ⟨.text _, .integer, .integer, .integer, .integer, .integer, .integer,
    .record (by decide) (by decide) himage, .oneOf hproperties, .list tidy_pathEntry,
    .list (.text _), nofun⟩

theorem tidy_toolchain : toolchain.Tidy := by
  have hentry := tidy_pathEntry
  have hlist : pathList.Tidy := .named (.list tidy_pathEntry)
  have hlauncher : ∀ property ∈ [("executable", pathEntry), ("files", pathList)],
      property.2.Tidy := by
    simp only [List.forall_mem_cons]
    exact ⟨hentry, hlist, nofun⟩
  refine .record (by decide) (by decide) ?_
  simp only [List.forall_mem_cons]
  exact ⟨hentry, hentry, hentry, hentry, hlist, hlist, hentry, hentry,
    .record (by decide) (by decide) hlauncher, hlist, hlist, hentry, nofun⟩

/-! ## Values of the wrong kind -/

variable {schema : Schema} {value : Value} {kind : String} {v : Violation}

theorem mem_complain {complaint : Complaint} : v ∈ complain complaint ↔ v = ⟨[], complaint⟩ :=
  List.mem_singleton

theorem violations_of_not_ofKind (hkind : schema.kind? = some kind) (h : ¬ schema.OfKind value) :
    schema.violations value = complain (.wrongKind value kind) := by
  cases schema with
  | null =>
      cases hkind
      cases value with
      | null => exact absurd .null h
      | _ => rfl
  | integer =>
      cases hkind
      have hnot : ¬ integer.Accepts value := fun haccepts =>
        h (.whole (Value.accepts_integer_iff_isWhole.1 haccepts).choose_spec)
      cases value with
      | int n => exact absurd (.whole (.int n)) h
      | float x =>
          show (if x.toInt?.isSome then [] else complain _) = _
          exact if_neg fun hsome => hnot (if_pos hsome)
      | _ => rfl
  | text rule =>
      cases hkind
      cases value with
      | text s => exact absurd (.text rule s) h
      | _ => rfl
  | list items =>
      cases hkind
      cases value with
      | list values => exact absurd (.list items values) h
      | _ => rfl
  | record required properties =>
      cases hkind
      cases value with
      | mapping entries => exact absurd (.mapping required properties entries) h
      | _ => rfl
  | oneOf | named => cases hkind

theorem fails_of_not_ofKind (hkind : schema.kind? = some kind) (h : ¬ schema.OfKind value) :
    schema.Fails value v ↔ v = ⟨[], .wrongKind value kind⟩ := by
  constructor
  · intro hfails
    cases hfails with
    | wrongKind hkind' => rw [Option.some.inj (hkind.symm.trans hkind')]
    | noName | emptyText => exact absurd (.text _ _) h
    | unknownKeys | missingKey | field => exact absurd (.mapping _ _ _) h
    | item => exact absurd (.list _ _) h
    | noAlternative | named => cases hkind
  · rintro rfl
    exact .wrongKind hkind h

/-- It remains to look at values of the right kind. -/
theorem mem_violations_iff_of_ofKind (hkind : schema.kind? = some kind)
    (h : schema.OfKind value → (v ∈ schema.violations value ↔ schema.Fails value v)) :
    v ∈ schema.violations value ↔ schema.Fails value v := by
  by_cases hof : schema.OfKind value
  · exact h hof
  · rw [violations_of_not_ofKind hkind hof, fails_of_not_ofKind hkind hof, mem_complain]

/-! ## Records -/

variable {required : List String} {properties : List (String × Schema)}
  {entries : List (Value × Value)}

theorem isStableSort_unknownKeys (known : List String) (entries : List (Value × Value)) :
    IsStableSort Value.plain ((entries.map Prod.fst).filter (isUnknown known))
      (unknownKeys known entries) :=
  isStableSort_mergeSort ((entries.map Prod.fst).filter (isUnknown known)) fun _ _ =>
    decide_eq_true_iff

theorem mem_unknownKeyViolations {known : List String} :
    v ∈ unknownKeyViolations known entries ↔
      ∃ keys, keys ≠ [] ∧ IsStableSort Value.plain
        ((entries.map Prod.fst).filter (isUnknown known)) keys ∧ v = ⟨[], .unknownKeys keys⟩ := by
  have hsort := isStableSort_unknownKeys known entries
  unfold unknownKeyViolations
  split
  · next hnil =>
    refine iff_of_false List.not_mem_nil fun ⟨keys, hne, hkeys, _⟩ => hne ?_
    rw [hkeys.unique hsort, hnil]
  · next hne =>
    rw [mem_complain]
    constructor
    · rintro rfl
      exact ⟨_, hne, hsort, rfl⟩
    · rintro ⟨keys, _, hkeys, rfl⟩
      rw [hkeys.unique hsort]

theorem mem_missingKeyViolations :
    v ∈ missingKeyViolations required entries ↔
      ∃ key ∈ required, Value.field? key entries = none ∧ v = ⟨[], .missingKey key⟩ := by
  simp only [missingKeyViolations, List.mem_map, List.mem_filter, Option.isNone_iff_eq_none,
    and_assoc, @eq_comm _ _ v]

theorem propertyViolations_eq_flatMap (properties : List (String × Schema))
    (entries : List (Value × Value)) :
    propertyViolations properties entries = properties.flatMap fun property =>
      (Value.field? property.1 entries).toList.flatMap fun value =>
        (property.2.violations value).map (.under (.key property.1)) := by
  induction properties with
  | nil => rfl
  | cons property rest ih =>
      obtain ⟨key, schema⟩ := property
      rw [List.flatMap_cons, ← ih]
      show _ ++ propertyViolations rest entries = _
      congr 1
      cases Value.field? key entries with
      | none => rfl
      | some value => exact (List.flatMap_singleton ..).symm

theorem mem_propertyViolations :
    v ∈ propertyViolations properties entries ↔
      ∃ property ∈ properties, ∃ value, Value.field? property.1 entries = some value ∧
        ∃ w ∈ property.2.violations value, v = w.under (.key property.1) := by
  simp only [propertyViolations_eq_flatMap, List.mem_flatMap, Option.mem_toList, List.mem_map,
    @eq_comm _ _ v]

theorem mem_violations_record (h : ∀ property ∈ properties, ∀ {value v},
      v ∈ property.2.violations value ↔ property.2.Fails value v) :
    v ∈ (record required properties).violations (.mapping entries) ↔
      (record required properties).Fails (.mapping entries) v := by
  show v ∈ unknownKeyViolations _ entries ++ missingKeyViolations required entries
    ++ propertyViolations properties entries ↔ _
  rw [List.mem_append, List.mem_append, mem_unknownKeyViolations, mem_missingKeyViolations,
    mem_propertyViolations]
  constructor
  · rintro ((⟨keys, hne, hkeys, rfl⟩ | ⟨key, hkey, hnone, rfl⟩) |
      ⟨property, hproperty, value, hfield, w, hw, rfl⟩)
    · exact .unknownKeys hne hkeys
    · exact .missingKey hkey hnone
    · exact .field hproperty hfield ((h property hproperty).1 hw)
  · intro hfails
    cases hfails with
    | wrongKind _ hkind => exact absurd (.mapping _ _ _) hkind
    | unknownKeys hne hkeys => exact .inl (.inl ⟨_, hne, hkeys, rfl⟩)
    | missingKey hkey hnone => exact .inl (.inr ⟨_, hkey, hnone, rfl⟩)
    | field hproperty hfield hpart =>
        exact .inr ⟨_, hproperty, _, hfield, _, (h _ hproperty).2 hpart, rfl⟩

/-! ## All schemas -/

theorem mem_violations_text {rule : TextRule} {s : String} :
    v ∈ (text rule).violations (.text s) ↔ (text rule).Fails (.text s) v := by
  have hof : (text rule).OfKind (.text s) := .text rule s
  cases rule with
  | nonEmpty =>
      show v ∈ (if s = "" then complain .emptyText else []) ↔ _
      rw [List.mem_ite_nil_right, mem_complain]
      constructor
      · rintro ⟨rfl, rfl⟩
        exact .emptyText
      · intro hfails
        cases hfails with
        | wrongKind _ hkind => exact absurd hof hkind
        | emptyText => exact ⟨rfl, rfl⟩
  | name =>
      show v ∈ (if isName s then [] else complain (.noName s)) ↔ _
      rw [List.mem_ite_nil_left, mem_complain, isName_iff]
      constructor
      · rintro ⟨hnot, rfl⟩
        exact .noName hnot
      · intro hfails
        cases hfails with
        | wrongKind _ hkind => exact absurd hof hkind
        | noName hnot => exact ⟨hnot, rfl⟩

theorem mem_violations_list {items : Schema} {values : List Value}
    (h : ∀ {value v}, v ∈ items.violations value ↔ items.Fails value v) :
    v ∈ (list items).violations (.list values) ↔ (list items).Fails (.list values) v := by
  show v ∈ values.zipIdx.flatMap (fun entry =>
    (items.violations entry.1).map (.under (.index entry.2))) ↔ _
  simp only [List.mem_flatMap, List.mem_map, Prod.exists, List.mk_mem_zipIdx_iff_getElem?]
  constructor
  · rintro ⟨value, i, hitem, w, hw, rfl⟩
    exact .item hitem (h.1 hw)
  · intro hfails
    cases hfails with
    | wrongKind _ hkind => exact absurd (.list _ _) hkind
    | item hitem hpart => exact ⟨_, _, hitem, _, h.2 hpart, rfl⟩

theorem mem_violations_oneOf {alternatives : List Schema}
    (h : ∀ schema ∈ alternatives, ∀ {value v},
      v ∈ schema.violations value ↔ schema.Fails value v) :
    v ∈ (oneOf alternatives).violations value ↔ (oneOf alternatives).Fails value v := by
  show v ∈ (if fitsAny alternatives value then [] else complain (.noAlternative value)) ↔ _
  rw [List.mem_ite_nil_left, mem_complain, fitsAny_iff]
  constructor
  · rintro ⟨hnone, rfl⟩
    -- one violation for each alternative, and anything for a schema that is none
    have hfault : ∀ schema : Schema, ∃ fault,
        schema ∈ alternatives → schema.Fails value fault := by
      intro schema
      by_cases hschema : schema ∈ alternatives
      · obtain ⟨fault, hmem⟩ := List.exists_mem_of_ne_nil _ fun hnil =>
          hnone ⟨schema, hschema, hnil⟩
        exact ⟨fault, fun _ => (h schema hschema).1 hmem⟩
      · exact ⟨⟨[], .emptyText⟩, fun hmem => absurd hmem hschema⟩
    obtain ⟨fault, hfault⟩ := Classical.axiomOfChoice hfault
    exact .noAlternative fault hfault
  · intro hfails
    cases hfails with
    | wrongKind hkind => cases hkind
    | noAlternative fault hfault =>
        refine ⟨fun ⟨schema, hschema, haccepts⟩ => ?_, rfl⟩
        have hmem := (h schema hschema).2 (hfault schema hschema)
        rw [haccepts] at hmem
        cases hmem

/-- The violations of a value are what is wrong with it. -/
theorem Tidy.mem_violations_iff (h : schema.Tidy) :
    v ∈ schema.violations value ↔ schema.Fails value v := by
  induction h generalizing value v with
  | null =>
      refine mem_violations_iff_of_ofKind rfl fun hof => ?_
      cases hof
      refine iff_of_false List.not_mem_nil fun hfails => ?_
      cases hfails with
      | wrongKind _ hkind => exact hkind .null
  | integer =>
      refine mem_violations_iff_of_ofKind rfl fun hof => ?_
      cases id hof with
      | whole hwhole =>
          have haccepts := Value.accepts_integer_iff_isWhole.2 ⟨_, hwhole⟩
          rw [haccepts]
          refine iff_of_false List.not_mem_nil fun hfails => ?_
          cases hfails with
          | wrongKind _ hkind => exact hkind hof
  | text rule =>
      refine mem_violations_iff_of_ofKind rfl fun hof => ?_
      cases hof
      exact mem_violations_text
  | list _ ih =>
      refine mem_violations_iff_of_ofKind rfl fun hof => ?_
      cases hof
      exact mem_violations_list ih
  | record _ _ _ ih =>
      refine mem_violations_iff_of_ofKind rfl fun hof => ?_
      cases hof
      exact mem_violations_record ih
  | oneOf _ ih => exact mem_violations_oneOf ih
  | named _ ih =>
      refine ih.trans ⟨.named, fun hfails => ?_⟩
      cases hfails with
      | wrongKind hkind => cases hkind
      | named hbody => exact hbody

end Schema

end EmulatedDevice
