import EmulatedDevice.Proofs.Numerals
import EmulatedDevice.Proofs.Violations
import EmulatedDevice.Schema.Document
import Mathlib.Data.List.Nodup

/-!
# The order of violations at one place

Each violation comes from a keyword of a schema: the kind of a value from `type`, a
missing key from `required`, and so on. As a document, a schema has its keywords in an
order, and the violations at one place are listed in this order, missing keys in the
order in which they are required. No violation comes before itself, so none is listed
twice.

Between violations at different places nothing is asked. In a list these differ in an
index and in a mapping in a key, and both can be told from the texts of the paths.
-/

namespace EmulatedDevice.Schema

/-- The keyword that a complaint is about. -/
def Complaint.keyword : Complaint → String
  | .wrongKind .. => "type"
  | .unknownKeys _ => "additionalProperties"
  | .missingKey _ => "required"
  | .noName _ => "pattern"
  | .emptyText => "minLength"
  | .noAlternative _ => "oneOf"

/-- The keywords of a schema as it is written. -/
def keywords (schema : Schema) : List String :=
  schema.toValue.entries.map fun entry => entry.1.plain

/-- Of two violations at one place, the first comes from the earlier keyword of the schema there, or
both are about missing keys and the first one is required before the other. -/
inductive Before : Schema → Violation → Violation → Prop where
  | keywords {schema : Schema} {c d : Complaint}
      (h : [c.keyword, d.keyword].Sublist schema.keywords) : Before schema ⟨[], c⟩ ⟨[], d⟩
  | required {required : List String} {properties : List (String × Schema)} {a b : String}
      (h : [a, b].Sublist required) :
      Before (.record required properties) ⟨[], .missingKey a⟩ ⟨[], .missingKey b⟩
  | item {items : Schema} {v w : Violation} {i : Nat} (h : Before items v w) :
      Before (.list items) (v.under (.index i)) (w.under (.index i))
  | field {required : List String} {properties : List (String × Schema)} {key : String}
      {schema : Schema} {v w : Violation} (hproperty : (key, schema) ∈ properties)
      (h : Before schema v w) :
      Before (.record required properties) (v.under (.key key)) (w.under (.key key))
  | named {name : String} {body : Schema} {v w : Violation} (h : Before body v w) :
      Before (.named name body) v w

variable {schema : Schema} {v w : Violation}

theorem Violation.under_inj {step : Step} (h : v.under step = w.under step) : v = w := by
  obtain ⟨path, complaint⟩ := v
  obtain ⟨path', complaint'⟩ := w
  obtain ⟨hpath, rfl⟩ : step :: path = step :: path' ∧ complaint = complaint' :=
    Violation.mk.inj h
  rw [(List.cons.inj hpath).2]

theorem nodup_keywords (schema : Schema) : schema.keywords.Nodup := by
  cases schema with
  | text rule => cases rule <;> decide
  | null | integer => decide
  | list items => exact (by decide : ["type", "items"].Nodup)
  | record required properties =>
      exact (by decide : ["type", "additionalProperties", "required", "properties"].Nodup)
  | oneOf alternatives => exact (by decide : ["oneOf"].Nodup)
  | named name body => exact (by decide : ["$ref"].Nodup)

/-- No violation comes before itself. -/
theorem Before.ne (h : schema.Before v w) (htidy : schema.Tidy) : v ≠ w := by
  induction h with
  | keywords h =>
      intro heq
      obtain ⟨_, rfl⟩ := Violation.mk.inj heq
      exact List.nodup_iff_sublist.1 (nodup_keywords _) _ h
  | required h =>
      intro heq
      obtain ⟨_, hkey⟩ := Violation.mk.inj heq
      obtain rfl := Complaint.missingKey.inj hkey
      cases htidy with
      | record hrequired => exact List.nodup_iff_sublist.1 hrequired _ h
  | item _ ih =>
      cases htidy with
      | list hitems => exact fun heq => ih hitems (Violation.under_inj heq)
  | field hproperty _ ih =>
      cases htidy with
      | record _ _ hparts =>
          exact fun heq => ih (hparts _ hproperty) (Violation.under_inj heq)
  | named _ ih =>
      cases htidy with
      | named hbody => exact ih hbody

/-! ## Listed in order -/

/-- Violations of which those at one place come in the order of a schema. -/
def InOrder (schema : Schema) (vs : List Violation) : Prop :=
  vs.Pairwise fun v w => v.texts = w.texts → schema.Before v w

theorem inOrder_complain (schema : Schema) (c : Complaint) : schema.InOrder (complain c) :=
  List.pairwise_singleton _ _

/-- What is in order in a part is in order there. -/
theorem InOrder.map_under {part : Schema} {vs : List Violation} {step : Step}
    (h : part.InOrder vs)
    (hstep : ∀ v w, part.Before v w → schema.Before (v.under step) (w.under step)) :
    schema.InOrder (vs.map (.under step)) :=
  List.pairwise_map.2 (h.imp fun hvw htexts => hstep _ _ (hvw (List.cons.inj htexts).2))

theorem inOrder_list {items : Schema} (values : List Value)
    (h : ∀ value, items.InOrder (items.violations value)) :
    (list items).InOrder ((list items).violations (.list values)) := by
  show (list items).InOrder (values.zipIdx.flatMap fun entry =>
    (items.violations entry.1).map (.under (.index entry.2)))
  refine List.pairwise_flatMap.2 ⟨fun entry _ => (h entry.1).map_under fun _ _ => .item, ?_⟩
  have hindices : (values.zipIdx.map Prod.snd).Nodup := by
    rw [List.zipIdx_map_snd]
    exact List.nodup_range'
  refine (List.pairwise_map.1 hindices).imp fun hne v hv w hw htexts => absurd ?_ hne
  obtain ⟨v, _, rfl⟩ := List.mem_map.1 hv
  obtain ⟨w, _, rfl⟩ := List.mem_map.1 hw
  have hindex := (List.cons.inj htexts).1
  exact Int.ofNat_inj.1 (Numeral.toString_inj.1 hindex)

section Records

variable {required : List String} {properties : List (String × Schema)}
  (entries : List (Value × Value))

theorem inOrder_unknownKeyViolations (known : List String) :
    schema.InOrder (unknownKeyViolations known entries) := by
  unfold unknownKeyViolations
  split
  · exact List.Pairwise.nil
  · exact inOrder_complain _ _

theorem inOrder_missingKeyViolations :
    (record required properties).InOrder (missingKeyViolations required entries) := by
  refine List.pairwise_map.2 (List.pairwise_iff_forall_sublist.2 fun hab _ => ?_)
  exact .required (hab.trans List.filter_sublist)

theorem inOrder_propertyViolations (hkeys : (properties.map Prod.fst).Nodup)
    (h : ∀ property ∈ properties, ∀ value, property.2.InOrder (property.2.violations value)) :
    (record required properties).InOrder (propertyViolations properties entries) := by
  rw [propertyViolations_eq_flatMap]
  refine List.pairwise_flatMap.2 ⟨fun property hproperty => ?_, ?_⟩
  · cases Value.field? property.1 entries with
    | none => exact List.Pairwise.nil
    | some value =>
        rw [Option.toList_some, List.flatMap_singleton]
        exact (h property hproperty value).map_under fun _ _ => .field hproperty
  · refine (List.pairwise_map.1 hkeys).imp fun hne v hv w hw htexts => absurd ?_ hne
    obtain ⟨_, _, hv⟩ := List.mem_flatMap.1 hv
    obtain ⟨_, _, hw⟩ := List.mem_flatMap.1 hw
    obtain ⟨v, _, rfl⟩ := List.mem_map.1 hv
    obtain ⟨w, _, rfl⟩ := List.mem_map.1 hw
    exact (List.cons.inj htexts).1

variable {entries}

/-- Unknown keys come before missing ones, as their keywords do. -/
theorem before_of_unknown_of_missing {known : List String}
    (hv : v ∈ unknownKeyViolations known entries) (hw : w ∈ missingKeyViolations required entries) :
    (record required properties).Before v w := by
  obtain ⟨_, _, _, rfl⟩ := mem_unknownKeyViolations.1 hv
  obtain ⟨_, _, _, rfl⟩ := mem_missingKeyViolations.1 hw
  exact .keywords (by decide : ["additionalProperties", "required"].Sublist
    ["type", "additionalProperties", "required", "properties"])

theorem texts_of_mem_keyViolations {known : List String}
    (hv : v ∈ unknownKeyViolations known entries ++ missingKeyViolations required entries) :
    v.texts = [] := by
  rcases List.mem_append.1 hv with hv | hv
  · obtain ⟨_, _, _, rfl⟩ := mem_unknownKeyViolations.1 hv
    rfl
  · obtain ⟨_, _, _, rfl⟩ := mem_missingKeyViolations.1 hv
    rfl

theorem texts_of_mem_propertyViolations (hv : v ∈ propertyViolations properties entries) :
    v.texts ≠ [] := by
  obtain ⟨_, _, _, _, w, _, rfl⟩ := mem_propertyViolations.1 hv
  exact List.cons_ne_nil _ _

theorem inOrder_record (hkeys : (properties.map Prod.fst).Nodup)
    (h : ∀ property ∈ properties, ∀ value, property.2.InOrder (property.2.violations value)) :
    (record required properties).InOrder
      ((record required properties).violations (.mapping entries)) := by
  have hwhole : (record required properties).InOrder
      (unknownKeyViolations (properties.map Prod.fst) entries ++
        missingKeyViolations required entries) :=
    List.pairwise_append.2 ⟨inOrder_unknownKeyViolations entries _,
      inOrder_missingKeyViolations entries, fun _ hv _ hw _ =>
        before_of_unknown_of_missing hv hw⟩
  -- what is wrong under a key is at another place than what is wrong with the whole
  refine List.pairwise_append.2 ⟨hwhole, inOrder_propertyViolations entries hkeys h, ?_⟩
  intro v hv w hw htexts
  rw [texts_of_mem_keyViolations hv] at htexts
  exact absurd htexts.symm (texts_of_mem_propertyViolations hw)

end Records

theorem inOrder_text {rule : TextRule} (s : String) :
    (text rule).InOrder ((text rule).violations (.text s)) := by
  cases rule with
  | nonEmpty =>
      show InOrder _ (if s = "" then complain .emptyText else [])
      split
      · exact inOrder_complain _ _
      · exact List.Pairwise.nil
  | name =>
      show InOrder _ (if isName s then [] else complain (.noName s))
      split
      · exact List.Pairwise.nil
      · exact inOrder_complain _ _

/-- The violations of a value are listed in order. -/
theorem Tidy.inOrder (h : schema.Tidy) (value : Value) :
    schema.InOrder (schema.violations value) := by
  have hof : ∀ {schema : Schema} {value : Value} {kind : String}, schema.kind? = some kind →
      (schema.OfKind value → schema.InOrder (schema.violations value)) →
        schema.InOrder (schema.violations value) := by
    intro schema value kind hkind hright
    by_cases hof : schema.OfKind value
    · exact hright hof
    · rw [violations_of_not_ofKind hkind hof]
      exact inOrder_complain _ _
  induction h generalizing value with
  | null =>
      refine hof rfl fun hkind => ?_
      cases hkind
      exact List.Pairwise.nil
  | integer =>
      refine hof rfl fun hkind => ?_
      cases hkind with
      | whole hwhole =>
          rw [Value.accepts_integer_iff_isWhole.2 ⟨_, hwhole⟩]
          exact List.Pairwise.nil
  | text rule =>
      refine hof rfl fun hkind => ?_
      cases hkind
      exact inOrder_text _
  | list _ ih =>
      refine hof rfl fun hkind => ?_
      cases hkind
      exact inOrder_list _ ih
  | record _ hkeys _ ih =>
      refine hof rfl fun hkind => ?_
      cases hkind
      exact inOrder_record hkeys ih
  | oneOf =>
      show InOrder _ (if fitsAny _ value then [] else complain (.noAlternative value))
      split
      · exact List.Pairwise.nil
      · exact inOrder_complain _ _
  | named _ ih => exact (ih value).imp fun hvw htexts => .named (hvw htexts)

theorem Tidy.nodup (h : schema.Tidy) (value : Value) : (schema.violations value).Nodup :=
  (h.inOrder value).imp fun hvw heq => (hvw (congrArg _ heq)).ne h heq

end EmulatedDevice.Schema
