import EmulatedDevice.Declaration
import EmulatedDevice.Proofs.Acceptance
import Mathlib.Data.List.Forall2

/-!
# What is accepted can be read

A document is checked first and taken apart afterwards, by code that knows nothing
of the schema: it looks keys up, turns values into numbers and entries into
artifacts, and each of these steps has faults of its own. None of them is ever
met, and nothing is lost on the way. Both are said with a third thing between the
schema and the code: a relation between values and what they stand for. A schema
accepts just the values that stand for something (`Schema.Reads`), and from such a
value the code reads what it stands for. So a document is either refused with its
violations or read for what it says.

The argument goes up with the data: a path entry, a list of them, the field of a
mapping that holds one, the mapping. Whole documents are left to the modules on
declarations and manifests; `Schema.checked_eq_ok_iff` is what they end with.
-/

namespace EmulatedDevice

/-! ## What values stand for -/

namespace Value

section Relations

variable {α : Type}

/-- A text that is not empty, which stands for itself. -/
def IsText (value : Value) (s : String) : Prop :=
  value = .text s ∧ s ≠ ""

/-- A list whose items stand for the given things, one for one. -/
def IsListOf (R : Value → α → Prop) (value : Value) (xs : List α) : Prop :=
  ∃ items, value = .list items ∧ List.Forall₂ R items xs

/-- Null, which stands for nothing, or a value that stands for something. -/
def IsOptional (R : Value → α → Prop) (value : Value) (x : Option α) : Prop :=
  (value = .null ∧ x = none) ∨ ∃ y, x = some y ∧ R value y

/-- A mapping whose entries describe something. -/
def IsMapping (P : List (Value × Value) → α → Prop) (value : Value) (x : α) : Prop :=
  ∃ entries, value = .mapping entries ∧ P entries x

/-- Entries under no other keys than these. -/
def HasOnly (keys : List String) (entries : List (Value × Value)) : Prop :=
  ∀ entry ∈ entries, ∃ key ∈ keys, entry.1 = .text key

/-- Under a key there is a value that stands for something. -/
def HasField (R : Value → α → Prop) (entries : List (Value × Value)) (key : String) (x : α) :
    Prop :=
  ∃ part, field? key entries = some part ∧ R part x

/-- A field that may be left out; `absent` is what this stands for. -/
def HasOptional (R : Value → α → Prop) (absent : α) (entries : List (Value × Value))
    (key : String) (x : α) : Prop :=
  (field? key entries = none ∧ x = absent) ∨ HasField R entries key x

end Relations

/-- A path entry and the file that it stands for: a text is the path of a source file, a mapping
has the path and the output root of a generated file and nothing else. -/
inductive IsPathEntry : Value → Artifact → Prop where
  | source {value : Value} {path : String} (h : value.IsText path) :
      IsPathEntry value (.source path)
  | derived {entries : List (Value × Value)} {root path : String}
      (hkeys : HasOnly ["path", "root"] entries) (hpath : HasField IsText entries "path" path)
      (hroot : HasField IsText entries "root" root) :
      IsPathEntry (.mapping entries) (.derived root path)

end Value

open Value

/-! ## Schemas and what their values stand for -/

namespace Schema

variable {α : Type} {R : Value → α → Prop} {schema : Schema}

/-- A schema accepts just the values that stand for something. -/
def Reads (schema : Schema) (R : Value → α → Prop) : Prop :=
  ∀ value, schema.Accepts value ↔ ∃ x, R value x

theorem reads_text : (text .nonEmpty).Reads IsText :=
  fun _ => accepts_nonEmpty_iff

theorem reads_named {name : String} (h : schema.Reads R) : (named name schema).Reads R :=
  fun value => accepts_named_iff.trans (h value)

theorem exists_forall₂_iff {values : List Value} :
    (∃ xs, List.Forall₂ R values xs) ↔ ∀ value ∈ values, ∃ x, R value x := by
  induction values with
  | nil => simp
  | cons value rest ih =>
      rw [List.forall_mem_cons, ← ih]
      constructor
      · rintro ⟨_, h⟩
        cases h with
        | cons hvalue hrest => exact ⟨⟨_, hvalue⟩, _, hrest⟩
      · rintro ⟨⟨x, hx⟩, xs, hxs⟩
        exact ⟨x :: xs, .cons hx hxs⟩

theorem reads_list (h : schema.Reads R) : (list schema).Reads (IsListOf R) := by
  intro value
  rw [accepts_list_iff]
  constructor
  · rintro ⟨items, rfl, hitems⟩
    obtain ⟨xs, hxs⟩ := exists_forall₂_iff.2 fun item hitem => (h item).1 (hitems item hitem)
    exact ⟨xs, items, rfl, hxs⟩
  · rintro ⟨xs, items, rfl, hxs⟩
    exact ⟨items, rfl, fun item hitem => (h item).2 (exists_forall₂_iff.1 ⟨xs, hxs⟩ item hitem)⟩

theorem reads_optional (h : schema.Reads R) : (oneOf [null, schema]).Reads (IsOptional R) := by
  intro value
  rw [accepts_oneOf_iff]
  simp only [List.mem_cons, List.not_mem_nil, or_false, exists_eq_or_imp, exists_eq_left,
    accepts_null_iff, h value]
  constructor
  · rintro (hnull | ⟨x, hx⟩)
    · exact ⟨none, .inl ⟨hnull, rfl⟩⟩
    · exact ⟨some x, .inr ⟨x, rfl, hx⟩⟩
  · rintro ⟨_, ⟨hnull, _⟩ | ⟨x, _, hx⟩⟩
    · exact .inl hnull
    · exact .inr ⟨x, hx⟩

/-! ### Records -/

/-- What a record asks of the entries of a mapping. -/
structure Fits (required : List String) (properties : List (String × Schema))
    (entries : List (Value × Value)) : Prop where
  known : HasOnly (properties.map Prod.fst) entries
  present : ∀ key ∈ required, (Value.field? key entries).isSome
  accepted : ∀ property ∈ properties, ∀ part,
    Value.field? property.1 entries = some part → property.2.Accepts part

section Record

variable {required : List String} {properties : List (String × Schema)}
  {entries : List (Value × Value)}

theorem reads_record {P : List (Value × Value) → α → Prop}
    (h : ∀ entries, Fits required properties entries ↔ ∃ x, P entries x) :
    (record required properties).Reads (IsMapping P) := by
  intro value
  rw [accepts_record_iff]
  constructor
  · rintro ⟨entries, rfl, hknown, hpresent, haccepted⟩
    obtain ⟨x, hx⟩ := (h entries).1 ⟨hknown, hpresent, haccepted⟩
    exact ⟨x, entries, rfl, hx⟩
  · rintro ⟨x, entries, rfl, hx⟩
    obtain ⟨hknown, hpresent, haccepted⟩ := (h entries).2 ⟨x, hx⟩
    exact ⟨entries, rfl, hknown, hpresent, haccepted⟩

/-- A field that may be left out stands for something, one way or the other. -/
theorem Fits.exists_optional (key : String) (absent : α) (h : Fits required properties entries)
    (hreads : schema.Reads R) (hproperty : (key, schema) ∈ properties) :
    ∃ x, HasOptional R absent entries key x := by
  cases hpart : Value.field? key entries with
  | none => exact ⟨absent, .inl ⟨hpart, rfl⟩⟩
  | some part =>
      obtain ⟨x, hx⟩ := (hreads part).1 (h.accepted _ hproperty part hpart)
      exact ⟨x, .inr ⟨part, hpart, hx⟩⟩

theorem Fits.exists_field (key : String) (h : Fits required properties entries)
    (hreads : schema.Reads R) (hproperty : (key, schema) ∈ properties) (hkey : key ∈ required) :
    ∃ x, HasField R entries key x := by
  obtain ⟨part, hpart⟩ := Option.isSome_iff_exists.1 (h.present key hkey)
  obtain ⟨x, hx⟩ := (hreads part).1 (h.accepted _ hproperty part hpart)
  exact ⟨x, part, hpart, hx⟩

end Record

end Schema

namespace Value

variable {α : Type} {R : Value → α → Prop} {entries : List (Value × Value)} {key : String}
  {x absent : α}

theorem HasField.isSome (h : HasField R entries key x) : (field? key entries).isSome := by
  obtain ⟨part, hpart, _⟩ := h
  rw [hpart]
  rfl

theorem HasField.optional (h : HasField R entries key x) : HasOptional R absent entries key x :=
  .inr h

theorem HasOptional.accepted {schema : Schema} (h : HasOptional R absent entries key x)
    (hreads : schema.Reads R) (part : Value) (hpart : field? key entries = some part) :
    schema.Accepts part := by
  rcases h with ⟨hnone, _⟩ | ⟨found, hfound, hx⟩
  · cases hnone.symm.trans hpart
  · cases hfound.symm.trans hpart
    exact (hreads part).2 ⟨x, hx⟩

theorem HasField.accepted {schema : Schema} (h : HasField R entries key x)
    (hreads : schema.Reads R) (part : Value) (hpart : field? key entries = some part) :
    schema.Accepts part :=
  HasOptional.accepted (h.optional : HasOptional R x entries key x) hreads part hpart

/-- What a look-up finds: what stands under the key, or null when nothing does. -/
theorem HasOptional.lookup (h : HasOptional R absent entries key x) :
    ((Value.mapping entries).lookup key = .null ∧ x = absent) ∨
      R ((Value.mapping entries).lookup key) x := by
  rcases h with ⟨hnone, hx⟩ | ⟨part, hpart, hx⟩
  · exact .inl ⟨by rw [Value.lookup, Value.entries, hnone, Option.getD_none], hx⟩
  · exact .inr (by rwa [Value.lookup, Value.entries, hpart, Option.getD_some])

theorem HasField.lookup (h : HasField R entries key x) :
    R ((Value.mapping entries).lookup key) x := by
  obtain ⟨part, hpart, hx⟩ := h
  rwa [Value.lookup, Value.entries, hpart, Option.getD_some]

theorem IsText.plain {value : Value} {s : String} (h : value.IsText s) : value.plain = s := by
  rw [h.1]
  rfl

end Value

/-! ## Path entries -/

namespace Schema

theorem reads_pathEntry : pathEntry.Reads IsPathEntry := by
  have hderived : (record ["path", "root"]
      [("path", .text .nonEmpty), ("root", .text .nonEmpty)]).Reads
        (IsMapping fun entries a => IsPathEntry (.mapping entries) a) := by
    refine reads_record fun entries => ⟨fun h => ?_, ?_⟩
    · obtain ⟨path, hpath⟩ := h.exists_field "path" reads_text (by simp) (by simp)
      obtain ⟨root, hroot⟩ := h.exists_field "root" reads_text (by simp) (by simp)
      exact ⟨_, .derived h.known hpath hroot⟩
    · rintro ⟨_, h⟩
      cases h with
      | source h => cases h.1
      | derived hkeys hpath hroot =>
          exact ⟨hkeys, by simp [hpath.isSome, hroot.isSome],
            by simpa using ⟨hpath.accepted reads_text, hroot.accepted reads_text⟩⟩
  refine reads_named fun value => accepts_oneOf_iff.trans ?_
  simp only [List.mem_cons, List.not_mem_nil, or_false, exists_eq_or_imp, exists_eq_left,
    reads_text value, hderived value]
  constructor
  · rintro (⟨path, hpath⟩ | ⟨a, entries, rfl, ha⟩)
    · exact ⟨_, .source hpath⟩
    · exact ⟨a, ha⟩
  · rintro ⟨_, h⟩
    cases h with
    | source h => exact .inl ⟨_, h⟩
    | derived hkeys hpath hroot => exact .inr ⟨_, _, rfl, .derived hkeys hpath hroot⟩

theorem reads_pathList : pathList.Reads (IsListOf IsPathEntry) :=
  reads_named (reads_list reads_pathEntry)

end Schema

namespace Artifact

variable {value : Value} {a : Artifact} {as : List Artifact}

theorem entryField_eq {entries : List (Value × Value)} {key text : String}
    (h : HasField IsText entries key text) : entryField key entries = .ok text := by
  obtain ⟨part, hpart, htext⟩ := h
  obtain ⟨rfl, _⟩ := htext
  rw [entryField, hpart]
  rfl

theorem ofEntry_eq (h : IsPathEntry value a) : ofEntry value = .ok a := by
  cases h with
  | source h =>
      rw [h.1]
      rfl
  | derived hkeys hpath hroot =>
      rw [ofEntry, entryField_eq hpath, entryField_eq hroot]
      rfl

theorem ofEntries_eq {items : List Value} (h : List.Forall₂ IsPathEntry items as) :
    ofEntries items = .ok as := by
  induction h with
  | nil => rfl
  | cons hfirst _ ih =>
      rw [ofEntries, ofEntry_eq hfirst, ih]
      rfl

theorem ofEntryList_eq (h : IsListOf IsPathEntry value as) : ofEntryList value = .ok as := by
  obtain ⟨items, rfl, hitems⟩ := h
  unfold ofEntryList
  split
  · next hempty =>
    obtain rfl := List.isEmpty_iff.1 hempty
    rw [List.forall₂_nil_left_iff.1 hitems]
  · exact ofEntries_eq hitems

end Artifact

namespace Declaration

variable {entries : List (Value × Value)} {key : String}

theorem artifactAt_eq {a : Artifact} (h : HasField IsPathEntry entries key a) :
    artifactAt (.mapping entries) key = .ok a := by
  obtain ⟨part, hpart, ha⟩ := h
  rw [artifactAt, Value.entries, hpart]
  simp only [Artifact.ofEntry_eq ha]
  rfl

/-- A list of path entries that is left out is read as an empty one. -/
theorem artifactsAt_eq {as : List Artifact}
    (h : HasOptional (IsListOf IsPathEntry) [] entries key as) :
    artifactsAt (.mapping entries) key = .ok as := by
  unfold artifactsAt
  rcases h.lookup with ⟨hnull, rfl⟩ | has
  · rw [hnull]
    rfl
  · rw [Artifact.ofEntryList_eq has]
    rfl

theorem optionalArtifactAt_eq {a : Option Artifact}
    (h : HasOptional (IsOptional IsPathEntry) none entries key a) :
    optionalArtifactAt (.mapping entries) key = .ok a := by
  unfold optionalArtifactAt
  rcases h.lookup with ⟨hnull, rfl⟩ | ⟨hnull, rfl⟩ | ⟨b, rfl, hb⟩
  · rw [hnull]
  · rw [hnull]
  · split
    · next hnull =>
      rw [hnull] at hb
      cases hb with
      | source htext => cases htext.1
    · rw [Artifact.ofEntry_eq hb]
      rfl

end Declaration

/-! ## Checking before reading -/

namespace Schema

variable {α : Type} {R : Value → α → Prop} {schema : Schema} {place : String} {document : Value}
  {reading : Except DeclarationFault α}

/-- A document is accepted and read as something just when this is what it says. -/
theorem checked_eq_ok_iff (hreads : schema.Reads R)
    (hreading : ∀ x, R document x → reading = .ok x) {x : α} :
    (do (schema.check place document).mapError DeclarationFault.ofCheck; reading) = .ok x ↔
      R document x := by
  cases hcheck : schema.check place document with
  | error fault =>
      refine iff_of_false nofun fun hx => ?_
      exact (check_error hcheck).1 ((hreads document).2 ⟨x, hx⟩)
  | ok _ =>
      obtain ⟨y, hy⟩ := (hreads document).1 (check_eq_ok_iff.1 hcheck)
      show reading = .ok x ↔ _
      rw [hreading y hy]
      refine ⟨fun heq => Except.ok.inj heq ▸ hy, fun hx => ?_⟩
      rw [← hreading y hy, hreading x hx]

/-- Where there are no words for what is wrong with a document, nothing is read either. -/
theorem checked_of_not_canReport (h : ¬ schema.CanReport document) :
    (do (schema.check place document).mapError DeclarationFault.ofCheck; reading) =
      .error .tooManyDigits := by
  rw [check_of_not_canReport h]
  rfl

/-- Such a document is neither taken for something nor refused for what is wrong with it. -/
theorem unread_of_not_canReport (h : ¬ schema.CanReport document) :
    (¬ ∃ x, (do (schema.check place document).mapError DeclarationFault.ofCheck; reading) =
      .ok x) ∧
    ¬ ∃ rejection, (do (schema.check place document).mapError DeclarationFault.ofCheck; reading) =
      .error (.rejected rejection) := by
  rw [checked_of_not_canReport h]
  exact ⟨nofun, nofun⟩

/-- A document that says nothing is refused for all that is wrong with it, or for a number that
would have to be shown to say so. -/
theorem checked_outcome (hreads : schema.Reads R) (place : String) (document : Value)
    (reading : Except DeclarationFault α) :
    (∃ x, R document x) ∨
    (schema.CanReport document ∧ schema.violations document ≠ [] ∧
      (do (schema.check place document).mapError DeclarationFault.ofCheck; reading) =
        .error (.rejected ⟨place, schema.violations document⟩)) ∨
    (¬ schema.CanReport document ∧
      (do (schema.check place document).mapError DeclarationFault.ofCheck; reading) =
        .error .tooManyDigits) := by
  by_cases haccepts : schema.Accepts document
  · exact .inl ((hreads document).1 haccepts)
  · by_cases hreport : schema.CanReport document
    · refine .inr (.inl ⟨hreport, haccepts, ?_⟩)
      rw [check_of_canReport haccepts hreport]
      rfl
    · exact .inr (.inr ⟨hreport, checked_of_not_canReport hreport⟩)

theorem checked_ne_tooManyDigits (hreads : schema.Reads R)
    (hreading : ∀ x, R document x → reading = .ok x) (h : schema.CanReport document) :
    (do (schema.check place document).mapError DeclarationFault.ofCheck; reading) ≠
      .error .tooManyDigits := by
  intro hlong
  rcases checked_outcome hreads place document reading with
    ⟨x, hx⟩ | ⟨_, _, hrejected⟩ | ⟨hreport, _⟩
  · cases hlong.symm.trans ((checked_eq_ok_iff hreads hreading).2 hx)
  · cases hlong.symm.trans hrejected
  · exact hreport h

end Schema

end EmulatedDevice
