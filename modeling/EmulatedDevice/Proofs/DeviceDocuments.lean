import EmulatedDevice.Proofs.Reading
import EmulatedDevice.Proofs.WholeNumbers
import EmulatedDevice.Proofs.WritableValues

/-!
# What a device document says

A document and the device that it declares, as a relation field by field
(`Declaration.DescribedBy`): which keys there may be, what has to stand under each,
and what the declaration then holds. The relation knows neither the schema nor the
code that takes a document apart, and it is what ties the two together. The schema
accepts just the documents that describe a device, and the device they describe is
the one that is read (`Declaration.parse_device_outcome`).

Two fields need a word of their own. A name is held against a pattern whose end also
matches before a final newline. An attribute is a whole number however it is
written, so a double is only taken when no fraction would be lost.
-/

namespace EmulatedDevice

open Value

/-! ## Names -/

namespace Value

/-- A letter, a digit or one of four signs. -/
def IsNameChar (c : Char) : Prop :=
  ('A' ≤ c ∧ c ≤ 'Z') ∨ ('a' ≤ c ∧ c ≤ 'z') ∨ ('0' ≤ c ∧ c ≤ '9') ∨ c ∈ ['_', '.', '+', '-']

/-- A text of one or more name characters, which one newline may follow. -/
def IsName (value : Value) (s : String) : Prop :=
  value = .text s ∧ ∃ core : List Char, core ≠ [] ∧ (∀ c ∈ core, IsNameChar c) ∧
    (s.toList = core ∨ s.toList = core ++ ['\n'])

end Value

namespace Schema

theorem isNameChar_iff {c : Char} : isNameChar c = true ↔ IsNameChar c := by
  have hupper : c.isUpper = true ↔ 'A' ≤ c ∧ c ≤ 'Z' := decide_eq_true_iff
  have hlower : c.isLower = true ↔ 'a' ≤ c ∧ c ≤ 'z' :=
    Bool.and_eq_true_iff.trans (and_congr decide_eq_true_iff decide_eq_true_iff)
  have hdigit : c.isDigit = true ↔ '0' ≤ c ∧ c ≤ '9' :=
    Bool.and_eq_true_iff.trans (and_congr decide_eq_true_iff decide_eq_true_iff)
  have halphanum : c.isAlphanum = true ↔
      ('A' ≤ c ∧ c ≤ 'Z') ∨ ('a' ≤ c ∧ c ≤ 'z') ∨ ('0' ≤ c ∧ c ≤ '9') := by
    show ((c.isUpper || c.isLower) || c.isDigit) = true ↔ _
    rw [Bool.or_eq_true, Bool.or_eq_true, hupper, hlower, hdigit, or_assoc]
  simp only [isNameChar, IsNameChar, Bool.or_eq_true, halphanum, beq_iff_eq, List.mem_cons,
    List.not_mem_nil, or_false, or_assoc]

theorem dropFinalNewline_concat (core : List Char) :
    Text.dropFinalNewline (core ++ ['\n']) = core := by
  rw [Text.dropFinalNewline, List.getLast?_concat, if_pos rfl, List.dropLast_concat]

theorem dropFinalNewline_of_not_mem {core : List Char} (h : '\n' ∉ core) :
    Text.dropFinalNewline core = core :=
  if_neg fun hlast => h (List.mem_of_getLast? hlast)

/-- There is no other way in which a text can lose its final newline. -/
theorem dropFinalNewline_cases (text : List Char) :
    text = Text.dropFinalNewline text ∨ text = Text.dropFinalNewline text ++ ['\n'] := by
  unfold Text.dropFinalNewline
  split
  · next hlast => exact .inr (List.dropLast_append_getLast? _ hlast).symm
  · exact .inl rfl

theorem isName_iff {s : String} : isName s = true ↔ IsName (.text s) s := by
  simp only [isName, Bool.and_eq_true, Bool.not_eq_true', List.isEmpty_eq_false_iff,
    List.all_eq_true, isNameChar_iff, IsName, true_and]
  constructor
  · rintro ⟨hne, hchars⟩
    exact ⟨_, hne, hchars, dropFinalNewline_cases _⟩
  · rintro ⟨core, hne, hchars, hs | hs⟩
    · have hnewline : '\n' ∉ core := fun h => absurd (isNameChar_iff.2 (hchars _ h)) (by decide)
      rw [hs, dropFinalNewline_of_not_mem hnewline]
      exact ⟨hne, hchars⟩
    · rw [hs, dropFinalNewline_concat]
      exact ⟨hne, hchars⟩

theorem reads_name : (text .name).Reads IsName := by
  intro value
  rw [accepts_name_iff]
  refine exists_congr fun s => ⟨?_, fun h => ⟨h.1, isName_iff.2 ⟨rfl, h.2⟩⟩⟩
  rintro ⟨rfl, h⟩
  exact isName_iff.1 h

theorem reads_integer : integer.Reads IsWhole :=
  fun _ => accepts_integer_iff_isWhole

end Schema

/-! ## The device that a document describes -/

/-- What the entries of a file group say. -/
structure FileGroup.DescribedBy (entries : List (Value × Value)) (group : FileGroup) : Prop where
  known : HasOnly ["label", "files"] entries
  label : HasField IsText entries "label" group.label
  files : HasField (IsListOf IsPathEntry) entries "files" group.files

namespace Declaration

/-- The keys that a device document may have. -/
def keys : List String :=
  [ "name", "horizontal_resolution", "vertical_resolution", "ram", "screen_density", "cache"
  , "vm_heap", "system_image", "default_properties", "platform_apks", "tags" ]

/-- What the entries of a device document say. -/
structure DescribedBy (entries : List (Value × Value)) (d : Declaration) : Prop where
  known : HasOnly keys entries
  name : HasField IsName entries "name" d.name
  spec : ∀ subject : Attribute, HasField IsWhole entries subject.key (d.spec.get subject)
  systemImage : HasField (IsMapping FileGroup.DescribedBy) entries "system_image" d.systemImage
  defaultProperties : HasOptional (IsOptional IsPathEntry) none entries "default_properties"
    d.defaultProperties
  apks : HasOptional (IsListOf IsPathEntry) [] entries "platform_apks" d.apks
  tags : HasOptional (IsListOf IsText) [] entries "tags" d.tags
  executionInfo : d.executionInfo = .ofTags d.tags

end Declaration

/-! ## What the schema accepts describes a device -/

@[simp]
theorem DeviceSpec.get_ofAttributes (value : Attribute → Int) (subject : Attribute) :
    (ofAttributes value).get subject = value subject := by
  cases subject <;> rfl

namespace Schema

theorem reads_fileGroup :
    (record ["label", "files"] [("label", text .nonEmpty), ("files", list pathEntry)]).Reads
      (IsMapping FileGroup.DescribedBy) := by
  refine reads_record fun entries => ⟨fun h => ?_, ?_⟩
  · obtain ⟨label, hlabel⟩ := h.exists_field "label" reads_text (by simp) (by simp)
    obtain ⟨files, hfiles⟩ :=
      h.exists_field "files" (reads_list reads_pathEntry) (by simp) (by simp)
    exact ⟨⟨label, files⟩, h.known, hlabel, hfiles⟩
  · rintro ⟨group, h⟩
    refine ⟨h.known, by simp [h.label.isSome, h.files.isSome], ?_⟩
    simpa using ⟨h.label.accepted reads_text, h.files.accepted (reads_list reads_pathEntry)⟩

theorem reads_device : device.Reads (IsMapping Declaration.DescribedBy) := by
  have himage := reads_fileGroup
  have hproperties := reads_optional reads_pathEntry
  have hapks := reads_list reads_pathEntry
  have htags := reads_list reads_text
  refine reads_record fun entries => ⟨fun h => ?_, ?_⟩
  · obtain ⟨name, hname⟩ := h.exists_field "name" reads_name (by simp) (by simp)
    have hspec : ∀ subject : Attribute, ∃ n, HasField IsWhole entries subject.key n :=
      fun subject => h.exists_field _ reads_integer
        (by cases subject <;> simp [Attribute.key]) (by cases subject <;> simp [Attribute.key])
    obtain ⟨value, hvalue⟩ := Classical.axiomOfChoice hspec
    obtain ⟨image, himage⟩ := h.exists_field "system_image" himage (by simp) (by simp)
    obtain ⟨properties, hproperties⟩ :=
      h.exists_optional "default_properties" none hproperties (by simp)
    obtain ⟨apks, hapks⟩ := h.exists_optional "platform_apks" [] hapks (by simp)
    obtain ⟨tags, htags⟩ := h.exists_optional "tags" [] htags (by simp)
    exact ⟨⟨name, .ofAttributes value, image, properties, apks, tags, .ofTags tags⟩, h.known,
      hname, fun subject => by simpa using hvalue subject, himage, hproperties, hapks, htags, rfl⟩
  · rintro ⟨d, h⟩
    refine ⟨h.known, ?_, ?_⟩
    · simpa using ⟨h.name.isSome, (h.spec .horizontalResolution).isSome,
        (h.spec .verticalResolution).isSome, (h.spec .ram).isSome, (h.spec .screenDensity).isSome,
        (h.spec .cache).isSome, (h.spec .vmHeap).isSome, h.systemImage.isSome⟩
    · have hspec := fun subject => (h.spec subject).accepted reads_integer
      simpa using ⟨h.name.accepted reads_name, hspec .horizontalResolution,
        hspec .verticalResolution, hspec .ram, hspec .screenDensity, hspec .cache, hspec .vmHeap,
        h.systemImage.accepted himage, h.defaultProperties.accepted hproperties,
        h.apks.accepted hapks, h.tags.accepted htags⟩

end Schema

/-! ## What describes a device is read as it -/

namespace DeviceSpec

variable {entries : List (Value × Value)}

theorem readAttribute_eq {subject : Attribute} {n : Int}
    (h : HasField IsWhole entries subject.key n) : readAttribute entries subject = .ok n := by
  obtain ⟨part, hpart, hn⟩ := h
  rw [readAttribute, hpart]
  exact hn.toInteger

theorem ofEntries_eq {spec : DeviceSpec}
    (h : ∀ subject : Attribute, HasField IsWhole entries subject.key (spec.get subject)) :
    ofEntries entries = .ok spec := by
  rw [ofEntries, readAttribute_eq (h .horizontalResolution),
    readAttribute_eq (h .verticalResolution), readAttribute_eq (h .ram),
    readAttribute_eq (h .screenDensity), readAttribute_eq (h .cache), readAttribute_eq (h .vmHeap)]
  rfl

end DeviceSpec

theorem Value.IsListOf.plains {value : Value} {texts : List String}
    (h : value.IsListOf IsText texts) : value.items.map Value.plain = texts := by
  obtain ⟨items, rfl, hitems⟩ := h
  induction hitems with
  | nil => rfl
  | cons hfirst _ ih =>
      rw [Value.items, List.map_cons, hfirst.plain]
      exact congrArg (_ :: ·) ih

namespace Declaration

variable {entries : List (Value × Value)} {place : String} {document : Value} {d : Declaration}

/-- Tags that are left out are read as none. -/
theorem tags_eq {tags : List String} (h : HasOptional (IsListOf IsText) [] entries "tags" tags) :
    ((Value.mapping entries).lookup "tags").items.map Value.plain = tags := by
  rcases h.lookup with ⟨hnull, rfl⟩ | htags
  · rw [hnull]
    rfl
  · exact htags.plains

theorem read_eq (hdocument : IsMapping DescribedBy document d) : read document = .ok d := by
  obtain ⟨entries, rfl, h⟩ := hdocument
  obtain ⟨image, himage, hgroup⟩ := h.systemImage.lookup
  rw [read, Value.entries, DeviceSpec.ofEntries_eq h.spec, himage,
    artifactsAt_eq hgroup.files.optional, optionalArtifactAt_eq h.defaultProperties,
    artifactsAt_eq h.apks, tags_eq h.tags, hgroup.label.lookup.plain, ← h.executionInfo,
    show ((Value.mapping entries).lookup "name").plain = d.name by rw [h.name.lookup.1]; rfl]
  rfl

theorem parse_eq_ok_iff : parse place document = .ok d ↔ IsMapping DescribedBy document d :=
  Schema.checked_eq_ok_iff Schema.reads_device fun _ => read_eq

/-- A device document is parsed into the declaration it describes, nothing changed and nothing
left out. A document that describes none is refused for its violations, and for nothing else as
long as they can be said, which is so when all its numbers can be written. -/
theorem parse_device_outcome (place : String) (document : Value) :
    (∀ d, parse place document = .ok d ↔ IsMapping DescribedBy document d) ∧
    ((∃ d, IsMapping DescribedBy document d) ∨
      (Schema.device.CanReport document ∧ Schema.device.violations document ≠ [] ∧
        parse place document = .error (.rejected ⟨place, Schema.device.violations document⟩)) ∨
      (¬ Schema.device.CanReport document ∧ parse place document = .error .tooManyDigits)) ∧
    (document.isWritable = true → Schema.device.CanReport document) :=
  ⟨fun _ => parse_eq_ok_iff, Schema.checked_outcome Schema.reads_device place document _,
    Schema.canReport_of_isWritable Schema.device document⟩

/-- A document with a number of one digit too many for a name. -/
def numbered : Value :=
  .ofFields [("name", .int Text.leastTooLong)]

/-- The numbered document is not accepted, and it is not refused for its violations. -/
theorem numbered_unreported :
    (¬ ∃ d, parse "d.yaml" numbered = .ok d) ∧
      ¬ ∃ rejection, parse "d.yaml" numbered = .error (.rejected rejection) := by
  have hreport : ¬ Schema.device.CanReport numbered := by decide +kernel
  exact Schema.unread_of_not_canReport hreport

theorem isName_of_parse (h : parse place document = .ok d) : Schema.isName d.name = true := by
  obtain ⟨entries, rfl, hd⟩ := parse_eq_ok_iff.1 h
  obtain ⟨part, _, rfl, hname⟩ := hd.name
  exact Schema.isName_iff.2 ⟨rfl, hname⟩

end Declaration

end EmulatedDevice
