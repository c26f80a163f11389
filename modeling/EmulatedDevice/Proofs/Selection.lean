import EmulatedDevice.Toolchain
import Mathlib.Data.List.Count

/-!
# Counting and selecting agree

Whether a device is in order is decided by counting, and what it is made of is
taken by selecting. The two never look at each other, so that a group that
passes the count can be split, and that a bundle is refused for the number of
its matches and nothing else, has to be proved. Both come from one fact: a list
selects an item exactly when it counts one match.
-/

namespace EmulatedDevice

namespace Selection

variable {α : Type} {p : α → Bool} {items : List α}

theorem single_eq_found_iff {item : α} :
    single p items = .found item ↔ items.filter p = [item] := by
  unfold single
  split
  · next h => simp [h]
  · next a h => simp [h]
  · next hnil hone =>
      constructor
      · intro h
        cases h
      · intro h
        exact absurd h (hone item)

/-- A list selects an item exactly when it counts one match. -/
theorem exists_single_iff :
    (∃ item, single p items = .found item) ↔ items.countP p = 1 := by
  simp only [single_eq_found_iff]
  rw [List.countP_eq_length_filter, List.length_eq_one_iff]

theorem mem_of_single {item : α} (h : single p items = .found item) : item ∈ items := by
  have hfilter : item ∈ items.filter p := by
    rw [single_eq_found_iff.1 h]
    exact List.mem_singleton_self item
  exact (List.mem_filter.1 hfilter).1

end Selection

/-! ## Bundles -/

/-- The fault of a bundle that offers some other number of files than one. -/
def ToolchainFault.ofCount (wanted : String) (count : Nat)
    (bundle : List Artifact) : ToolchainFault :=
  if count = 0 then .missing wanted bundle else .several wanted count bundle

theorem mem_of_pickSingle {wanted : String} {p : Artifact → Bool} {bundle : List Artifact}
    {a : Artifact} (h : pickSingle wanted p bundle = .ok a) : a ∈ bundle := by
  unfold pickSingle at h
  split at h
  · next item hitem => exact Except.ok.inj h ▸ Selection.mem_of_single hitem
  · cases h
  · cases h

theorem pickSingle_ok_iff {wanted : String} {p : Artifact → Bool}
    {bundle : List Artifact} :
    (∃ a, pickSingle wanted p bundle = .ok a) ↔ bundle.countP p = 1 := by
  rw [← Selection.exists_single_iff]
  unfold pickSingle
  constructor
  · rintro ⟨a, h⟩
    split at h
    · next item hitem => exact ⟨item, hitem⟩
    · cases h
    · cases h
  · rintro ⟨a, h⟩
    rw [h]
    exact ⟨a, rfl⟩

theorem pickSingle_of_count_ne {wanted : String} {p : Artifact → Bool}
    {bundle : List Artifact} (h : bundle.countP p ≠ 1) :
    pickSingle wanted p bundle =
      .error (.ofCount wanted (bundle.countP p) bundle) := by
  rw [List.countP_eq_length_filter] at h ⊢
  unfold pickSingle Selection.single ToolchainFault.ofCount
  cases hmatches : bundle.filter p with
  | nil => rfl
  | cons a rest =>
      cases rest with
      | nil => rw [hmatches] at h; exact absurd rfl h
      | cons b rest => rfl

/-! ## System images -/

/-- How many files of a group are named `source.properties`. -/
def FileGroup.propertiesCount (group : FileGroup) : Nat :=
  group.files.countP fun a => a.basename = "source.properties"

theorem Artifact.isProperties_iff {a : Artifact} :
    a.isProperties = true ↔ a.basename = "source.properties" :=
  beq_iff_eq

theorem FileGroup.countP_isProperties (group : FileGroup) :
    group.files.countP Artifact.isProperties = group.propertiesCount := by
  refine List.countP_congr fun a _ => ?_
  rw [Artifact.isProperties_iff, decide_eq_true_iff]

/-- A group gives an image by selecting its one properties file and keeping the rest. -/
theorem FileGroup.systemImage?_eq_some {group : FileGroup} {image : SystemImage} :
    group.systemImage? = some image ↔
      Selection.single Artifact.isProperties group.files = .found image.properties ∧
        image.label = group.label ∧
        image.images = group.files.filter fun a => !a.isProperties := by
  obtain ⟨label, properties, images⟩ := image
  unfold systemImage?
  cases Selection.single Artifact.isProperties group.files with
  | found item => grind
  | notFound => exact iff_of_false nofun nofun
  | ambiguous candidates => exact iff_of_false nofun nofun

theorem FileGroup.systemImage?_isSome_iff {group : FileGroup} :
    (∃ image, group.systemImage? = some image) ↔ group.propertiesCount = 1 := by
  rw [← countP_isProperties, ← Selection.exists_single_iff]
  simp only [systemImage?_eq_some]
  constructor
  · rintro ⟨image, hfound, _⟩
    exact ⟨_, hfound⟩
  · rintro ⟨item, hfound⟩
    exact ⟨⟨group.label, item, _⟩, hfound, rfl, rfl⟩

/-- A system image holds files of its group and no others. -/
theorem FileGroup.mem_of_systemImage? {group : FileGroup} {image : SystemImage} {a : Artifact}
    (h : group.systemImage? = some image) (ha : a = image.properties ∨ a ∈ image.images) :
    a ∈ group.files := by
  obtain ⟨hfound, _, himages⟩ := systemImage?_eq_some.1 h
  rcases ha with rfl | ha
  · exact Selection.mem_of_single hfound
  · rw [himages] at ha
    exact (List.mem_filter.1 ha).1

theorem FileGroup.issues_eq (group : FileGroup) :
    group.issues =
      if group.propertiesCount = 0 then
        [⟨"system_image", "No source.properties files exist in this filegroup ("
          ++ group.label ++ ")"⟩]
      else if group.propertiesCount = 1 then []
      else
        [⟨"system_image",
          "Multiple source.properties files exist in this filegroup ("
          ++ group.label ++ ")"⟩] := by
  unfold issues
  rw [countP_isProperties]
  split
  · next h => rw [if_pos h]
  · next h => rw [if_neg (by omega), if_pos h]
  · next h0 h1 => rw [if_neg h0, if_neg h1]

end EmulatedDevice
