import EmulatedDevice.Proofs.Assembly

/-!
# A group of files is an image, or has one issue

What is wrong with a group is found out by counting its properties files, and what is
in it by picking the one and putting the others aside in a second walk. Both are
said here of the list itself, with no count left: a list that has one such file at
one place is cut there, and the image files are what stands in front of the cut and
behind it. Any other list has none of them, or has them at two places. Places are
what counts: a file that is listed twice is there twice.
-/

namespace EmulatedDevice

namespace Selection

variable {α : Type} {p : α → Bool} {items : List α} {item : α}

/-- A single match cuts the list, and nothing else matches on either side. -/
theorem filter_eq_singleton_iff :
    items.filter p = [item] ↔ ∃ before after, items = before ++ item :: after ∧ p item = true ∧
      ∀ other ∈ before ++ after, ¬ p other = true := by
  rw [List.filter_eq_cons_iff]
  refine exists_congr fun before => exists_congr fun after => and_congr_right fun _ => ?_
  rw [List.filter_eq_nil_iff, List.forall_mem_append]
  exact and_left_comm

/-- What does not match is what stands around the cut. -/
theorem filter_not_eq_of_cut {before after : List α} (hitem : p item = true)
    (hothers : ∀ other ∈ before ++ after, ¬ p other = true) :
    (before ++ item :: after).filter (fun a => !p a) = before ++ after := by
  have hkept : (before ++ after).filter (fun a => !p a) = before ++ after :=
    List.filter_eq_self.2 fun other hother => by simpa using hothers other hother
  rw [List.filter_append] at hkept ⊢
  rw [List.filter_cons_of_neg (by simp [hitem]), hkept]

/-- Two matches or more are matches at two places. -/
theorem two_le_countP_iff :
    2 ≤ items.countP p ↔ ∃ (i j : Nat) (a b : α), i < j ∧ items[i]? = some a ∧
      items[j]? = some b ∧ p a = true ∧ p b = true := by
  constructor
  · intro h
    rw [List.countP_eq_length_filter] at h
    match hfilter : items.filter p with
    | [] | [_] =>
        rw [hfilter] at h
        simp at h
    | a :: b :: rest =>
        obtain ⟨front, more, rfl, _, ha, hmore⟩ := List.filter_eq_cons_iff.1 hfilter
        obtain ⟨between, back, rfl, _, hb, _⟩ := List.filter_eq_cons_iff.1 hmore
        refine ⟨front.length, front.length + (between.length + 1), a, b, by omega, ?_, ?_, ha, hb⟩
        · simp
        · rw [List.getElem?_append_right (by omega)]
          simp
  · rintro ⟨i, j, a, b, hij, hi, hj, ha, hb⟩
    -- the first place is in front of a cut behind it, the second one is not
    have hfront : a ∈ items.take (i + 1) :=
      List.mem_of_getElem? (i := i) (by rwa [List.getElem?_take_of_lt (Nat.lt_succ_self i)])
    have hback : b ∈ items.drop (i + 1) := by
      refine List.mem_of_getElem? (i := j - (i + 1)) ?_
      rwa [List.getElem?_drop, Nat.add_sub_of_le hij]
    have hcut : items.countP p = (items.take (i + 1)).countP p + (items.drop (i + 1)).countP p := by
      rw [← List.countP_append, List.take_append_drop]
    have hfirst := List.countP_pos_iff.2 ⟨a, hfront, ha⟩
    have hsecond := List.countP_pos_iff.2 ⟨b, hback, hb⟩
    omega

end Selection

/-! ## Images -/

/-- An image that was made by taking one properties file out of a group that holds no other. -/
structure SystemImage.TakenFrom (image : SystemImage) (group : FileGroup) : Prop where
  label : image.label = group.label
  properties : image.properties.basename = "source.properties"
  cut : ∃ before after, group.files = before ++ [image.properties] ++ after ∧
    image.images = before ++ after ∧
    ∀ a ∈ before ++ after, a.basename ≠ "source.properties"

namespace FileGroup

variable {group : FileGroup} {image : SystemImage}

theorem systemImage?_eq_some_iff : group.systemImage? = some image ↔ image.TakenFrom group := by
  rw [systemImage?_eq_some, Selection.single_eq_found_iff, Selection.filter_eq_singleton_iff]
  constructor
  · rintro ⟨⟨before, after, hfiles, hmatch, hnone⟩, hlabel, himages⟩
    refine ⟨hlabel, Artifact.isProperties_iff.1 hmatch, before, after, ?_, ?_, fun a ha => ?_⟩
    · rw [hfiles, List.append_assoc]
      rfl
    · rw [himages, hfiles]
      exact Selection.filter_not_eq_of_cut hmatch hnone
    · exact fun hname => hnone a ha (Artifact.isProperties_iff.2 hname)
  · rintro ⟨hlabel, hproperties, before, after, hfiles, himages, hothers⟩
    rw [List.append_assoc, List.singleton_append] at hfiles
    have hmatch := Artifact.isProperties_iff.2 hproperties
    have hnone : ∀ a ∈ before ++ after, ¬ a.isProperties = true :=
      fun a ha hname => hothers a ha (Artifact.isProperties_iff.1 hname)
    refine ⟨⟨before, after, hfiles, hmatch, hnone⟩, hlabel, ?_⟩
    rw [himages, hfiles, Selection.filter_not_eq_of_cut hmatch hnone]

/-! ## Issues -/

/-- The issue of a group without a properties file. -/
def missingIssue (group : FileGroup) : Issue :=
  ⟨"system_image", "No source.properties files exist in this filegroup (" ++ group.label ++ ")"⟩

/-- The issue of a group with more than one. -/
def severalIssue (group : FileGroup) : Issue :=
  ⟨"system_image",
    "Multiple source.properties files exist in this filegroup (" ++ group.label ++ ")"⟩

theorem missingIssue_ne_severalIssue : group.missingIssue ≠ group.severalIssue := by
  intro heq
  have htext := congrArg (fun issue : Issue => issue.message.toList.head?) heq
  simp [missingIssue, severalIssue] at htext

theorem issues_eq_missing_iff :
    group.issues = [group.missingIssue] ↔ group.propertiesCount = 0 := by
  rw [issues_eq]
  split
  · next h => simp [h, missingIssue]
  · next h =>
    refine iff_of_false ?_ h
    split
    · exact (List.cons_ne_nil _ _).symm
    · exact fun heq => missingIssue_ne_severalIssue (List.cons.inj heq).1.symm

theorem issues_eq_several_iff :
    group.issues = [group.severalIssue] ↔ 2 ≤ group.propertiesCount := by
  rw [issues_eq]
  split
  · next h =>
    exact iff_of_false (fun heq => missingIssue_ne_severalIssue (List.cons.inj heq).1) (by omega)
  · split
    · next h => exact iff_of_false (List.cons_ne_nil _ _).symm (by omega)
    · exact iff_of_true rfl (by omega)

/-- A group has no issue just when it gives an image, and the image is the group with its one
properties file taken out. A group that gives none has exactly one issue, about the system image and
with the label of the group: that no file is a properties file, or that there is one at two places
of the list. -/
theorem image_or_issue (group : FileGroup) :
    (group.issues = [] ↔ ∃ image, group.systemImage? = some image) ∧
    (∀ image, group.systemImage? = some image ↔ image.TakenFrom group) ∧
    (group.systemImage? = none →
      group.issues = [group.missingIssue] ∨ group.issues = [group.severalIssue]) ∧
    (group.issues = [group.missingIssue] ↔
      ∀ a ∈ group.files, a.basename ≠ "source.properties") ∧
    (group.issues = [group.severalIssue] ↔
      ∃ (i j : Nat) (a b : Artifact), i < j ∧ group.files[i]? = some a ∧
        group.files[j]? = some b ∧
        a.basename = "source.properties" ∧ b.basename = "source.properties") := by
  have himage : group.issues = [] ↔ ∃ image, group.systemImage? = some image := by
    rw [issues_eq_imageIssues, imageIssues_eq_nil, systemImage?_isSome_iff]
  refine ⟨himage, fun _ => systemImage?_eq_some_iff, fun hnone => ?_, ?_, ?_⟩
  · have hcount : group.propertiesCount ≠ 1 := by
      intro hone
      obtain ⟨image, hsome⟩ := systemImage?_isSome_iff.2 hone
      cases hnone.symm.trans hsome
    rw [issues_eq_missing_iff, issues_eq_several_iff]
    omega
  · rw [issues_eq_missing_iff, ← countP_isProperties, List.countP_eq_zero]
    simp only [Artifact.isProperties_iff, ne_eq]
  · rw [issues_eq_several_iff, ← countP_isProperties, Selection.two_le_countP_iff]
    simp only [Artifact.isProperties_iff]

end FileGroup

end EmulatedDevice
