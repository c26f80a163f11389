import EmulatedDevice.Proofs.LowerRuns
import EmulatedDevice.Proofs.Runfiles
import EmulatedDevice.Proofs.ToolchainDocuments
import EmulatedDevice.Proofs.WrittenPaths

/-!
# Places in the runfiles tree

The runfiles of a target are told apart as files, by both their paths and by
whether they are sources, and a descriptor shows only one of the two paths. So two
files can share a place in the runfiles tree, and what keeps them from it is not
that each is listed once. It is where they come from: among the sources, or among
the files generated under one root, the runfiles path determines the file, because
a path has one written form and the root is all that the exec path has besides.

Nothing is asked across origins. A system image may contain a source file that is
called like the device, and then the source and the generated launcher script are
two runfiles with one path.
-/

namespace EmulatedDevice

open Value

/-! ## Where files come from -/

namespace Artifact

/-- The origin of a file: none for a source file, its output root for a generated one. -/
inductive ComesFrom : Artifact → Option String → Prop where
  | source (path : String) : ComesFrom (.source path) none
  | derived (root path : String) : ComesFrom (.derived root path) (some root)

def HasOrigin (a : Artifact) : Prop :=
  ∃ origin, a.ComesFrom origin

variable {a b : Artifact} {origin : Option String}

/-- Files of one origin are told apart by their runfiles paths alone. -/
theorem ComesFrom.eq (ha : a.ComesFrom origin) (hb : b.ComesFrom origin)
    (h : a.runfiles = b.runfiles) : a = b := by
  cases ha with
  | source path =>
      cases hb with
      | source path' =>
          have hpath : Path.normalize path = Path.normalize path' := h
          rw [Artifact.source, Artifact.source, hpath]
  | derived root path =>
      cases hb with
      | derived _ path' =>
          have hpath : Path.normalize path = Path.normalize path' := h
          rw [Artifact.derived, Artifact.derived, hpath, Path.render_injective hpath]

theorem hasOrigin_derived (root path : String) : (derived root path).HasOrigin :=
  ⟨_, .derived root path⟩

theorem hasOrigin_of_isPathEntry {value : Value} (h : IsPathEntry value a) : a.HasOrigin := by
  cases h with
  | source => exact ⟨_, .source _⟩
  | derived => exact hasOrigin_derived _ _

theorem hasOrigin_of_isListOf {value : Value} {as : List Artifact}
    (h : value.IsListOf IsPathEntry as) : ∀ a ∈ as, a.HasOrigin := by
  obtain ⟨items, rfl, hitems⟩ := h
  induction hitems with
  | nil => exact fun _ => nofun
  | cons hfirst _ ih => exact List.forall_mem_cons.2 ⟨hasOrigin_of_isPathEntry hfirst, ih⟩

variable {entries : List (Value × Value)} {key : String} {as : List Artifact}

theorem hasOrigin_of_hasField (h : HasField IsPathEntry entries key a) : a.HasOrigin := by
  obtain ⟨_, _, ha⟩ := h
  exact hasOrigin_of_isPathEntry ha

theorem hasOrigin_of_hasOptional (h : HasOptional (IsListOf IsPathEntry) [] entries key as) :
    ∀ a ∈ as, a.HasOrigin := by
  rcases h with ⟨_, rfl⟩ | ⟨_, _, has⟩
  · exact fun _ => nofun
  · exact hasOrigin_of_isListOf has

end Artifact

namespace ToolSet

open Artifact

/-- The common files come from where the manifest, the image and the APKs have them from. -/
theorem DescribedBy.hasOrigin {entries : List (Value × Value)} {tools : ToolSet}
    {image : SystemImage} {apks : List Artifact} (h : DescribedBy entries tools)
    (himage : ∀ a, a = image.properties ∨ a ∈ image.images → a.HasOrigin)
    (hapks : ∀ a ∈ apks, a.HasOrigin) : ∀ a ∈ tools.common image apks, a.HasOrigin := by
  intro a ha
  rw [mem_common] at ha
  obtain ⟨_, _, _, _, hlauncher⟩ := h.launcher
  rcases ha with ha | ha | ha | ha | ha | ha | ha | ha | ha
  · simp only [List.mem_cons, List.not_mem_nil, or_false] at ha
    rcases ha with rfl | rfl | rfl | rfl | rfl | rfl
    · exact hasOrigin_of_hasField h.adb
    · exact hasOrigin_of_hasField h.adbStatic
    · exact hasOrigin_of_hasField h.emulatorArm
    · exact hasOrigin_of_hasField h.emulatorX86
    · exact hasOrigin_of_hasField h.mksdcard
    · exact hasOrigin_of_hasField h.emptySnapshot
  · exact himage a (.inl ha)
  · exact himage a (.inr ha)
  · exact hasOrigin_of_hasOptional h.biosFiles.optional a ha
  · exact hasOrigin_of_hasOptional h.xvfbSupport a ha
  · exact hasOrigin_of_hasOptional hlauncher.files a ha
  · exact hasOrigin_of_hasOptional h.runtestFiles.optional a ha
  · exact hasOrigin_of_hasOptional h.shbaseFiles.optional a ha
  · exact hapks a ha

end ToolSet

/-! ## The paths in a descriptor -/

theorem Target.descriptor_runfiles (target : Target) :
    target.descriptor.lookup "runfiles" = .ofTexts (target.runfiles.map Artifact.runfiles) :=
  rfl

namespace Artifact

/-- Two files with nothing in common to come from. -/
def DifferInOrigin (a b : Artifact) : Prop :=
  ∀ origin, ¬ (a.ComesFrom origin ∧ b.ComesFrom origin)

variable {as : List Artifact}

theorem pairwise_differInOrigin (h : as.Nodup) :
    as.Pairwise fun a b => a.runfiles = b.runfiles → a.DifferInOrigin b :=
  h.imp fun hne hpath _ horigin => hne (horigin.1.eq horigin.2 hpath)

theorem not_nodup_runfiles_iff (h : as.Nodup) (horigin : ∀ a ∈ as, a.HasOrigin) :
    ¬ (as.map runfiles).Nodup ↔
      ∃ a ∈ as, ∃ b ∈ as, a.runfiles = b.runfiles ∧ a.DifferInOrigin b := by
  rw [List.nodup_map_iff_inj_on h]
  push Not
  refine exists_congr fun a => and_congr_right fun ha => exists_congr fun b =>
    and_congr_right fun hb => and_congr_right fun hpath => ?_
  constructor
  · rintro hne origin ⟨hfirst, hsecond⟩
    exact hne (hfirst.eq hsecond hpath)
  · rintro hdiffer rfl
    obtain ⟨origin, hcomes⟩ := horigin a ha
    exact hdiffer origin ⟨hcomes, hcomes⟩

end Artifact

namespace CommandLine.Lower

variable {t : FileTree} {options : Options} {inputs : Inputs}

theorem described_of_loadInputs (h : loadInputs t options = .ok inputs) :
    (∃ entries, Declaration.DescribedBy entries inputs.declaration) ∧
      ∃ entries, ToolSet.DescribedBy entries inputs.tools := by
  obtain ⟨hdeclaration, htools⟩ := exists_of_loadInputs h
  obtain ⟨device, _, hdevice⟩ := exists_of_bind_eq_ok hdeclaration
  obtain ⟨manifest, _, hmanifest⟩ := exists_of_bind_eq_ok htools
  obtain ⟨entries, _, hd⟩ := Declaration.parse_eq_ok_iff.1 (eq_ok_of_mapError hdevice)
  obtain ⟨entries', _, ht⟩ := ToolSet.parse_eq_ok_iff.1 (eq_ok_of_mapError hmanifest)
  exact ⟨⟨entries, hd⟩, entries', ht⟩

theorem hasOrigin_of_mem_runfiles {deps : Dependencies} (hload : loadInputs t options = .ok inputs)
    (hdeps : (request options inputs).dependencies = .ok deps) :
    ∀ a ∈ (request options inputs).runfiles deps, a.HasOrigin := by
  obtain ⟨⟨_, hdevice⟩, _, htools⟩ := described_of_loadInputs hload
  obtain ⟨_, _, _, _, hgroup⟩ := hdevice.systemImage
  obtain ⟨_, _, _, _, hlauncher⟩ := htools.launcher
  obtain ⟨image, himage, _, _, hparts⟩ := TargetRequest.exists_of_dependencies hdeps
  have hcommon := htools.hasOrigin
    (fun a ha => Artifact.hasOrigin_of_hasOptional hgroup.files.optional a
      (FileGroup.mem_of_systemImage? himage ha))
    (Artifact.hasOrigin_of_hasOptional hdevice.apks)
  intro a ha
  rw [TargetRequest.mem_runfiles, hparts] at ha
  rcases ha with ha | ha | rfl | ha
  · simp only [Outputs.filesToBuild, List.mem_cons, List.not_mem_nil, or_false] at ha
    rcases ha with rfl | rfl | rfl <;> exact Artifact.hasOrigin_derived _ _
  · exact hcommon a ha
  · exact Artifact.hasOrigin_of_hasField hlauncher.executable
  · exact Artifact.hasOrigin_of_hasOptional hlauncher.files a ha

/-- The list of runfiles paths in the descriptor that a run has written. Every file behind it is a
source or was generated under some root. Files at two places of the list have the same path only if
they differ in origin, and a path stands there twice just when two files that differ in origin
share it. -/
theorem runfiles_paths (t : FileTree) (environment : Environment) (words : List String)
    (hending : (run t environment words).2.ending = .returned 0) :
    ∃ options inputs target text, Loads t environment words options inputs ∧
      (request options inputs).assemble = .ok target ∧ target.script.expand = .ok text ∧
      (run t environment words).1.InPlace target text options.output inputs.declaration.name ∧
      target.descriptor.lookup "runfiles" =
        .ofTexts (target.runfiles.map Artifact.runfiles) ∧
      (∀ a ∈ target.runfiles, a.HasOrigin) ∧
      target.runfiles.Pairwise (fun a b => a.runfiles = b.runfiles → a.DifferInOrigin b) ∧
      (¬ (target.runfiles.map Artifact.runfiles).Nodup ↔
        ∃ a ∈ target.runfiles, ∃ b ∈ target.runfiles,
          a.runfiles = b.runfiles ∧ a.DifferInOrigin b) := by
  obtain ⟨options, inputs, h, ⟨hcode, _⟩ | ⟨hcode, _⟩ | ⟨_, _, target, hassemble, hpublish⟩⟩ :=
    exists_of_returned hending
  · cases hcode
  · cases hcode
  · obtain ⟨_, text, htext⟩ := TargetRequest.expand_of_assemble hassemble
    have hplace := inPlace_of_loads h hassemble htext hpublish
    obtain ⟨deps, _, hdeps, _, rfl⟩ := TargetRequest.exists_of_assemble hassemble
    obtain ⟨_, _, hload⟩ := id h
    have hnodup := TargetRequest.nodup_runfiles (request options inputs) deps
    have horigin := hasOrigin_of_mem_runfiles hload hdeps
    exact ⟨options, inputs, _, text, h, hassemble, htext, hplace, Target.descriptor_runfiles _,
      horigin, Artifact.pairwise_differInOrigin hnodup,
      Artifact.not_nodup_runfiles_iff hnodup horigin⟩

theorem phone_runfiles_paths :
    ∃ target text,
      (run sampleTree ⟨none, none, none⟩ (sampleWords "phone.json")).1.InPlace target text
        (.ofString "out") "phone" ∧
      (∀ a ∈ target.runfiles, a.HasOrigin) ∧
      target.runfiles.Pairwise (fun a b => a.runfiles = b.runfiles → a.DifferInOrigin b) := by
  obtain ⟨options, inputs, target, text, h, _, _, hplace, _, horigin, hpairs, _⟩ :=
    runfiles_paths _ _ _ sampleTree_phone_published
  obtain ⟨rfl, rfl⟩ := h.unique (sampleTree_loads sampleTree_phone_started sampleTree_phone)
  exact ⟨target, text, hplace, horigin, hpairs⟩

/-! ## A source file that is called like the device -/

/-- The tree with a phone whose system image contains a source file `phone`. -/
def clashTree : FileTree :=
  { sampleTree with
    nodes := (["clash.json", "work"], sampleFile
      [ "\x7b\"name\":\"phone\",", "\"horizontal_resolution\"", ":320,", "\"vertical_resolution\""
      , ":240,", "\"ram\":512,", "\"screen_density\"", ":160,", "\"cache\":32,"
      , "\"vm_heap\":16,", "\"system_image\":", "\x7b\"label\":\"i\",", "\"files\":["
      , "\"source.properties\",", "\"phone\"", "]\x7d\x7d" ]) :: sampleTree.nodes }

def clashInputs : Inputs where
  declaration := { sampleDeclaration 512 with
    systemImage := ⟨"i", [.source "source.properties", .source "phone"]⟩ }
  tools := sampleTools
  template := sampleTemplate

def clashRequest : TargetRequest :=
  request (sampleOptions "clash.json") clashInputs

theorem clashTree_loads :
    Loads clashTree ⟨none, none, none⟩ (sampleWords "clash.json") (sampleOptions "clash.json")
      clashInputs :=
  HasSampleTools.loads ⟨rfl, rfl⟩ rfl (eq_ok_of_toOption (by decide +kernel))

theorem clashTree_halfFree :
    isHalfFree clashTree (sampleOptions "clash.json") clashInputs = true :=
  HasSampleTools.isHalfFree ⟨rfl, rfl⟩ (eq_ok_of_toOption (by decide +kernel))

theorem clashRequest_assembles : ∃ target, clashRequest.assemble = .ok target :=
  TargetRequest.exists_assemble_iff.2 ⟨TargetRequest.issues_eq_nil.1 (by decide),
    ⟨by decide +kernel, by decide +kernel, Template.meetsEachOnce_tokens⟩, by decide +kernel⟩

theorem clashRequest_runfiles {target : Target} (h : clashRequest.assemble = .ok target) :
    ¬ (target.runfiles.map Artifact.runfiles).Nodup := by
  obtain ⟨deps, _, hdeps, _, rfl⟩ := TargetRequest.exists_of_assemble h
  obtain ⟨made, hmade, hcommon⟩ : ∃ made, clashRequest.dependencies = .ok made ∧
      .source "phone" ∈ made.common :=
    ⟨_, rfl, by decide +kernel⟩
  obtain rfl := Except.ok.inj (hmade.symm.trans hdeps)
  have hscript : clashRequest.outputs.executable ∈ clashRequest.runfiles made :=
    TargetRequest.mem_runfiles.2 (.inl (List.mem_cons_self ..))
  have hfile : .source "phone" ∈ clashRequest.runfiles made :=
    TargetRequest.mem_runfiles.2 (.inr (.inl hcommon))
  intro hnodup
  have heq : clashRequest.outputs.executable = .source "phone" :=
    List.inj_on_of_nodup_map hnodup hscript hfile (by decide +kernel)
  exact absurd heq (by decide +kernel)

/-- The run ends well, and its descriptor has the generated launcher script and the file of the
image under one path. -/
theorem clash_path_twice :
    Loads clashTree ⟨none, none, none⟩ (sampleWords "clash.json") (sampleOptions "clash.json")
      clashInputs ∧
    (run clashTree ⟨none, none, none⟩ (sampleWords "clash.json")).2.ending = .returned 0 ∧
    ∃ target text paths, clashRequest.assemble = .ok target ∧
      (run clashTree ⟨none, none, none⟩ (sampleWords "clash.json")).1.InPlace target text
        (.ofString "out") "phone" ∧
      target.descriptor.lookup "runfiles" = .ofTexts paths ∧ ¬ paths.Nodup := by
  obtain ⟨target, hassemble⟩ := clashRequest_assembles
  obtain ⟨_, text, htext⟩ := TargetRequest.expand_of_assemble hassemble
  obtain ⟨after, hpublish⟩ : ∃ after,
      clashTree.publish target (.ofString "out") "phone" = (after, .ok ()) := by
    rw [FileTree.publish, htext]
    exact ⟨_, rfl⟩
  obtain ⟨htree, hending⟩ := clashTree_loads.run_of_published hassemble clashTree_halfFree hpublish
  refine ⟨clashTree_loads, hending, target, text, _, hassemble, ?_, target.descriptor_runfiles,
    clashRequest_runfiles hassemble⟩
  rw [htree]
  exact inPlace_of_loads clashTree_loads hassemble htext hpublish

end CommandLine.Lower

end EmulatedDevice
