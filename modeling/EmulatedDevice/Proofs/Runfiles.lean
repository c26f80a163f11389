import EmulatedDevice.Proofs.Assembly
import EmulatedDevice.Proofs.DeclaredInputs
import EmulatedDevice.Proofs.FirstOccurrences
import EmulatedDevice.Proofs.WrittenPaths

/-!
# The files that have to be there when a target runs

The runfiles of a target are put together from many lists, and any artifact may
stand in several of them or several times in one. They start with the three outputs,
because these are three different files whatever the target is called. What follows
is what is new in the common files and the launcher; the files of the launcher are
common files already.

What a script mentions is taken apart as the boot command line is: for every
placeholder the files whose runfiles paths are its value. All of them are
runfiles but for the root of the SDK, which is only mentioned.
-/

namespace EmulatedDevice

/-! ## Three different outputs -/

namespace Artifact

theorem derived_ne {root : String} {p q : Path} (h : p.components ≠ q.components) :
    derived root p.render ≠ derived root q.render := by
  intro heq
  have hpath : (Path.ofString p.render).render = (Path.ofString q.render).render :=
    congrArg runfiles heq
  rw [Path.ofString_render, Path.ofString_render] at hpath
  exact h (congrArg Path.components (Path.render_injective hpath))

end Artifact

/-- The directory of the images has a component that the executable has not, and the two files in
it have different names. -/
theorem Outputs.nodup_forTarget (name package binRoot : String) :
    (forTarget name package binRoot).filesToBuild.Nodup := by
  obtain ⟨front, last, _, himages, hname⟩ := Path.join_append (.ofString package) name
    (by decide : '/' ∉ "_images".toList) (by decide)
  have hfile : ∀ file, Path.IsComponent file →
      (Path.ofString package / Path.ofString (name ++ "_images") / Path.ofString file).components =
        front ++ [last ++ "_images"] ++ [file] := by
    intro file hfile
    rw [Path.join_name_components _ hfile, himages]
  have hlonger : ∀ file, Path.IsComponent file →
      (Path.ofString package / Path.ofString name).components ≠
        (Path.ofString package / Path.ofString (name ++ "_images") / Path.ofString file).components := by
    intro file hcomponent heq
    rw [hname, hfile file hcomponent] at heq
    have hlength := congrArg List.length heq
    split at hlength <;> simp at hlength
  have hnames : (Path.ofString package / Path.ofString (name ++ "_images") /
        Path.ofString "emulator-meta-data.pb").components ≠
      (Path.ofString package / Path.ofString (name ++ "_images") /
        Path.ofString "userdata_images.dat").components := by
    rw [hfile _ (by decide), hfile _ (by decide)]
    simp
  simp only [filesToBuild, forTarget, List.nodup_cons, List.mem_cons, List.not_mem_nil, or_false,
    not_or, not_false_eq_true, List.nodup_nil, and_true]
  exact ⟨⟨Artifact.derived_ne (hlonger _ (by decide)), Artifact.derived_ne (hlonger _ (by decide))⟩,
    Artifact.derived_ne hnames⟩

/-! ## What a script mentions -/

namespace StubScript

/-- The files whose runfiles paths the value of a placeholder shows. -/
def mentioned (deps : Dependencies) (outputs : Outputs) : Placeholder → List Artifact
  | .workspace => []
  | .unifiedLauncher => [deps.tools.launcher.executable]
  | .adb => [deps.tools.adb]
  | .adbStatic => [deps.tools.adbStatic]
  | .emulatorX86 => [deps.tools.emulatorX86]
  | .emulatorArm => [deps.tools.emulatorArm]
  | .mksdcard => [deps.tools.mksdcard]
  | .emptySnapshot => [deps.tools.emptySnapshot]
  | .systemImages => deps.image.images
  | .biosFiles => deps.tools.biosFiles
  | .propertiesFile => [deps.image.properties]
  | .imageInput => [outputs.images]
  | .metadataPath => [outputs.metadata]
  | .runtest => [deps.runtest]
  | .shbase => [deps.shbase]
  | .sdkPath => [deps.tools.sdkPath]

/-- The value of a placeholder made from the files it shows; the workspace is a name and no file. -/
def written (workspace : String) (deps : Dependencies) (outputs : Outputs) (p : Placeholder) :
    String :=
  if p = .workspace then workspace else Artifact.joinRunfiles " " (mentioned deps outputs p)

variable {workspace template : String} {deps : Dependencies} {outputs : Outputs}

/-- Nothing is lost in taking the values apart. -/
theorem value_eq_written (p : Placeholder) :
    value workspace deps outputs p = written workspace deps outputs p := by
  cases p <;> simp [value, written, mentioned, Artifact.joinRunfiles, String.intercalate_singleton]

theorem bindings_of_create {script : StubScript}
    (h : create workspace deps outputs template = .ok script) :
    script.bindings = Placeholder.all.map fun p => (p, written workspace deps outputs p) := by
  obtain ⟨_, rfl⟩ := eq_of_create h
  simp only [bindingsFor, value_eq_written]

end StubScript

/-! ## The runfiles -/

namespace TargetRequest

variable {r : TargetRequest} {deps : Dependencies} {a : Artifact}

theorem mem_runfiles :
    a ∈ r.runfiles deps ↔ a ∈ r.outputs.filesToBuild ∨ a ∈ deps.common ∨
      a = r.tools.launcher.executable ∨ a ∈ r.tools.launcher.files := by
  unfold runfiles Artifact.stableUnique
  simp only [Artifact.mem_uniqueAfter, List.mem_append, List.mem_singleton, List.not_mem_nil,
    not_false_eq_true, and_true, or_assoc]

theorem nodup_runfiles (r : TargetRequest) (deps : Dependencies) : (r.runfiles deps).Nodup :=
  Artifact.nodup_uniqueAfter _ _

/-- The outputs come first, and after them what is new in the common files and the launcher. -/
theorem runfiles_eq (houtputs : r.outputs.filesToBuild.Nodup)
    (hfiles : ∀ a ∈ r.tools.launcher.files, a ∈ deps.common) :
    r.runfiles deps = r.outputs.filesToBuild ++
      Artifact.uniqueAfter r.outputs.filesToBuild
        (deps.common ++ [r.tools.launcher.executable]) := by
  have hfirst : Artifact.uniqueAfter [] r.outputs.filesToBuild = r.outputs.filesToBuild :=
    Artifact.uniqueAfter_of_nodup houtputs fun _ _ => List.not_mem_nil
  unfold runfiles Artifact.stableUnique
  rw [List.append_assoc, List.append_assoc, Artifact.uniqueAfter_append, hfirst, List.append_nil,
    ← List.append_assoc, Artifact.uniqueAfter_append]
  refine congrArg _ ((congrArg _ (Artifact.uniqueAfter_of_subset fun a ha => ?_)).trans
    (List.append_nil _))
  simp [hfiles a ha]

theorem common_eq (h : r.dependencies = .ok deps) :
    deps.tools = r.tools ∧ deps.common = r.tools.common deps.image r.apks := by
  obtain ⟨image, _, _, _, hparts⟩ := exists_of_dependencies h
  rw [hparts]
  exact ⟨rfl, rfl⟩

/-- What a script mentions, the root of the SDK left out, was gathered for it: as an output, as a
common file, or as the launcher. -/
theorem mem_runfiles_of_mentioned (h : r.dependencies = .ok deps) {p : Placeholder}
    (hp : p ≠ .sdkPath) (ha : a ∈ StubScript.mentioned deps r.outputs p) :
    a ∈ r.runfiles deps := by
  obtain ⟨image, _, hruntest, hshbase, _⟩ := exists_of_dependencies h
  obtain ⟨htools, hcommon⟩ := common_eq h
  have hrunner := mem_of_pickSingle hruntest
  have hlibrary := mem_of_pickSingle hshbase
  rw [mem_runfiles, hcommon, ToolSet.mem_common]
  unfold StubScript.mentioned at ha
  rw [htools] at ha
  cases p with
  | workspace => cases ha
  | sdkPath => exact absurd rfl hp
  | systemImages | biosFiles => simp [ha]
  | imageInput | metadataPath =>
      obtain rfl := List.mem_singleton.1 ha
      simp [Outputs.filesToBuild]
  | runtest | shbase =>
      obtain rfl := List.mem_singleton.1 ha
      simp [hrunner, hlibrary]
  | unifiedLauncher | adb | adbStatic | emulatorX86 | emulatorArm | mksdcard | emptySnapshot
  | propertiesFile =>
      obtain rfl := List.mem_singleton.1 ha
      simp

/-- The runfiles of a target hold no file twice. They are its outputs, in front and in this order,
the common files, and the launcher with its files; behind the outputs they stand as they come first
in the common files followed by the launcher. The values of its script are the runfiles paths of
files among them, but for the name of the workspace and the root of the SDK. -/
theorem runfiles_complete {target : Target} {name package binRoot : String}
    (houtputs : r.outputs = .forTarget name package binRoot) (h : r.assemble = .ok target) :
    ∃ deps rest, r.dependencies = .ok deps ∧
      target.runfiles.Nodup ∧
      target.runfiles =
        [r.outputs.executable, r.outputs.metadata, r.outputs.images] ++ rest ∧
      (∀ a, a ∈ target.runfiles ↔
        a ∈ [r.outputs.executable, r.outputs.metadata, r.outputs.images] ∨ a ∈ deps.common ∨
          a = r.tools.launcher.executable ∨ a ∈ r.tools.launcher.files) ∧
      rest.Pairwise (fun a b =>
        (deps.common ++ [r.tools.launcher.executable]).idxOf a <
          (deps.common ++ [r.tools.launcher.executable]).idxOf b) ∧
      target.script.bindings =
        Placeholder.all.map (fun p => (p, StubScript.written r.workspace deps r.outputs p)) ∧
      ∀ p ≠ .sdkPath, ∀ a ∈ StubScript.mentioned deps r.outputs p, a ∈ target.runfiles := by
  obtain ⟨deps, script, hdeps, hscript, rfl⟩ := exists_of_assemble h
  have hnodup : r.outputs.filesToBuild.Nodup := houtputs ▸ Outputs.nodup_forTarget ..
  have hfiles : ∀ a ∈ r.tools.launcher.files, a ∈ deps.common := by
    intro a ha
    rw [(common_eq hdeps).2, ToolSet.mem_common]
    simp [ha]
  exact ⟨deps, _, hdeps, nodup_runfiles r deps, runfiles_eq hnodup hfiles,
    fun a => mem_runfiles, Artifact.uniqueAfter_inOrder _ _,
    StubScript.bindings_of_create hscript, fun p hp a ha => mem_runfiles_of_mentioned hdeps hp ha⟩

/-- A phone whose APKs are a tool and one of its own outputs, and whose launcher is among the files
that it needs. -/
def crowded : TargetRequest :=
  { plain with
    tools := { plain.tools with
      launcher := ⟨.source "launcher", [.source "launcher", .source "emulator"]⟩ }
    apks := [plain.outputs.images, .source "adb"] }

theorem crowded_runfiles :
    ∃ target, crowded.assemble = .ok target ∧ target.runfiles.Nodup ∧
      target.runfiles.take 3 = crowded.outputs.filesToBuild ∧
      ∀ a ∈ [Artifact.source "launcher", .source "adb", .source "runtest"],
        a ∈ target.runfiles := by
  obtain ⟨target, h⟩ : ∃ target, crowded.assemble = .ok target :=
    assemble_ok plain_inOrder (by decide +kernel) (by decide +kernel)
      Template.meetsEachOnce_tokens plain_writable
  obtain ⟨deps, hdeps, hruntest⟩ : ∃ deps, crowded.dependencies = .ok deps ∧
      deps.runtest = .source "runtest" :=
    ⟨_, rfl, by decide +kernel⟩
  obtain ⟨deps', rest, hdeps', hnodup, hlist, _, _, _, hmentioned⟩ :=
    runfiles_complete (rfl : crowded.outputs = .forTarget "phone" "" "bin") h
  obtain rfl : deps' = deps := Except.ok.inj (hdeps'.symm.trans hdeps)
  have htools := (common_eq hdeps).1
  refine ⟨target, h, hnodup, by rw [hlist]; rfl, fun a ha => ?_⟩
  simp only [List.mem_cons, List.not_mem_nil, or_false] at ha
  rcases ha with rfl | rfl | rfl
  · exact hmentioned .unifiedLauncher nofun _ (by simp [StubScript.mentioned, htools, crowded])
  · exact hmentioned .adb nofun _ (by simp [StubScript.mentioned, htools, crowded, plain])
  · exact hmentioned .runtest nofun _ (by simp [StubScript.mentioned, hruntest])

end TargetRequest

end EmulatedDevice
