import EmulatedDevice.Proofs.Assembly

/-!
# The boot action declares the files that it names

The flags of the boot command line are written in one place, and the inputs of
the action are gathered in another. A file that is named by a flag and missing
among the inputs shows only where the action runs without the rest of the build
around it. So the command line is taken apart here, into arguments that still know
which files they name. Written out they are the flags, and the files that they
name are compared with the inputs.

One file is named and not gathered: the root of the SDK is no common file, so its
flag has to be left out. Every other named file is declared, the one with the
default properties because it is appended exactly when its flag is.
-/

namespace EmulatedDevice

/-! ## The command line with its files -/

/-- An argument of the boot command line: a text that names no file, one file, or
several files with a delimiter between them. -/
inductive BootArgument where
  | plain (text : String)
  | file (name : String) (a : Artifact)
  | files (name delimiter : String) (artifacts : List Artifact)
  deriving DecidableEq, Repr

namespace BootArgument

/-- How an argument stands in the command line. -/
def written : BootArgument → String
  | .plain text => text
  | .file name a => BootAction.flag name a.exec
  | .files name delimiter artifacts =>
    BootAction.flag name (Artifact.joinExec delimiter artifacts)

/-- The files whose exec paths an argument shows. -/
def named : BootArgument → List Artifact
  | .plain _ => []
  | .file _ a => [a]
  | .files _ _ artifacts => artifacts

/-- The argument that names the root of the SDK. -/
def sdkRoot (tools : ToolSet) : BootArgument :=
  .file "android_sdk_path" tools.sdkPath

/-- The boot command line, argument by argument. -/
def all (spec : DeviceSpec) (deps : Dependencies) (images : Artifact)
    (defaultProperties : Option Artifact) : List BootArgument :=
  [ .plain (BootAction.flag "action" "boot")
  , .plain (BootAction.flag "density" (toString spec.screenDensity))
  , .plain (BootAction.flag "memory" (toString spec.ram))
  , .plain (BootAction.flag "cache" (toString spec.cache))
  , .plain (BootAction.flag "vm_size" (toString spec.vmHeap))
  , .plain (BootAction.flag "generate_output_dir" images.execDir)
  , .plain (BootAction.flag "skin" spec.screenSize)
  , .file "source_properties_file" deps.image.properties
  , .files "system_images" " " deps.image.images
  , .plain "--flag_configured_android_tools"
  , .file "adb" deps.tools.adb
  , .file "emulator_x86" deps.tools.emulatorX86
  , .file "emulator_arm" deps.tools.emulatorArm
  , .file "adb_static" deps.tools.adbStatic
  , .file "mksdcard" deps.tools.mksdcard
  , .file "empty_snapshot_fs" deps.tools.emptySnapshot
  , .files "bios_files" "," deps.tools.biosFiles
  , .plain "--nocopy_system_images"
  , .plain "--single_image_file"
  , sdkRoot deps.tools
  , .files "platform_apks" "," deps.apks ]
  ++ (defaultProperties.map fun a => .file "default_properties_file" a).toList

end BootArgument

/-- Nothing is lost in taking the command line apart. -/
theorem BootAction.launcherFlags_eq_written (spec : DeviceSpec) (deps : Dependencies)
    (images : Artifact) (defaultProperties : Option Artifact) :
    launcherFlags spec deps images defaultProperties =
      (BootArgument.all spec deps images defaultProperties).map BootArgument.written := by
  cases defaultProperties <;> rfl

/-! ## What is declared -/

theorem ToolSet.mem_common {tools : ToolSet} {image : SystemImage}
    {apks : List Artifact} {a : Artifact} :
    a ∈ tools.common image apks ↔
      a ∈ [tools.adb, tools.adbStatic, tools.emulatorArm, tools.emulatorX86,
        tools.mksdcard, tools.emptySnapshot] ∨
      a = image.properties ∨ a ∈ image.images ∨
      a ∈ tools.biosFiles ∨ a ∈ tools.xvfbSupport ∨ a ∈ tools.launcher.files ∨
      a ∈ tools.runtestFiles ∨ a ∈ tools.shbaseFiles ∨ a ∈ apks := by
  simp only [common, List.mem_append, List.mem_cons, List.not_mem_nil, or_false]
  grind

/-- A file that an argument names is a common file or the default properties,
unless it is the root of the SDK. -/
theorem BootArgument.mem_of_mem_named {spec : DeviceSpec} {tools : ToolSet}
    {image : SystemImage} {runtest shbase images : Artifact} {apks : List Artifact}
    {defaultProperties : Option Artifact} {argument : BootArgument}
    (h : argument ∈ all spec
      ⟨tools, image, runtest, shbase, apks, tools.common image apks⟩ images
      defaultProperties)
    (hsdk : argument ≠ sdkRoot tools) {a : Artifact} (ha : a ∈ argument.named) :
    a ∈ tools.common image apks ++ defaultProperties.toList := by
  rw [List.mem_append, ToolSet.mem_common]
  rcases List.mem_append.1 h with h | h
  · refine .inl ?_
    simp only [List.mem_cons, List.not_mem_nil, or_false] at h ⊢
    -- One case for each argument of the fixed part; the plain ones name nothing.
    rcases h with rfl | rfl | rfl | rfl | rfl | rfl | rfl | rfl | rfl | rfl | rfl |
      rfl | rfl | rfl | rfl | rfl | rfl | rfl | rfl | rfl | rfl <;>
      simp only [named, sdkRoot, List.mem_singleton, List.not_mem_nil, ne_eq,
        not_true_eq_false] at ha hsdk <;>
      simp [ha]
  · cases defaultProperties with
    | none => cases h
    | some properties =>
        obtain rfl := List.mem_singleton.1 h
        exact .inr ha

namespace TargetRequest

variable {r : TargetRequest} {target : Target}

/-- The command line of a target, taken apart, names nothing that the boot action
does not declare as an input, but for the root of the SDK. -/
theorem bootAction_declares (h : r.assemble = .ok target) :
    ∃ deps, r.dependencies = .ok deps ∧
      target.bootAction.arguments =
        (BootArgument.all r.spec deps r.outputs.images r.defaultProperties).map
          BootArgument.written ∧
      ∀ argument ∈ BootArgument.all r.spec deps r.outputs.images r.defaultProperties,
        argument ≠ BootArgument.sdkRoot r.tools →
          ∀ a ∈ argument.named, a ∈ target.bootAction.inputs := by
  obtain ⟨deps, script, hdeps, _, rfl⟩ := exists_of_assemble h
  obtain ⟨image, _, _, _, hparts⟩ := exists_of_dependencies hdeps
  refine ⟨deps, hdeps, BootAction.launcherFlags_eq_written _ _ _ _, ?_⟩
  intro argument hargument hsdk a ha
  show a ∈ deps.common ++ r.defaultProperties.toList
  rw [hparts] at hargument ⊢
  exact BootArgument.mem_of_mem_named hargument hsdk ha

/-- A phone with an image file, a BIOS file, an APK and default properties. -/
def furnished : TargetRequest :=
  { plain with
    systemImage := ⟨"//:image", [.source "system.img", .source "source.properties"]⟩
    tools := { plain.tools with biosFiles := [.source "bios.bin"] }
    defaultProperties := some (.source "default.properties")
    apks := [.derived "bin" "app.apk"] }

theorem furnished_declares :
    ∃ target, furnished.assemble = .ok target ∧
      ∀ a ∈ [Artifact.source "system.img", .source "bios.bin", .derived "bin" "app.apk",
        .source "default.properties"], a ∈ target.bootAction.inputs := by
  obtain ⟨target, h⟩ : ∃ target, furnished.assemble = .ok target :=
    assemble_ok ⟨plain_inOrder.1, by decide +kernel⟩ (by decide +kernel)
      (by decide +kernel) Template.meetsEachOnce_tokens plain_writable
  obtain ⟨deps, hdeps, himages, hbios, hapks⟩ : ∃ deps, furnished.dependencies = .ok deps ∧
      deps.image.images = [.source "system.img"] ∧
      deps.tools.biosFiles = [.source "bios.bin"] ∧
      deps.apks = [.derived "bin" "app.apk"] :=
    ⟨_, rfl, by decide +kernel, rfl, rfl⟩
  obtain ⟨deps', hdeps', _, hdeclared⟩ := bootAction_declares h
  obtain rfl : deps' = deps := Except.ok.inj (hdeps'.symm.trans hdeps)
  refine ⟨target, h, fun a ha => ?_⟩
  simp only [List.mem_cons, List.not_mem_nil, or_false] at ha
  rcases ha with rfl | rfl | rfl | rfl
  · exact hdeclared (.files "system_images" " " deps'.image.images)
      (by simp [BootArgument.all]) nofun _ (by simp [BootArgument.named, himages])
  · exact hdeclared (.files "bios_files" "," deps'.tools.biosFiles)
      (by simp [BootArgument.all]) nofun _ (by simp [BootArgument.named, hbios])
  · exact hdeclared (.files "platform_apks" "," deps'.apks)
      (by simp [BootArgument.all]) nofun _ (by simp [BootArgument.named, hapks])
  · exact hdeclared (.file "default_properties_file" (.source "default.properties"))
      (List.mem_append_right _ (List.mem_singleton.2 rfl)) nofun _
      (List.mem_singleton.2 rfl)

/-- The root of the SDK is named by a flag and is no input. -/
theorem sdkRoot_not_declared :
    ∃ target deps, plain.assemble = .ok target ∧ plain.dependencies = .ok deps ∧
      target.bootAction.arguments =
        (BootArgument.all plain.spec deps plain.outputs.images none).map
          BootArgument.written ∧
      BootArgument.sdkRoot plain.tools ∈
        BootArgument.all plain.spec deps plain.outputs.images none ∧
      plain.tools.sdkPath ∈ (BootArgument.sdkRoot plain.tools).named ∧
      plain.tools.sdkPath ∉ target.bootAction.inputs := by
  obtain ⟨target, h⟩ := plain_assembles
  obtain ⟨deps, hdeps, htools, hsdk⟩ : ∃ deps, plain.dependencies = .ok deps ∧
      deps.tools = plain.tools ∧ plain.tools.sdkPath ∉ deps.common :=
    ⟨_, rfl, rfl, by decide +kernel⟩
  obtain ⟨deps', script, hdeps', _, rfl⟩ := exists_of_assemble h
  obtain rfl : deps' = deps := Except.ok.inj (hdeps'.symm.trans hdeps)
  refine ⟨_, deps', h, hdeps, BootAction.launcherFlags_eq_written _ _ _ _, ?_,
    List.mem_singleton.2 rfl, ?_⟩
  · simp [BootArgument.all, htools]
  · show plain.tools.sdkPath ∉ deps'.common ++ []
    rwa [List.append_nil]

end TargetRequest

end EmulatedDevice
