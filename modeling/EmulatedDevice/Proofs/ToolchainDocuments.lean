import EmulatedDevice.Proofs.Reading
import EmulatedDevice.Proofs.WritableValues

/-!
# What a toolchain manifest says

A manifest and the tools that it names, as a relation field by field
(`ToolSet.DescribedBy`): every field of a tool set is held against the one key that
it belongs to, so a tool that is read from another key, a file that is dropped from
a list or a list in another order would each contradict the relation. The schema
accepts just the manifests that describe a tool set, and this tool set is what is
read (`ToolSet.parse_manifest_outcome`).

Two lists may be left out and are empty then, one at the top and one inside the
launcher. All other keys are required.
-/

namespace EmulatedDevice

open Value

/-! ## The tools that a manifest describes -/

/-- What the entries of a bundle say. -/
structure ExecutableBundle.DescribedBy (entries : List (Value × Value))
    (bundle : ExecutableBundle) : Prop where
  known : HasOnly ["executable", "files"] entries
  executable : HasField IsPathEntry entries "executable" bundle.executable
  files : HasOptional (IsListOf IsPathEntry) [] entries "files" bundle.files

namespace ToolSet

/-- The keys that a manifest may have. -/
def keys : List String :=
  [ "adb", "adb_static", "emulator_arm", "emulator_x86", "emulator_x86_bios", "xvfb_support"
  , "mksdcard", "empty_snapshot_fs", "unified_launcher", "android_runtest", "testing_shbase"
  , "sdk_path" ]

/-- What the entries of a manifest say. -/
structure DescribedBy (entries : List (Value × Value)) (tools : ToolSet) : Prop where
  known : HasOnly keys entries
  adb : HasField IsPathEntry entries "adb" tools.adb
  adbStatic : HasField IsPathEntry entries "adb_static" tools.adbStatic
  emulatorArm : HasField IsPathEntry entries "emulator_arm" tools.emulatorArm
  emulatorX86 : HasField IsPathEntry entries "emulator_x86" tools.emulatorX86
  biosFiles : HasField (IsListOf IsPathEntry) entries "emulator_x86_bios" tools.biosFiles
  xvfbSupport : HasOptional (IsListOf IsPathEntry) [] entries "xvfb_support" tools.xvfbSupport
  mksdcard : HasField IsPathEntry entries "mksdcard" tools.mksdcard
  emptySnapshot : HasField IsPathEntry entries "empty_snapshot_fs" tools.emptySnapshot
  launcher : HasField (IsMapping ExecutableBundle.DescribedBy) entries "unified_launcher"
    tools.launcher
  runtestFiles : HasField (IsListOf IsPathEntry) entries "android_runtest" tools.runtestFiles
  shbaseFiles : HasField (IsListOf IsPathEntry) entries "testing_shbase" tools.shbaseFiles
  sdkPath : HasField IsPathEntry entries "sdk_path" tools.sdkPath

end ToolSet

/-! ## What the schema accepts describes tools -/

namespace Schema

theorem reads_bundle :
    (record ["executable"] [("executable", pathEntry), ("files", pathList)]).Reads
      (IsMapping ExecutableBundle.DescribedBy) := by
  refine reads_record fun entries => ⟨fun h => ?_, ?_⟩
  · obtain ⟨executable, hexecutable⟩ :=
      h.exists_field "executable" reads_pathEntry (by simp) (by simp)
    obtain ⟨files, hfiles⟩ := h.exists_optional "files" [] reads_pathList (by simp)
    exact ⟨⟨executable, files⟩, h.known, hexecutable, hfiles⟩
  · rintro ⟨bundle, h⟩
    refine ⟨h.known, by simp [h.executable.isSome], ?_⟩
    simpa using ⟨h.executable.accepted reads_pathEntry, h.files.accepted reads_pathList⟩

theorem reads_toolchain : toolchain.Reads (IsMapping ToolSet.DescribedBy) := by
  have hentry := reads_pathEntry
  have hlist := reads_pathList
  refine reads_record fun entries => ⟨fun h => ?_, ?_⟩
  · obtain ⟨adb, hadb⟩ := h.exists_field "adb" hentry (by simp) (by simp)
    obtain ⟨adbStatic, hadbStatic⟩ := h.exists_field "adb_static" hentry (by simp) (by simp)
    obtain ⟨arm, harm⟩ := h.exists_field "emulator_arm" hentry (by simp) (by simp)
    obtain ⟨x86, hx86⟩ := h.exists_field "emulator_x86" hentry (by simp) (by simp)
    obtain ⟨bios, hbios⟩ := h.exists_field "emulator_x86_bios" hlist (by simp) (by simp)
    obtain ⟨xvfb, hxvfb⟩ := h.exists_optional "xvfb_support" [] hlist (by simp)
    obtain ⟨mksdcard, hmksdcard⟩ := h.exists_field "mksdcard" hentry (by simp) (by simp)
    obtain ⟨snapshot, hsnapshot⟩ := h.exists_field "empty_snapshot_fs" hentry (by simp) (by simp)
    obtain ⟨launcher, hlauncher⟩ :=
      h.exists_field "unified_launcher" reads_bundle (by simp) (by simp)
    obtain ⟨runtest, hruntest⟩ := h.exists_field "android_runtest" hlist (by simp) (by simp)
    obtain ⟨shbase, hshbase⟩ := h.exists_field "testing_shbase" hlist (by simp) (by simp)
    obtain ⟨sdk, hsdk⟩ := h.exists_field "sdk_path" hentry (by simp) (by simp)
    exact ⟨⟨adb, adbStatic, arm, x86, bios, xvfb, mksdcard, snapshot, launcher, runtest, shbase,
      sdk⟩, h.known, hadb, hadbStatic, harm, hx86, hbios, hxvfb, hmksdcard, hsnapshot, hlauncher,
      hruntest, hshbase, hsdk⟩
  · rintro ⟨tools, h⟩
    refine ⟨h.known, ?_, ?_⟩
    · simpa using ⟨h.adb.isSome, h.adbStatic.isSome, h.emulatorArm.isSome, h.emulatorX86.isSome,
        h.biosFiles.isSome, h.mksdcard.isSome, h.emptySnapshot.isSome, h.launcher.isSome,
        h.runtestFiles.isSome, h.shbaseFiles.isSome, h.sdkPath.isSome⟩
    · simpa using ⟨h.adb.accepted hentry, h.adbStatic.accepted hentry,
        h.emulatorArm.accepted hentry, h.emulatorX86.accepted hentry, h.biosFiles.accepted hlist,
        h.xvfbSupport.accepted hlist, h.mksdcard.accepted hentry, h.emptySnapshot.accepted hentry,
        h.launcher.accepted reads_bundle, h.runtestFiles.accepted hlist,
        h.shbaseFiles.accepted hlist, h.sdkPath.accepted hentry⟩

end Schema

/-! ## What describes tools is read as them -/

namespace ToolSet

open Declaration

variable {place : String} {document : Value} {tools : ToolSet}

theorem read_eq (hdocument : IsMapping DescribedBy document tools) :
    read document = .ok tools := by
  obtain ⟨entries, rfl, h⟩ := hdocument
  obtain ⟨bundle, hbundle, hlauncher⟩ := h.launcher.lookup
  rw [read, hbundle, artifactAt_eq h.adb, artifactAt_eq h.adbStatic, artifactAt_eq h.emulatorArm,
    artifactAt_eq h.emulatorX86, artifactsAt_eq h.biosFiles.optional,
    artifactsAt_eq h.xvfbSupport, artifactAt_eq h.mksdcard, artifactAt_eq h.emptySnapshot,
    artifactAt_eq hlauncher.executable, artifactsAt_eq hlauncher.files,
    artifactsAt_eq h.runtestFiles.optional, artifactsAt_eq h.shbaseFiles.optional,
    artifactAt_eq h.sdkPath]
  rfl

theorem parse_eq_ok_iff :
    parse place document = .ok tools ↔ IsMapping DescribedBy document tools :=
  Schema.checked_eq_ok_iff Schema.reads_toolchain fun _ => read_eq

/-- A manifest is parsed into the tool set it describes, every file under its own field and every
list whole and in order. A manifest that describes none is refused for its violations, and for
nothing else as long as they can be said, which is so when all its numbers can be written. -/
theorem parse_manifest_outcome (place : String) (document : Value) :
    (∀ tools, parse place document = .ok tools ↔ IsMapping DescribedBy document tools) ∧
    ((∃ tools, IsMapping DescribedBy document tools) ∨
      (Schema.toolchain.CanReport document ∧ Schema.toolchain.violations document ≠ [] ∧
        parse place document =
          .error (.rejected ⟨place, Schema.toolchain.violations document⟩)) ∨
      (¬ Schema.toolchain.CanReport document ∧ parse place document = .error .tooManyDigits)) ∧
    (document.isWritable = true → Schema.toolchain.CanReport document) :=
  ⟨fun _ => parse_eq_ok_iff, Schema.checked_outcome Schema.reads_toolchain place document _,
    Schema.canReport_of_isWritable Schema.toolchain document⟩

/-- A manifest with a number of one digit too many for the bridge. -/
def numbered : Value :=
  .ofFields [("adb", .int Text.leastTooLong)]

/-- The numbered manifest is not accepted, and it is not refused for its violations. -/
theorem numbered_manifest_unreported :
    (¬ ∃ tools, parse "t.yaml" numbered = .ok tools) ∧
      ¬ ∃ rejection, parse "t.yaml" numbered = .error (.rejected rejection) := by
  have hreport : ¬ Schema.toolchain.CanReport numbered := by decide +kernel
  exact Schema.unread_of_not_canReport hreport

end ToolSet

end EmulatedDevice
