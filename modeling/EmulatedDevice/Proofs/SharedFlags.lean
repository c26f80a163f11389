import EmulatedDevice.Proofs.DeclaredInputs
import EmulatedDevice.Proofs.PackagedScript
import EmulatedDevice.Proofs.Runfiles

/-!
# One device on two command lines

A device is booted with one command line during the build and started with another
one later. Ten flags stand on both. Their values are spelled out in different
places, by different conventions and in a different order, so an emulator that
changed places with another one would be noticed nowhere. Here the two lines are
compared. Each of the ten flags has one value on either line, and the two values
list the same files in the same order: by exec paths when the device is booted, by
runfiles paths when it is started. Where all the files are sources the two agree,
but for the commas between BIOS files.
-/

namespace EmulatedDevice

/-! ## The flags of both lines -/

/-- A flag that a device is booted and started with. The placeholder of its value in the script
tells which files it lists; the delimiter is the one of the boot command line. -/
structure SharedFlag where
  name : String
  hole : Placeholder
  delimiter : String
  deriving DecidableEq, Repr

namespace SharedFlag

def all : List SharedFlag :=
  [ ⟨"adb", .adb, " "⟩, ⟨"adb_static", .adbStatic, " "⟩, ⟨"emulator_x86", .emulatorX86, " "⟩
  , ⟨"emulator_arm", .emulatorArm, " "⟩, ⟨"mksdcard", .mksdcard, " "⟩
  , ⟨"empty_snapshot_fs", .emptySnapshot, " "⟩, ⟨"system_images", .systemImages, " "⟩
  , ⟨"bios_files", .biosFiles, ","⟩, ⟨"source_properties_file", .propertiesFile, " "⟩
  , ⟨"android_sdk_path", .sdkPath, " "⟩ ]

/-- The files that a flag lists. -/
def files (deps : Dependencies) (outputs : Outputs) (f : SharedFlag) : List Artifact :=
  StubScript.mentioned deps outputs f.hole

end SharedFlag

namespace BootAction

theorem append_equals_inj {name name' value value' : List Char} (h : '=' ∉ name)
    (h' : '=' ∉ name') :
    name ++ '=' :: value = name' ++ '=' :: value' ↔ name = name' ∧ value = value' := by
  constructor
  · intro heq
    have hnames := congrArg (List.takeWhile (· ≠ '=')) heq
    rw [takeWhile_mark h, takeWhile_mark h'] at hnames
    obtain rfl := hnames
    exact ⟨rfl, (List.cons.inj (List.append_cancel_left heq)).2⟩
  · rintro ⟨rfl, rfl⟩
    rfl

theorem flag_eq_flag {name name' value value' : String} (h : '=' ∉ name.toList)
    (h' : '=' ∉ name'.toList) :
    flag name value = flag name' value' ↔ name = name' ∧ value = value' := by
  have htext : ∀ name value, (flag name value).toList =
      '-' :: '-' :: (name.toList ++ '=' :: value.toList) := by
    intro name value
    simp [flag]
  rw [← String.toList_inj, htext, htext, List.cons.injEq, List.cons.injEq,
    append_equals_inj h h', String.toList_inj, String.toList_inj]
  simp only [true_and]

theorem flag_ne_of_not_mem {name value text : String} (h : '=' ∉ text.toList) :
    flag name value ≠ text := by
  rintro rfl
  simp [flag] at h

variable {spec : DeviceSpec} {deps : Dependencies} {outputs : Outputs}
  {properties : Option Artifact}

/-- A shared flag has one value when a device is booted: the exec paths of its files. -/
theorem mem_launcherFlags_iff {f : SharedFlag} (hf : f ∈ SharedFlag.all) (value : String) :
    flag f.name value ∈ launcherFlags spec deps outputs.images properties ↔
      value = Artifact.joinExec f.delimiter (f.files deps outputs) := by
  revert f
  simp only [SharedFlag.all, List.forall_mem_cons]
  -- one case for each shared flag, which only one flag of the line has the name of
  refine ⟨?_, ?_, ?_, ?_, ?_, ?_, ?_, ?_, ?_, ?_, nofun⟩ <;>
    simp (disch := decide +kernel) [launcherFlags, flag_eq_flag, flag_ne_of_not_mem,
      SharedFlag.files, StubScript.mentioned, Artifact.joinExec, String.intercalate_singleton]

end BootAction

namespace StubScript

/-- The flags that the packaged script gives a value to, in their order. -/
def startFlags (workspace : String) (deps : Dependencies) (outputs : Outputs) :
    List (String × String) :=
  Template.packagedFlags.map fun (name, p) => (name, value workspace deps outputs p)

/-- How a flag with a value stands in the script. -/
def startFlag (name value : String) : String :=
  "--" ++ name ++ "=\"" ++ value ++ "\""

variable {workspace : String} {deps : Dependencies} {outputs : Outputs}

theorem nodup_startFlags : ((startFlags workspace deps outputs).map Prod.fst).Nodup := by
  rw [startFlags, List.map_map]
  show (Template.packagedFlags.map Prod.fst).Nodup
  decide

theorem mem_startFlags_iff {name : String} {p : Placeholder}
    (h : (name, p) ∈ Template.packagedFlags) (text : String) :
    (name, text) ∈ startFlags workspace deps outputs ↔ text = value workspace deps outputs p := by
  have hmem : (name, value workspace deps outputs p) ∈ startFlags workspace deps outputs :=
    List.mem_map.2 ⟨(name, p), h, rfl⟩
  constructor
  · intro htext
    exact congrArg Prod.snd (List.inj_on_of_nodup_map nodup_startFlags htext hmem rfl)
  · rintro rfl
    exact hmem

/-- A shared flag has one value when a device is started: the runfiles paths of its files. -/
theorem mem_startFlags_iff_of_shared {f : SharedFlag} (hf : f ∈ SharedFlag.all) (text : String) :
    (f.name, text) ∈ startFlags workspace deps outputs ↔
      text = Artifact.joinRunfiles " " (f.files deps outputs) := by
  have hpackaged : ∀ f ∈ SharedFlag.all,
      (f.name, f.hole) ∈ Template.packagedFlags ∧ f.hole ≠ .workspace := by decide
  obtain ⟨hflag, hfile⟩ := hpackaged f hf
  rw [mem_startFlags_iff hflag, value_eq_written, written, if_neg hfile]
  rfl

theorem get?_bindingsFor (p : Placeholder) :
    (bindingsFor workspace deps outputs).get? p = some (value workspace deps outputs p) := by
  cases p <;> rfl

/-- A script with the packaged template is its lines with the values of the target. -/
theorem expand_of_packaged {script : StubScript}
    (h : create workspace deps outputs Template.packaged = .ok script) :
    script.expand =
      .ok (Template.written (value workspace deps outputs) Template.packagedShape) := by
  obtain ⟨_, rfl⟩ := eq_of_create h
  exact Template.expand_packaged get?_bindingsFor

end StubScript

namespace Template

theorem linesText_append (lines more : List String) :
    linesText (lines ++ more) = linesText lines ++ linesText more := by
  rw [linesText, List.map_append, String.join_append, ← linesText, ← linesText]

theorem written_flagLine (value : Placeholder → String) (name : String) (p : Placeholder) :
    (flagLine name p).written value = "  " ++ StubScript.startFlag name (value p) ++ " \\" := by
  rw [← String.toList_inj]
  simp [flagLine, Line.written, StubScript.startFlag]

/-- The packaged template with values: the flags stand between two texts, each on its line. -/
theorem written_packagedShape (value : Placeholder → String) :
    written value packagedShape =
      written value packagedOpening ++
        linesText (packagedFlags.map fun (name, p) =>
          "  " ++ StubScript.startFlag name (value p) ++ " \\") ++
        written value packagedEnding := by
  have hflags : (packagedFlags.map fun (name, p) => flagLine name p).map (Line.written value) =
      packagedFlags.map fun (name, p) =>
        "  " ++ StubScript.startFlag name (value p) ++ " \\" := by
    rw [List.map_map]
    exact List.map_congr_left fun flag _ => written_flagLine value flag.1 flag.2
  rw [written, packagedShape, List.map_append, List.map_append, linesText_append,
    linesText_append, hflags, ← written, ← written]

end Template

/-! ## The two lines of a target -/

/-- Sources have one path. -/
theorem Artifact.joinExec_of_sources {as : List Artifact} (h : ∀ a ∈ as, ∃ path, a = .source path)
    (delimiter : String) : joinExec delimiter as = joinRunfiles delimiter as := by
  have hpaths : as.map exec = as.map runfiles := by
    refine List.map_congr_left fun a ha => ?_
    obtain ⟨path, rfl⟩ := h a ha
    rfl
  rw [joinExec, hpaths, joinRunfiles]

namespace TargetRequest

variable {r : TargetRequest} {target : Target}

/-- Both command lines of a target with the packaged template. The script passes on its flags one
after the other, the flags of both lines list the same files on either, and the image and the
metadata that the script starts from are what the boot action leaves behind. -/
theorem command_lines_agree (htemplate : r.template = Template.packaged)
    (h : r.assemble = .ok target) :
    ∃ deps text, r.dependencies = .ok deps ∧ target.script.expand = .ok text ∧
      text = Template.written (StubScript.value r.workspace deps r.outputs)
          Template.packagedOpening ++
        Template.linesText ((StubScript.startFlags r.workspace deps r.outputs).map
          fun (name, value) => "  " ++ StubScript.startFlag name value ++ " \\") ++
        Template.written (StubScript.value r.workspace deps r.outputs) Template.packagedEnding ∧
      (∀ f ∈ SharedFlag.all,
        (∀ value, BootAction.flag f.name value ∈ target.bootAction.arguments ↔
          value = Artifact.joinExec f.delimiter (f.files deps r.outputs)) ∧
        (∀ value, (f.name, value) ∈ StubScript.startFlags r.workspace deps r.outputs ↔
          value = Artifact.joinRunfiles " " (f.files deps r.outputs)) ∧
        ((∀ a ∈ f.files deps r.outputs, ∃ path, a = .source path) →
          Artifact.joinExec f.delimiter (f.files deps r.outputs) =
            Artifact.joinRunfiles f.delimiter (f.files deps r.outputs)) ∧
        (f.name ≠ "bios_files" → f.delimiter = " ")) ∧
      ∃ metadata images, target.bootAction.outputs = [metadata, images] ∧
        ("image_input_file", images.runfiles) ∈
          StubScript.startFlags r.workspace deps r.outputs ∧
        ("emulator_metadata_path", metadata.runfiles) ∈
          StubScript.startFlags r.workspace deps r.outputs := by
  obtain ⟨deps, script, hdeps, hscript, rfl⟩ := exists_of_assemble h
  rw [htemplate] at hscript
  refine ⟨deps, _, hdeps, StubScript.expand_of_packaged hscript, ?_, fun f hf => ⟨?_, ?_, ?_, ?_⟩,
    r.outputs.metadata, r.outputs.images, rfl, ?_, ?_⟩
  · rw [Template.written_packagedShape, StubScript.startFlags, List.map_map]
    rfl
  · exact BootAction.mem_launcherFlags_iff hf
  · exact StubScript.mem_startFlags_iff_of_shared hf
  · exact fun hsources => Artifact.joinExec_of_sources hsources _
  · revert f
    decide
  · exact (StubScript.mem_startFlags_iff (p := .imageInput) (by decide) _).2 rfl
  · exact (StubScript.mem_startFlags_iff (p := .metadataPath) (by decide) _).2 rfl

/-- A phone with two BIOS files and the packaged template. -/
def packagedPhone : TargetRequest :=
  { plain with
    tools := { plain.tools with biosFiles := [.source "bios.bin", .derived "bin" "vga.bin"] }
    template := Template.packaged }

theorem packagedPhone_lines :
    ∃ target, packagedPhone.assemble = .ok target ∧
      BootAction.flag "bios_files" "bios.bin,bin/vga.bin" ∈ target.bootAction.arguments ∧
      ∃ text opening flags ending, target.script.expand = .ok text ∧
        text = opening ++ Template.linesText flags ++ ending ∧
        "  --bios_files=\"bios.bin vga.bin\" \\" ∈ flags := by
  obtain ⟨target, h⟩ : ∃ target, packagedPhone.assemble = .ok target :=
    assemble_ok ⟨plain_inOrder.1, by decide +kernel⟩ (by decide +kernel)
      (by decide +kernel) Template.meetsEachOnce_packaged plain_writable
  obtain ⟨deps, text, hdeps, hexpand, htext, hflags, _⟩ := command_lines_agree rfl h
  obtain ⟨deps', hdeps', hbios⟩ : ∃ deps, packagedPhone.dependencies = .ok deps ∧
      deps.tools.biosFiles = [.source "bios.bin", .derived "bin" "vga.bin"] :=
    ⟨_, rfl, rfl⟩
  obtain rfl : deps' = deps := Except.ok.inj (hdeps'.symm.trans hdeps)
  obtain ⟨hboot, hstart, _⟩ := hflags ⟨"bios_files", .biosFiles, ","⟩ (by decide)
  have hfiles : SharedFlag.files deps' packagedPhone.outputs ⟨"bios_files", .biosFiles, ","⟩ =
      [.source "bios.bin", .derived "bin" "vga.bin"] := hbios
  rw [hfiles] at hboot hstart
  refine ⟨target, h, (hboot _).2 (by decide +kernel), text, _, _, _, hexpand, htext, ?_⟩
  exact List.mem_map.2 ⟨_, (hstart _).2 rfl, by decide +kernel⟩

end TargetRequest

end EmulatedDevice
