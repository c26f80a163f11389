import EmulatedDevice.BootAction
import EmulatedDevice.Declaration.Attributes
import EmulatedDevice.Declaration.Entry
import EmulatedDevice.Schema.Packaged
import EmulatedDevice.Schema.Report

/-!
# Device declarations and toolchain manifests

A document is checked against its schema before anything is taken out of it.
What the schema accepts can be taken apart without a further fault, so a document
is either refused with all its violations or gives a declaration. The one exception
is a document whose violations cannot be put into words, because there is a number
with too many digits to show.
-/

namespace EmulatedDevice

/-- A declared device. -/
structure Declaration where
  name : String
  spec : DeviceSpec
  systemImage : FileGroup
  defaultProperties : Option Artifact
  apks : List Artifact
  tags : List String
  executionInfo : ExecutionInfo
  deriving DecidableEq, Repr

inductive DeclarationFault where
  | rejected (rejection : Schema.Rejection)
  | tooManyDigits
  | unreadable (fault : AttributeFault)
  | entry (fault : EntryFault)
  deriving Repr

def DeclarationFault.message : DeclarationFault → String
  | .rejected rejection => rejection.message
  | .tooManyDigits => Text.tooManyDigits
  | .unreadable fault => fault.message
  | .entry fault => fault.message

/-- What a failed check makes of a document. -/
def DeclarationFault.ofCheck : Schema.CheckFault → DeclarationFault
  | .rejected rejection => .rejected rejection
  | .tooManyDigits => .tooManyDigits

/-- The entries of a document, none if it is no mapping. -/
def Value.entries : Value → List (Value × Value)
  | .mapping entries => entries
  | _ => []

/-- The items of a list, none if the value is no list. -/
def Value.items : Value → List Value
  | .list items => items
  | _ => []

/-- The value under a key, null when the key is not there. -/
def Value.lookup (value : Value) (key : String) : Value :=
  (Value.field? key value.entries).getD .null

namespace Declaration

def artifactsAt (document : Value) (key : String) : Except DeclarationFault (List Artifact) :=
  (Artifact.ofEntryList (document.lookup key)).mapError .entry

def artifactAt (document : Value) (key : String) : Except DeclarationFault Artifact :=
  match Value.field? key document.entries with
  | some entry => (Artifact.ofEntry entry).mapError .entry
  | none => .error (.entry (.missingKey key))

/-- The artifact under a key that may be absent or null. -/
def optionalArtifactAt (document : Value) (key : String) :
    Except DeclarationFault (Option Artifact) :=
  match document.lookup key with
  | .null => .ok none
  | entry => ((Artifact.ofEntry entry).map some).mapError .entry

/-- What a document says about a device, taken as the schema describes it. -/
def read (document : Value) : Except DeclarationFault Declaration := do
  let image := document.lookup "system_image"
  let tags := (document.lookup "tags").items.map Value.plain
  let spec ← (DeviceSpec.ofEntries document.entries).mapError .unreadable
  let files ← artifactsAt image "files"
  let defaultProperties ← optionalArtifactAt document "default_properties"
  let apks ← artifactsAt document "platform_apks"
  return {
    name := (document.lookup "name").plain
    spec
    systemImage := ⟨(image.lookup "label").plain, files⟩
    defaultProperties
    apks
    tags
    executionInfo := .ofTags tags }

/-- The declaration that a document holds; `place` is what messages call the document. -/
def parse (place : String) (document : Value) : Except DeclarationFault Declaration := do
  (Schema.device.check place document).mapError .ofCheck
  read document

end Declaration

namespace ToolSet

open Declaration

/-- What a document says about a toolchain, taken as the schema describes it. -/
def read (document : Value) : Except DeclarationFault ToolSet := do
  let launcher := document.lookup "unified_launcher"
  return {
    adb := ← artifactAt document "adb"
    adbStatic := ← artifactAt document "adb_static"
    emulatorArm := ← artifactAt document "emulator_arm"
    emulatorX86 := ← artifactAt document "emulator_x86"
    biosFiles := ← artifactsAt document "emulator_x86_bios"
    xvfbSupport := ← artifactsAt document "xvfb_support"
    mksdcard := ← artifactAt document "mksdcard"
    emptySnapshot := ← artifactAt document "empty_snapshot_fs"
    launcher := ⟨← artifactAt launcher "executable", ← artifactsAt launcher "files"⟩
    runtestFiles := ← artifactsAt document "android_runtest"
    shbaseFiles := ← artifactsAt document "testing_shbase"
    sdkPath := ← artifactAt document "sdk_path" }

def parse (place : String) (document : Value) : Except DeclarationFault ToolSet := do
  (Schema.toolchain.check place document).mapError .ofCheck
  read document

end ToolSet

end EmulatedDevice
