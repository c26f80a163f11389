import EmulatedDevice.BootAction
import EmulatedDevice.Stub
import EmulatedDevice.Stub.Packaged

/-!
# Device targets

Assembling a target goes through the same questions in the same order whatever
the input: is the device itself in order, do the tool bundles offer what is
wanted, does the template match, can the numbers of the device be written into the
flags of the boot action. Only then is there a target. A question that is answered
with no hides all later ones.

Reporting what is wrong with a system image and splitting it are two functions,
so a group could pass the first and fail the second. That has a fault of its own,
which is about the program and not about its input.
-/

namespace EmulatedDevice

/-- Everything that a target is assembled from. -/
structure TargetRequest where
  label : String
  spec : DeviceSpec
  systemImage : FileGroup
  tools : ToolSet
  outputs : Outputs
  workspace : String
  defaultProperties : Option Artifact
  apks : List Artifact
  executionInfo : ExecutionInfo
  template : String
  deriving DecidableEq, Repr

/-- The workspace name when none is given. -/
def TargetRequest.defaultWorkspace : String := "__main__"

inductive AssemblyFault where
  | configuration (error : ConfigurationError)
  | toolchain (fault : ToolchainFault)
  | template (fault : TemplateFault)
  | unresolvable (image : String)
  | tooManyDigits
  deriving DecidableEq, Repr

def AssemblyFault.message : AssemblyFault → String
  | .configuration error => error.message
  | .toolchain fault => fault.message
  | .template fault => fault.message
  | .unresolvable image => "unresolvable system image: " ++ image
  | .tooManyDigits => Text.tooManyDigits

structure Target where
  label : String
  outputs : Outputs
  script : StubScript
  bootAction : BootAction
  runfiles : List Artifact
  executionInfo : ExecutionInfo
  deriving DecidableEq, Repr

/-- How a test talks to the device. -/
def Target.brokerType : String := "WRAPPED_EMULATOR"

namespace TargetRequest

/-- Everything that is wrong with the requested device itself. -/
def issues (r : TargetRequest) : List Issue :=
  configurationIssues r.spec r.systemImage

/-- What the device depends on, when the device and the tool bundles are in order. -/
def dependencies (r : TargetRequest) : Except AssemblyFault Dependencies :=
  match r.issues with
  | [] =>
    match r.systemImage.systemImage? with
    | some image => (Dependencies.collect r.tools image r.apks).mapError .toolchain
    | none => .error (.unresolvable r.systemImage.label)
  | issues => .error (.configuration ⟨issues, r.label⟩)

def script (r : TargetRequest) (deps : Dependencies) : Except AssemblyFault StubScript :=
  (StubScript.create r.workspace deps r.outputs r.template).mapError .template

def bootAction (r : TargetRequest) (deps : Dependencies) : BootAction :=
  .create r.spec deps r.outputs r.defaultProperties r.executionInfo

/-- Refuses a device with an attribute that cannot be written into a flag. -/
def checkFlags (r : TargetRequest) : Except AssemblyFault Unit :=
  if r.spec.IsWritable then .ok () else .error .tooManyDigits

/-- The files that have to be there when the target runs, each once. -/
def runfiles (r : TargetRequest) (deps : Dependencies) : List Artifact :=
  Artifact.stableUnique
    (r.outputs.filesToBuild ++ deps.common ++ [r.tools.launcher.executable]
      ++ r.tools.launcher.files)

/-- The target that was asked for, or the first reason why there is none. -/
def assemble (r : TargetRequest) : Except AssemblyFault Target := do
  let deps ← r.dependencies
  let script ← r.script deps
  r.checkFlags
  return ⟨r.label, r.outputs, script, r.bootAction deps, r.runfiles deps, r.executionInfo⟩

end TargetRequest

end EmulatedDevice
