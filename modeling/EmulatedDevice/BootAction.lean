import EmulatedDevice.Outputs
import EmulatedDevice.Toolchain
import EmulatedDevice.Value

/-!
# The boot action

During the build the unified launcher boots the device once and keeps the images
of the booted device. It runs in the execution root, where there is no runfiles
tree, so its command line names every file by its exec path. What the flags name are
inputs of the action and, for the images, the directory of an output; only the root
of the SDK is named and is neither.

Every attribute of the device goes into a flag, so there is an action only for a
device whose numbers can be written. Who makes one asks for that first.
-/

namespace EmulatedDevice

/-- What an action is expected to use: processors, memory in megabytes, and input and output. -/
structure Resources where
  cpu : Binary64
  ram : Int
  io : Binary64
  deriving DecidableEq, Repr

/-- A booting emulator keeps one processor busy and takes the memory that the device has; it
writes its images at the very end. -/
def Resources.forBoot (spec : DeviceSpec) : Resources :=
  ⟨.one, spec.ram, .zero false⟩

/-- Entries that tell the executor how to run an action, in the order in which they came. -/
abbrev ExecutionInfo := List (String × String)

/-- Every tag asks for an entry of its name without a value; a repeated tag asks once. -/
def ExecutionInfo.ofTags (tags : List String) : ExecutionInfo :=
  Entries.ofPairs (· == ·) (tags.map fun tag => (tag, ""))

structure BootAction where
  executable : Artifact
  outputs : List Artifact
  inputs : List Artifact
  arguments : List String
  resources : Resources
  executionInfo : ExecutionInfo
  deriving DecidableEq, Repr

namespace BootAction

def mnemonic : String := "AndroidDeviceBoot"

def progressMessage : String := "creating android images..."

def flag (name value : String) : String :=
  "--" ++ name ++ "=" ++ value

/-- The flags of the launcher, in the order that it expects, if the numbers can be written. -/
def launcherFlags (spec : DeviceSpec) (deps : Dependencies) (images : Artifact)
    (defaultProperties : Option Artifact) : List String :=
  let tools := deps.tools
  [ flag "action" "boot"
  , flag "density" (toString spec.screenDensity)
  , flag "memory" (toString spec.ram)
  , flag "cache" (toString spec.cache)
  , flag "vm_size" (toString spec.vmHeap)
  , flag "generate_output_dir" images.execDir
  , flag "skin" spec.screenSize
  , flag "source_properties_file" deps.image.properties.exec
  , flag "system_images" (Artifact.joinExec " " deps.image.images)
  , "--flag_configured_android_tools"
  , flag "adb" tools.adb.exec
  , flag "emulator_x86" tools.emulatorX86.exec
  , flag "emulator_arm" tools.emulatorArm.exec
  , flag "adb_static" tools.adbStatic.exec
  , flag "mksdcard" tools.mksdcard.exec
  , flag "empty_snapshot_fs" tools.emptySnapshot.exec
  , flag "bios_files" (Artifact.joinExec "," tools.biosFiles)
  , "--nocopy_system_images"
  , "--single_image_file"
  , flag "android_sdk_path" tools.sdkPath.exec
  , flag "platform_apks" (Artifact.joinExec "," deps.apks) ]
  ++ (defaultProperties.map fun a => flag "default_properties_file" a.exec).toList

def create (spec : DeviceSpec) (deps : Dependencies) (outputs : Outputs)
    (defaultProperties : Option Artifact) (info : ExecutionInfo) : BootAction where
  executable := deps.tools.launcher.executable
  outputs := [outputs.metadata, outputs.images]
  inputs := deps.common ++ defaultProperties.toList
  arguments := launcherFlags spec deps outputs.images defaultProperties
  resources := .forBoot spec
  executionInfo := info

def argv (action : BootAction) : List String :=
  action.executable.exec :: action.arguments

end BootAction

end EmulatedDevice
