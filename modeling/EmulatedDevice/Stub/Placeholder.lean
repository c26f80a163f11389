/-!
# The placeholders of a launcher template

A placeholder is written as its name between percent signs. Only these sixteen
texts are placeholders; any other text between percent signs is left alone.

No token is the beginning of another, because a name holds no percent sign. So at
one place of a text at most one placeholder can be read, in whatever order they
are tried.
-/

namespace EmulatedDevice

/-- What a launcher template leaves open. -/
inductive Placeholder where
  | workspace
  | unifiedLauncher
  | adb
  | adbStatic
  | emulatorX86
  | emulatorArm
  | mksdcard
  | emptySnapshot
  | systemImages
  | biosFiles
  | propertiesFile
  | imageInput
  | metadataPath
  | runtest
  | shbase
  | sdkPath
  deriving DecidableEq, Repr

namespace Placeholder

def all : List Placeholder :=
  [ .workspace, .unifiedLauncher, .adb, .adbStatic, .emulatorX86, .emulatorArm, .mksdcard
  , .emptySnapshot, .systemImages, .biosFiles, .propertiesFile, .imageInput, .metadataPath
  , .runtest, .shbase, .sdkPath ]

theorem mem_all (p : Placeholder) : p ∈ all := by
  cases p <;> decide

def name : Placeholder → String
  | .workspace => "workspace"
  | .unifiedLauncher => "unified_launcher"
  | .adb => "adb"
  | .adbStatic => "adb_static"
  | .emulatorX86 => "emulator_x86"
  | .emulatorArm => "emulator_arm"
  | .mksdcard => "mksdcard"
  | .emptySnapshot => "empty_snapshot_fs"
  | .systemImages => "system_images"
  | .biosFiles => "bios_files"
  | .propertiesFile => "source_properties_file"
  | .imageInput => "image_input_file"
  | .metadataPath => "emulator_metadata_path"
  | .runtest => "android_runtest"
  | .shbase => "testing_shbase"
  | .sdkPath => "sdk_path"

/-- How a placeholder stands in a template. -/
def token (p : Placeholder) : String :=
  "%" ++ p.name ++ "%"

/-- The placeholder that a text is the token of. -/
def ofToken? (text : String) : Option Placeholder :=
  all.find? fun p => p.token == text

/-- Whether a text begins with the token of a placeholder. -/
def startsAt (p : Placeholder) (text : List Char) : Bool :=
  p.token.toList.isPrefixOf text

/-- The placeholder whose token a text begins with. -/
def at? (text : List Char) : Option Placeholder :=
  all.find? fun p => p.startsAt text

end Placeholder

end EmulatedDevice
