import EmulatedDevice.Outputs
import EmulatedDevice.Stub.Template
import EmulatedDevice.Toolchain

/-!
# The launcher script

The script runs after the build, inside the runfiles tree of its target, so it
names every file by its runfiles path. It is its template with one value for each
placeholder. Making a script checks that template and values match, so that
expanding one that was made cannot fail.
-/

namespace EmulatedDevice

/-- A script to be written: where, from which template, and with which values. -/
structure StubScript where
  output : Artifact
  template : String
  bindings : Bindings
  executable : Bool
  deriving DecidableEq, Repr

namespace StubScript

/-- What stands for a placeholder in the script of a target. -/
def value (workspace : String) (deps : Dependencies) (outputs : Outputs) : Placeholder → String
  | .workspace => workspace
  | .unifiedLauncher => deps.tools.launcher.executable.runfiles
  | .adb => deps.tools.adb.runfiles
  | .adbStatic => deps.tools.adbStatic.runfiles
  | .emulatorX86 => deps.tools.emulatorX86.runfiles
  | .emulatorArm => deps.tools.emulatorArm.runfiles
  | .mksdcard => deps.tools.mksdcard.runfiles
  | .emptySnapshot => deps.tools.emptySnapshot.runfiles
  | .systemImages => Artifact.joinRunfiles " " deps.image.images
  | .biosFiles => Artifact.joinRunfiles " " deps.tools.biosFiles
  | .propertiesFile => deps.image.properties.runfiles
  | .imageInput => outputs.images.runfiles
  | .metadataPath => outputs.metadata.runfiles
  | .runtest => deps.runtest.runfiles
  | .shbase => deps.shbase.runfiles
  | .sdkPath => deps.tools.sdkPath.runfiles

/-- The values for all placeholders, in their order. -/
def bindingsFor (workspace : String) (deps : Dependencies) (outputs : Outputs) : Bindings :=
  Placeholder.all.map fun p => (p, value workspace deps outputs p)

/-- The script of a target, when its template has every placeholder exactly once. -/
def create (workspace : String) (deps : Dependencies) (outputs : Outputs) (template : String) :
    Except TemplateFault StubScript := do
  let bindings := bindingsFor workspace deps outputs
  Template.check template bindings
  return ⟨outputs.executable, template, bindings, true⟩

/-- The text of a script. -/
def expand (script : StubScript) : Except TemplateFault String :=
  Template.expand script.template script.bindings

end StubScript

end EmulatedDevice
