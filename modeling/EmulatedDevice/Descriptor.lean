import EmulatedDevice.Json.Printer
import EmulatedDevice.Target

/-!
# The boot descriptor

What a build system has to know about a target, as one document: the files to
build, the files to have at hand when the target runs, and the boot action. Files
to build and everything in the action go by exec paths, runfiles by runfiles
paths.
-/

namespace EmulatedDevice

def Resources.toValue (r : Resources) : Value :=
  .ofFields [("cpu", .float r.cpu), ("ram", .int r.ram), ("io", .float r.io)]

def BootAction.toValue (action : BootAction) : Value :=
  .ofFields
    [ ("mnemonic", .text mnemonic)
    , ("progress_message", .text progressMessage)
    , ("executable", .text action.executable.exec)
    , ("arguments", .ofTexts action.arguments)
    , ("inputs", .ofTexts (action.inputs.map Artifact.exec))
    , ("outputs", .ofTexts (action.outputs.map Artifact.exec))
    , ("resources", action.resources.toValue)
    , ("execution_info", .ofFields (action.executionInfo.map fun (key, value) =>
        (key, .text value))) ]

namespace Target

def filesToBuild (target : Target) : List Artifact :=
  target.outputs.filesToBuild

def descriptor (target : Target) : Value :=
  .ofFields
    [ ("label", .text target.label)
    , ("device_broker_type", .text brokerType)
    , ("files_to_build", .ofTexts (target.filesToBuild.map Artifact.exec))
    , ("runfiles", .ofTexts (target.runfiles.map Artifact.runfiles))
    , ("boot_action", target.bootAction.toValue) ]

def descriptorText (target : Target) : String :=
  Json.render target.descriptor ++ "\n"

end Target

end EmulatedDevice
