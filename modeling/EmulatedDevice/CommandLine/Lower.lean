import EmulatedDevice.CommandLine.Run
import EmulatedDevice.Log

/-!
# Lowering a declaration

The command loads a device declaration, a toolchain manifest and perhaps a
template, assembles the target, and publishes its script and its descriptor.
Nothing is written before the target is assembled. A broken device is the user's
matter and is told on the output; a broken toolchain or template is not, and is
logged as an internal error. A number with too many digits is neither: where the
inputs are loaded its fault is told like others, but when it comes up in assembling
it ends the command as it is.

The inputs may hold halves of surrogate pairs. All texts in them get into the files
that are written, except the label of the system image, which stands in messages
only. So the files hold a half if the other texts come out different when the inputs
are loaded with other signs for halves, and then the command ends while it writes.
-/

namespace EmulatedDevice.CommandLine.Lower

structure Environment where
  workspace : Option String
  binRoot : Option String
  logLevel : Option String
  deriving DecidableEq, Repr

structure Options where
  device : Path
  toolchain : Path
  output : Path
  package : String
  workspace : String
  binRoot : String
  template : Option Path
  logLevel : String
  deriving DecidableEq, Repr

def flags : List Flag :=
  [ ⟨"--device", true, []⟩, ⟨"--toolchain", true, []⟩, ⟨"--output", true, []⟩
  , ⟨"--package", false, []⟩, ⟨"--workspace", false, []⟩, ⟨"--bin_root", false, []⟩
  , ⟨"--template", false, []⟩, ⟨"--log_level", false, levelChoices⟩ ]

/-- The options that flags give; what they leave open comes from the environment or is standard. -/
def Options.ofValues (environment : Environment) (values : List (String × String)) : Options :=
  let text (name standard : String) : String := (valueOf? name values).getD standard
  { device := .ofString (text "--device" "")
    toolchain := .ofString (text "--toolchain" "")
    output := .ofString (text "--output" "")
    package := text "--package" ""
    workspace := text "--workspace"
      (environment.workspace.getD TargetRequest.defaultWorkspace)
    binRoot := text "--bin_root" (environment.binRoot.getD Outputs.defaultBinRoot)
    template := (valueOf? "--template" values).map .ofString
    logLevel := text "--log_level" (environment.logLevel.getD "INFO") }

structure Inputs where
  declaration : Declaration
  tools : ToolSet
  template : String
  deriving DecidableEq, Repr

/-- Loads the declaration, then the toolchain, then the template if one is named. -/
def loadInputs [Text.HalfSigns] (t : FileTree) (options : Options) : Except LoadFault Inputs := do
  let declaration ← t.loadDeclaration options.device
  let tools ← t.loadToolchain options.toolchain
  let template ← match options.template with
    | none => pure Template.packaged
    | some path => t.loadTemplate path
  return ⟨declaration, tools, template⟩

/-- The inputs with the other signs for halves of surrogate pairs. -/
def otherInputs (t : FileTree) (options : Options) (inputs : Inputs) : Inputs :=
  match @loadInputs Text.otherSigns t options with
  | .error _ => inputs
  | .ok other => other

/-- What of the inputs gets into files: everything but the label of the system image. -/
def Inputs.written (inputs : Inputs) : Inputs :=
  let image := { inputs.declaration.systemImage with label := "" }
  { inputs with declaration := { inputs.declaration with systemImage := image } }

/-- Nothing that gets into files holds half of a surrogate pair. -/
def isHalfFree (t : FileTree) (options : Options) (inputs : Inputs) : Bool :=
  (otherInputs t options inputs).written = inputs.written

def targetLabel (package name : String) : String :=
  "//" ++ package ++ ":" ++ name

def request (options : Options) (inputs : Inputs) : TargetRequest :=
  let declaration := inputs.declaration
  { label := targetLabel options.package declaration.name
    spec := declaration.spec
    systemImage := declaration.systemImage
    tools := inputs.tools
    outputs := .forTarget declaration.name options.package options.binRoot
    workspace := options.workspace
    defaultProperties := declaration.defaultProperties
    apks := declaration.apks
    executionInfo := declaration.executionInfo
    template := inputs.template }

/-- The record of a fault that is not the user's. -/
def internalError (label message : String) : LogRecord where
  level := .error
  source := "android_device.cli.lower_device"
  text := "internal error while lowering " ++ label ++ ": " ++ message

def summary (options : Options) (label name : String) : String :=
  "OK: " ++ label ++ "\n"
    ++ "  stub script: " ++ (options.output / Path.ofString name).render ++ "\n"
    ++ "  boot action: " ++ (options.output / Path.ofString (descriptorName name)).render ++ "\n"

def lower (t : FileTree) (options : Options) (threshold : Nat) (inputs : Inputs) :
    FileTree × Run :=
  let wanted := request options inputs
  let log (more : List LogRecord) : String := writtenLog threshold (wanted.records ++ more)
  let failed (fault : AssemblyFault) : FileTree × Run :=
    (t, ⟨.returned 2, "", log [internalError wanted.label fault.message]⟩)
  match wanted.assemble with
  | .error (.configuration error) => (t, ⟨.returned 1, issueLines error.issues, log []⟩)
  | .error (.unresolvable image) => (t, ⟨.escaped (.unresolvable image), "", log []⟩)
  | .error .tooManyDigits => (t, ⟨.escaped .tooManyDigits, "", log []⟩)
  | .error fault => failed fault
  | .ok target =>
    let name := inputs.declaration.name
    if isHalfFree t options inputs then
      match t.publish target options.output name with
      | (t', .error fault) => (t', ⟨.escaped (.publication fault), "", log []⟩)
      | (t', .ok ()) => (t', ⟨.returned 0, summary options target.label name, log []⟩)
    else
      let other := (request options (otherInputs t options inputs)).assemble.toOption.getD target
      match t.publishPartly target options.output name (target.script ≠ other.script) with
      | (t', .error fault) => (t', ⟨.escaped (.publication fault), "", log []⟩)
      | (t', .ok ()) => (t', ⟨.escaped .unencodable, "", log []⟩)

def execute (t : FileTree) (options : Options) : FileTree × Run :=
  match threshold? options.logLevel with
  | none => (t, .escaped (.unknownLevel options.logLevel))
  | some threshold =>
    match loadInputs t options with
    | .error fault => (t, .ofLoadFault "Unable to load inputs:\n" fault)
    | .ok inputs => lower t options threshold inputs

/-- Runs the command with the words of its command line. -/
def run (t : FileTree) (environment : Environment) (words : List String) : FileTree × Run :=
  match read flags words with
  | .error fault => (t, .refused .refusedUsage ("lower_device.py: error: " ++ fault.message))
  | .ok .help => (t, ⟨.help, "", ""⟩)
  | .ok (.run values) => execute t (.ofValues environment values)

/-- The halves of surrogate pairs that a run fails to encode. -/
def firstHalves? (t : FileTree) (environment : Environment) (words : List String) :
    Option Text.HalfRun := do
  let .run values ← (read flags words).toOption | none
  let options := Options.ofValues environment values
  let inputs ← (loadInputs t options).toOption
  let target ← (request options inputs).assemble.toOption
  let other ← (request options (otherInputs t options inputs)).assemble.toOption
  let script ← target.script.expand.toOption
  let otherScript ← other.script.expand.toOption
  if script = otherScript then
    return Text.firstHalves target.descriptorText.toList other.descriptorText.toList
  else
    return Text.firstHalves script.toList otherScript.toList

end EmulatedDevice.CommandLine.Lower
