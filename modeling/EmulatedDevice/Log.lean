import EmulatedDevice.Target

/-!
# The log of a run

Records have a level and a source, and a threshold decides which are written.
Assembling a target records how many common files there are, then what the boot
action is made of, then that the target is configured; a step that is not reached
records nothing.
-/

namespace EmulatedDevice

inductive LogLevel where
  | debug
  | info
  | error
  deriving DecidableEq, Repr

def LogLevel.rank : LogLevel → Nat
  | .debug => 10
  | .info => 20
  | .error => 40

def LogLevel.word : LogLevel → String
  | .debug => "DEBUG"
  | .info => "INFO"
  | .error => "ERROR"

/-- The lowest rank that is written, by the names that a threshold may be given with. -/
def thresholds : List (String × Nat) :=
  [ ("DEBUG", 10), ("INFO", 20), ("WARNING", 30), ("ERROR", 40), ("WARN", 30), ("CRITICAL", 50)
  , ("FATAL", 50), ("NOTSET", 0) ]

def threshold? (name : String) : Option Nat :=
  Entries.get? (· == ·) name thresholds

structure LogRecord where
  level : LogLevel
  source : String
  text : String
  deriving DecidableEq, Repr

def LogRecord.line (r : LogRecord) : String :=
  "[" ++ r.level.word ++ "] " ++ r.source ++ ": " ++ r.text ++ "\n"

/-- The lines of the records that reach a threshold. -/
def writtenLog (threshold : Nat) (records : List LogRecord) : String :=
  String.join ((records.filter fun r => threshold ≤ r.level.rank).map LogRecord.line)

def Dependencies.record (deps : Dependencies) : LogRecord where
  level := .debug
  source := "android_device.rules.dependencies"
  text := "collected " ++ toString deps.common.length ++ " common dependencies for "
    ++ deps.image.label ++ " (" ++ toString deps.image.images.length ++ " system images)"

def BootAction.record (action : BootAction) (images : Artifact) : LogRecord where
  level := .debug
  source := "android_device.rules.boot_action"
  text := "boot action for " ++ images.exec ++ ": " ++ toString action.inputs.length
    ++ " inputs, " ++ toString action.arguments.length ++ " arguments"

def Target.record (target : Target) : LogRecord where
  level := .info
  source := "android_device.rules.device_target"
  text := "configured " ++ target.label ++ " (" ++ toString target.runfiles.length ++ " runfiles)"

/-- What assembling a target records, as far as it gets. -/
def TargetRequest.records (r : TargetRequest) : List LogRecord :=
  match r.dependencies with
  | .error _ => []
  | .ok deps =>
    match r.assemble with
    | .error _ => [deps.record]
    | .ok target =>
      [deps.record, target.bootAction.record target.outputs.images, target.record]

end EmulatedDevice
