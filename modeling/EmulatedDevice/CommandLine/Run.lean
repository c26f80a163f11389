import EmulatedDevice.CommandLine.Flags
import EmulatedDevice.Loading
import EmulatedDevice.Publication

/-!
# Runs of a command

A run prints, may log, and ends in one of a few ways. A fault that a command does
not expect is not dressed up as an exit code: it ends the run as itself. What is
printed is a text here; whether a terminal can encode it is not the run's matter.
-/

namespace EmulatedDevice.CommandLine

/-- A fault that ends a run as it is. -/
inductive Escape where
  | load (fault : LoadFault)
  | unresolvable (image : String)
  | tooManyDigits
  | publication (fault : PublicationFault)
  | unencodable
  | unknownLevel (name : String)
  deriving Repr

inductive Ending where
  | returned (code : Nat)
  | refusedInputs
  | refusedUsage
  | help
  | escaped (fault : Escape)
  deriving Repr

/-- The exit code of an ending, when it has one. -/
def Ending.exitCode? : Ending → Option Nat
  | .returned code => some code
  | .refusedInputs => some 1
  | .refusedUsage => some 2
  | .help => some 0
  | .escaped _ => none

/-- What is seen of a run. -/
structure Run where
  ending : Ending
  stdout : String
  stderr : String
  deriving Repr

def Run.refused (ending : Ending) (message : String) : Run :=
  ⟨ending, "", message ++ "\n"⟩

/-- A run that a fault ends before anything is printed. -/
def Run.escaped (fault : Escape) : Run :=
  ⟨.escaped fault, "", ""⟩

/-- A run whose inputs could not be loaded. -/
def Run.ofLoadFault (introduction : String) (fault : LoadFault) : Run :=
  if fault.isReported then .refused .refusedInputs (introduction ++ fault.message)
  else .escaped (.load fault)

def issueLines (issues : List Issue) : String :=
  String.join (issues.map fun issue => "ERROR: " ++ issue.format ++ "\n")

/-- The thresholds that a command line can ask for. -/
def levelChoices : List String := ["DEBUG", "INFO", "WARNING", "ERROR"]

end EmulatedDevice.CommandLine
