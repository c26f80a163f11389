import EmulatedDevice.CommandLine.Lower
import EmulatedDevice.CommandLine.Validate

/-!
# Command lines that get to the point

Before a command touches the file tree it reads its words and, when it is to log,
its level. Words that cannot be read, a request for help and a level that does not
exist end it there. `device?` and `started?` say of a command line what is left to
do once these are out of the way, so that what is proved of a run starts from the
paths it was given and not from the words they came in.
-/

namespace EmulatedDevice.CommandLine

namespace Validate

/-- The path that a command line asks to have checked. -/
def device? (words : List String) : Option Path :=
  match read flags words with
  | .ok (.run values) => some (.ofString ((valueOf? "--device" values).getD ""))
  | _ => none

theorem run_of_device? {t : FileTree} {words : List String} {device : Path}
    (h : device? words = some device) : run t words = execute t device := by
  unfold device? at h
  unfold run
  split at h
  · next hread =>
    rw [hread]
    cases h
    rfl
  · cases h

end Validate

namespace Lower

variable {t : FileTree} {environment : Environment} {words : List String}

/-- The options of a command line that asks for a device to be lowered, and the threshold of what
is logged. -/
def started? (environment : Environment) (words : List String) : Option (Options × Nat) :=
  match read flags words with
  | .ok (.run values) =>
    let options := Options.ofValues environment values
    (threshold? options.logLevel).map fun threshold => (options, threshold)
  | _ => none

section Started

variable {options : Options} {threshold : Nat}

theorem run_eq_execute (h : started? environment words = some (options, threshold)) :
    run t environment words = execute t options ∧
      threshold? options.logLevel = some threshold := by
  unfold started? at h
  unfold run
  split at h
  · next values hread =>
    obtain ⟨_, hlevel, heq⟩ := Option.map_eq_some_iff.1 h
    cases heq
    rw [hread]
    exact ⟨rfl, hlevel⟩
  · cases h

theorem run_of_not_loaded (h : started? environment words = some (options, threshold))
    {fault : LoadFault} (hload : loadInputs t options = .error fault) :
    run t environment words = (t, .ofLoadFault "Unable to load inputs:\n" fault) := by
  obtain ⟨hrun, hlevel⟩ := run_eq_execute (t := t) h
  simp only [hrun, execute, hlevel, hload]

theorem run_of_loaded (h : started? environment words = some (options, threshold))
    {inputs : Inputs} (hload : loadInputs t options = .ok inputs) :
    run t environment words = lower t options threshold inputs := by
  obtain ⟨hrun, hlevel⟩ := run_eq_execute (t := t) h
  simp only [hrun, execute, hlevel, hload]

end Started

/-- The endings of a run that gets no options to start with. -/
inductive EndsUnstarted : Ending → Prop
  | usage : EndsUnstarted .refusedUsage
  | help : EndsUnstarted .help
  | level (name : String) : EndsUnstarted (.escaped (.unknownLevel name))

/-- A run that does not start has nothing to do with the tree. -/
theorem run_of_not_started (h : started? environment words = none) :
    (run t environment words).1 = t ∧ EndsUnstarted (run t environment words).2.ending := by
  unfold started? at h
  unfold run
  split at h
  · next values hread =>
    rw [hread]
    show (execute t _).1 = t ∧ EndsUnstarted (execute t _).2.ending
    unfold execute
    rw [Option.map_eq_none_iff.1 h]
    exact ⟨rfl, .level _⟩
  · next hread =>
    split
    · exact ⟨rfl, .usage⟩
    · exact ⟨rfl, .help⟩
    · next values hvalues => exact absurd hvalues (hread values)

end Lower

end EmulatedDevice.CommandLine
