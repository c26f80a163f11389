import EmulatedDevice.Proofs.LowerRuns
import EmulatedDevice.Session

/-!
# The two commands agree on a device

Checking a device and lowering it load the same declaration and ask the same
questions about it, but on different ways: one asks for the issues, the other is
stopped by them while it assembles a target. Where the toolchain and the template
load, so that nothing but the device stands between the two, they say the same of
it. They are separated by one thing only: lowering goes on after a device has
been found in order, and may still fail. It may even fail for the device, when one
of its numbers has too many digits to be written: no bound is broken by that, and
checking never writes the number.
-/

namespace EmulatedDevice.CommandLine

/-- The endings of a run that stops itself: with a message, or after showing help. -/
def Ending.IsExit : Ending → Prop
  | .refusedInputs | .refusedUsage | .help => True
  | .returned _ | .escaped _ => False

theorem isExit_ofLoadFault {introduction : String} {fault : LoadFault} :
    (Run.ofLoadFault introduction fault).ending.IsExit ↔ fault.isReported = true := by
  unfold Run.ofLoadFault
  split
  · next h => exact iff_of_true trivial h
  · next h => exact iff_of_false id h

theorem not_isExit_of_returned {ending : Ending} {code : Nat} (h : ending = .returned code) :
    ¬ ending.IsExit := by
  rw [h]
  exact id

/-- The endings of a run that has got past the device: it has published, it has met tools or a
template that break their contract, or it has failed in writing, for the tree or for half of a surrogate pair. -/
def PastDevice (ending : Ending) : Prop :=
  ending = .returned 0 ∨ ending = .returned 2 ∨
    (∃ fault, ending = .escaped (.publication (.file fault))) ∨ ending = .escaped .unencodable

namespace Lower

variable {t : FileTree} {environment : Environment} {words : List String} {options : Options}
  {threshold : Nat} {inputs : Inputs}

/-- A run whose toolchain and template load. A run that its words or its log level stop before
loads neither. -/
structure ToolsLoad (t : FileTree) (environment : Environment) (words : List String)
    (options : Options) : Prop where
  started : ∃ threshold, started? environment words = some (options, threshold)
  toolchain : ∃ tools, t.loadToolchain options.toolchain = .ok tools
  template : ∀ p ∈ options.template, ∃ text, t.loadTemplate p = .ok text

theorem loadInputs_of_error {fault : LoadFault}
    (h : t.loadDeclaration options.device = .error fault) :
    loadInputs t options = .error fault := by
  rw [loadInputs, h]
  rfl

theorem ToolsLoad.exists_loads (h : ToolsLoad t environment words options)
    {declaration : Declaration}
    (hdeclaration : t.loadDeclaration options.device = .ok declaration) :
    ∃ inputs, Loads t environment words options inputs ∧ inputs.declaration = declaration := by
  obtain ⟨threshold, hstarted⟩ := h.started
  obtain ⟨tools, htools⟩ := h.toolchain
  have hload : ∃ inputs, loadInputs t options = .ok inputs ∧
      inputs.declaration = declaration := by
    rw [loadInputs, hdeclaration, htools]
    cases hpath : options.template with
    | none => exact ⟨_, rfl, rfl⟩
    | some path =>
        obtain ⟨text, htext⟩ := h.template path hpath
        simp only [htext]
        exact ⟨_, rfl, rfl⟩
  obtain ⟨inputs, hload, heq⟩ := hload
  exact ⟨inputs, ⟨threshold, hstarted, hload⟩, heq⟩

/-- A run with a device in order gets past the device, unless it is stopped by a number that is
too long. -/
theorem ending_of_no_issues (h : Loads t environment words options inputs)
    (hissues : (request options inputs).issues = []) :
    PastDevice (run t environment words).2.ending ∨
      (run t environment words).2.ending = .escaped .tooManyDigits := by
  obtain ⟨threshold, hstarted, hload⟩ := h
  have houtcome := run_outcome t environment words
  generalize run t environment words = result at houtcome
  cases houtcome with
  | notStarted hnone => cases hnone.symm.trans hstarted
  | notLoaded hstarted' hload' =>
      cases hstarted'.symm.trans hstarted
      cases hload'.symm.trans hload
  | misconfigured h' hissues' =>
      obtain ⟨rfl, rfl⟩ := h'.unique ⟨threshold, hstarted, hload⟩
      exact absurd hissues hissues'
  | contractBroken => exact .inl (.inr (.inl rfl))
  | unwritable => exact .inr rfl
  | refused | notBegun => exact .inl (.inr (.inr (.inl ⟨_, rfl⟩)))
  | begun => exact .inl (.inr (.inr (.inr rfl)))
  | published => exact .inl (.inl rfl)

end Lower

/-- The declaration of a device that breaks rules was loaded, and the lines of a text tell of them:
of each issue in a line of its own, and of all in their order. -/
def TellsIssues (loading : Except LoadFault Declaration) (stdout : String) : Prop :=
  ∃ declaration, loading = .ok declaration ∧
    configurationIssues declaration.spec declaration.systemImage ≠ [] ∧
    stdout = String.join ((configurationIssues declaration.spec declaration.systemImage).map
      fun issue => "ERROR: " ++ (issue.field ++ ": " ++ issue.message) ++ "\n")

/-- What is to be said of a run that checks a device and a run that lowers it. -/
structure Agree (loading : Except LoadFault Declaration) (checked lowered : Run) : Prop where
  exits : checked.ending.IsExit ↔ lowered.ending.IsExit
  refused : checked.ending = .returned 1 ↔ lowered.ending = .returned 1
  lines : checked.ending = .returned 1 →
    TellsIssues loading checked.stdout ∧ lowered.stdout = checked.stdout
  passed : checked.ending = .returned 0 ↔
    PastDevice lowered.ending ∨ lowered.ending = .escaped .tooManyDigits

/-- A declaration that does not load stops both in the same way. -/
theorem agree_of_fault (fault : LoadFault) (introduction introduction' : String) :
    Agree (.error fault) (.ofLoadFault introduction fault) (.ofLoadFault introduction' fault) where
  exits := isExit_ofLoadFault.trans isExit_ofLoadFault.symm
  refused := iff_of_false (Lower.ofLoadFault_ne_returned 1) (Lower.ofLoadFault_ne_returned 1)
  lines h := absurd h (Lower.ofLoadFault_ne_returned 1)
  passed := by
    refine iff_of_false (Lower.ofLoadFault_ne_returned 0) ?_
    rcases Lower.ending_ofLoadFault introduction' fault with hending | hending
    · rw [hending]
      rintro ((h | h | ⟨_, h⟩ | h) | h) <;> cases h
    · rw [hending]
      rintro ((h | h | ⟨_, h⟩ | h) | h) <;> cases h

theorem agree_of_issues {loading : Except LoadFault Declaration} {checked lowered : Run}
    (hchecked : checked.ending = .returned 1) (hlowered : lowered.ending = .returned 1)
    (htells : TellsIssues loading checked.stdout) (hlines : lowered.stdout = checked.stdout) :
    Agree loading checked lowered where
  exits := iff_of_false (not_isExit_of_returned hchecked) (not_isExit_of_returned hlowered)
  refused := iff_of_true hchecked hlowered
  lines _ := ⟨htells, hlines⟩
  passed := by
    rw [hchecked, hlowered]
    refine iff_of_false nofun ?_
    rintro ((h | h | ⟨_, h⟩ | h) | h) <;> cases h

theorem agree_of_no_issues {loading : Except LoadFault Declaration} {checked lowered : Run}
    (hchecked : checked.ending = .returned 0)
    (hlowered : PastDevice lowered.ending ∨ lowered.ending = .escaped .tooManyDigits) :
    Agree loading checked lowered where
  exits := by
    refine iff_of_false (not_isExit_of_returned hchecked) ?_
    rcases hlowered with (h | h | ⟨_, h⟩ | h) | h
    · exact not_isExit_of_returned h
    · exact not_isExit_of_returned h
    · rw [h]
      exact id
    · rw [h]
      exact id
    · rw [h]
      exact id
  refused := by
    rw [hchecked]
    refine iff_of_false nofun fun hone => ?_
    rw [hone] at hlowered
    rcases hlowered with (h | h | ⟨_, h⟩ | h) | h <;> cases h
  lines h := by cases hchecked.symm.trans h
  passed := iff_of_true hchecked hlowered

theorem agree_of_toolsLoad {t : FileTree} {words lowerWords : List String}
    {environment : Lower.Environment} {options : Lower.Options}
    (hdevice : Validate.device? words = some options.device)
    (htools : Lower.ToolsLoad t environment lowerWords options) :
    Agree (t.loadDeclaration options.device) (Validate.run t words)
      (Lower.run t environment lowerWords).2 := by
  rw [Validate.run_of_device? hdevice, Validate.execute]
  cases hdeclaration : t.loadDeclaration options.device with
  | error fault =>
      obtain ⟨threshold, hstarted⟩ := htools.started
      rw [Lower.run_of_not_loaded hstarted (Lower.loadInputs_of_error hdeclaration)]
      exact agree_of_fault fault _ _
  | ok declaration =>
      obtain ⟨inputs, hloads, rfl⟩ := htools.exists_loads hdeclaration
      -- both ask for the issues of the same device
      have hsame : configurationIssues inputs.declaration.spec inputs.declaration.systemImage =
        (Lower.request options inputs).issues := rfl
      simp only [hsame]
      cases hissues : (Lower.request options inputs).issues with
      | nil =>
          exact agree_of_no_issues rfl (Lower.ending_of_no_issues hloads hissues)
      | cons issue rest =>
          obtain ⟨threshold, _, hrun⟩ := hloads.started
          have hsome : (Lower.request options inputs).issues ≠ [] := by
            rw [hissues]
            exact List.cons_ne_nil _ _
          obtain ⟨log, hlower⟩ := Lower.lower_of_not_inOrder fun horder =>
            hsome (TargetRequest.issues_eq_nil.2 horder)
          have htells : TellsIssues (.ok inputs.declaration) (issueLines (issue :: rest)) := by
            rw [← hissues]
            exact ⟨_, rfl, hsome, rfl⟩
          rw [hrun, hlower, hissues]
          exact agree_of_issues rfl rfl htells rfl

/-- A run that loads anything loads it by its options. -/
theorem Lower.ToolsLoad.eq_of_loads {t : FileTree} {words : List String}
    {environment : Lower.Environment} {options options' : Lower.Options} {inputs : Lower.Inputs}
    (htools : Lower.ToolsLoad t environment words options)
    (h : Lower.Loads t environment words options' inputs) : options' = options := by
  obtain ⟨_, hstarted⟩ := htools.started
  obtain ⟨_, hstarted', _⟩ := h.started
  cases hstarted'.symm.trans hstarted
  rfl

/-- Checking a device that a run lowers with tools that load: the two stop themselves together,
they find the same issues and tell them in the same lines, one for each and in their order. A
device passes the check when lowering gets past it, or when lowering ends for a number of the device
that is too long, with all else in order. Checking leaves the tree as it is. -/
theorem validate_agrees_with_lower {t : FileTree} {words lowerWords : List String}
    {environment : Lower.Environment} {options : Lower.Options}
    (hdevice : Validate.device? words = some options.device)
    (htools : Lower.ToolsLoad t environment lowerWords options) :
    let checked := Validate.run t words
    let lowered := (Lower.run t environment lowerWords).2
    (checked.ending.IsExit ↔ lowered.ending.IsExit) ∧
    (checked.ending = .returned 1 ↔ lowered.ending = .returned 1) ∧
    (checked.ending = .returned 1 →
      TellsIssues (t.loadDeclaration options.device) checked.stdout ∧
        lowered.stdout = checked.stdout) ∧
    (checked.ending = .returned 0 ↔
      PastDevice lowered.ending ∨ lowered.ending = .escaped .tooManyDigits) ∧
    (lowered.ending = .escaped .tooManyDigits ↔
      ∃ inputs, Lower.Loads t environment lowerWords options inputs ∧
        (Lower.request options inputs).InOrder ∧ (Lower.request options inputs).MeetsContracts ∧
        ¬ inputs.declaration.spec.IsWritable) ∧
    ∀ s : Session, s.tree = t → (s.step (.validate words)).1.tree = t := by
  obtain ⟨hexits, hrefused, hlines, hpassed⟩ := agree_of_toolsLoad hdevice htools
  refine ⟨hexits, hrefused, hlines, hpassed, ?_, fun _ hs => hs⟩
  refine Lower.tooManyDigits_iff.trans ⟨?_, fun ⟨inputs, h⟩ => ⟨options, inputs, h⟩⟩
  rintro ⟨options', inputs, hloads, h⟩
  obtain rfl := htools.eq_of_loads hloads
  exact ⟨inputs, hloads, h⟩

/-- Both commands tell of a phone with too little memory in the same lines. -/
theorem validate_agrees_with_lower_sample :
    Lower.ToolsLoad Lower.sampleTree ⟨none, none, none⟩ (Lower.sampleWords "low.json")
        (Lower.sampleOptions "low.json") ∧
      (Validate.run Lower.sampleTree ["--device", "low.json"]).ending = .returned 1 ∧
      TellsIssues (Lower.sampleTree.loadDeclaration (Lower.sampleOptions "low.json").device)
        (Validate.run Lower.sampleTree ["--device", "low.json"]).stdout ∧
      (Lower.run Lower.sampleTree ⟨none, none, none⟩ (Lower.sampleWords "low.json")).2.stdout =
        (Validate.run Lower.sampleTree ["--device", "low.json"]).stdout := by
  have hdevice : Validate.device? ["--device", "low.json"] =
      some (Lower.sampleOptions "low.json").device := rfl
  have htools : Lower.ToolsLoad Lower.sampleTree ⟨none, none, none⟩ (Lower.sampleWords "low.json")
      (Lower.sampleOptions "low.json") := by
    refine ⟨⟨_, Lower.sampleTree_low_started⟩, ⟨_, Lower.sampleTree_tools⟩, fun p hp => ?_⟩
    obtain rfl : Path.ofString "script" = p := Option.some.inj hp
    exact ⟨_, Lower.sampleTree_template⟩
  obtain ⟨_, hone, hlines, _⟩ := validate_agrees_with_lower hdevice htools
  have hlowered : (Lower.run Lower.sampleTree ⟨none, none, none⟩
      (Lower.sampleWords "low.json")).2.ending = .returned 1 :=
    Lower.returned_one_iff.2
      ⟨_, _, Lower.sampleTree_loads Lower.sampleTree_low_started Lower.sampleTree_low,
        Lower.sampleTree_low_issues⟩
  exact ⟨htools, hone.2 hlowered, hlines (hone.2 hlowered)⟩

end EmulatedDevice.CommandLine
