import EmulatedDevice.Proofs.BegunPairs
import EmulatedDevice.Proofs.DeviceNames
import EmulatedDevice.Proofs.Invocations
import EmulatedDevice.Proofs.DeviceDocuments

/-!
# What a lowering run comes to

A run ends at the first of its stages that does not go through, and every stage
leaves its own mark on the ending. `Outcome` has one case for each, with what is
known when the run gets there; `run_outcome` says that there are no others. All that
is said about exit codes and about the tree is read off its cases, forwards by going
through them and backwards because a run has only one.

Two faults that the program has words for are not among the cases. A device that is
in order has an image to split, and a script that was made can be expanded: the
check is done when the script is made, over the very bindings that are stored in it.

One ending is nobody's intention. Where a text that is to be written holds half of a
surrogate pair, the pair of files is begun and left as it is.
-/

namespace EmulatedDevice

/-! ## Contracts -/

namespace TargetRequest

variable {r : TargetRequest}

/-- What the tool bundles and the template of a request have to offer. -/
structure MeetsContracts (r : TargetRequest) : Prop where
  runtest : r.runtestCount = 1
  shbase : r.shbaseCount = 1
  template : Template.MeetsEachOnce r.template

/-- The first contract that is broken is the fault of the toolchain or of the template. -/
theorem assemble_of_not_meetsContracts (h : r.InOrder) (hbroken : ¬ r.MeetsContracts) :
    (∃ fault, r.assemble = .error (.toolchain fault)) ∨
      ∃ fault, r.assemble = .error (.template fault) := by
  by_cases hruntest : r.runtestCount = 1
  · by_cases hshbase : r.shbaseCount = 1
    · have htemplate : ¬ Template.MeetsEachOnce r.template := fun htemplate =>
        hbroken ⟨hruntest, hshbase, htemplate⟩
      exact .inr ⟨_, assemble_of_not_meetsEachOnce h hruntest hshbase htemplate⟩
    · exact .inl ⟨_, assemble_of_dependencies_error (dependencies_shbase h hruntest hshbase)⟩
  · exact .inl ⟨_, assemble_of_dependencies_error (dependencies_runtest h hruntest)⟩

theorem MeetsContracts.assemble_of_not_writable (hmeets : r.MeetsContracts) (h : r.InOrder)
    (hwritable : ¬ r.spec.IsWritable) : r.assemble = .error .tooManyDigits :=
  TargetRequest.assemble_of_not_writable h hmeets.runtest hmeets.shbase hmeets.template hwritable

/-- There is a target just when the device is in order, all contracts are kept and all numbers can
be written. -/
theorem exists_assemble_iff :
    (∃ target, r.assemble = .ok target) ↔
      r.InOrder ∧ r.MeetsContracts ∧ r.spec.IsWritable := by
  constructor
  · rintro ⟨target, h⟩
    have horder : r.InOrder := by
      by_contra hno
      cases h.symm.trans (assemble_of_dependencies_error (dependencies_of_not_inOrder hno))
    have hmeets : r.MeetsContracts := by
      by_contra hbroken
      rcases assemble_of_not_meetsContracts horder hbroken with ⟨_, hfault⟩ | ⟨_, hfault⟩
      · cases h.symm.trans hfault
      · cases h.symm.trans hfault
    refine ⟨horder, hmeets, ?_⟩
    by_contra hwritable
    cases h.symm.trans (hmeets.assemble_of_not_writable horder hwritable)
  · rintro ⟨horder, hmeets, hwritable⟩
    exact assemble_ok horder hmeets.runtest hmeets.shbase hmeets.template hwritable

/-! ## The label of the image -/

end TargetRequest

namespace FileTree

/-! ## Pairs in their place -/

/-- The script and the descriptor of a target stand in a directory under a name that an entry of a
directory can have: as whole files, and the script is one that can be executed. -/
structure InPlace (t : FileTree) (target : Target) (text : String) (directory : Path)
    (name : String) : Prop where
  named : Path.IsEntryName name
  script : t.find (scriptPath directory name) =
    .ok (.file (Text.encodeUtf8 text.toList) 0o755)
  descriptor : t.find (descriptorPath directory name) =
    .ok (.file (Text.encodeUtf8 target.descriptorText.toList) 0o644)

section Publishing

variable {t after : FileTree} {r : TargetRequest} {target : Target} {text : String}
  {directory : Path} {name : String}

theorem inPlace_of_publish (h : r.assemble = .ok target) (htext : target.script.expand = .ok text)
    (hname : Schema.isName name = true)
    (hpublish : t.publish target directory name = (after, .ok ())) :
    after.InPlace target text directory name := by
  obtain ⟨hexecutable, _⟩ := TargetRequest.expand_of_assemble h
  obtain ⟨written, hwritten, hpair⟩ := writePair_of_publish htext hpublish
  rw [hexecutable] at hpair
  cases written with
  | error fault => cases hwritten
  | ok _ =>
      obtain ⟨hscript, hdescriptor, _⟩ := published_of_writePair hpair
      exact ⟨isEntryName_of_writePair hname hpair, hscript, hdescriptor⟩

/-- A target that was assembled has a script to expand, so only the tree is in the way. -/
theorem publish_error {fault : PublicationFault} (h : r.assemble = .ok target)
    (hpublish : t.publish target directory name = (after, .error fault)) :
    ∃ f mode script descriptor, fault = .file f ∧
      t.writePair directory name mode script descriptor = (after, .error f) := by
  obtain ⟨_, text, htext⟩ := TargetRequest.expand_of_assemble h
  obtain ⟨written, hwritten, hpair⟩ := writePair_of_publish htext hpublish
  cases written with
  | ok _ => cases hwritten
  | error f => exact ⟨f, _, _, _, Except.error.inj hwritten, hpair⟩

end Publishing

/-! ## What loading depends on -/

variable {t t' : FileTree} {p : Path}

theorem readText_congr (h : t'.find p = t.find p) : t'.readText p = t.readText p := by
  unfold readText read
  rw [h]

section Signs

variable (signs : Text.HalfSigns)

theorem loadDocument_congr (h : t'.find p = t.find p) : t'.loadDocument p = t.loadDocument p := by
  unfold loadDocument exists?
  rw [h, readText_congr h]

theorem loadDeclaration_congr (h : t'.find p = t.find p) :
    t'.loadDeclaration p = t.loadDeclaration p := by
  rw [loadDeclaration, loadDeclaration, loadDocument_congr signs h]

theorem loadToolchain_congr (h : t'.find p = t.find p) :
    t'.loadToolchain p = t.loadToolchain p := by
  rw [loadToolchain, loadToolchain, loadDocument_congr signs h]

end Signs

theorem loadTemplate_congr (h : t'.find p = t.find p) : t'.loadTemplate p = t.loadTemplate p := by
  rw [loadTemplate, loadTemplate, readText_congr h]

end FileTree

namespace CommandLine.Lower

variable {t : FileTree} {environment : Environment} {words : List String} {options : Options}
  {threshold : Nat} {inputs : Inputs}

/-! ## One stage at a time -/

theorem lower_of_not_inOrder (h : ¬ (request options inputs).InOrder) :
    ∃ log, lower t options threshold inputs =
      (t, ⟨.returned 1, issueLines (request options inputs).issues, log⟩) := by
  have hassemble := TargetRequest.assemble_of_dependencies_error
    (TargetRequest.dependencies_of_not_inOrder h)
  simp only [lower, hassemble]
  exact ⟨_, rfl⟩

theorem lower_of_not_meetsContracts (h : (request options inputs).InOrder)
    (hbroken : ¬ (request options inputs).MeetsContracts) :
    ∃ log, lower t options threshold inputs = (t, ⟨.returned 2, "", log⟩) := by
  rcases TargetRequest.assemble_of_not_meetsContracts h hbroken with
    ⟨fault, hfault⟩ | ⟨fault, hfault⟩
  · simp only [lower, hfault]
    exact ⟨_, rfl⟩
  · simp only [lower, hfault]
    exact ⟨_, rfl⟩

theorem lower_of_not_writable (h : (request options inputs).InOrder)
    (hmeets : (request options inputs).MeetsContracts)
    (hwritable : ¬ inputs.declaration.spec.IsWritable) :
    ∃ log, lower t options threshold inputs = (t, ⟨.escaped .tooManyDigits, "", log⟩) := by
  simp only [lower, hmeets.assemble_of_not_writable h hwritable]
  exact ⟨_, rfl⟩

section Publishing

variable {target : Target} {after : FileTree}

theorem lower_of_published (h : (request options inputs).assemble = .ok target)
    (hfree : isHalfFree t options inputs = true)
    (hpublish : t.publish target options.output inputs.declaration.name = (after, .ok ())) :
    ∃ log, lower t options threshold inputs =
      (after, ⟨.returned 0, summary options target.label inputs.declaration.name, log⟩) := by
  simp only [lower, h, hfree, if_true, hpublish]
  exact ⟨_, rfl⟩

theorem lower_of_not_published {fault : PublicationFault}
    (h : (request options inputs).assemble = .ok target)
    (hfree : isHalfFree t options inputs = true)
    (hpublish : t.publish target options.output inputs.declaration.name = (after, .error fault)) :
    ∃ log, lower t options threshold inputs =
      (after, ⟨.escaped (.publication fault), "", log⟩) := by
  simp only [lower, h, hfree, if_true, hpublish]
  exact ⟨_, rfl⟩

/-- The ending of a run that begins a pair, by how this goes. -/
def begunEnding : Except FileFault Unit → Ending
  | .error fault => .escaped (.publication (.file fault))
  | .ok () => .escaped .unencodable

/-- With halves of surrogate pairs in what gets into files a run begins the pair and no more: it
writes nothing of it, or the script. -/
theorem lower_of_not_halfFree {text : String} (h : (request options inputs).assemble = .ok target)
    (htext : target.script.expand = .ok text) (hfree : isHalfFree t options inputs = false) :
    ∃ script? log, (script? = none ∨ script? = some (Text.encodeUtf8 text.toList)) ∧
      let written := t.writePartly options.output inputs.declaration.name 0o755 script?
      lower t options threshold inputs = (written.1, ⟨begunEnding written.2, "", log⟩) := by
  let inScript : Bool := target.script ≠
    ((request options (otherInputs t options inputs)).assemble.toOption.getD target).script
  let script? := if inScript then none else some (Text.encodeUtf8 text.toList)
  have hpartly : t.publishPartly target options.output inputs.declaration.name inScript = _ :=
    FileTree.writePartly_of_publishPartly h htext t options.output inputs.declaration.name inScript
  refine ⟨script?, writtenLog threshold ((request options inputs).records ++ []), ?_, ?_⟩
  · exact ite_eq_or_eq ..
  · simp only [lower, h, hfree, Bool.false_eq_true, if_false]
    rw [hpartly]
    cases (t.writePartly options.output inputs.declaration.name 0o755 script?).2 <;> rfl

end Publishing

/-! ## Loaded inputs -/

/-- A run gets as far as having its inputs. -/
def Loads (t : FileTree) (environment : Environment) (words : List String) (options : Options)
    (inputs : Inputs) : Prop :=
  ∃ threshold, started? environment words = some (options, threshold) ∧
    loadInputs t options = .ok inputs

theorem Loads.unique {options' : Options} {inputs' : Inputs}
    (h : Loads t environment words options inputs)
    (h' : Loads t environment words options' inputs') : options' = options ∧ inputs' = inputs := by
  obtain ⟨threshold, hstarted, hload⟩ := h
  obtain ⟨threshold', hstarted', hload'⟩ := h'
  cases hstarted.symm.trans hstarted'
  cases hload.symm.trans hload'
  exact ⟨rfl, rfl⟩

/-- What was loaded was loaded from the paths that were given. -/
theorem exists_of_loadInputs (h : loadInputs t options = .ok inputs) :
    t.loadDeclaration options.device = .ok inputs.declaration ∧
      t.loadToolchain options.toolchain = .ok inputs.tools := by
  obtain ⟨declaration, hdeclaration, h⟩ := exists_of_bind_eq_ok h
  obtain ⟨tools, htools, h⟩ := exists_of_bind_eq_ok h
  -- a template is loaded only if one is named, and neither way changes the other two
  cases htemplate : options.template with
  | none =>
      rw [htemplate] at h
      cases h
      exact ⟨hdeclaration, htools⟩
  | some path =>
      rw [htemplate] at h
      obtain ⟨template, _, h⟩ := exists_of_bind_eq_ok h
      cases h
      exact ⟨hdeclaration, htools⟩

/-- Inputs are had when each of the three files can be loaded. -/
theorem loadInputs_of_parts [Text.HalfSigns] {path : Path}
    (hdeclaration : t.loadDeclaration options.device = .ok inputs.declaration)
    (htools : t.loadToolchain options.toolchain = .ok inputs.tools)
    (hpath : options.template = some path)
    (htemplate : t.loadTemplate path = .ok inputs.template) :
    loadInputs t options = .ok inputs := by
  rw [loadInputs, hdeclaration, htools, hpath]
  simp only [htemplate]
  rfl

/-- There are no halves of surrogate pairs where other signs for them make no difference. -/
theorem isHalfFree_of_loadInputs (h : @loadInputs Text.otherSigns t options = .ok inputs) :
    isHalfFree t options inputs = true := by
  rw [isHalfFree, otherInputs, h]
  exact decide_eq_true rfl

theorem isName_of_loadInputs (h : loadInputs t options = .ok inputs) :
    Schema.isName inputs.declaration.name = true := by
  obtain ⟨document, _, hparse⟩ := exists_of_bind_eq_ok (exists_of_loadInputs h).1
  exact Declaration.isName_of_parse (eq_ok_of_mapError hparse)

/-! ## Whole runs -/

/-- How a run can end, with what is known when it does. -/
inductive Outcome (t : FileTree) (environment : Environment) (words : List String) :
    FileTree × Run → Prop where
  | notStarted {run : Run} (h : started? environment words = none)
      (hends : EndsUnstarted run.ending) : Outcome t environment words (t, run)
  | notLoaded {options : Options} {threshold : Nat} {fault : LoadFault}
      (h : started? environment words = some (options, threshold))
      (hload : loadInputs t options = .error fault) :
      Outcome t environment words (t, .ofLoadFault "Unable to load inputs:\n" fault)
  | misconfigured {options : Options} {inputs : Inputs} {log : String}
      (h : Loads t environment words options inputs)
      (hissues : (request options inputs).issues ≠ []) :
      Outcome t environment words
        (t, ⟨.returned 1, issueLines (request options inputs).issues, log⟩)
  | contractBroken {options : Options} {inputs : Inputs} {log : String}
      (h : Loads t environment words options inputs)
      (hissues : (request options inputs).issues = [])
      (hbroken : ¬ (request options inputs).MeetsContracts) :
      Outcome t environment words (t, ⟨.returned 2, "", log⟩)
  | unwritable {options : Options} {inputs : Inputs} {log : String}
      (h : Loads t environment words options inputs)
      (hissues : (request options inputs).issues = [])
      (hmeets : (request options inputs).MeetsContracts)
      (hwritable : ¬ inputs.declaration.spec.IsWritable) :
      Outcome t environment words (t, ⟨.escaped .tooManyDigits, "", log⟩)
  | refused {options : Options} {inputs : Inputs} {target : Target} {after : FileTree}
      {fault : FileFault} {log : String} (h : Loads t environment words options inputs)
      (hassemble : (request options inputs).assemble = .ok target)
      (hfree : isHalfFree t options inputs = true)
      (hpublish : t.publish target options.output inputs.declaration.name =
        (after, .error (.file fault))) :
      Outcome t environment words (after, ⟨.escaped (.publication (.file fault)), "", log⟩)
  | published {options : Options} {inputs : Inputs} {target : Target} {after : FileTree}
      {log : String} (h : Loads t environment words options inputs)
      (hassemble : (request options inputs).assemble = .ok target)
      (hfree : isHalfFree t options inputs = true)
      (hpublish : t.publish target options.output inputs.declaration.name = (after, .ok ())) :
      Outcome t environment words
        (after, ⟨.returned 0, summary options target.label inputs.declaration.name, log⟩)
  | notBegun {options : Options} {inputs : Inputs} {target : Target} {after : FileTree}
      {script? : Option (List UInt8)} {fault : FileFault} {log : String}
      (h : Loads t environment words options inputs)
      (hassemble : (request options inputs).assemble = .ok target)
      (hfree : isHalfFree t options inputs = false)
      (hwrite : t.writePartly options.output inputs.declaration.name 0o755 script? =
        (after, .error fault)) :
      Outcome t environment words (after, ⟨.escaped (.publication (.file fault)), "", log⟩)
  | begun {options : Options} {inputs : Inputs} {target : Target} {text : String}
      {after : FileTree} {script? : Option (List UInt8)} {log : String}
      (h : Loads t environment words options inputs)
      (hassemble : (request options inputs).assemble = .ok target)
      (htext : target.script.expand = .ok text)
      (hfree : isHalfFree t options inputs = false)
      (hscript : script? = none ∨ script? = some (Text.encodeUtf8 text.toList))
      (hwrite : t.writePartly options.output inputs.declaration.name 0o755 script? =
        (after, .ok ())) :
      Outcome t environment words (after, ⟨.escaped .unencodable, "", log⟩)

/-- Once there is a target a run publishes it, or begins to if there are halves in it. -/
theorem lower_outcome_of_assemble {target : Target} (h : Loads t environment words options inputs)
    (hassemble : (request options inputs).assemble = .ok target) :
    Outcome t environment words (lower t options threshold inputs) := by
  cases hfree : isHalfFree t options inputs with
  | true =>
      rcases hpublish : t.publish target options.output inputs.declaration.name with
        ⟨after, fault | _⟩
      · obtain ⟨log, hlower⟩ : ∃ log, lower t options threshold inputs =
            (after, ⟨.escaped (.publication fault), "", log⟩) :=
          lower_of_not_published hassemble hfree hpublish
        obtain ⟨f, _, _, _, rfl, _⟩ := FileTree.publish_error hassemble hpublish
        rw [hlower]
        exact .refused h hassemble hfree hpublish
      · obtain ⟨log, hlower⟩ := lower_of_published hassemble hfree hpublish
        rw [hlower]
        exact .published h hassemble hfree hpublish
  | false =>
      obtain ⟨_, text, htext⟩ := TargetRequest.expand_of_assemble hassemble
      obtain ⟨script?, log, hscript, hlower⟩ := lower_of_not_halfFree hassemble htext hfree
      rcases hwrite : t.writePartly options.output inputs.declaration.name 0o755 script? with
        ⟨after, fault | _⟩
      · rw [hlower, hwrite]
        exact .notBegun h hassemble hfree hwrite
      · rw [hlower, hwrite]
        exact .begun h hassemble htext hfree hscript hwrite

/-- Once its inputs are loaded a run reports the device, or the tools, or it is stopped by a number
that is too long, or it goes on to publish. -/
theorem lower_outcome (h : Loads t environment words options inputs) :
    Outcome t environment words (lower t options threshold inputs) := by
  by_cases horder : (request options inputs).InOrder
  · have hissues := TargetRequest.issues_eq_nil.2 horder
    by_cases hmeets : (request options inputs).MeetsContracts
    · by_cases hwritable : inputs.declaration.spec.IsWritable
      · obtain ⟨target, hassemble⟩ :=
          TargetRequest.exists_assemble_iff.2 ⟨horder, hmeets, hwritable⟩
        exact lower_outcome_of_assemble h hassemble
      · obtain ⟨log, hlower⟩ := lower_of_not_writable horder hmeets hwritable
        rw [hlower]
        exact .unwritable h hissues hmeets hwritable
    · obtain ⟨log, hlower⟩ := lower_of_not_meetsContracts horder hmeets
      rw [hlower]
      exact .contractBroken h hissues hmeets
  · obtain ⟨log, hlower⟩ := lower_of_not_inOrder horder
    rw [hlower]
    exact .misconfigured h fun hnil => horder (TargetRequest.issues_eq_nil.1 hnil)

theorem run_outcome (t : FileTree) (environment : Environment) (words : List String) :
    Outcome t environment words (run t environment words) := by
  cases hstarted : started? environment words with
  | none =>
      obtain ⟨htree, hends⟩ := run_of_not_started (t := t) hstarted
      have heq : run t environment words = (t, (run t environment words).2) :=
        Prod.ext htree rfl
      rw [heq]
      exact .notStarted hstarted hends
  | some start =>
      obtain ⟨options, threshold⟩ := start
      cases hload : loadInputs t options with
      | error fault =>
          rw [run_of_not_loaded hstarted hload]
          exact .notLoaded hstarted hload
      | ok inputs =>
          rw [run_of_loaded hstarted hload]
          exact lower_outcome ⟨threshold, hstarted, hload⟩

/-! ## Endings -/

/-- A pair that was published is in its place, under the name of the device. -/
theorem inPlace_of_loads {target : Target} {text : String} {after : FileTree}
    (h : Loads t environment words options inputs)
    (hassemble : (request options inputs).assemble = .ok target)
    (htext : target.script.expand = .ok text)
    (hpublish : t.publish target options.output inputs.declaration.name = (after, .ok ())) :
    after.InPlace target text options.output inputs.declaration.name := by
  obtain ⟨_, _, hload⟩ := h
  exact FileTree.inPlace_of_publish hassemble htext (isName_of_loadInputs hload) hpublish

/-- Inputs that cannot be loaded are reported, or the fault ends the run as itself. -/
theorem ending_ofLoadFault (introduction : String) (fault : LoadFault) :
    (Run.ofLoadFault introduction fault).ending = .refusedInputs ∨
      (Run.ofLoadFault introduction fault).ending = .escaped (.load fault) := by
  unfold Run.ofLoadFault
  split
  · exact .inl rfl
  · exact .inr rfl

theorem ofLoadFault_ne_returned {introduction : String} {fault : LoadFault} (code : Nat) :
    (Run.ofLoadFault introduction fault).ending ≠ .returned code := by
  rcases ending_ofLoadFault introduction fault with hending | hending <;> rw [hending] <;> nofun

theorem Loads.started (h : Loads t environment words options inputs) :
    ∃ threshold, started? environment words = some (options, threshold) ∧
      run t environment words = lower t options threshold inputs := by
  obtain ⟨threshold, hstarted, hload⟩ := h
  exact ⟨threshold, hstarted, run_of_loaded hstarted hload⟩

/-- Once the pair is in its place the run ends well. -/
theorem Loads.run_of_published {target : Target} {after : FileTree}
    (h : Loads t environment words options inputs)
    (hassemble : (request options inputs).assemble = .ok target)
    (hfree : isHalfFree t options inputs = true)
    (hpublish : t.publish target options.output inputs.declaration.name = (after, .ok ())) :
    (run t environment words).1 = after ∧
      (run t environment words).2.ending = .returned 0 := by
  obtain ⟨threshold, _, hrun⟩ := h.started
  obtain ⟨log, hlower⟩ := lower_of_published hassemble hfree hpublish
  rw [hrun, hlower]
  exact ⟨rfl, rfl⟩

/-- A run that comes to an exit code has had its inputs, and the code says what became of them. -/
theorem exists_of_returned {code : Nat}
    (hending : (run t environment words).2.ending = .returned code) :
    ∃ options inputs, Loads t environment words options inputs ∧
      ((code = 1 ∧ (request options inputs).issues ≠ []) ∨
        (code = 2 ∧ (request options inputs).issues = [] ∧
          ¬ (request options inputs).MeetsContracts) ∨
        (code = 0 ∧ isHalfFree t options inputs = true ∧
          ∃ target, (request options inputs).assemble = .ok target ∧
            t.publish target options.output inputs.declaration.name =
              ((run t environment words).1, .ok ()))) := by
  have houtcome := run_outcome t environment words
  generalize run t environment words = result at hending houtcome
  cases houtcome with
  | notStarted _ hends =>
      rw [hending] at hends
      cases hends
  | notLoaded _ _ => exact absurd hending (ofLoadFault_ne_returned code)
  | misconfigured h hissues =>
      cases hending
      exact ⟨_, _, h, .inl ⟨rfl, hissues⟩⟩
  | contractBroken h hissues hbroken =>
      cases hending
      exact ⟨_, _, h, .inr (.inl ⟨rfl, hissues, hbroken⟩)⟩
  | unwritable | refused | notBegun | begun => cases hending
  | published h hassemble hfree hpublish =>
      cases hending
      exact ⟨_, _, h, .inr (.inr ⟨rfl, hfree, _, hassemble, hpublish⟩)⟩

/-- A run that ended well had no halves of surrogate pairs to write. -/
theorem Loads.isHalfFree_of_returned (h : Loads t environment words options inputs)
    (hending : (run t environment words).2.ending = .returned 0) :
    isHalfFree t options inputs = true := by
  obtain ⟨_, _, h', ⟨hcode, _⟩ | ⟨hcode, _⟩ | ⟨_, hfree, _⟩⟩ := exists_of_returned hending
  · cases hcode
  · cases hcode
  · obtain ⟨rfl, rfl⟩ := h.unique h'
    exact hfree

theorem returned_one_iff :
    (run t environment words).2.ending = .returned 1 ↔
      ∃ options inputs, Loads t environment words options inputs ∧
        (request options inputs).issues ≠ [] := by
  constructor
  · intro hending
    obtain ⟨options, inputs, h, ⟨_, hissues⟩ | ⟨hcode, _⟩ | ⟨hcode, _⟩⟩ :=
      exists_of_returned hending
    · exact ⟨options, inputs, h, hissues⟩
    · cases hcode
    · cases hcode
  · rintro ⟨options, inputs, h, hissues⟩
    obtain ⟨threshold, _, hrun⟩ := h.started
    have horder : ¬ (request options inputs).InOrder := fun horder =>
      hissues (TargetRequest.issues_eq_nil.2 horder)
    obtain ⟨log, hlower⟩ := lower_of_not_inOrder horder
    rw [hrun, hlower]

/-- A run is stopped by a number that is too long just when the device, the tools and the template
are in order and the device has such a number. -/
theorem tooManyDigits_iff :
    (run t environment words).2.ending = .escaped .tooManyDigits ↔
      ∃ options inputs, Loads t environment words options inputs ∧
        (request options inputs).InOrder ∧ (request options inputs).MeetsContracts ∧
        ¬ inputs.declaration.spec.IsWritable := by
  constructor
  · intro hending
    have houtcome := run_outcome t environment words
    generalize run t environment words = result at hending houtcome
    cases houtcome with
    | notStarted _ hends =>
        rw [hending] at hends
        cases hends
    | @notLoaded _ _ fault _ _ =>
        rcases ending_ofLoadFault "Unable to load inputs:\n" fault with hload | hload
        · cases hload.symm.trans hending
        · cases hload.symm.trans hending
    | misconfigured | contractBroken | refused | published | notBegun | begun => cases hending
    | unwritable h hissues hmeets hwritable =>
        exact ⟨_, _, h, TargetRequest.issues_eq_nil.1 hissues, hmeets, hwritable⟩
  · rintro ⟨options, inputs, h, horder, hmeets, hwritable⟩
    obtain ⟨threshold, _, hrun⟩ := h.started
    obtain ⟨log, hlower⟩ := lower_of_not_writable horder hmeets hwritable
    rw [hrun, hlower]

section NulFree

variable (houtput : ∀ options threshold,
  started? environment words = some (options, threshold) → options.output.NulFree)
include houtput

end NulFree

/-- A file of some texts, one after the other. -/
def sampleFile (texts : List String) : FileNode :=
  .file (Text.encodeUtf8 (texts.flatMap String.toList)) 0o644

/-- The declaration of a phone with some memory. -/
def sampleDevice (ram : String) : FileNode :=
  sampleFile
    [ "\x7b\"name\":\"phone\",", "\"horizontal_resolution\"", ":320,", "\"vertical_resolution\""
    , ":240,", "\"ram\":", ram, ",\"screen_density\"", ":160,", "\"cache\":32,"
    , "\"vm_heap\":16,", "\"system_image\":", "\x7b\"label\":\"i\",", "\"files\":["
    , "\"source.properties\"", "]\x7d\x7d" ]

/-- A tree with a phone, a phone that has too little memory, a toolchain, and a template of nothing
but the tokens. -/
def sampleTree : FileTree where
  nodes :=
    [ (["work"], .directory)
    , (["phone.json", "work"], sampleDevice "512")
    , (["low.json", "work"], sampleDevice "32")
    , (["tools.json", "work"], sampleFile
        [ "\x7b\"adb\":\"a\",", "\"adb_static\":\"a\",", "\"emulator_arm\":\"e\","
        , "\"emulator_x86\":\"e\",", "\"emulator_x86_bios\"", ":[],", "\"mksdcard\":\"m\","
        , "\"empty_snapshot_fs\"", ":\"s\",", "\"unified_launcher\":", "\x7b\"executable\":\"l\"\x7d,"
        , "\"android_runtest\":", "[\"r\"],", "\"testing_shbase\":", "[\"googletest.sh\"],"
        , "\"sdk_path\":\"k\"\x7d" ])
    , (["script", "work"], sampleFile (Placeholder.all.map Placeholder.token)) ]
  workingDirectory := ["work"]

def sampleDeclaration (ram : Int) : Declaration where
  name := "phone"
  spec := ⟨320, 240, ram, 160, 32, 16⟩
  systemImage := ⟨"i", [.source "source.properties"]⟩
  defaultProperties := none
  apks := []
  tags := []
  executionInfo := []

def sampleTools : ToolSet where
  adb := .source "a"
  adbStatic := .source "a"
  emulatorArm := .source "e"
  emulatorX86 := .source "e"
  biosFiles := []
  xvfbSupport := []
  mksdcard := .source "m"
  emptySnapshot := .source "s"
  launcher := ⟨.source "l", []⟩
  runtestFiles := [.source "r"]
  shbaseFiles := [.source "googletest.sh"]
  sdkPath := .source "k"

def sampleTemplate : String :=
  .ofList (Placeholder.all.flatMap fun p => p.token.toList)

/-- The values of the flags of a run over the tree. -/
def sampleValues (device : String) : List (String × String) :=
  [("--device", device), ("--toolchain", "tools.json"), ("--output", "out"), ("--template", "script")]

def sampleWords (device : String) : List String :=
  ["--device", device, "--toolchain", "tools.json", "--output", "out", "--template", "script"]

def sampleOptions (device : String) : Options :=
  .ofValues ⟨none, none, none⟩ (sampleValues device)

def sampleInputs (ram : Int) : Inputs :=
  ⟨sampleDeclaration ram, sampleTools, sampleTemplate⟩

theorem eq_ok_of_toOption {ε α : Type} {x : Except ε α} {a : α} (h : x.toOption = some a) :
    x = .ok a := by
  cases x with
  | error fault => cases h
  | ok b => exact congrArg _ (Option.some.inj h)

theorem sampleTree_tools : sampleTree.loadToolchain (.ofString "tools.json") = .ok sampleTools :=
  eq_ok_of_toOption (by decide +kernel)

theorem sampleTree_otherTools :
    @FileTree.loadToolchain Text.otherSigns sampleTree (.ofString "tools.json") =
      .ok sampleTools :=
  eq_ok_of_toOption (by decide +kernel)

theorem sampleTree_template :
    sampleTree.loadTemplate (.ofString "script") = .ok sampleTemplate :=
  eq_ok_of_toOption (by decide +kernel)

/-- A tree with the tools and the template of the sample. -/
structure HasSampleTools (t : FileTree) : Prop where
  tools : t.find (.ofString "tools.json") = sampleTree.find (.ofString "tools.json")
  template : t.find (.ofString "script") = sampleTree.find (.ofString "script")

section SampleTools

variable {device : String} {declaration : Declaration} (h : HasSampleTools t)
include h

theorem HasSampleTools.loadInputs (signs : Text.HalfSigns)
    (hdevice : t.loadDeclaration (.ofString device) = .ok declaration)
    (htools : sampleTree.loadToolchain (.ofString "tools.json") = .ok sampleTools) :
    loadInputs t (sampleOptions device) = .ok ⟨declaration, sampleTools, sampleTemplate⟩ := by
  refine loadInputs_of_parts hdevice ?_ rfl ?_
  · exact (FileTree.loadToolchain_congr signs h.tools).trans htools
  · exact (FileTree.loadTemplate_congr h.template).trans sampleTree_template

theorem HasSampleTools.loads
    (hstarted : started? ⟨none, none, none⟩ (sampleWords device) = some (sampleOptions device, 20))
    (hdevice : t.loadDeclaration (.ofString device) = .ok declaration) :
    Loads t ⟨none, none, none⟩ (sampleWords device) (sampleOptions device)
      ⟨declaration, sampleTools, sampleTemplate⟩ :=
  ⟨20, hstarted, h.loadInputs _ hdevice sampleTree_tools⟩

theorem HasSampleTools.isHalfFree
    (hdevice : @FileTree.loadDeclaration Text.otherSigns t (.ofString device) = .ok declaration) :
    isHalfFree t (sampleOptions device) ⟨declaration, sampleTools, sampleTemplate⟩ = true :=
  isHalfFree_of_loadInputs (h.loadInputs _ hdevice sampleTree_otherTools)

end SampleTools

theorem sampleTree_phone :
    sampleTree.loadDeclaration (.ofString "phone.json") = .ok (sampleDeclaration 512) :=
  eq_ok_of_toOption (by decide +kernel)

theorem sampleTree_otherPhone :
    @FileTree.loadDeclaration Text.otherSigns sampleTree (.ofString "phone.json") =
      .ok (sampleDeclaration 512) :=
  eq_ok_of_toOption (by decide +kernel)

theorem sampleTree_low :
    sampleTree.loadDeclaration (.ofString "low.json") = .ok (sampleDeclaration 32) :=
  eq_ok_of_toOption (by decide +kernel)

theorem sampleTree_loads {device : String} {ram : Int}
    (hstarted : started? ⟨none, none, none⟩ (sampleWords device) = some (sampleOptions device, 20))
    (hdeclaration : sampleTree.loadDeclaration (.ofString device) = .ok (sampleDeclaration ram)) :
    Loads sampleTree ⟨none, none, none⟩ (sampleWords device) (sampleOptions device)
      (sampleInputs ram) :=
  HasSampleTools.loads ⟨rfl, rfl⟩ hstarted hdeclaration

theorem sampleTree_low_started : started? ⟨none, none, none⟩ (sampleWords "low.json") =
    some (sampleOptions "low.json", 20) := rfl

theorem sampleTree_phone_started : started? ⟨none, none, none⟩ (sampleWords "phone.json") =
    some (sampleOptions "phone.json", 20) := rfl

theorem sampleTree_low_issues : configurationIssues (sampleDeclaration 32).spec
    (sampleDeclaration 32).systemImage ≠ [] := by
  decide

theorem sampleTree_phone_assembles :
    ∃ target, (request (sampleOptions "phone.json") (sampleInputs 512)).assemble = .ok target := by
  have horder : (request (sampleOptions "phone.json") (sampleInputs 512)).InOrder :=
    TargetRequest.issues_eq_nil.1 (by decide)
  exact TargetRequest.exists_assemble_iff.2 ⟨horder,
    ⟨by decide +kernel, by decide +kernel, Template.meetsEachOnce_tokens⟩, by decide +kernel⟩

theorem sampleTree_phone_halfFree :
    isHalfFree sampleTree (sampleOptions "phone.json") (sampleInputs 512) = true :=
  HasSampleTools.isHalfFree ⟨rfl, rfl⟩ sampleTree_otherPhone

theorem sampleTree_phone_published :
    (run sampleTree ⟨none, none, none⟩ (sampleWords "phone.json")).2.ending = .returned 0 := by
  obtain ⟨target, hassemble⟩ := sampleTree_phone_assembles
  obtain ⟨_, text, htext⟩ := TargetRequest.expand_of_assemble hassemble
  have hpublish : sampleTree.publish target (.ofString "out") "phone" =
      ((sampleTree.publish target (.ofString "out") "phone").1, .ok ()) := by
    rw [FileTree.publish, htext]
    rfl
  exact ((sampleTree_loads sampleTree_phone_started sampleTree_phone).run_of_published hassemble
    sampleTree_phone_halfFree hpublish).2

end CommandLine.Lower

end EmulatedDevice
