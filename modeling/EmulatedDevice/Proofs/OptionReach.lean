import EmulatedDevice.Proofs.AlikeTrees
import EmulatedDevice.Proofs.LowerRuns

/-!
# How far an option reaches

Two runs are compared that start from the same tree and agree in all flags but one.
The root of generated files shows in exec paths, and the script has none of those;
the workspace and the template show in the script alone. So one of the two files a
run writes is the same in both runs. What a run is refused for comes before anything
is written, and does not depend on the root or on the workspace either; and how the
writing itself ends is not a matter of the texts that are written.

A device that is declared otherwise reaches the script through its name and its
system image only. Its hardware, its default properties, its APKs and its tags are
what it is booted with, and the script starts what was booted.
-/

namespace EmulatedDevice

/-! ## Targets of two requests -/

namespace TargetRequest

variable {r r' : TargetRequest} {target target' : Target}

/-- The script of a target is its template with the values of its placeholders. -/
theorem expand_eq_of_assemble (h : r.assemble = .ok target) :
    ∃ deps, r.dependencies = .ok deps ∧ target.script.expand =
      Template.expand r.template (StubScript.bindingsFor r.workspace deps r.outputs) := by
  obtain ⟨deps, script, hdeps, hscript, rfl⟩ := exists_of_assemble h
  refine ⟨deps, hdeps, ?_⟩
  unfold StubScript.create at hscript
  cases hcheck : Template.check r.template
      (StubScript.bindingsFor r.workspace deps r.outputs) with
  | error fault =>
      simp only [hcheck] at hscript
      cases hscript
  | ok _ =>
      simp only [hcheck] at hscript
      cases hscript
      rfl

/-- The workspace, the template, the tools and the system image make the script, together with the
runfiles paths of the image and the metadata. -/
theorem expand_eq_expand (h : r.assemble = .ok target) (h' : r'.assemble = .ok target')
    (hworkspace : r'.workspace = r.workspace) (htemplate : r'.template = r.template)
    (htools : r'.tools = r.tools) (hsystem : r'.systemImage = r.systemImage)
    (himages : r'.outputs.images.runfiles = r.outputs.images.runfiles)
    (hmetadata : r'.outputs.metadata.runfiles = r.outputs.metadata.runfiles) :
    target'.script.expand = target.script.expand := by
  obtain ⟨deps, hdeps, hexpand⟩ := expand_eq_of_assemble h
  obtain ⟨deps', hdeps', hexpand'⟩ := expand_eq_of_assemble h'
  obtain ⟨image, himage, hruntest, hshbase, hparts⟩ := exists_of_dependencies hdeps
  obtain ⟨image', himage', hruntest', hshbase', hparts'⟩ := exists_of_dependencies hdeps'
  rw [hsystem] at himage'
  rw [htools] at hruntest' hshbase' hparts'
  obtain rfl := Option.some.inj (himage'.symm.trans himage)
  have hruntest := Except.ok.inj (hruntest'.symm.trans hruntest)
  have hshbase := Except.ok.inj (hshbase'.symm.trans hshbase)
  have hvalue : ∀ p, StubScript.value r'.workspace deps' r'.outputs p =
      StubScript.value r.workspace deps r.outputs p := by
    intro p
    rw [hparts, hparts', hworkspace]
    cases p <;> simp only [StubScript.value, hruntest, hshbase, himages, hmetadata]
  rw [hexpand', hexpand, htemplate, StubScript.bindingsFor, StubScript.bindingsFor]
  simp only [hvalue]

/-- Neither the workspace nor the template shows in the descriptor. -/
theorem descriptor_eq_descriptor (h : r.assemble = .ok target) (h' : r'.assemble = .ok target')
    (hsame : r' = { r with workspace := r'.workspace, template := r'.template }) :
    target'.descriptor = target.descriptor := by
  rw [hsame] at h'
  obtain ⟨deps, script, hdeps, _, rfl⟩ := exists_of_assemble h
  obtain ⟨deps', script', hdeps', _, rfl⟩ := exists_of_assemble h'
  obtain rfl : deps' = deps := Except.ok.inj (hdeps'.symm.trans hdeps)
  rfl

end TargetRequest

namespace FileTree

/-- Whether a pair is taken does not depend on what target it is for. -/
theorem publish_independent (t : FileTree) {r r' : TargetRequest} {target target' : Target}
    (h : r.assemble = .ok target) (h' : r'.assemble = .ok target') (directory : Path)
    (name : String) :
    (t.publish target' directory name).2 = (t.publish target directory name).2 := by
  obtain ⟨_, text, htext⟩ := TargetRequest.expand_of_assemble h
  obtain ⟨_, text', htext'⟩ := TargetRequest.expand_of_assemble h'
  rw [publish, publish, htext, htext']
  exact congrArg (Except.mapError PublicationFault.file) (t.writePair_independent ..)

end FileTree

namespace CommandLine.Lower

variable {t : FileTree} {environment : Environment} {words words' : List String}
  {options options' : Options} {inputs inputs' : Inputs}

/-! ## Two command lines -/

/-- Command lines that come to the same but for the values of one flag: both give values, both ask
for help, or neither can be read. -/
inductive AgreeBut (flag : String) (words words' : List String) : Prop
  | values {values values' : List (String × String)} (h : read flags words = .ok (.run values))
      (h' : read flags words' = .ok (.run values'))
      (hvalues : ∀ name, name ≠ flag → valueOf? name values' = valueOf? name values) :
      AgreeBut flag words words'
  | help (h : read flags words = .ok .help) (h' : read flags words' = .ok .help) :
      AgreeBut flag words words'
  | refused {fault fault' : UsageFault} (h : read flags words = .error fault)
      (h' : read flags words' = .error fault') : AgreeBut flag words words'

/-- Options that are the same but for the one that a flag gives. -/
structure Options.SameBut (flag : String) (options options' : Options) : Prop where
  device : flag ≠ "--device" → options'.device = options.device
  toolchain : flag ≠ "--toolchain" → options'.toolchain = options.toolchain
  output : flag ≠ "--output" → options'.output = options.output
  package : flag ≠ "--package" → options'.package = options.package
  workspace : flag ≠ "--workspace" → options'.workspace = options.workspace
  binRoot : flag ≠ "--bin_root" → options'.binRoot = options.binRoot
  template : flag ≠ "--template" → options'.template = options.template
  logLevel : flag ≠ "--log_level" → options'.logLevel = options.logLevel

theorem Options.sameBut_ofValues {flag : String} {values values' : List (String × String)}
    (h : ∀ name, name ≠ flag → valueOf? name values' = valueOf? name values) :
    SameBut flag (ofValues environment values) (ofValues environment values') := by
  constructor <;> intro hflag <;> simp only [ofValues, h _ hflag.symm]

/-- What two command lines that agree come to: options, or an ending without any. -/
theorem AgreeBut.run_cases {flag : String} (h : AgreeBut flag words words') :
    (∃ options options', Options.SameBut flag options options' ∧
        (∀ t, run t environment words = execute t options) ∧
        ∀ t, run t environment words' = execute t options') ∨
      ∀ t, (run t environment words').2.ending = (run t environment words).2.ending := by
  unfold Lower.run
  cases h with
  | values h h' hvalues =>
      rw [h, h']
      exact .inl ⟨_, _, Options.sameBut_ofValues hvalues, fun _ => rfl, fun _ => rfl⟩
  | help h h' =>
      rw [h, h']
      exact .inr fun _ => rfl
  | refused h h' =>
      rw [h, h']
      exact .inr fun _ => rfl

/-! ## Endings -/

theorem ending_of_not_inOrder {threshold : Nat} (h : ¬ (request options inputs).InOrder) :
    (lower t options threshold inputs).2.ending = .returned 1 := by
  obtain ⟨log, hlower⟩ : ∃ log, lower t options threshold inputs =
      (t, ⟨.returned 1, issueLines (request options inputs).issues, log⟩) := lower_of_not_inOrder h
  rw [hlower]

theorem ending_of_not_meetsContracts {threshold : Nat} (h : (request options inputs).InOrder)
    (hbroken : ¬ (request options inputs).MeetsContracts) :
    (lower t options threshold inputs).2.ending = .returned 2 := by
  obtain ⟨log, hlower⟩ : ∃ log, lower t options threshold inputs = (t, ⟨.returned 2, "", log⟩) :=
    lower_of_not_meetsContracts h hbroken
  rw [hlower]

theorem ending_of_not_writable {threshold : Nat} (h : (request options inputs).InOrder)
    (hmeets : (request options inputs).MeetsContracts)
    (hwritable : ¬ inputs.declaration.spec.IsWritable) :
    (lower t options threshold inputs).2.ending = .escaped .tooManyDigits := by
  obtain ⟨log, hlower⟩ : ∃ log, lower t options threshold inputs =
      (t, ⟨.escaped .tooManyDigits, "", log⟩) := lower_of_not_writable h hmeets hwritable
  rw [hlower]

/-- Whether there are halves of surrogate pairs is seen by loading. -/
theorem isHalfFree_congr {t' : FileTree}
    (h : @loadInputs Text.otherSigns t' options' = @loadInputs Text.otherSigns t options) :
    isHalfFree t' options' inputs = isHalfFree t options inputs := by
  rw [isHalfFree, isHalfFree, otherInputs, otherInputs, h]

/-- Two targets for one directory and one name are published with one ending. -/
theorem ending_lower_of_assemble {threshold : Nat} {target target' : Target}
    (hassemble : (request options inputs).assemble = .ok target)
    (hassemble' : (request options' inputs).assemble = .ok target')
    (houtput : options'.output = options.output)
    (hfree : isHalfFree t options' inputs = isHalfFree t options inputs) :
    (lower t options' threshold inputs).2.ending = (lower t options threshold inputs).2.ending := by
  cases hhalves : isHalfFree t options inputs with
  | true =>
      rw [hhalves] at hfree
      have hpublish := t.publish_independent hassemble hassemble' options.output
        inputs.declaration.name
      unfold lower
      simp only [hassemble, hassemble', houtput, hfree, hhalves, if_true]
      generalize t.publish target' options.output inputs.declaration.name = result' at hpublish ⊢
      generalize t.publish target options.output inputs.declaration.name = result at hpublish ⊢
      obtain ⟨after, _ | _⟩ := result <;> obtain ⟨after', _ | _⟩ := result' <;>
        cases hpublish <;> rfl
  | false =>
      rw [hhalves] at hfree
      obtain ⟨_, text, htext⟩ := TargetRequest.expand_of_assemble hassemble
      obtain ⟨_, text', htext'⟩ := TargetRequest.expand_of_assemble hassemble'
      obtain ⟨script?, log, _, hlower⟩ := lower_of_not_halfFree hassemble htext hhalves
      obtain ⟨script?', log', _, hlower'⟩ := lower_of_not_halfFree hassemble' htext' hfree
      rw [hlower, hlower', houtput]
      exact congrArg begunEnding (t.writePartly_independent ..)

/-- With the same inputs and the same directory a run ends the same way. -/
theorem ending_lower {threshold : Nat} (houtput : options'.output = options.output)
    (hfree : isHalfFree t options' inputs = isHalfFree t options inputs) :
    (lower t options' threshold inputs).2.ending = (lower t options threshold inputs).2.ending := by
  by_cases horder : (request options inputs).InOrder
  · by_cases hmeets : (request options inputs).MeetsContracts
    · have hmeets' : (request options' inputs).MeetsContracts :=
        ⟨hmeets.runtest, hmeets.shbase, hmeets.template⟩
      by_cases hwritable : inputs.declaration.spec.IsWritable
      · obtain ⟨target, hassemble⟩ :=
          TargetRequest.exists_assemble_iff.2 ⟨horder, hmeets, hwritable⟩
        obtain ⟨target', hassemble'⟩ : ∃ target, (request options' inputs).assemble = .ok target :=
          TargetRequest.exists_assemble_iff.2 ⟨horder, hmeets', hwritable⟩
        exact ending_lower_of_assemble hassemble hassemble' houtput hfree
      · have horder' : (request options' inputs).InOrder := horder
        rw [ending_of_not_writable horder hmeets hwritable,
          ending_of_not_writable horder' hmeets' hwritable]
    · have hbroken : ¬ (request options' inputs).MeetsContracts := fun hmeets' =>
        hmeets ⟨hmeets'.runtest, hmeets'.shbase, hmeets'.template⟩
      have horder' : (request options' inputs).InOrder := horder
      rw [ending_of_not_meetsContracts horder hmeets, ending_of_not_meetsContracts horder' hbroken]
  · have horder' : ¬ (request options' inputs).InOrder := horder
    rw [ending_of_not_inOrder horder, ending_of_not_inOrder horder']

theorem loadInputs_congr (signs : Text.HalfSigns) (hdevice : options'.device = options.device)
    (htoolchain : options'.toolchain = options.toolchain)
    (htemplate : options'.template = options.template) :
    @loadInputs signs t options' = @loadInputs signs t options := by
  rw [loadInputs, loadInputs, hdevice, htoolchain, htemplate]

/-- A run that loads the same files ends the same way. -/
theorem ending_execute
    (hload : ∀ signs : Text.HalfSigns, @loadInputs signs t options' = @loadInputs signs t options)
    (hlevel : options'.logLevel = options.logLevel) (houtput : options'.output = options.output) :
    (execute t options').2.ending = (execute t options).2.ending := by
  unfold execute
  rw [hload _, hlevel]
  cases threshold? options.logLevel with
  | none => rfl
  | some threshold =>
      cases loadInputs t options with
      | error fault => rfl
      | ok inputs => exact ending_lower houtput (isHalfFree_congr (hload _))

/-! ## What is written -/

/-- A run that ended well and has put two texts under the name of its device. -/
structure Writes (t : FileTree) (environment : Environment) (words : List String)
    (script descriptor : List UInt8) : Prop where
  ending : (run t environment words).2.ending = .returned 0
  files : ∃ options inputs, Loads t environment words options inputs ∧
    (run t environment words).1.find (scriptPath options.output inputs.declaration.name) =
      .ok (.file script 0o755) ∧
    (run t environment words).1.find (descriptorPath options.output inputs.declaration.name) =
      .ok (.file descriptor 0o644)

/-- What a run has put there is the script and the descriptor of its target. -/
theorem Loads.writes {target : Target} {text : String}
    (h : Loads t environment words options inputs)
    (hassemble : (request options inputs).assemble = .ok target)
    (htext : target.script.expand = .ok text)
    (hending : (run t environment words).2.ending = .returned 0) :
    Writes t environment words (Text.encodeUtf8 text.toList)
      (Text.encodeUtf8 target.descriptorText.toList) := by
  obtain ⟨_, _, h', ⟨hcode, _⟩ | ⟨hcode, _⟩ | ⟨_, _, target', hassemble', hpublish⟩⟩ :=
    exists_of_returned hending
  · cases hcode
  · cases hcode
  · obtain ⟨rfl, rfl⟩ := h.unique h'
    obtain rfl := Except.ok.inj (hassemble'.symm.trans hassemble)
    have hplace := inPlace_of_loads h hassemble htext hpublish
    exact ⟨hending, _, _, h, hplace.script, hplace.descriptor⟩

/-- A run that ended well has had its inputs and a target. -/
theorem exists_of_returned_zero (hending : (run t environment words).2.ending = .returned 0) :
    ∃ options inputs target text, Loads t environment words options inputs ∧
      (request options inputs).assemble = .ok target ∧ target.script.expand = .ok text := by
  obtain ⟨options, inputs, h, ⟨hcode, _⟩ | ⟨hcode, _⟩ | ⟨_, _, target, hassemble, _⟩⟩ :=
    exists_of_returned hending
  · cases hcode
  · cases hcode
  · obtain ⟨_, text, htext⟩ := TargetRequest.expand_of_assemble hassemble
    exact ⟨options, inputs, target, text, h, hassemble, htext⟩

/-- Two runs that ended well write one script, when their targets have one. -/
theorem same_script (hending : (run t environment words).2.ending = .returned 0)
    (hending' : (run t environment words').2.ending = .returned 0)
    (h : ∀ options inputs options' inputs' target target',
      Loads t environment words options inputs → Loads t environment words' options' inputs' →
      (request options inputs).assemble = .ok target →
      (request options' inputs').assemble = .ok target' →
      target'.script.expand = target.script.expand) :
    ∃ script descriptor descriptor', Writes t environment words script descriptor ∧
      Writes t environment words' script descriptor' := by
  obtain ⟨_, _, target, text, hloads, hassemble, htext⟩ := exists_of_returned_zero hending
  obtain ⟨_, _, target', text', hloads', hassemble', htext'⟩ := exists_of_returned_zero hending'
  have hsame := h _ _ _ _ _ _ hloads hloads' hassemble hassemble'
  rw [htext, htext'] at hsame
  obtain rfl := Except.ok.inj hsame
  exact ⟨_, _, _, hloads.writes hassemble htext hending,
    hloads'.writes hassemble' htext' hending'⟩

/-- Two runs that ended well write one descriptor, when their targets have one. -/
theorem same_descriptor (hending : (run t environment words).2.ending = .returned 0)
    (hending' : (run t environment words').2.ending = .returned 0)
    (h : ∀ options inputs options' inputs' target target',
      Loads t environment words options inputs → Loads t environment words' options' inputs' →
      (request options inputs).assemble = .ok target →
      (request options' inputs').assemble = .ok target' →
      target'.descriptor = target.descriptor) :
    ∃ script script' descriptor, Writes t environment words script descriptor ∧
      Writes t environment words' script' descriptor := by
  obtain ⟨_, _, target, text, hloads, hassemble, htext⟩ := exists_of_returned_zero hending
  obtain ⟨_, _, target', text', hloads', hassemble', htext'⟩ := exists_of_returned_zero hending'
  have hwrites := hloads.writes hassemble htext hending
  have hwrites' := hloads'.writes hassemble' htext' hending'
  rw [Target.descriptorText, h _ _ _ _ _ _ hloads hloads' hassemble hassemble',
    ← Target.descriptorText] at hwrites'
  exact ⟨_, _, _, hwrites, hwrites'⟩

/-! ## Two runs -/

theorem exists_of_started {threshold : Nat}
    (h : started? environment words = some (options, threshold)) :
    ∃ values, read flags words = .ok (.run values) ∧
      Options.ofValues environment values = options := by
  unfold started? at h
  split at h
  · next values hread =>
    obtain ⟨_, _, heq⟩ := Option.map_eq_some_iff.1 h
    cases heq
    exact ⟨values, hread, rfl⟩
  · cases h

section Agreeing

variable {flag : String}

theorem AgreeBut.sameBut (h : AgreeBut flag words words')
    (hloads : Loads t environment words options inputs)
    (hloads' : Loads t environment words' options' inputs') :
    Options.SameBut flag options options' := by
  obtain ⟨_, hstarted, _⟩ := hloads.started
  obtain ⟨_, hstarted', _⟩ := hloads'.started
  obtain ⟨values, hread, rfl⟩ := exists_of_started hstarted
  obtain ⟨values', hread', rfl⟩ := exists_of_started hstarted'
  cases h with
  | values h h' hvalues =>
      cases h.symm.trans hread
      cases h'.symm.trans hread'
      exact Options.sameBut_ofValues hvalues
  | help h _ => cases h.symm.trans hread
  | refused h _ => cases h.symm.trans hread

/-- A flag that names no file to load and no directory to write to does not change an ending. -/
theorem AgreeBut.ending (h : AgreeBut flag words words')
    (hflag : flag = "--bin_root" ∨ flag = "--workspace") (t : FileTree)
    (environment : Environment) :
    (run t environment words').2.ending = (run t environment words).2.ending := by
  have hother : flag ≠ "--device" ∧ flag ≠ "--toolchain" ∧ flag ≠ "--output" ∧
      flag ≠ "--template" ∧ flag ≠ "--log_level" := by
    rcases hflag with rfl | rfl <;> decide
  obtain ⟨hdevice, htoolchain, houtput, htemplate, hlevel⟩ := hother
  rcases h.run_cases with ⟨options, options', hsame, hrun, hrun'⟩ | hending
  · rw [hrun, hrun']
    have hload signs : @loadInputs signs t options' = @loadInputs signs t options :=
      loadInputs_congr signs (hsame.device hdevice) (hsame.toolchain htoolchain)
        (hsame.template htemplate)
    exact ending_execute hload (hsame.logLevel hlevel) (hsame.output houtput)
  · exact hending t

/-- The template that options ask for. -/
def loadTemplate (t : FileTree) (options : Options) : Except LoadFault String :=
  match options.template with
  | none => .ok Template.packaged
  | some path => t.loadTemplate path

theorem loadInputs_eq [Text.HalfSigns] (t : FileTree) (options : Options) :
    loadInputs t options = do
      let declaration ← t.loadDeclaration options.device
      let tools ← t.loadToolchain options.toolchain
      let template ← loadTemplate t options
      return ⟨declaration, tools, template⟩ := by
  unfold loadInputs loadTemplate
  cases options.template <;> rfl

/-- What a run has loaded, file by file. -/
theorem Loads.parts (h : Loads t environment words options inputs) :
    t.loadDeclaration options.device = .ok inputs.declaration ∧
      t.loadToolchain options.toolchain = .ok inputs.tools ∧
      loadTemplate t options = .ok inputs.template := by
  obtain ⟨_, _, hload⟩ := h
  rw [loadInputs_eq] at hload
  obtain ⟨declaration, hdeclaration, hload⟩ := exists_of_bind_eq_ok hload
  obtain ⟨tools, htools, hload⟩ := exists_of_bind_eq_ok hload
  obtain ⟨template, htemplate, hload⟩ := exists_of_bind_eq_ok hload
  cases hload
  exact ⟨hdeclaration, htools, htemplate⟩

theorem AgreeBut.same_declaration (h : AgreeBut flag words words') (hflag : flag ≠ "--device")
    (hloads : Loads t environment words options inputs)
    (hloads' : Loads t environment words' options' inputs') :
    inputs'.declaration = inputs.declaration := by
  have hparts := hloads'.parts.1
  rw [(h.sameBut hloads hloads').device hflag] at hparts
  exact Except.ok.inj (hparts.symm.trans hloads.parts.1)

theorem AgreeBut.same_tools (h : AgreeBut flag words words') (hflag : flag ≠ "--toolchain")
    (hloads : Loads t environment words options inputs)
    (hloads' : Loads t environment words' options' inputs') : inputs'.tools = inputs.tools := by
  have hparts := hloads'.parts.2.1
  rw [(h.sameBut hloads hloads').toolchain hflag] at hparts
  exact Except.ok.inj (hparts.symm.trans hloads.parts.2.1)

theorem AgreeBut.same_template (h : AgreeBut flag words words') (hflag : flag ≠ "--template")
    (hloads : Loads t environment words options inputs)
    (hloads' : Loads t environment words' options' inputs') :
    inputs'.template = inputs.template := by
  have hparts := hloads'.parts.2.2
  rw [loadTemplate, (h.sameBut hloads hloads').template hflag, ← loadTemplate] at hparts
  exact Except.ok.inj (hparts.symm.trans hloads.parts.2.2)

/-- A flag that only the script is for leaves the descriptor as it is. -/
theorem AgreeBut.same_descriptor (h : AgreeBut flag words words')
    (hflag : flag = "--workspace" ∨ flag = "--template")
    (hending : (run t environment words).2.ending = .returned 0)
    (hending' : (run t environment words').2.ending = .returned 0) :
    ∃ script script' descriptor, Writes t environment words script descriptor ∧
      Writes t environment words' script' descriptor := by
  have hother : flag ≠ "--device" ∧ flag ≠ "--toolchain" ∧ flag ≠ "--package" ∧
      flag ≠ "--bin_root" := by
    rcases hflag with rfl | rfl <;> decide
  obtain ⟨hdevice, htoolchain, hpackage, hroot⟩ := hother
  refine Lower.same_descriptor hending hending' ?_
  intro options inputs options' inputs' target target' hloads hloads' hassemble hassemble'
  have hoptions := h.sameBut hloads hloads'
  refine TargetRequest.descriptor_eq_descriptor hassemble hassemble' ?_
  rw [request, request, h.same_declaration hdevice hloads hloads',
    h.same_tools htoolchain hloads hloads', hoptions.package hpackage, hoptions.binRoot hroot]

/-- A flag that says nothing about the script leaves it as it is, when the devices have one name
and one system image. -/
theorem AgreeBut.same_script (h : AgreeBut flag words words')
    (hflag : flag = "--bin_root" ∨ flag = "--device")
    (hending : (run t environment words).2.ending = .returned 0)
    (hending' : (run t environment words').2.ending = .returned 0)
    (hdevices : ∀ options inputs options' inputs', Loads t environment words options inputs →
      Loads t environment words' options' inputs' →
      inputs'.declaration.name = inputs.declaration.name ∧
        inputs'.declaration.systemImage = inputs.declaration.systemImage) :
    ∃ script descriptor descriptor', Writes t environment words script descriptor ∧
      Writes t environment words' script descriptor' := by
  have hother : flag ≠ "--toolchain" ∧ flag ≠ "--package" ∧ flag ≠ "--workspace" ∧
      flag ≠ "--template" := by
    rcases hflag with rfl | rfl <;> decide
  obtain ⟨htoolchain, hpackage, hworkspace, htemplate⟩ := hother
  refine Lower.same_script hending hending' ?_
  intro options inputs options' inputs' target target' hloads hloads' hassemble hassemble'
  have hoptions := h.sameBut hloads hloads'
  obtain ⟨hname, hsystem⟩ := hdevices _ _ _ _ hloads hloads'
  refine TargetRequest.expand_eq_expand hassemble hassemble' (hoptions.workspace hworkspace)
    (h.same_template htemplate hloads hloads') (h.same_tools htoolchain hloads hloads') hsystem
    ?_ ?_
  · rw [request, request, hname, hoptions.package hpackage]
    rfl
  · rw [request, request, hname, hoptions.package hpackage]
    rfl

end Agreeing

/-- Each option reaches only what it belongs to. The root of generated files changes neither the
ending nor the script, the workspace neither the ending nor the descriptor, the template not the
descriptor; and devices that have one name and one system image have one script. -/
theorem options_reach (t : FileTree) (environment : Environment) (words words' : List String) :
    let ending := (run t environment words).2.ending
    let ending' := (run t environment words').2.ending
    (AgreeBut "--bin_root" words words' → ending' = ending ∧
      (ending = .returned 0 → ∃ script descriptor descriptor',
        Writes t environment words script descriptor ∧
        Writes t environment words' script descriptor')) ∧
    (AgreeBut "--workspace" words words' → ending' = ending ∧
      (ending = .returned 0 → ∃ script script' descriptor,
        Writes t environment words script descriptor ∧
        Writes t environment words' script' descriptor)) ∧
    (AgreeBut "--template" words words' → ending = .returned 0 → ending' = .returned 0 →
      ∃ script script' descriptor, Writes t environment words script descriptor ∧
        Writes t environment words' script' descriptor) ∧
    ∀ options options' inputs inputs', AgreeBut "--device" words words' →
      Loads t environment words options inputs → Loads t environment words' options' inputs' →
      inputs'.declaration.name = inputs.declaration.name →
      inputs'.declaration.systemImage = inputs.declaration.systemImage →
      ending = .returned 0 → ending' = .returned 0 →
      ∃ script descriptor descriptor', Writes t environment words script descriptor ∧
        Writes t environment words' script descriptor' := by
  intro ending ending'
  refine ⟨fun hagree => ?_, fun hagree => ?_, fun hagree => hagree.same_descriptor (.inr rfl), ?_⟩
  · have hsame := hagree.ending (.inl rfl) t environment
    refine ⟨hsame, fun hending => hagree.same_script (.inl rfl) hending (hsame.trans hending) ?_⟩
    intro options inputs options' inputs' hloads hloads'
    rw [hagree.same_declaration (by decide) hloads hloads']
    exact ⟨rfl, rfl⟩
  · have hsame := hagree.ending (.inr rfl) t environment
    exact ⟨hsame, fun hending =>
      hagree.same_descriptor (.inl rfl) hending (hsame.trans hending)⟩
  · intro options options' inputs inputs' hagree hloads hloads' hname hsystem hending hending'
    refine hagree.same_script (.inr rfl) hending hending' ?_
    intro _ _ _ _ hown hown'
    obtain ⟨rfl, rfl⟩ := hown.unique hloads
    obtain ⟨rfl, rfl⟩ := hown'.unique hloads'
    exact ⟨hname, hsystem⟩

/-- The words of the phone with another root of generated files. -/
def rootedWords : List String :=
  sampleWords "phone.json" ++ ["--bin_root", "generated"]

/-- Under two roots the phone has one script. -/
theorem phone_roots :
    ∃ script descriptor descriptor',
      Writes sampleTree ⟨none, none, none⟩ (sampleWords "phone.json") script descriptor ∧
      Writes sampleTree ⟨none, none, none⟩ rootedWords script descriptor' := by
  have hagree : AgreeBut "--bin_root" (sampleWords "phone.json") rootedWords := by
    have hread : read flags rootedWords =
        .ok (.run (sampleValues "phone.json" ++ [("--bin_root", "generated")])) := rfl
    have hsample : read flags (sampleWords "phone.json") =
        .ok (.run (sampleValues "phone.json")) := rfl
    refine .values hsample hread fun name hname => ?_
    simp [valueOf?, List.filter_append, hname.symm]
  exact ((options_reach sampleTree ⟨none, none, none⟩ _ _).1 hagree).2 sampleTree_phone_published

end CommandLine.Lower

end EmulatedDevice
