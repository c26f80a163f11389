import EmulatedDevice.Proofs.Expansion
import EmulatedDevice.Proofs.Selection
import EmulatedDevice.Target
import Mathlib.Data.List.Nodup

/-!
# Assembling a target asks its questions in one order

Twelve things can be wrong with a request for a target: seven bounds, a system
image with no or several properties files, two tool bundles, the template, and an
attribute that has too many digits to be written into a flag. They are found out in
six places, and what comes back is the answer to the first question that was
answered with no. The questions are the device with its image, then the test
runner, then the shell test library, then the template, and the flags last. A
device with such an attribute may keep every bound, so it is in order and has no
target all the same.

The order hinges on one agreement. The device is cleared by counting properties
files and its image is then split by selecting one, and a group that passed the
count and could not be split would end in a fault that no question owns up to.
`FileGroup.systemImage?_isSome_iff` rules that out.
-/

namespace EmulatedDevice

/-! ## What is wrong with a device -/

/-- A device that keeps every bound. -/
def DeviceSpec.InBounds (spec : DeviceSpec) : Prop :=
  240 ≤ spec.horizontalResolution ∧ 240 ≤ spec.verticalResolution ∧
    64 ≤ spec.ram ∧ spec.ram ≤ 4096 ∧ 30 ≤ spec.screenDensity ∧
    16 ≤ spec.cache ∧ 16 ≤ spec.vmHeap

/-- A single issue when a rule is violated, and none otherwise. -/
def issueWhen (violated : Prop) [Decidable violated] (field message : String) :
    List Issue :=
  if violated then [⟨field, message⟩] else []

/-- The issues of a device, rule by rule. -/
def hardwareIssues (spec : DeviceSpec) : List Issue :=
  issueWhen (spec.horizontalResolution < 240)
    "horizontal_resolution" "horizontal must be at least: 240" ++
  issueWhen (spec.verticalResolution < 240)
    "vertical_resolution" "vertical must be at least: 240" ++
  issueWhen (spec.ram < 64) "ram" "ram must be at least: 64" ++
  issueWhen (4096 < spec.ram) "ram" "ram cannot be greater than: 4096" ++
  issueWhen (spec.screenDensity < 30)
    "screen_density" "density must be at least: 30" ++
  issueWhen (spec.cache < 16) "cache" "cache must be at least: 16" ++
  issueWhen (spec.vmHeap < 16) "vm_heap" "vm heap must be at least: 16"

/-- The issues of a system image, of which at most one applies. -/
def imageIssues (image : FileGroup) : List Issue :=
  issueWhen (image.propertiesCount = 0) "system_image"
    ("No source.properties files exist in this filegroup (" ++ image.label
      ++ ")") ++
  issueWhen (1 < image.propertiesCount) "system_image"
    ("Multiple source.properties files exist in this filegroup ("
      ++ image.label ++ ")")

theorem issueWhen_eq_nil {violated : Prop} [Decidable violated]
    {field message : String} :
    issueWhen violated field message = [] ↔ ¬ violated := by
  unfold issueWhen
  split <;> simp_all

theorem issueWhen_sublist (violated : Prop) [Decidable violated]
    (field message : String) :
    (issueWhen violated field message).Sublist [⟨field, message⟩] := by
  unfold issueWhen
  split
  · exact List.Sublist.refl _
  · exact List.nil_sublist _

theorem DeviceSpec.issues_eq (spec : DeviceSpec) :
    spec.issues = hardwareIssues spec := by
  have hone : ∀ (bound : Bound) (rest : List Bound),
      ((bound :: rest).filter fun b => decide (¬ b.Holds spec)).map Bound.issue =
        issueWhen (¬ bound.Holds spec) bound.issue.field bound.issue.message ++
          (rest.filter fun b => decide (¬ b.Holds spec)).map Bound.issue := by
    intro bound rest
    unfold issueWhen
    by_cases h : bound.Holds spec <;> simp [h]
  unfold DeviceSpec.issues Bound.all
  rw [hone, hone, hone, hone, hone, hone, hone]
  simp only [List.filter_nil, List.map_nil, List.append_nil, Bound.Holds,
    DeviceSpec.get, Int.not_le, hardwareIssues, List.append_assoc]
  rfl

theorem FileGroup.issues_eq_imageIssues (image : FileGroup) :
    image.issues = imageIssues image := by
  rw [image.issues_eq]
  unfold imageIssues issueWhen
  split
  · next h => rw [if_neg (by omega)]; rfl
  · next h =>
      split
      · next h1 => rw [if_neg (by omega)]; rfl
      · next h1 => rw [if_pos (by omega)]; rfl

theorem hardwareIssues_eq_nil {spec : DeviceSpec} :
    hardwareIssues spec = [] ↔ spec.InBounds := by
  simp only [hardwareIssues, List.append_eq_nil_iff, issueWhen_eq_nil,
    Int.not_lt, DeviceSpec.InBounds, and_assoc]

theorem imageIssues_eq_nil {image : FileGroup} :
    imageIssues image = [] ↔ image.propertiesCount = 1 := by
  simp only [imageIssues, List.append_eq_nil_iff, issueWhen_eq_nil]
  omega

theorem imageIssues_length (image : FileGroup) :
    (imageIssues image).length ≤ 1 := by
  unfold imageIssues issueWhen
  split
  · next h => rw [if_neg (by omega)]; simp
  · next h => split <;> simp

/-- What can be wrong with the hardware, all of it. -/
def allHardwareIssues : List Issue :=
  [ ⟨"horizontal_resolution", "horizontal must be at least: 240"⟩
  , ⟨"vertical_resolution", "vertical must be at least: 240"⟩
  , ⟨"ram", "ram must be at least: 64"⟩
  , ⟨"ram", "ram cannot be greater than: 4096"⟩
  , ⟨"screen_density", "density must be at least: 30"⟩
  , ⟨"cache", "cache must be at least: 16"⟩
  , ⟨"vm_heap", "vm heap must be at least: 16"⟩ ]

theorem hardwareIssues_sublist (spec : DeviceSpec) :
    (hardwareIssues spec).Sublist allHardwareIssues := by
  unfold hardwareIssues
  exact ((((((issueWhen_sublist _ _ _).append (issueWhen_sublist _ _ _)).append
    (issueWhen_sublist _ _ _)).append (issueWhen_sublist _ _ _)).append
    (issueWhen_sublist _ _ _)).append (issueWhen_sublist _ _ _)).append
    (issueWhen_sublist _ _ _)

/-- No issue is reported twice. -/
theorem issues_nodup (spec : DeviceSpec) (image : FileGroup) :
    (hardwareIssues spec ++ imageIssues image).Nodup := by
  have hhardware : allHardwareIssues.Nodup := by decide
  have hfields : ∀ issue ∈ allHardwareIssues, issue.field ≠ "system_image" := by
    decide
  rw [List.nodup_append]
  refine ⟨hhardware.sublist (hardwareIssues_sublist spec), ?_, ?_⟩
  · match himage : imageIssues image with
    | [] => exact List.nodup_nil
    | [_] => exact List.nodup_singleton _
    | _ :: _ :: _ =>
        have hlength := imageIssues_length image
        rw [himage] at hlength
        simp at hlength
  · intro issue hissue other hother hsame
    subst hsame
    have hmem := (hardwareIssues_sublist spec).subset hissue
    refine hfields issue hmem ?_
    unfold imageIssues issueWhen at hother
    rcases List.mem_append.1 hother with h | h
    · split at h
      · rw [List.mem_singleton.1 h]
      · cases h
    · split at h
      · rw [List.mem_singleton.1 h]
      · cases h

/-! ## The script of a target -/

namespace StubScript

variable {workspace template : String} {deps : Dependencies} {outputs : Outputs}

theorem bindingsFor_keys :
    (bindingsFor workspace deps outputs).map Prod.fst = Placeholder.all := by
  rw [bindingsFor, List.map_map]
  exact List.map_id _

theorem bindingsFor_isSome (p : Placeholder) :
    ((bindingsFor workspace deps outputs).get? p).isSome := by
  rw [Bindings.get?_isSome, bindingsFor_keys]
  exact Placeholder.mem_all p

/-- A script is made of its parts as they are, once they have passed the check. -/
theorem eq_of_create {script : StubScript}
    (h : create workspace deps outputs template = .ok script) :
    Template.check template (bindingsFor workspace deps outputs) = .ok () ∧
      script = ⟨outputs.executable, template, bindingsFor workspace deps outputs, true⟩ := by
  unfold create at h
  cases hcheck : Template.check template (bindingsFor workspace deps outputs) with
  | error fault => simp only [hcheck] at h; cases h
  | ok _ =>
      simp only [hcheck] at h
      exact ⟨rfl, (Except.ok.inj h).symm⟩

/-- A script that was made expands: making it has checked the same template
against the same values. -/
theorem expand_of_create {script : StubScript}
    (h : create workspace deps outputs template = .ok script) :
    script.executable = true ∧ ∃ text, script.expand = .ok text := by
  obtain ⟨hcheck, rfl⟩ := eq_of_create h
  exact ⟨rfl, Template.exists_expand_iff.2 hcheck⟩

theorem create_ok (workspace : String) (deps : Dependencies) (outputs : Outputs)
    (h : Template.MeetsEachOnce template) :
    ∃ script, create workspace deps outputs template = .ok script := by
  have hcheck : Template.check template (bindingsFor workspace deps outputs) =
      .ok () :=
    Template.check_eq_ok_iff.2 ⟨bindingsFor_isSome, h⟩
  unfold create
  simp only [hcheck]
  exact ⟨_, rfl⟩

theorem create_error (h : ¬ Template.MeetsEachOnce template) :
    create workspace deps outputs template =
      .error ⟨[], (Placeholder.all.map fun p =>
        (p, (Template.pieces template).count (.hole p))).filter
          fun (_, count) => count != 1⟩ := by
  have hunbound : Template.unbound (bindingsFor workspace deps outputs) = [] :=
    Template.unbound_eq_nil.2 bindingsFor_isSome
  have hcounts : Template.miscounted template
      (bindingsFor workspace deps outputs) =
        (Placeholder.all.map fun p =>
          (p, (Template.pieces template).count (.hole p))).filter
            fun (_, count) => count != 1 := by
    unfold Template.miscounted bindingsFor
    simp only [List.map_map, Function.comp_def, Template.count_holes]
  unfold create
  cases hcheck : Template.check template (bindingsFor workspace deps outputs) with
  | ok _ => exact absurd (Template.check_eq_ok_iff.1 hcheck).2 h
  | error fault =>
      have hfault := Template.expand_error (Template.expand_of_check_error hcheck)
      rw [hunbound, hcounts] at hfault
      simp only [hcheck]
      rw [hfault]
      rfl

end StubScript

/-! ## The questions in their order -/

namespace TargetRequest

variable {r : TargetRequest}

/-- A request whose device and system image are in order. -/
def InOrder (r : TargetRequest) : Prop :=
  r.spec.InBounds ∧ r.systemImage.propertiesCount = 1

theorem issues_eq (r : TargetRequest) :
    r.issues = hardwareIssues r.spec ++ imageIssues r.systemImage := by
  rw [issues, configurationIssues, DeviceSpec.issues_eq,
    FileGroup.issues_eq_imageIssues]

theorem issues_eq_nil : r.issues = [] ↔ r.InOrder := by
  rw [issues_eq, List.append_eq_nil_iff, hardwareIssues_eq_nil,
    imageIssues_eq_nil, InOrder]

theorem dependencies_of_not_inOrder (h : ¬ r.InOrder) :
    r.dependencies = .error (.configuration ⟨r.issues, r.label⟩) := by
  have hne : r.issues ≠ [] := fun hnil => h (issues_eq_nil.1 hnil)
  unfold dependencies
  split
  · next hnil => exact absurd hnil hne
  · rfl

/-- A device that is in order has an image to go on with. -/
theorem dependencies_of_inOrder (h : r.InOrder) :
    ∃ image, r.systemImage.systemImage? = some image ∧
      r.dependencies =
        (Dependencies.collect r.tools image r.apks).mapError .toolchain := by
  obtain ⟨image, himage⟩ := FileGroup.systemImage?_isSome_iff.2 h.2
  refine ⟨image, himage, ?_⟩
  unfold dependencies
  rw [issues_eq_nil.2 h, himage]

/-- What dependencies are gathered from, once they are. -/
theorem exists_of_dependencies {deps : Dependencies} (h : r.dependencies = .ok deps) :
    ∃ image, r.systemImage.systemImage? = some image ∧
      pickRuntest r.tools.runtestFiles = .ok deps.runtest ∧
      pickShbase r.tools.shbaseFiles = .ok deps.shbase ∧
      deps = ⟨r.tools, image, deps.runtest, deps.shbase, r.apks,
        r.tools.common image r.apks⟩ := by
  by_cases horder : r.InOrder
  · obtain ⟨image, himage, hdeps⟩ := dependencies_of_inOrder horder
    rw [hdeps, Dependencies.collect] at h
    cases hruntest : pickRuntest r.tools.runtestFiles with
    | error fault => rw [hruntest] at h; cases h
    | ok runtest =>
        cases hshbase : pickShbase r.tools.shbaseFiles with
        | error fault => rw [hruntest, hshbase] at h; cases h
        | ok shbase =>
            rw [hruntest, hshbase] at h
            obtain rfl := Except.ok.inj h
            exact ⟨image, himage, rfl, rfl, rfl⟩
  · rw [dependencies_of_not_inOrder horder] at h
    cases h

/-- How many files of the first bundle could be the test runner. -/
def runtestCount (r : TargetRequest) : Nat :=
  r.tools.runtestFiles.countP fun a => a.isSource

/-- How many files of the second bundle could be the shell test library. -/
def shbaseCount (r : TargetRequest) : Nat :=
  r.tools.shbaseFiles.countP fun a => a.basename = "googletest.sh"

theorem pickRuntest_ok_iff :
    (∃ a, pickRuntest r.tools.runtestFiles = .ok a) ↔ r.runtestCount = 1 :=
  pickSingle_ok_iff

theorem countP_shbase :
    r.tools.shbaseFiles.countP (fun a => a.basename == shbaseName) =
      r.shbaseCount := by
  refine List.countP_congr fun a _ => ?_
  rw [beq_iff_eq, decide_eq_true_iff]
  rfl

theorem pickShbase_ok_iff :
    (∃ a, pickShbase r.tools.shbaseFiles = .ok a) ↔ r.shbaseCount = 1 := by
  rw [← countP_shbase]
  exact pickSingle_ok_iff

theorem dependencies_runtest (h : r.InOrder) (hcount : r.runtestCount ≠ 1) :
    r.dependencies = .error (.toolchain (.ofCount "android_runtest source file"
      r.runtestCount r.tools.runtestFiles)) := by
  obtain ⟨image, _, hdeps⟩ := dependencies_of_inOrder h
  have hpick : pickRuntest r.tools.runtestFiles = _ := pickSingle_of_count_ne hcount
  rw [hdeps, Dependencies.collect, hpick]
  rfl

theorem dependencies_shbase (h : r.InOrder) (hrun : r.runtestCount = 1)
    (hcount : r.shbaseCount ≠ 1) :
    r.dependencies = .error (.toolchain (.ofCount "googletest.sh"
      r.shbaseCount r.tools.shbaseFiles)) := by
  obtain ⟨image, _, hdeps⟩ := dependencies_of_inOrder h
  obtain ⟨runtest, hruntest⟩ := pickRuntest_ok_iff.2 hrun
  have hpick : pickShbase r.tools.shbaseFiles =
      .error (.ofCount "googletest.sh" r.shbaseCount r.tools.shbaseFiles) := by
    rw [← countP_shbase] at hcount ⊢
    exact pickSingle_of_count_ne hcount
  rw [hdeps, Dependencies.collect, hruntest, hpick]
  rfl

theorem dependencies_ok (h : r.InOrder) (hrun : r.runtestCount = 1)
    (hshbase : r.shbaseCount = 1) : ∃ deps, r.dependencies = .ok deps := by
  obtain ⟨image, _, hdeps⟩ := dependencies_of_inOrder h
  obtain ⟨runtest, hruntest⟩ := pickRuntest_ok_iff.2 hrun
  obtain ⟨shbase, hpick⟩ := pickShbase_ok_iff.2 hshbase
  rw [hdeps, Dependencies.collect, hruntest, hpick]
  exact ⟨_, rfl⟩

theorem assemble_of_dependencies_error {fault : AssemblyFault}
    (h : r.dependencies = .error fault) : r.assemble = .error fault := by
  rw [assemble, h]
  rfl

/-- What comes after the dependencies: the script, and the flags last. -/
theorem assemble_of_dependencies {deps : Dependencies}
    (h : r.dependencies = .ok deps) :
    r.assemble = do
      let script ← r.script deps
      r.checkFlags
      return ⟨r.label, r.outputs, script, r.bootAction deps, r.runfiles deps,
        r.executionInfo⟩ := by
  rw [assemble, h]
  rfl

theorem assemble_of_not_meetsEachOnce (h : r.InOrder) (hrun : r.runtestCount = 1)
    (hshbase : r.shbaseCount = 1) (hnot : ¬ Template.MeetsEachOnce r.template) :
    r.assemble = .error (.template ⟨[], (Placeholder.all.map fun p =>
      (p, (Template.pieces r.template).count (.hole p))).filter
        fun (_, count) => count != 1⟩) := by
  obtain ⟨deps, hdeps⟩ := dependencies_ok h hrun hshbase
  rw [assemble_of_dependencies hdeps, script, StubScript.create_error hnot]
  rfl

/-- With everything else in order, the flags are what is left to ask for. -/
theorem assemble_of_meetsEachOnce (h : r.InOrder) (hrun : r.runtestCount = 1)
    (hshbase : r.shbaseCount = 1) (hmeets : Template.MeetsEachOnce r.template) :
    ∃ target, r.assemble = r.checkFlags.map fun _ => target := by
  obtain ⟨deps, hdeps⟩ := dependencies_ok h hrun hshbase
  obtain ⟨made, hmade⟩ := StubScript.create_ok r.workspace deps r.outputs hmeets
  rw [assemble_of_dependencies hdeps, script, hmade]
  refine ⟨⟨r.label, r.outputs, made, r.bootAction deps, r.runfiles deps, r.executionInfo⟩, ?_⟩
  show (r.checkFlags >>= fun _ => pure _) = _
  cases r.checkFlags <;> rfl

theorem assemble_ok (h : r.InOrder) (hrun : r.runtestCount = 1)
    (hshbase : r.shbaseCount = 1) (hmeets : Template.MeetsEachOnce r.template)
    (hwritable : r.spec.IsWritable) : ∃ target, r.assemble = .ok target := by
  obtain ⟨target, htarget⟩ := assemble_of_meetsEachOnce h hrun hshbase hmeets
  rw [htarget, checkFlags, if_pos hwritable]
  exact ⟨target, rfl⟩

theorem assemble_of_not_writable (h : r.InOrder) (hrun : r.runtestCount = 1)
    (hshbase : r.shbaseCount = 1) (hmeets : Template.MeetsEachOnce r.template)
    (hwritable : ¬ r.spec.IsWritable) : r.assemble = .error .tooManyDigits := by
  obtain ⟨target, htarget⟩ := assemble_of_meetsEachOnce h hrun hshbase hmeets
  rw [htarget, checkFlags, if_neg hwritable]
  rfl

/-- What a target is made of. -/
theorem exists_of_assemble {target : Target} (h : r.assemble = .ok target) :
    ∃ deps script, r.dependencies = .ok deps ∧
      StubScript.create r.workspace deps r.outputs r.template = .ok script ∧
      target = ⟨r.label, r.outputs, script, r.bootAction deps, r.runfiles deps,
        r.executionInfo⟩ := by
  cases hdeps : r.dependencies with
  | error fault =>
      rw [assemble_of_dependencies_error hdeps] at h
      cases h
  | ok deps =>
      rw [assemble_of_dependencies hdeps, script] at h
      cases hscript : StubScript.create r.workspace deps r.outputs r.template with
      | error fault => rw [hscript] at h; cases h
      | ok script =>
          rw [hscript] at h
          cases hflags : r.checkFlags with
          | error fault => simp only [hflags] at h; cases h
          | ok _ =>
              simp only [hflags] at h
              exact ⟨deps, script, rfl, hscript, (Except.ok.inj h).symm⟩

/-- A target that was assembled has a script that expands. -/
theorem expand_of_assemble {target : Target} (h : r.assemble = .ok target) :
    target.script.executable = true ∧
      ∃ text, target.script.expand = .ok text := by
  obtain ⟨deps, script, _, hscript, rfl⟩ := exists_of_assemble h
  exact StubScript.expand_of_create hscript

/-- What becomes of a request. A device that is not in order is reported with
one issue for every violated rule, in the order of the rules, whatever the tools
and the template are. A device that is in order fails for the first bundle that
does not offer exactly one file, then for a template that does not hold every
placeholder once, then for an attribute with too many digits, and for nothing else;
in particular its image can always be split. -/
theorem assemble_outcome (r : TargetRequest) :
    (¬ r.InOrder →
      r.assemble = .error (.configuration
        ⟨hardwareIssues r.spec ++ imageIssues r.systemImage, r.label⟩) ∧
      hardwareIssues r.spec ++ imageIssues r.systemImage ≠ [] ∧
      (hardwareIssues r.spec ++ imageIssues r.systemImage).Nodup ∧
      (imageIssues r.systemImage).length ≤ 1) ∧
    (r.InOrder → r.runtestCount ≠ 1 →
      r.assemble = .error (.toolchain (.ofCount "android_runtest source file"
        r.runtestCount r.tools.runtestFiles))) ∧
    (r.InOrder → r.runtestCount = 1 → r.shbaseCount ≠ 1 →
      r.assemble = .error (.toolchain (.ofCount "googletest.sh"
        r.shbaseCount r.tools.shbaseFiles))) ∧
    (r.InOrder → r.runtestCount = 1 → r.shbaseCount = 1 →
      ¬ Template.MeetsEachOnce r.template →
      ∃ found, Template.Scan r.template.toList found ∧
        r.assemble = .error (.template ⟨[], (Placeholder.all.map fun p =>
          (p, found.count (.hole p))).filter fun (_, count) => count != 1⟩)) ∧
    (r.InOrder → r.runtestCount = 1 → r.shbaseCount = 1 →
      Template.MeetsEachOnce r.template →
      (r.spec.IsWritable → ∃ target, r.assemble = .ok target) ∧
      (¬ r.spec.IsWritable → r.assemble = .error .tooManyDigits)) ∧
    ∀ image, r.assemble ≠ .error (.unresolvable image) := by
  have hbad : ¬ r.InOrder → r.assemble = .error (.configuration
      ⟨hardwareIssues r.spec ++ imageIssues r.systemImage, r.label⟩) := by
    intro h
    rw [← issues_eq]
    exact assemble_of_dependencies_error (dependencies_of_not_inOrder h)
  have hrun : r.InOrder → r.runtestCount ≠ 1 → r.assemble = .error (.toolchain
      (.ofCount "android_runtest source file" r.runtestCount
        r.tools.runtestFiles)) :=
    fun h hcount => assemble_of_dependencies_error (dependencies_runtest h hcount)
  have hshbase : r.InOrder → r.runtestCount = 1 → r.shbaseCount ≠ 1 →
      r.assemble = .error (.toolchain (.ofCount "googletest.sh" r.shbaseCount
        r.tools.shbaseFiles)) :=
    fun h hone hcount =>
      assemble_of_dependencies_error (dependencies_shbase h hone hcount)
  refine ⟨fun h => ⟨hbad h, ?_, issues_nodup _ _, imageIssues_length _⟩, hrun,
    hshbase, fun h hone hone' hnot => ⟨_, Template.scan_pieces _,
      assemble_of_not_meetsEachOnce h hone hone' hnot⟩,
    fun h hone hone' hmeets => ⟨assemble_ok h hone hone' hmeets,
      assemble_of_not_writable h hone hone' hmeets⟩, ?_⟩
  · rw [← issues_eq]
    exact fun hnil => h (issues_eq_nil.1 hnil)
  · -- Every way a request can go has been named, and none of them is this one.
    intro image himage
    by_cases h : r.InOrder
    · by_cases hone : r.runtestCount = 1
      · by_cases hone' : r.shbaseCount = 1
        · by_cases hmeets : Template.MeetsEachOnce r.template
          · by_cases hwritable : r.spec.IsWritable
            · obtain ⟨target, htarget⟩ := assemble_ok h hone hone' hmeets hwritable
              cases htarget.symm.trans himage
            · cases (assemble_of_not_writable h hone hone' hmeets hwritable).symm.trans himage
          · cases (assemble_of_not_meetsEachOnce h hone hone' hmeets).symm.trans himage
        · cases (hshbase h hone hone').symm.trans himage
      · cases (hrun h hone).symm.trans himage
    · cases (hbad h).symm.trans himage

/-! ## A request that gives a target -/

/-- A request for a phone with a template of nothing but the tokens, one after
the other. -/
def plain : TargetRequest where
  label := "//:phone"
  spec := ⟨320, 240, 512, 160, 32, 16⟩
  systemImage := ⟨"//:image", [.source "source.properties"]⟩
  tools :=
    { adb := .source "adb"
      adbStatic := .source "adb"
      emulatorArm := .source "emulator"
      emulatorX86 := .source "emulator"
      biosFiles := []
      xvfbSupport := []
      mksdcard := .source "mksdcard"
      emptySnapshot := .source "snapshot"
      launcher := ⟨.source "launcher", []⟩
      runtestFiles := [.source "runtest"]
      shbaseFiles := [.source "googletest.sh"]
      sdkPath := .source "sdk" }
  outputs := .forTarget "phone" "" "bin"
  workspace := defaultWorkspace
  defaultProperties := none
  apks := []
  executionInfo := []
  template := .ofList (Placeholder.all.flatMap fun p => p.token.toList)

theorem plain_inOrder : plain.InOrder :=
  ⟨by unfold DeviceSpec.InBounds; decide, by decide +kernel⟩

theorem plain_writable : plain.spec.IsWritable := by
  decide +kernel

theorem plain_assembles : ∃ target, plain.assemble = .ok target :=
  assemble_ok plain_inOrder (by decide +kernel) (by decide +kernel)
    Template.meetsEachOnce_tokens plain_writable

/-- The phone with a density of one digit too many. -/
def dense : TargetRequest :=
  { plain with spec := { plain.spec with screenDensity := Text.leastTooLong } }

/-- The dense phone breaks no bound, its tools and its template are in order, and it has no
target. -/
theorem dense_unassembled :
    dense.InOrder ∧ dense.runtestCount = 1 ∧ dense.shbaseCount = 1 ∧
      Template.MeetsEachOnce dense.template ∧ dense.assemble = .error .tooManyDigits ∧
      ¬ ∃ target, dense.assemble = .ok target := by
  have horder : dense.InOrder :=
    ⟨⟨by decide, by decide, by decide, by decide, by decide +kernel, by decide, by decide⟩,
      plain_inOrder.2⟩
  have hwritable : ¬ dense.spec.IsWritable := fun h =>
    Nat.lt_irrefl _ (h .screenDensity (by decide))
  have hassemble : dense.assemble = .error .tooManyDigits :=
    assemble_of_not_writable horder (by decide +kernel) (by decide +kernel)
      Template.meetsEachOnce_tokens hwritable
  refine ⟨horder, by decide +kernel, by decide +kernel, Template.meetsEachOnce_tokens, hassemble,
    fun ⟨target, htarget⟩ => ?_⟩
  cases hassemble.symm.trans htarget

end TargetRequest

end EmulatedDevice
