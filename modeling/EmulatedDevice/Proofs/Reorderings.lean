import EmulatedDevice.Proofs.Runfiles

/-!
# Lists whose order carries no meaning

The files of a system image and those of the two tool bundles are lists because
documents are written that way. A target picks one file from each of them, and it
picks by looking at all of the list: a second match is as bad as none. So it does
not matter where in the list the match is, and a request with these lists in another
order goes the same way. It fails with the same kind of fault, or it gives a target
with the same files picked, and what is gathered from the lists is gathered in
another order and nothing else.

The two runs are followed side by side through the steps of the assembly. What they
have in common after one step is what the next one needs: `EndAlike` says it of a
step, and `EndAlike.bind` hands it on.
-/

namespace EmulatedDevice

/-! ## Two runs side by side -/

/-- Two computations that end alike: both with a fault or both with a result, and what they end with
is related. -/
inductive EndAlike {ε α : Type} (E : ε → ε → Prop) (R : α → α → Prop) :
    Except ε α → Except ε α → Prop where
  | error {fault fault' : ε} (h : E fault fault') : EndAlike E R (.error fault) (.error fault')
  | ok {a a' : α} (h : R a a') : EndAlike E R (.ok a) (.ok a')

namespace EndAlike

variable {ε ε' α β : Type} {E : ε → ε → Prop} {E' : ε' → ε' → Prop} {R : α → α → Prop}
  {S : β → β → Prop} {x x' : Except ε α}

theorem bind {next next' : α → Except ε β} (h : EndAlike E R x x')
    (hnext : ∀ a a', x = .ok a → x' = .ok a' → R a a' → EndAlike E S (next a) (next' a')) :
    EndAlike E S (x >>= next) (x' >>= next') := by
  cases h with
  | error h => exact .error h
  | ok h => exact hnext _ _ rfl rfl h

theorem mapError {f : ε → ε'} (h : EndAlike E R x x')
    (hfault : ∀ fault fault', E fault fault' → E' (f fault) (f fault')) :
    EndAlike E' R (x.mapError f) (x'.mapError f) := by
  cases h with
  | error h => exact .error (hfault _ _ h)
  | ok h => exact .ok h

theorem exists_ok {a : α} (h : EndAlike E R x x') (hok : x = .ok a) :
    ∃ a', x' = .ok a' ∧ R a a' := by
  cases h with
  | error h => cases hok
  | ok h => exact ⟨_, rfl, Except.ok.inj hok ▸ h⟩

end EndAlike

/-! ## Picking from a list in another order -/

theorem Selection.single_perm {α : Type} {p : α → Bool} {items items' : List α} {item : α}
    (h : items'.Perm items) (hfound : single p items = .found item) :
    single p items' = .found item := by
  rw [single_eq_found_iff] at hfound ⊢
  have hfilter := h.filter p
  rw [hfound] at hfilter
  exact List.perm_singleton.1 hfilter

/-- Faults of one bundle in two orders: the files on offer are listed as they stand there. -/
inductive ToolchainFault.SameButOrder : ToolchainFault → ToolchainFault → Prop where
  | missing (wanted : String) {bundle bundle' : List Artifact} (h : bundle'.Perm bundle) :
    SameButOrder (.missing wanted bundle) (.missing wanted bundle')
  | several (wanted : String) (count : Nat) {bundle bundle' : List Artifact}
    (h : bundle'.Perm bundle) :
    SameButOrder (.several wanted count bundle) (.several wanted count bundle')

/-- Faults of one kind, which say the same but for the order in which a bundle is listed. -/
inductive AssemblyFault.SameButOrder : AssemblyFault → AssemblyFault → Prop where
  | configuration (error : ConfigurationError) :
    SameButOrder (.configuration error) (.configuration error)
  | toolchain {fault fault' : ToolchainFault} (h : fault.SameButOrder fault') :
    SameButOrder (.toolchain fault) (.toolchain fault')
  | template (fault : TemplateFault) : SameButOrder (.template fault) (.template fault)
  | tooManyDigits : SameButOrder .tooManyDigits .tooManyDigits

theorem pickSingle_reordered {wanted : String} {p : Artifact → Bool}
    {bundle bundle' : List Artifact} (h : bundle'.Perm bundle) :
    EndAlike ToolchainFault.SameButOrder Eq (pickSingle wanted p bundle)
      (pickSingle wanted p bundle') := by
  by_cases hcount : bundle.countP p = 1
  · obtain ⟨item, hfound⟩ := Selection.exists_single_iff.2 hcount
    unfold pickSingle
    rw [hfound, Selection.single_perm h hfound]
    exact .ok rfl
  · have hcount' : bundle'.countP p = bundle.countP p := h.countP_eq p
    rw [pickSingle_of_count_ne hcount, pickSingle_of_count_ne (by rwa [hcount']), hcount']
    unfold ToolchainFault.ofCount
    split
    · exact .error (.missing wanted h)
    · exact .error (.several wanted _ h)

namespace FileGroup

variable {group : FileGroup} {files : List Artifact}

theorem propertiesCount_reordered (h : files.Perm group.files) :
    ({ group with files } : FileGroup).propertiesCount = group.propertiesCount :=
  h.countP_eq _

/-- The image of a group in another order has the same properties file, and of the files in their
new order it has those that were image files before. -/
theorem systemImage?_reordered {image : SystemImage} (h : files.Perm group.files)
    (himage : group.systemImage? = some image) :
    ∃ image', ({ group with files } : FileGroup).systemImage? = some image' ∧
      image'.properties = image.properties ∧ image'.images.Perm image.images ∧
      image'.images = files.filter fun a => a ∈ image.images := by
  obtain ⟨hfound, _, himages⟩ := systemImage?_eq_some.1 himage
  refine ⟨⟨group.label, image.properties, files.filter fun a => !a.isProperties⟩,
    systemImage?_eq_some.2 ⟨Selection.single_perm h hfound, rfl, rfl⟩, rfl, ?_, ?_⟩
  · rw [himages]
    exact h.filter _
  · refine List.filter_congr fun a ha => ?_
    rw [himages]
    simp [h.mem_iff.1 ha]

end FileGroup

/-! ## Gathering -/

/-- What was gathered from lists in two orders: the same files picked, and the same files listed. -/
structure Dependencies.SameButOrder (deps deps' : Dependencies) : Prop where
  properties : deps'.image.properties = deps.image.properties
  runtest : deps'.runtest = deps.runtest
  shbase : deps'.shbase = deps.shbase
  images : deps'.image.images.Perm deps.image.images
  common : deps'.common.Perm deps.common

theorem ToolSet.common_reordered {tools : ToolSet} {image image' : SystemImage}
    {apks runtest shbase : List Artifact} (hproperties : image'.properties = image.properties)
    (himages : image'.images.Perm image.images) (hruntest : runtest.Perm tools.runtestFiles)
    (hshbase : shbase.Perm tools.shbaseFiles) :
    (ToolSet.common { tools with runtestFiles := runtest, shbaseFiles := shbase } image' apks).Perm
      (tools.common image apks) := by
  unfold common
  rw [hproperties]
  have hfront := ((((himages.append_left [tools.adb, image.properties]).append_right
    [tools.emulatorArm, tools.emulatorX86, tools.adbStatic]).append_right
    tools.biosFiles).append_right tools.xvfbSupport).append_right
    [tools.mksdcard, tools.emptySnapshot]
  exact (((hfront.append_right tools.launcher.files).append hruntest).append hshbase).append_right
    apks

/-- Whether there is a script is a matter of the template, not of what is written into it. -/
theorem StubScript.create_endAlike (workspace : String) (deps deps' : Dependencies)
    (outputs : Outputs) (template : String) :
    EndAlike Eq (fun _ _ => True) (create workspace deps outputs template)
      (create workspace deps' outputs template) := by
  by_cases hmeets : Template.MeetsEachOnce template
  · obtain ⟨script, hscript⟩ := create_ok workspace deps outputs hmeets
    obtain ⟨script', hscript'⟩ := create_ok workspace deps' outputs hmeets
    rw [hscript, hscript']
    exact .ok trivial
  · rw [create_error hmeets, create_error hmeets]
    exact .error rfl

namespace TargetRequest

/-- A request with other lists in the three places where the order carries no meaning. -/
def withFiles (r : TargetRequest) (files runtest shbase : List Artifact) : TargetRequest :=
  { r with
    systemImage := { r.systemImage with files }
    tools := { r.tools with runtestFiles := runtest, shbaseFiles := shbase } }

variable {r : TargetRequest} {files runtest shbase : List Artifact}

theorem issues_reordered (h : files.Perm r.systemImage.files) :
    (r.withFiles files runtest shbase).issues = r.issues := by
  have hcount : (r.withFiles files runtest shbase).systemImage.propertiesCount =
      r.systemImage.propertiesCount := FileGroup.propertiesCount_reordered h
  rw [issues_eq, issues_eq, imageIssues, imageIssues, hcount]
  rfl

theorem dependencies_reordered (hfiles : files.Perm r.systemImage.files)
    (hruntest : runtest.Perm r.tools.runtestFiles) (hshbase : shbase.Perm r.tools.shbaseFiles) :
    EndAlike AssemblyFault.SameButOrder
      (fun deps deps' => deps.SameButOrder deps' ∧
        deps'.image.images = files.filter fun a => a ∈ deps.image.images)
      r.dependencies (r.withFiles files runtest shbase).dependencies := by
  have hissues : (r.withFiles files runtest shbase).issues = r.issues := issues_reordered hfiles
  by_cases horder : r.InOrder
  · have horder' : (r.withFiles files runtest shbase).InOrder := by
      rwa [← issues_eq_nil, hissues, issues_eq_nil]
    obtain ⟨image, himage, hdeps⟩ := dependencies_of_inOrder horder
    obtain ⟨image', himage', hdeps'⟩ := dependencies_of_inOrder horder'
    obtain ⟨other, hother, hproperties, hperm, himages⟩ :=
      FileGroup.systemImage?_reordered hfiles himage
    obtain rfl : image' = other := Option.some.inj (himage'.symm.trans hother)
    rw [hdeps, hdeps']
    refine EndAlike.mapError ?_ fun _ _ => .toolchain
    refine (pickSingle_reordered hruntest).bind fun found found' _ _ hfound => ?_
    refine (pickSingle_reordered hshbase).bind fun library library' _ _ hlibrary => ?_
    exact .ok ⟨⟨hproperties, hfound.symm, hlibrary.symm, hperm,
      ToolSet.common_reordered hproperties hperm hruntest hshbase⟩, himages⟩
  · have horder' : ¬ (r.withFiles files runtest shbase).InOrder := by
      rwa [← issues_eq_nil, hissues, issues_eq_nil]
    rw [dependencies_of_not_inOrder horder, dependencies_of_not_inOrder horder', hissues]
    exact .error (.configuration _)

theorem checkFlags_endAlike (r : TargetRequest) :
    EndAlike AssemblyFault.SameButOrder Eq r.checkFlags r.checkFlags := by
  unfold checkFlags
  split
  · exact .ok rfl
  · exact .error .tooManyDigits

/-- The dependencies that a target was made from. -/
structure MadeFrom (r : TargetRequest) (deps : Dependencies) (target : Target) : Prop where
  dependencies : r.dependencies = .ok deps
  script : r.script deps = .ok target.script
  bootAction : target.bootAction = r.bootAction deps
  runfiles : target.runfiles = r.runfiles deps

/-- The targets of one request with its lists in two orders. They are made from the same three files
that were picked; the image files of the one are those of the other in their new order; the runfiles
are the same files, and the boot action is given the same inputs, each as often. -/
structure GivesSameButOrder (r r' : TargetRequest) (target target' : Target) : Prop where
  dependencies : ∃ deps deps', r.MadeFrom deps target ∧ r'.MadeFrom deps' target' ∧
    deps.SameButOrder deps' ∧
    deps'.image.images = r'.systemImage.files.filter fun a => a ∈ deps.image.images
  runfiles : ∀ a, a ∈ target'.runfiles ↔ a ∈ target.runfiles
  inputs : target'.bootAction.inputs.Perm target.bootAction.inputs

/-- Reordering the files of the system image and of the two bundles makes no difference: a request
fails with the same kind of fault, and with the very same issues if its device is not in order, or
it gives the same target but for the order of what is listed. -/
theorem assemble_reordered (hfiles : files.Perm r.systemImage.files)
    (hruntest : runtest.Perm r.tools.runtestFiles) (hshbase : shbase.Perm r.tools.shbaseFiles) :
    EndAlike AssemblyFault.SameButOrder
      (r.GivesSameButOrder (r.withFiles files runtest shbase))
      r.assemble (r.withFiles files runtest shbase).assemble := by
  unfold assemble
  refine (dependencies_reordered hfiles hruntest hshbase).bind ?_
  intro deps deps' hdeps hdeps' ⟨hsame, himages⟩
  refine EndAlike.bind (StubScript.create_endAlike _ deps deps' _ _ |>.mapError ?_) ?_
  · rintro fault _ rfl
    exact .template fault
  · intro script script' hscript hscript' _
    -- the flags are asked for with the same device
    show EndAlike _ _ (r.checkFlags >>= fun _ => _) (r.checkFlags >>= fun _ => _)
    refine r.checkFlags_endAlike.bind fun _ _ _ _ _ => ?_
    refine .ok ⟨⟨deps, deps', ⟨hdeps, hscript, rfl, rfl⟩, ⟨hdeps', hscript', rfl, rfl⟩, hsame,
      himages⟩, fun a => ?_, ?_⟩
    · show a ∈ (r.withFiles files runtest shbase).runfiles deps' ↔ a ∈ r.runfiles deps
      rw [mem_runfiles, mem_runfiles, hsame.common.mem_iff]
      rfl
    · exact hsame.common.append_right _

/-- A phone with an image file that is listed twice, and with bundles of several files. -/
def assorted : TargetRequest :=
  plain.withFiles
    [.source "system.img", .source "source.properties", .source "data.img", .source "data.img"]
    [.derived "bin" "runtest.jar", .source "runtest"]
    [.source "googletest.sh", .source "unittest.bash"]

/-- The same phone with these lists from back to front. -/
def assortedBackwards : TargetRequest :=
  assorted.withFiles assorted.systemImage.files.reverse assorted.tools.runtestFiles.reverse
    assorted.tools.shbaseFiles.reverse

theorem assorted_reordered :
    ∃ target target', assorted.assemble = .ok target ∧ assortedBackwards.assemble = .ok target' ∧
      assorted.GivesSameButOrder assortedBackwards target target' ∧
      ∃ deps', assortedBackwards.dependencies = .ok deps' ∧
        deps'.image.images = [.source "data.img", .source "data.img", .source "system.img"] := by
  obtain ⟨target, h⟩ : ∃ target, assorted.assemble = .ok target :=
    assemble_ok ⟨plain_inOrder.1, by decide +kernel⟩ (by decide +kernel) (by decide +kernel)
      Template.meetsEachOnce_tokens plain_writable
  have halike : EndAlike AssemblyFault.SameButOrder (assorted.GivesSameButOrder assortedBackwards)
      assorted.assemble assortedBackwards.assemble :=
    assemble_reordered (List.reverse_perm _) (List.reverse_perm _) (List.reverse_perm _)
  obtain ⟨target', h', hsame⟩ := halike.exists_ok h
  obtain ⟨deps', hdeps', himages⟩ : ∃ deps', assortedBackwards.dependencies = .ok deps' ∧
      deps'.image.images = [.source "data.img", .source "data.img", .source "system.img"] :=
    ⟨_, rfl, by decide +kernel⟩
  exact ⟨target, target', h, h', hsame, deps', hdeps', himages⟩

end TargetRequest

end EmulatedDevice
