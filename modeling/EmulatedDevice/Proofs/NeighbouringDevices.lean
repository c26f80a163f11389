import EmulatedDevice.Proofs.DevicePlaces
import EmulatedDevice.Proofs.LaterRuns

/-!
# Devices beside each other

The pair of a device takes two names in the output directory, its own and its own
with `_boot_action.json` behind it. Two devices with different names have different
first names, and they have different second ones, because the same text stands
behind both. But the first name of one device can be the second name of the other:
the text that is put behind has nothing in it that a name may not have.

Only then do they meet, and the run that comes later wins. It shows in the mode:
where a script stood a descriptor stands that cannot be executed, or the other way
round.
-/

namespace EmulatedDevice

/-! ## The two names of a device -/

theorem descriptorName_inj {name name' : String} (h : descriptorName name = descriptorName name') :
    name = name' := by
  have htext := congrArg String.toList h
  rw [descriptorName, descriptorName, String.toList_append, String.toList_append] at htext
  exact String.toList_inj.1 (List.append_cancel_right htext)

/-- Whatever the name of a device is, its descriptor has the name of an entry. -/
theorem isEntryName_descriptorName {name : String} (h : '/' ∉ name.toList) :
    Path.IsEntryName (descriptorName name) := by
  have hlength : (descriptorName name).toList.length = name.toList.length + 17 := by
    rw [descriptorName, String.toList_append, List.length_append]
    rfl
  have hne (other : String) (hshort : other.toList.length ≤ 2) : descriptorName name ≠ other := by
    intro heq
    rw [heq] at hlength
    omega
  exact ⟨⟨hne _ (by decide), hne _ (by decide), Path.not_mem_descriptorName h (by decide)⟩,
    hne _ (by decide)⟩

namespace FileTree

variable {t after : FileTree} {directory directory' : Path} {name name' : String}
  {script descriptor script' descriptor' : List UInt8}

/-- The pair of a device in a directory: a script that can be executed and a descriptor. -/
structure HoldsPair (t : FileTree) (directory : Path) (name : String)
    (script descriptor : List UInt8) : Prop where
  script : t.find (scriptPath directory name) = .ok (.file script 0o755)
  descriptor : t.find (descriptorPath directory name) = .ok (.file descriptor 0o644)

theorem holdsPair_of_writePair
    (h : t.writePair directory name 0o755 script descriptor = (after, .ok ())) :
    after.HoldsPair directory name script descriptor := by
  obtain ⟨hscript, hdescriptor, _⟩ := published_of_writePair h
  exact ⟨hscript, hdescriptor⟩

section Places

variable (hname : Path.IsEntryName name)
include hname

theorem placeOf_scriptPath (t : FileTree) (directory : Path) :
    t.placeOf (scriptPath directory name) = name :: t.placeOf directory :=
  (Path.isEntry_join directory hname).place t

theorem placeOf_descriptorPath (t : FileTree) (directory : Path) :
    t.placeOf (descriptorPath directory name) = descriptorName name :: t.placeOf directory :=
  (Path.isEntry_join directory (isEntryName_descriptorName hname.1.not_slash)).place t

end Places

/-! ## A second pair in the directory -/

/-- Neither of two names is that of the other's descriptor. -/
structure Apart (name name' : String) : Prop where
  script : name ≠ descriptorName name'
  descriptor : name' ≠ descriptorName name

/-- A pair is left alone by the pair of another device just when the two are apart. -/
theorem holdsPair_iff_apart (h : t.HoldsPair directory name script descriptor)
    (hwrite : t.writePair directory' name' 0o755 script' descriptor' = (after, .ok ()))
    (hname : Path.IsEntryName name) (hname' : Path.IsEntryName name') (hne : name' ≠ name)
    (hplace : t.placeOf directory' = t.placeOf directory) :
    after.HoldsPair directory name script descriptor ↔ Apart name name' := by
  have hkeeps := keepsDirectories_of_writePair hwrite
  have hnew := holdsPair_of_writePair hwrite
  constructor
  · intro hheld
    -- one place has one mode
    have hmodes {p q : Path} {content content' : List UInt8} {mode mode' : Nat}
        (hp : after.find p = .ok (.file content mode))
        (hq : after.find q = .ok (.file content' mode')) (heq : t.placeOf p = t.placeOf q) :
        mode = mode' := by
      have hp := find_eq_placeOf hp
      have hq := find_eq_placeOf hq
      rw [hkeeps.placeOf] at hp hq
      rw [heq, hq] at hp
      exact (FileNode.file.inj (Option.some.inj hp)).2.symm
    refine ⟨fun heq => ?_, fun heq => ?_⟩
    · refine absurd (hmodes hheld.script hnew.descriptor ?_) (by decide)
      rw [placeOf_scriptPath hname, placeOf_descriptorPath hname', hplace, heq]
    · refine absurd (hmodes hheld.descriptor hnew.script ?_) (by decide)
      rw [placeOf_descriptorPath hname, placeOf_scriptPath hname', hplace, heq]
  · intro hapart
    refine ⟨find_of_writePair hwrite h.script ?_ ?_,
      find_of_writePair hwrite h.descriptor ?_ ?_⟩
    · rw [placeOf_scriptPath hname, placeOf_scriptPath hname']
      exact fun heq => hne (List.cons.inj heq).1.symm
    · rw [placeOf_scriptPath hname, placeOf_descriptorPath hname']
      exact fun heq => hapart.script (List.cons.inj heq).1
    · rw [placeOf_descriptorPath hname, placeOf_scriptPath hname']
      exact fun heq => hapart.descriptor (List.cons.inj heq).1.symm
    · rw [placeOf_descriptorPath hname, placeOf_descriptorPath hname']
      exact fun heq => hne (descriptorName_inj (List.cons.inj heq).1.symm)

/-- After one pair another one can be written, if it could have been written in its stead. -/
theorem writePair_after {mode mode' : Nat}
    (h : t.writePair directory name mode script descriptor = (after, .ok ()))
    (htakes : (t.makeDirectories directory).1.TakesPair directory name') :
    ∃ later, after.writePair directory name' mode' script' descriptor' = (later, .ok ()) := by
  obtain ⟨hfirst, rfl⟩ := writePair_ok_iff.1 h
  have hagain := htakes.congr (hfirst.sameDirectories mode script descriptor)
  refine ⟨_, writePair_ok_iff.2 ⟨?_, rfl⟩⟩
  rw [makeDirectories_of_isDirectory hagain.made]
  exact hagain

end FileTree

/-- Whether there is a target is a matter of the device, its system image, the tools and the
template. -/
theorem TargetRequest.exists_assemble_congr {r r' : TargetRequest} (hspec : r'.spec = r.spec)
    (himage : r'.systemImage = r.systemImage) (htools : r'.tools = r.tools)
    (htemplate : r'.template = r.template) (h : ∃ target, r.assemble = .ok target) :
    ∃ target, r'.assemble = .ok target := by
  obtain ⟨horder, hmeets, hwritable⟩ := exists_assemble_iff.1 h
  refine exists_assemble_iff.2 ⟨?_, ⟨?_, ?_, ?_⟩, hspec ▸ hwritable⟩
  · rw [InOrder, hspec, himage]
    exact horder
  · rw [runtestCount, htools]
    exact hmeets.runtest
  · rw [shbaseCount, htools]
    exact hmeets.shbase
  · rw [htemplate]
    exact hmeets.template

namespace CommandLine.Lower

variable {t : FileTree} {environment environment' : Environment} {words words' : List String}
  {options options' : Options} {inputs inputs' : Inputs}

/-! ## Two runs -/

/-- The pair that a run has written, under a name that an entry can have. -/
theorem Loads.holdsPair (h : Loads t environment words options inputs)
    (hending : (run t environment words).2.ending = .returned 0) :
    Path.IsEntryName inputs.declaration.name ∧ ∃ script descriptor,
      t.writePair options.output inputs.declaration.name 0o755 script descriptor =
          ((run t environment words).1, .ok ()) ∧
        (run t environment words).1.HoldsPair options.output inputs.declaration.name script
          descriptor := by
  obtain ⟨_, _, _, _, hwrite⟩ := h.exists_writePair hending
  obtain ⟨_, _, hload⟩ := h
  exact ⟨FileTree.isEntryName_of_writePair (isName_of_loadInputs hload) hwrite, _, _, hwrite,
    FileTree.holdsPair_of_writePair hwrite⟩

/-- When two devices with different names are lowered into one directory, the files of the first
are as they were written exactly if neither name is that of the other's descriptor. -/
theorem earlier_device_kept (h : Loads t environment words options inputs)
    (hending : (run t environment words).2.ending = .returned 0)
    (h' : Loads (run t environment words).1 environment' words' options' inputs')
    (hending' : (run (run t environment words).1 environment' words').2.ending = .returned 0)
    (hplace : t.placeOf options'.output = t.placeOf options.output)
    (hne : inputs'.declaration.name ≠ inputs.declaration.name) :
    let after := (run t environment words).1
    let later := (run after environment' words').1
    ∃ script descriptor,
      after.HoldsPair options.output inputs.declaration.name script descriptor ∧
        (later.HoldsPair options.output inputs.declaration.name script descriptor ↔
          FileTree.Apart inputs.declaration.name inputs'.declaration.name) := by
  intro after later
  obtain ⟨hname, script, descriptor, hwrite, hheld⟩ := h.holdsPair hending
  obtain ⟨hname', _, _, hwrite', _⟩ := h'.holdsPair hending'
  refine ⟨script, descriptor, hheld,
    FileTree.holdsPair_iff_apart hheld hwrite' hname hname' hne ?_⟩
  have hkeeps := FileTree.keepsDirectories_of_writePair hwrite
  rw [hkeeps.placeOf, hkeeps.placeOf, hplace]

/-! ## Neighbours of the phone -/

/-- The declaration of a device with some name. -/
def neighbour (name : String) : FileNode :=
  sampleFile
    [ "\x7b\"name\":\"", name, "\",\"horizontal_resolution\"", ":320,", "\"vertical_resolution\""
    , ":240,", "\"ram\":512", ",\"screen_density\"", ":160,", "\"cache\":32,", "\"vm_heap\":16,"
    , "\"system_image\":", "\x7b\"label\":\"i\",", "\"files\":[", "\"source.properties\""
    , "]\x7d\x7d" ]

/-- The tree of the phone with a tablet, and with a device that is called like the descriptor of
the phone. -/
def neighbourTree : FileTree :=
  { sampleTree with
    nodes := sampleTree.nodes ++
      [ (["tablet.json", "work"], neighbour "tablet")
      , (["clash.json", "work"], neighbour "phone_boot_action.json") ] }

def neighbourInputs (name : String) : Inputs :=
  ⟨namedDeclaration name, sampleTools, sampleTemplate⟩

/-- A device in the tree that can be lowered into `out` under its name. -/
structure IsNeighbour (device name : String) : Prop where
  loads : Loads neighbourTree ⟨none, none, none⟩ (sampleWords device) (sampleOptions device)
    (neighbourInputs name)
  halfFree : isHalfFree neighbourTree (sampleOptions device) (neighbourInputs name) = true
  takes : (neighbourTree.makeDirectories (.ofString "out")).1.TakesPair (.ofString "out") name

theorem neighbour_assembles (device name : String) :
    ∃ target, (request (sampleOptions device) (neighbourInputs name)).assemble = .ok target := by
  refine TargetRequest.exists_assemble_congr ?_ ?_ ?_ ?_ sampleTree_phone_assembles
  all_goals
    simp only [request]
    rfl

theorem hasSampleTools_neighbourTree : HasSampleTools neighbourTree := ⟨rfl, rfl⟩

theorem isNeighbour_phone : IsNeighbour "phone.json" "phone" := by
  have hfind : neighbourTree.find (.ofString "phone.json") =
      sampleTree.find (.ofString "phone.json") := rfl
  have hdevice := (FileTree.loadDeclaration_congr _ hfind).trans sampleTree_phone
  have hother := (FileTree.loadDeclaration_congr _ hfind).trans sampleTree_otherPhone
  exact ⟨hasSampleTools_neighbourTree.loads rfl hdevice,
    hasSampleTools_neighbourTree.isHalfFree hother, by decide, ⟨rfl, by decide⟩, ⟨rfl, by decide⟩⟩

theorem isNeighbour_tablet : IsNeighbour "tablet.json" "tablet" :=
  ⟨hasSampleTools_neighbourTree.loads rfl (eq_ok_of_toOption (by decide +kernel)),
    hasSampleTools_neighbourTree.isHalfFree (eq_ok_of_toOption (by decide +kernel)), by decide,
    ⟨rfl, by decide⟩, ⟨rfl, by decide⟩⟩

theorem isNeighbour_clash : IsNeighbour "clash.json" "phone_boot_action.json" :=
  ⟨hasSampleTools_neighbourTree.loads rfl (eq_ok_of_toOption (by decide +kernel)),
    hasSampleTools_neighbourTree.isHalfFree (eq_ok_of_toOption (by decide +kernel)), by decide,
    ⟨rfl, by decide⟩, ⟨rfl, by decide⟩⟩

/-- Two neighbours can be lowered one after the other, unless the first is written over what the
second is made of. -/
theorem IsNeighbour.lowered {device device' name name' : String} (h : IsNeighbour device name)
    (h' : IsNeighbour device' name')
    (hapart : ∀ p ∈ (sampleOptions device').sources,
      neighbourTree.placeOf p ∉ writtenPlaces neighbourTree (sampleOptions device) name) :
    let first := run neighbourTree ⟨none, none, none⟩ (sampleWords device)
    first.2.ending = .returned 0 ∧
      Loads first.1 ⟨none, none, none⟩ (sampleWords device') (sampleOptions device')
        (neighbourInputs name') ∧
      (run first.1 ⟨none, none, none⟩ (sampleWords device')).2.ending = .returned 0 := by
  intro first
  obtain ⟨target, hassemble⟩ := neighbour_assembles device name
  obtain ⟨_, text, htext⟩ := TargetRequest.expand_of_assemble hassemble
  obtain ⟨hfirst, hending⟩ := h.loads.run_of_published hassemble h.halfFree
    ((FileTree.publish_ok_iff hassemble htext).2 (FileTree.writePair_ok_iff.2 ⟨h.takes, rfl⟩))
  have hlater := h.loads.later hending h'.loads hapart
  refine ⟨hending, hlater, ?_⟩
  obtain ⟨_, _, _, _, hwrite⟩ := h.loads.exists_writePair hending
  obtain ⟨target', hassemble'⟩ := neighbour_assembles device' name'
  obtain ⟨_, text', htext'⟩ := TargetRequest.expand_of_assemble hassemble'
  obtain ⟨later, hwrite'⟩ := FileTree.writePair_after hwrite h'.takes
  have hfree := (h.loads.isHalfFree_later hending h'.loads hapart).trans h'.halfFree
  exact (hlater.run_of_published hassemble' hfree
    ((FileTree.publish_ok_iff hassemble' htext').2 hwrite')).2

/-- The phone is as it was after the tablet has been lowered. -/
theorem phone_kept :
    let after := (run neighbourTree ⟨none, none, none⟩ (sampleWords "phone.json")).1
    let later := (run after ⟨none, none, none⟩ (sampleWords "tablet.json")).1
    ∃ script descriptor, after.HoldsPair (.ofString "out") "phone" script descriptor ∧
      later.HoldsPair (.ofString "out") "phone" script descriptor := by
  intro after later
  obtain ⟨hending, hloads, hending'⟩ := isNeighbour_phone.lowered isNeighbour_tablet (by decide)
  obtain ⟨script, descriptor, hafter, hlater⟩ := earlier_device_kept isNeighbour_phone.loads hending
    hloads hending' rfl (by decide)
  exact ⟨script, descriptor, hafter, hlater.2 ⟨by decide, by decide⟩⟩

/-- A device that is called like the descriptor of the phone takes its place. -/
theorem phone_overwritten :
    let first := run neighbourTree ⟨none, none, none⟩ (sampleWords "phone.json")
    let second := run first.1 ⟨none, none, none⟩ (sampleWords "clash.json")
    neighbourTree.loadDeclaration (.ofString "phone.json") = .ok (namedDeclaration "phone") ∧
      neighbourTree.loadDeclaration (.ofString "clash.json") =
        .ok (namedDeclaration "phone_boot_action.json") ∧
      first.2.ending = .returned 0 ∧ second.2.ending = .returned 0 ∧
      ∃ script descriptor, first.1.HoldsPair (.ofString "out") "phone" script descriptor ∧
        ¬ second.1.HoldsPair (.ofString "out") "phone" script descriptor := by
  obtain ⟨hending, hloads, hending'⟩ := isNeighbour_phone.lowered isNeighbour_clash (by decide)
  obtain ⟨hname, script, descriptor, _, hheld⟩ := isNeighbour_phone.loads.holdsPair hending
  obtain ⟨hname', _, _, hwrite', _⟩ := hloads.holdsPair hending'
  refine ⟨isNeighbour_phone.loads.parts.1, isNeighbour_clash.loads.parts.1, hending, hending',
    script, descriptor, hheld, fun hkept => ?_⟩
  have hapart := FileTree.holdsPair_iff_apart hheld hwrite' hname hname' (by decide +kernel) rfl
  exact (hapart.1 hkept).descriptor rfl

end CommandLine.Lower

end EmulatedDevice
