import EmulatedDevice.Proofs.Assembly
import EmulatedDevice.Proofs.MakeDirectories
import EmulatedDevice.Proofs.PairMoves

/-!
# What publishing leaves behind

Publishing makes a directory and moves a pair of files into it, so what a caller
finds afterwards is put together from what making directories adds and what
moving the pair changes. A call that succeeds leaves both files whole. A call
that is refused leaves neither, and a script and a descriptor of different calls
are never left side by side by it.

The price is paid by an earlier script. When the descriptor is refused the new
script has already replaced the earlier one, and taking the new one back does not
bring the earlier one back. The place of the descriptor has no such trouble: it
is written last.
-/

namespace EmulatedDevice

open Function (update)

namespace FileTree

/-! ## The two places -/

/-- A step whose name goes on where another name ends leads elsewhere. -/
theorem stepFrom_append_ne (here : Location) (last : String) {more : String}
    (hlong : 2 < more.toList.length) :
    stepFrom here (last ++ more) ≠
      (if Path.IsComponent last then [last] else []).foldl stepFrom here := by
  have hlength : (last ++ more).toList.length = last.toList.length + more.toList.length := by
    rw [String.toList_append, List.length_append]
  have hup : last ++ more ≠ ".." := by
    intro heq
    have htwo : "..".toList.length = 2 := rfl
    rw [heq] at hlength
    omega
  rw [stepFrom, if_neg hup]
  intro heq
  split at heq
  · rw [List.foldl_cons, List.foldl_nil, stepFrom] at heq
    split at heq
    · have hdepth := congrArg List.length heq
      rw [List.length_cons, List.length_tail] at hdepth
      omega
    · rw [(List.cons.inj heq).1] at hlength
      omega
  · have hdepth := congrArg List.length heq
    rw [List.length_cons, List.foldl_nil] at hdepth
    omega

/-- The places of a script and of its descriptor differ, whatever the name is: the
name of the descriptor goes on where the name of the script ends. -/
theorem placeOf_descriptorPath_ne (t : FileTree) (directory : Path) (name : String) :
    t.placeOf (descriptorPath directory name) ≠ t.placeOf (scriptPath directory name) := by
  have hslash : '/' ∉ "_boot_action.json".toList := by decide
  have hlong : 2 < "_boot_action.json".toList.length := by decide
  obtain ⟨front, last, hroot, hdescriptor, hscript⟩ :=
    Path.join_append directory name hslash hlong
  have hstart : t.startOf (descriptorPath directory name) =
      t.startOf (scriptPath directory name) := by
    unfold startOf descriptorPath descriptorName
    rw [hroot]
    rfl
  unfold placeOf
  rw [hstart, scriptPath, hscript, descriptorPath, descriptorName, hdescriptor,
    List.foldl_append, List.foldl_append]
  exact stepFrom_append_ne _ last hlong

/-! ## With the directory -/

/-- Either the directory cannot be made, or it is there and the pair is moved. -/
theorem writePair_outcome (t : FileTree) (directory : Path) (name : String)
    (mode : Nat) (script descriptor : List UInt8) :
    let made := (t.makeDirectories directory).1
    let result := t.writePair directory name mode script descriptor
    (made.isDirectory directory = false ∧ ∃ fault, result = (made, .error fault)) ∨
      (made.isDirectory directory = true ∧
        made.PairOutcome (scriptPath directory name) (descriptorPath directory name)
          (.file script mode) (.file descriptor defaultMode) result) := by
  intro made result
  have hok := (t.makeDirectories_wayMade directory).ok_iff
  rcases hmade : t.makeDirectories directory with ⟨made', outcome⟩
  simp only [made, result, writePair, hmade] at *
  cases outcome with
  | error fault =>
      refine .inl ⟨eq_false_of_ne_true fun hdir => ?_, fault, rfl⟩
      cases hok.2 hdir
  | ok _ =>
      have hdir := hok.1 rfl
      obtain ⟨hcheck, place, hleads⟩ := isDirectory_iff.1 hdir
      have hlocate := locate_ok_iff.2 ⟨hcheck, hleads.walk⟩
      refine .inr ⟨hdir, ?_⟩
      simp only [hlocate]
      exact movePair_outcome (temporaries_fresh _ _ _ _) nofun nofun

/-- Publishing a target whose script expands is writing the two texts. -/
theorem writePair_of_publish {t after : FileTree} {target : Target} {text : String}
    {directory : Path} {name : String} {result : Except PublicationFault Unit}
    (hexpand : target.script.expand = .ok text)
    (h : t.publish target directory name = (after, result)) :
    ∃ written, result = written.mapError .file ∧
      t.writePair directory name (publishedMode target.script.executable)
        (Text.encodeUtf8 text.toList) (Text.encodeUtf8 target.descriptorText.toList) =
          (after, written) := by
  rw [publish, hexpand] at h
  obtain ⟨rfl, rfl⟩ := Prod.mk.inj h
  exact ⟨_, rfl, rfl⟩

theorem eq_error_of_mapError {written : Except FileFault Unit} {fault : FileFault}
    (h : written.mapError PublicationFault.file = .error (.file fault)) :
    written = .error fault := by
  cases written with
  | ok _ => cases h
  | error other =>
      obtain rfl := PublicationFault.file.inj (Except.error.inj h)
      rfl

/-! ## What a caller finds -/

theorem KeptOrMade.congr {t made after : FileTree} {p : Path} {location : Location}
    (h : t.KeptOrMade p made location)
    (hafter : after.get? location = made.get? location) :
    t.KeptOrMade p after location := by
  unfold KeptOrMade
  rw [hafter]
  exact h

/-- A tree with a script and its descriptor under their names. Nothing else has
come or gone but directories on the way, so no temporary file is left. -/
structure Published (t : FileTree) (directory : Path) (name : String)
    (script : List UInt8) (mode : Nat) (descriptor : List UInt8)
    (after : FileTree) : Prop where
  script : after.find (scriptPath directory name) = .ok (.file script mode)
  descriptor : after.find (descriptorPath directory name) = .ok (.file descriptor 0o644)
  elsewhere : ∀ location, location ≠ t.placeOf (scriptPath directory name) →
    location ≠ t.placeOf (descriptorPath directory name) →
    t.KeptOrMade directory after location

/-- A tree with neither of the two, and with no temporary file left. Only the place
of the script can have lost what it held, and then there is nothing; a path to an
entry leads to no file there at all. -/
structure NotPublished (t : FileTree) (directory : Path) (name : String)
    (after : FileTree) : Prop where
  elsewhere : ∀ location, location ≠ t.placeOf (scriptPath directory name) →
    t.KeptOrMade directory after location
  script : t.KeptOrMade directory after (t.placeOf (scriptPath directory name)) ∨
    after.get? (t.placeOf (scriptPath directory name)) = none
  noScript : Path.IsEntryName name → after.NoFileAt (scriptPath directory name)

section Results

variable {t after : FileTree} {directory : Path} {name : String} {mode : Nat}
  {script descriptor : List UInt8} {fault : FileFault}

theorem published_of_writePair
    (h : t.writePair directory name mode script descriptor = (after, .ok ())) :
    t.Published directory name script mode descriptor after := by
  have hway := (t.makeDirectories_wayMade directory).makesWay
  have hne := t.placeOf_descriptorPath_ne directory name
  rcases t.writePair_outcome directory name mode script descriptor with
    ⟨_, fault, hfail⟩ | ⟨_, houtcome⟩
  · rw [h] at hfail
    cases hfail
  · rw [h] at houtcome
    cases houtcome with
    | published hscript hdescriptor hafter =>
        have hsame : (t.makeDirectories directory).1.SameDirectories after := by
          refine hafter.sameDirectories (((ShowsDirectories.refl _).update
            hscript.free ?_).update hdescriptor.free ?_)
          · nofun
          · nofun
        have hscript' := (hsame.takes hscript).destination
        have hdescriptor' := (hsame.takes hdescriptor).destination
        rw [hsame.1.placeOf, hway.keepsDirectories.placeOf] at hscript' hdescriptor'
        rw [hway.keepsDirectories.placeOf, hway.keepsDirectories.placeOf] at hafter
        refine ⟨find_of_destination hscript' ?_, find_of_destination hdescriptor' ?_,
          fun location hnot hnot' => ?_⟩
        · rw [hafter.get?, Function.update_of_ne hne.symm, Function.update_self]
        · rw [hafter.get?, Function.update_self]
          rfl
        · refine (hway.keptOrMade location).congr ?_
          rw [hafter.get?, Function.update_of_ne hnot', Function.update_of_ne hnot]

/-- What a refusal leaves, by the step that was refused. Until the script is moved
nothing is lost; a refused descriptor takes the script with it. -/
theorem writePair_refused
    (h : t.writePair directory name mode script descriptor = (after, .error fault))
    (hrefusal : fault.isRefusal = true) :
    let made := (t.makeDirectories directory).1
    (made.isDirectory directory = false ∧ after = made) ∨
      (made.isDirectory directory = true ∧
        ((¬ made.Takes (scriptPath directory name) ∧ made.ChangedTo made.get? after) ∨
          (made.Takes (scriptPath directory name) ∧
            ¬ made.Takes (descriptorPath directory name) ∧
            made.ChangedTo
              (update made.get? (t.placeOf (scriptPath directory name)) none) after))) := by
  intro made
  have hway := (t.makeDirectories_wayMade directory).makesWay
  rcases t.writePair_outcome directory name mode script descriptor with
    ⟨hdir, fault', hfail⟩ | ⟨hdir, houtcome⟩
  · rw [h] at hfail
    exact .inl ⟨hdir, (Prod.mk.inj hfail).1⟩
  · rw [h] at houtcome
    cases houtcome with
    | scriptRefused hscript hafter =>
        exact .inr ⟨hdir, .inl ⟨hscript, hafter hrefusal⟩⟩
    | descriptorRefused hscript hdescriptor hafter =>
        rw [hway.keepsDirectories.placeOf] at hafter
        exact .inr ⟨hdir, .inr ⟨hscript, hdescriptor, hafter hrefusal⟩⟩

/-- Until the script is moved, its place keeps what it held. -/
theorem script_kept
    (h : t.writePair directory name mode script descriptor = (after, .error fault))
    (hrefusal : fault.isRefusal = true)
    (hno : ¬ ((t.makeDirectories directory).1.isDirectory directory = true ∧
      (t.makeDirectories directory).1.Takes (scriptPath directory name)))
    (location : Location) : t.KeptOrMade directory after location := by
  have hway := (t.makeDirectories_wayMade directory).makesWay
  rcases writePair_refused h hrefusal with
    ⟨_, rfl⟩ | ⟨hdir, ⟨_, hafter⟩ | ⟨htakes, _, _⟩⟩
  · exact hway.keptOrMade _
  · exact (hway.keptOrMade _).congr (by rw [hafter.get?])
  · exact absurd ⟨hdir, htakes⟩ hno

/-- Once the script has been moved, only the descriptor can be refused, and the
place of the script is empty in the end. -/
theorem script_lost
    (h : t.writePair directory name mode script descriptor = (after, .error fault))
    (hrefusal : fault.isRefusal = true)
    (hdir : (t.makeDirectories directory).1.isDirectory directory = true)
    (htakes : (t.makeDirectories directory).1.Takes (scriptPath directory name)) :
    ¬ (t.makeDirectories directory).1.Takes (descriptorPath directory name) ∧
      after.get? (t.placeOf (scriptPath directory name)) = none := by
  rcases writePair_refused h hrefusal with
    ⟨hno, _⟩ | ⟨_, ⟨hscript, _⟩ | ⟨_, hdescriptor, hafter⟩⟩
  · rw [hdir] at hno
    cases hno
  · exact absurd htakes hscript
  · refine ⟨hdescriptor, ?_⟩
    rw [hafter.get?, Function.update_self]

theorem notPublished_of_writePair
    (h : t.writePair directory name mode script descriptor = (after, .error fault))
    (hrefusal : fault.isRefusal = true) : t.NotPublished directory name after := by
  have hway := (t.makeDirectories_wayMade directory).makesWay
  rcases writePair_refused h hrefusal with
    ⟨hdir, rfl⟩ | ⟨_, ⟨hscript, hafter⟩ | ⟨hscript, _, hafter⟩⟩
  · exact ⟨fun location _ => hway.keptOrMade location, .inl (hway.keptOrMade _),
      fun hname => .of_not_isDirectory hname hdir⟩
  · have hkept location : t.KeptOrMade directory after location :=
      (hway.keptOrMade location).congr (by rw [hafter.get?])
    have hsame := hafter.sameDirectories (.refl _)
    exact ⟨fun location _ => hkept location, .inl (hkept _),
      fun hname => .of_not_takes hname fun htakes => hscript (hsame.symm.takes htakes)⟩
  · have hgone : after.get? (t.placeOf (scriptPath directory name)) = none := by
      rw [hafter.get?, Function.update_self]
    refine ⟨fun location hne => ?_, .inr hgone, fun _ => .of_get?_eq_none ?_⟩
    · refine (hway.keptOrMade location).congr ?_
      rw [hafter.get?, Function.update_of_ne hne]
    · rw [placeOf, startOf, hafter.workingDirectory, hway.workingDirectory]
      exact hgone

/-- An earlier script that the path led to is one that the new script replaces. -/
theorem takes_of_earlier (hname : Path.IsEntryName name) {content : List UInt8}
    {mode : Nat} (h : t.find (scriptPath directory name) = .ok (.file content mode)) :
    (t.makeDirectories directory).1.isDirectory directory = true ∧
      (t.makeDirectories directory).1.Takes (scriptPath directory name) := by
  have hway := (t.makeDirectories_wayMade directory).makesWay
  have hkeeps := hway.keepsDirectories
  have hdir : t.isDirectory directory = true := by
    by_contra hno
    exact NoFileAt.of_not_isDirectory hname (eq_false_of_ne_true hno) content mode h
  obtain ⟨hcheck, place, hleads⟩ := isDirectory_iff.1 hdir
  have htakes := takes_of_find (getLast?_entry directory hname) hname.2 h
  refine ⟨isDirectory_iff.2 ⟨hcheck, _, hkeeps.leadsTo hleads⟩, ?_, ?_⟩
  · rw [hkeeps.placeOf]
    exact hkeeps.destination htakes.destination
  · have hnode := find_eq_placeOf h
    rw [hkeeps.placeOf, (hway.keptOrMade _).eq_of_ne_none (by rw [hnode]; nofun), hnode]
    nofun

end Results

/-! ## Publishing a target -/

variable {r : TargetRequest} {target : Target}

/-- Publishing an assembled target either leaves the whole script and the whole
descriptor under their names, or it leaves neither. A script and a descriptor of
different calls never end up side by side by a call that was refused. -/
theorem publish_outcome (t : FileTree) (h : r.assemble = .ok target)
    (directory : Path) (name : String) :
    ∃ text, target.script.expand = .ok text ∧
      ∀ after result, t.publish target directory name = (after, result) →
        match result with
        | .ok () =>
          t.Published directory name (Text.encodeUtf8 text.toList) 0o755
            (Text.encodeUtf8 target.descriptorText.toList) after
        | .error (.file fault) =>
          fault.isRefusal = true → t.NotPublished directory name after
        | .error (.template _) => False := by
  obtain ⟨hexecutable, text, htext⟩ := TargetRequest.expand_of_assemble h
  refine ⟨text, htext, fun after result hpublish => ?_⟩
  obtain ⟨written, rfl, hwritten⟩ := writePair_of_publish htext hpublish
  rw [hexecutable] at hwritten
  cases written with
  | ok _ => exact published_of_writePair hwritten
  | error fault => exact notPublished_of_writePair hwritten

/-- An empty tree takes the pair, in a directory that is made for it. -/
theorem publish_plain :
    ∃ target text after, TargetRequest.plain.assemble = .ok target ∧
      target.script.expand = .ok text ∧
      empty.publish target (.ofString "out") "phone" = (after, .ok ()) ∧
      empty.Published (.ofString "out") "phone" (Text.encodeUtf8 text.toList) 0o755
        (Text.encodeUtf8 target.descriptorText.toList) after := by
  obtain ⟨target, h⟩ := TargetRequest.plain_assembles
  obtain ⟨text, htext, houtcome⟩ :=
    publish_outcome empty h (.ofString "out") "phone"
  have hpublish : empty.publish target (.ofString "out") "phone" =
      ((empty.publish target (.ofString "out") "phone").1, .ok ()) := by
    rw [publish, htext]
    rfl
  exact ⟨target, text, _, h, htext, hpublish, houtcome _ _ hpublish⟩

/-- A way to the directory that leads through the place of the descriptor leaves
a directory there, although the call is refused. -/
theorem publish_through_descriptor :
    ∃ target after, TargetRequest.plain.assemble = .ok target ∧
      empty.publish target (.ofString "phone_boot_action.json/..") "phone" =
        (after, .error (.file .isDirectory)) ∧
      empty.placeOf (descriptorPath (.ofString "phone_boot_action.json/..") "phone") =
        ["phone_boot_action.json", "work"] ∧
      empty.get? ["phone_boot_action.json", "work"] = none ∧
      after.get? ["phone_boot_action.json", "work"] = some .directory := by
  obtain ⟨target, h⟩ := TargetRequest.plain_assembles
  obtain ⟨_, text, htext⟩ := TargetRequest.expand_of_assemble h
  refine ⟨target, (empty.publish target (.ofString "phone_boot_action.json/..") "phone").1,
    h, ?_, by decide, by decide, ?_⟩
  · rw [publish, htext]
    rfl
  · rw [publish, htext]
    rfl

/-- What a refused call has done to the two places. The place of the descriptor
keeps what it held. So does the place of the script, unless the descriptor was
what was refused; then it is empty, and an earlier script that the path led to is
always lost that way. -/
theorem publish_refused (t : FileTree) (h : r.assemble = .ok target)
    (directory : Path) (name : String) {after : FileTree} {fault : FileFault}
    (hrefused : t.publish target directory name = (after, .error (.file fault)))
    (hrefusal : fault.isRefusal = true) :
    let made := (t.makeDirectories directory).1
    let script := scriptPath directory name
    let descriptor := descriptorPath directory name
    t.KeptOrMade directory after (t.placeOf descriptor) ∧
      (¬ (made.isDirectory directory = true ∧ made.Takes script) →
        t.KeptOrMade directory after (t.placeOf script)) ∧
      (made.isDirectory directory = true → made.Takes script →
        ¬ made.Takes descriptor ∧ after.get? (t.placeOf script) = none) ∧
      (Path.IsEntryName name → ∀ content mode,
        t.find script = .ok (.file content mode) →
          after.get? (t.placeOf script) = none) := by
  intro made script descriptor
  obtain ⟨_, text, htext⟩ := TargetRequest.expand_of_assemble h
  obtain ⟨written, hwritten, hwrite⟩ := writePair_of_publish htext hrefused
  obtain rfl := eq_error_of_mapError hwritten.symm
  have hne := t.placeOf_descriptorPath_ne directory name
  refine ⟨(notPublished_of_writePair hwrite hrefusal).elsewhere _ hne,
    fun hno => script_kept hwrite hrefusal hno _, script_lost hwrite hrefusal, ?_⟩
  intro hentry content mode hfind
  obtain ⟨hdir, htakes⟩ := takes_of_earlier hentry hfind
  exact (script_lost hwrite hrefusal hdir htakes).2

/-- A tree in which an earlier call has left a script, and in which the name of
its descriptor is taken by a directory. -/
def earlier : FileTree where
  nodes :=
    [ (["work"], .directory)
    , (["out", "work"], .directory)
    , (["phone", "out", "work"], .file "old".toUTF8.toList 0o755)
    , (["phone_boot_action.json", "out", "work"], .directory) ]
  workingDirectory := ["work"]

theorem publish_refused_earlier :
    ∃ target after, TargetRequest.plain.assemble = .ok target ∧
      earlier.publish target (.ofString "out") "phone" =
        (after, .error (.file .isDirectory)) ∧
      earlier.KeptOrMade (.ofString "out") after ["phone_boot_action.json", "out", "work"] ∧
      after.get? ["phone", "out", "work"] = none := by
  obtain ⟨target, h⟩ := TargetRequest.plain_assembles
  obtain ⟨_, text, htext⟩ := TargetRequest.expand_of_assemble h
  have hrefused : earlier.publish target (.ofString "out") "phone" =
      ((earlier.publish target (.ofString "out") "phone").1,
        .error (.file .isDirectory)) := by
    rw [publish, htext]
    rfl
  obtain ⟨hdescriptor, _, _, hlost⟩ :=
    publish_refused earlier h (.ofString "out") "phone" hrefused rfl
  exact ⟨target, _, h, hrefused, hdescriptor, hlost (by decide) _ _ rfl⟩

/-- The earlier script is gone. -/
theorem earlier_script_lost :
    ∃ target after, TargetRequest.plain.assemble = .ok target ∧
      earlier.publish target (.ofString "out") "phone" =
        (after, .error (.file .isDirectory)) ∧
      earlier.find (scriptPath (.ofString "out") "phone") =
        .ok (.file "old".toUTF8.toList 0o755) ∧
      after.find (scriptPath (.ofString "out") "phone") = .error .notFound := by
  obtain ⟨target, h⟩ := TargetRequest.plain_assembles
  obtain ⟨_, text, htext⟩ := TargetRequest.expand_of_assemble h
  refine ⟨target, (earlier.publish target (.ofString "out") "phone").1, h, ?_, rfl, ?_⟩
  · rw [publish, htext]
    rfl
  · rw [publish, htext]
    rfl

end FileTree

end EmulatedDevice
