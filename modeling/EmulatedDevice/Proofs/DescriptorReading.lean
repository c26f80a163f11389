import EmulatedDevice.Proofs.JsonDocuments
import EmulatedDevice.Proofs.Publishing
import EmulatedDevice.Proofs.Utf8Text
import EmulatedDevice.Loading

/-!
# A published descriptor can be loaded

The descriptor of a target is a document that other programs read. It goes through
three writers, JSON, UTF-8 and the file tree, and through a reader that unifies line
ends on the way. A carriage return is always escaped, so there are no line ends to
unify, and the name of the file ends in a suffix that announces JSON, whatever the
target is called. So what is loaded is the descriptor itself.

Two things that a boot action always has cannot be seen from its type: its doubles
are kept in one form, and its execution info is a mapping.
-/

namespace EmulatedDevice

/-- Without carriage returns there is nothing to unify. -/
theorem Text.unifyNewlines_eq_self {text : List Char} (h : '\r' ∉ text) :
    unifyNewlines text = text := by
  induction text with
  | nil => rfl
  | cons c text ih =>
      rw [List.mem_cons, not_or] at h
      unfold unifyNewlines
      split
      · next heq => cases heq
      · next heq => exact absurd (List.cons.inj heq).1.symm h.1
      · next heq =>
        obtain ⟨rfl, rfl⟩ := List.cons.inj heq
        rw [if_neg (Ne.symm h.1), ih h.2]

/-- Whatever a target is called, the path of its descriptor announces JSON. -/
theorem suffix_descriptorPath (directory : Path) (name : String) :
    (descriptorPath directory name).suffix = ".json" := by
  have hslash : '/' ∉ "_boot_action.json".toList := by decide
  have hlong : 2 < "_boot_action.json".toList.length := by decide
  obtain ⟨front, last, _, hcomponents, _⟩ := Path.join_append directory name hslash hlong
  have hname : (descriptorPath directory name).name = last ++ "_boot_action.json" := by
    rw [Path.name, descriptorPath, descriptorName, hcomponents, List.getLast?_concat]
    rfl
  have htail : (last ++ "_boot_action.json").toList.reverse.takeWhile (· ≠ '.') =
      ['n', 'o', 's', 'j'] := by
    rw [String.toList_append, List.reverse_append]
    rfl
  have hlength : (last ++ "_boot_action.json").toList.length = last.toList.length + 17 := by
    rw [String.toList_append, List.length_append]
    rfl
  rw [Path.suffix, hname, Path.suffixOf, htail, hlength, if_neg (by simp)]
  rfl

namespace FileTree

theorem readText_of_find {t : FileTree} {p : Path} {text : List Char} {mode : Nat}
    (hfind : t.find p = .ok (.file (Text.encodeUtf8 text) mode)) (hreturn : '\r' ∉ text) :
    t.readText p = .ok text := by
  unfold readText read
  rw [hfind]
  simp only [bind, Except.bind, pure, Except.pure, Except.mapError, Text.decodeUtf8_encodeUtf8]
  rw [Text.unifyNewlines_eq_self hreturn]

/-- A file that holds the document of a mapping is loaded as that mapping. -/
theorem loadDocument_of_find {t : FileTree} {p : Path} {mode : Nat}
    {entries : List (Value × Value)} (h : Json.IsJson (.mapping entries))
    (hsuffix : p.suffix = ".json")
    (hfind : t.find p = .ok (.file
      (Text.encodeUtf8 ((Json.render (.mapping entries)).toList ++ ['\n'])) mode)) :
    t.loadDocument p = .ok (.mapping entries) := by
  have hreturn : '\r' ∉ (Json.render (.mapping entries)).toList ++ ['\n'] := by
    have hnone := h.readsBack.noReturn 0
    rw [Json.render, String.toList_ofList, List.mem_append, not_or]
    exact ⟨hnone, by decide⟩
  have hexists : t.exists? p = .ok true := by rw [exists?, hfind]
  have hform : DocumentForm.ofSuffix? p.suffix = some .json := by
    rw [hsuffix]
    decide +kernel
  have hparse : DocumentForm.json.parse ((Json.render (.mapping entries)).toList ++ ['\n']) =
      .ok (.mapping entries) := by
    rw [DocumentForm.parse, h.readsBack.parse]
    rfl
  unfold loadDocument
  rw [hexists, hform]
  simp only [bind, Except.bind, readText_of_find hfind hreturn, hparse]
  rfl

end FileTree

/-! ## The descriptor -/

theorem isJson_ofTexts (texts : List String) : Json.IsJson (.ofTexts texts) := by
  refine .list fun item hitem => ?_
  obtain ⟨text, _, rfl⟩ := List.mem_map.1 hitem
  exact .text text

/-- A boot action with doubles in the form they are kept in and with each key of its execution
info once. -/
structure BootAction.WellFormed (action : BootAction) : Prop where
  cpu : action.resources.cpu.IsCanonical
  io : action.resources.io.IsCanonical
  info : (action.executionInfo.map Prod.fst).Nodup

/-- An assembled target has such an action. -/
theorem TargetRequest.wellFormed_of_assemble {r : TargetRequest} {target : Target}
    (hinfo : (r.executionInfo.map Prod.fst).Nodup) (h : r.assemble = .ok target) :
    target.bootAction.WellFormed := by
  obtain ⟨deps, script, _, _, rfl⟩ := exists_of_assemble h
  exact ⟨Binary64.isCanonical_one, Binary64.isCanonical_zero false, hinfo⟩

theorem ExecutionInfo.nodup_ofTags (tags : List String) : ((ofTags tags).map Prod.fst).Nodup :=
  Entries.nodup_ofPairs _

theorem Resources.isJson {r : Resources} (hcpu : r.cpu.IsCanonical) (hio : r.io.IsCanonical) :
    Json.IsJson r.toValue := by
  have hkeys : ["cpu", "ram", "io"].Nodup := by decide
  refine .fields hkeys ?_
  simp only [List.forall_mem_cons]
  exact ⟨.float hcpu, .int _, .float hio, nofun⟩

theorem BootAction.WellFormed.isJson {action : BootAction} (h : action.WellFormed) :
    Json.IsJson action.toValue := by
  have hentries : Json.IsJson (.ofFields (action.executionInfo.map fun entry =>
      (entry.1, .text entry.2))) := by
    refine .fields ?_ fun field hfield => ?_
    · rw [List.map_map]
      exact h.info
    · obtain ⟨_, _, rfl⟩ := List.mem_map.1 hfield
      exact .text _
  have hkeys : ["mnemonic", "progress_message", "executable", "arguments", "inputs", "outputs",
      "resources", "execution_info"].Nodup := by
    decide
  refine .fields hkeys ?_
  simp only [List.forall_mem_cons]
  exact ⟨.text _, .text _, .text _, isJson_ofTexts _, isJson_ofTexts _, isJson_ofTexts _,
    Resources.isJson h.cpu h.io, hentries, nofun⟩

/-- The descriptor of a target has a form in JSON. -/
theorem Target.isJson {target : Target} (h : target.bootAction.WellFormed) :
    Json.IsJson target.descriptor := by
  have hkeys : ["label", "device_broker_type", "files_to_build", "runfiles",
      "boot_action"].Nodup := by
    decide
  refine .fields hkeys ?_
  simp only [List.forall_mem_cons]
  exact ⟨.text _, .text _, isJson_ofTexts _, isJson_ofTexts _, h.isJson, nofun⟩

/-- Once a target is published, its descriptor can be loaded: as it was, with the same keys in the
same order, and with numbers for numbers. -/
theorem FileTree.loadDocument_of_publish {t after : FileTree} {target : Target} {directory : Path}
    {name : String} (haction : target.bootAction.WellFormed)
    (h : t.publish target directory name = (after, .ok ())) :
    after.loadDocument (descriptorPath directory name) = .ok target.descriptor := by
  cases hexpand : target.script.expand with
  | error fault =>
      rw [publish, hexpand] at h
      cases h
  | ok text =>
      obtain ⟨written, hwritten, hpair⟩ := writePair_of_publish hexpand h
      cases written with
      | error fault => cases hwritten
      | ok _ =>
          have hdescriptor := (published_of_writePair hpair).descriptor
          rw [Target.descriptorText, String.toList_append] at hdescriptor
          exact loadDocument_of_find (Target.isJson haction)
            (suffix_descriptorPath directory name) hdescriptor

/-- A phone with a label and tags that hold what has to be escaped, and what has not. -/
def TargetRequest.quotedPhone : TargetRequest :=
  { plain with
    label := "//:\"\\téléphone\r\n\u0007\""
    executionInfo := .ofTags ["no-remote", "\t📱", "no-remote"] }

theorem FileTree.loadDocument_quotedPhone :
    ∃ target after, TargetRequest.quotedPhone.assemble = .ok target ∧
      target.label = TargetRequest.quotedPhone.label ∧
      empty.publish target (.ofString "out") "phone" = (after, .ok ()) ∧
      after.loadDocument (descriptorPath (.ofString "out") "phone") = .ok target.descriptor := by
  obtain ⟨target, h⟩ : ∃ target, TargetRequest.quotedPhone.assemble = .ok target :=
    TargetRequest.assemble_ok ⟨TargetRequest.plain_inOrder.1, by decide +kernel⟩
      (by decide +kernel) (by decide +kernel) Template.meetsEachOnce_tokens
      TargetRequest.plain_writable
  obtain ⟨_, text, htext⟩ := TargetRequest.expand_of_assemble h
  have hpublish : empty.publish target (.ofString "out") "phone" =
      ((empty.publish target (.ofString "out") "phone").1, .ok ()) := by
    rw [publish, htext]
    rfl
  have haction : target.bootAction.WellFormed :=
    TargetRequest.wellFormed_of_assemble (ExecutionInfo.nodup_ofTags _) h
  have hlabel : target.label = TargetRequest.quotedPhone.label := by
    obtain ⟨deps, script, _, _, rfl⟩ := TargetRequest.exists_of_assemble h
    rfl
  exact ⟨target, _, h, hlabel, hpublish, loadDocument_of_publish haction hpublish⟩

end EmulatedDevice
