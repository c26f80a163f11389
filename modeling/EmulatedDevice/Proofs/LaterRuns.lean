import EmulatedDevice.Proofs.LoadFaults
import EmulatedDevice.Proofs.OptionReach
import EmulatedDevice.Proofs.WrittenPairs
import EmulatedDevice.Session

/-!
# Runs after a run

What a run that ended well leaves to later ones is the tree with its pair in it.
A later run sees of this only what is at the paths it loads from, and there it
finds what was there before, as long as the pair has not been put in the place of
one of these files. So whatever could be loaded can still be loaded.

A run that is taken again loads what it has loaded the first time and makes the
same target of it. The pair it then writes is there already, and the tree stays as
it is. The only way out is a pair that was written over the files it was made of,
and this is what is asked not to be the case.
-/

namespace EmulatedDevice

namespace FileTree

/-! ## What loading finds -/

variable {t : FileTree} {p : Path}

theorem hasFile_of_loadDocument {value : Value} (h : t.loadDocument p = .ok value) :
    t.HasFile p := by
  obtain ⟨there, _, h⟩ := exists_of_bind_eq_ok h
  cases there with
  | false => cases h
  | true =>
      cases hform : DocumentForm.ofSuffix? p.suffix with
      | none =>
          simp only [hform] at h
          cases h
      | some form =>
          simp only [hform] at h
          obtain ⟨_, htext, _⟩ := exists_of_bind_eq_ok h
          exact hasFile_of_readText htext

/-! ## Changes -/

theorem changeAt_self (t : FileTree) (location : Location) : t.changeAt t location = none := by
  unfold changeAt
  cases t.relativePath? location with
  | none => rfl
  | some path =>
      cases t.get? location with
      | none => rfl
      | some node => cases node <;> simp

/-- Between a tree and itself there is no change. -/
theorem changes_self (t : FileTree) : t.changes t = [] := by
  simp only [changes, List.filterMap_eq_nil_iff.2 fun location _ => t.changeAt_self location,
    List.mergeSort_nil]

end FileTree

namespace CommandLine.Lower

variable {t : FileTree} {environment environment' : Environment} {words words' : List String}
  {options options' : Options} {inputs inputs' : Inputs}

/-! ## What a run leaves -/

/-- The files that options ask to have loaded. -/
def Options.sources (options : Options) : List Path :=
  options.device :: options.toolchain :: options.template.toList

/-- The places of the two files that are written for a device. -/
def writtenPlaces (t : FileTree) (options : Options) (name : String) : List Location :=
  [t.placeOf (scriptPath options.output name), t.placeOf (descriptorPath options.output name)]

theorem loadInputs_of_find {t' : FileTree} (h : ∀ p ∈ options.sources, t'.find p = t.find p)
    (signs : Text.HalfSigns) : @loadInputs signs t' options = @loadInputs signs t options := by
  have hdevice := h options.device (by simp [Options.sources])
  have htoolchain := h options.toolchain (by simp [Options.sources])
  have htemplate : loadTemplate t' options = loadTemplate t options := by
    unfold loadTemplate
    cases hpath : options.template with
    | none => rfl
    | some path =>
        exact FileTree.loadTemplate_congr (h path (by simp [Options.sources, hpath]))
  rw [loadInputs_eq, loadInputs_eq, htemplate, FileTree.loadDeclaration_congr signs hdevice,
    FileTree.loadToolchain_congr signs htoolchain]

theorem Loads.hasFile (h : Loads t environment words options inputs) :
    ∀ p ∈ options.sources, t.HasFile p := by
  obtain ⟨hdevice, htoolchain, htemplate⟩ := h.parts
  obtain ⟨_, hdevice, _⟩ := exists_of_bind_eq_ok hdevice
  obtain ⟨_, htoolchain, _⟩ := exists_of_bind_eq_ok htoolchain
  intro p hp
  simp only [Options.sources, List.mem_cons, Option.mem_toList] at hp
  rcases hp with rfl | rfl | hpath
  · exact FileTree.hasFile_of_loadDocument hdevice
  · exact FileTree.hasFile_of_loadDocument htoolchain
  · simp only [loadTemplate, hpath] at htemplate
    obtain ⟨_, htext, _⟩ := exists_of_bind_eq_ok htemplate
    exact FileTree.hasFile_of_readText htext

/-- A run that ended well has written the script and the descriptor of its target. -/
theorem Loads.exists_writePair (h : Loads t environment words options inputs)
    (hending : (run t environment words).2.ending = .returned 0) :
    ∃ target text, (request options inputs).assemble = .ok target ∧
      target.script.expand = .ok text ∧
      t.writePair options.output inputs.declaration.name 0o755 (Text.encodeUtf8 text.toList)
        (Text.encodeUtf8 target.descriptorText.toList) = ((run t environment words).1, .ok ()) := by
  obtain ⟨_, _, h', ⟨hcode, _⟩ | ⟨hcode, _⟩ | ⟨_, _, target, hassemble, hpublish⟩⟩ :=
    exists_of_returned hending
  · cases hcode
  · cases hcode
  · obtain ⟨rfl, rfl⟩ := h.unique h'
    obtain ⟨_, text, htext⟩ := TargetRequest.expand_of_assemble hassemble
    exact ⟨target, text, hassemble, htext, (FileTree.publish_ok_iff hassemble htext).1 hpublish⟩

/-- A run that ended well leaves what other runs load, when it has put its pair elsewhere. -/
theorem Loads.find_later (h : Loads t environment words options inputs)
    (hending : (run t environment words).2.ending = .returned 0)
    (h' : Loads t environment' words' options' inputs')
    (hapart : ∀ p ∈ options'.sources,
      t.placeOf p ∉ writtenPlaces t options inputs.declaration.name) :
    ∀ p ∈ options'.sources, (run t environment words).1.find p = t.find p := by
  intro p hp
  obtain ⟨_, _, _, _, hwrite⟩ := h.exists_writePair hending
  obtain ⟨content, mode, hfind⟩ := h'.hasFile p hp
  have hplaces := hapart p hp
  rw [writtenPlaces, List.mem_cons, List.mem_singleton, not_or] at hplaces
  rw [hfind, FileTree.find_of_writePair hwrite hfind hplaces.1 hplaces.2]

/-- What could be loaded can still be loaded, when the pair was put elsewhere. -/
theorem Loads.later (h : Loads t environment words options inputs)
    (hending : (run t environment words).2.ending = .returned 0)
    (h' : Loads t environment' words' options' inputs')
    (hapart : ∀ p ∈ options'.sources,
      t.placeOf p ∉ writtenPlaces t options inputs.declaration.name) :
    Loads (run t environment words).1 environment' words' options' inputs' := by
  obtain ⟨threshold, hstarted, hload⟩ := id h'
  refine ⟨threshold, hstarted, ?_⟩
  rw [loadInputs_of_find (h.find_later hending h' hapart), hload]

/-- Nor do halves of surrogate pairs come into what is loaded. -/
theorem Loads.isHalfFree_later (h : Loads t environment words options inputs)
    (hending : (run t environment words).2.ending = .returned 0)
    (h' : Loads t environment' words' options' inputs')
    (hapart : ∀ p ∈ options'.sources,
      t.placeOf p ∉ writtenPlaces t options inputs.declaration.name) :
    isHalfFree (run t environment words).1 options' inputs' = isHalfFree t options' inputs' :=
  isHalfFree_congr (loadInputs_of_find (h.find_later hending h' hapart) _)

/-! ## The same run again -/

/-- A run that ended well and has not written over what it loaded changes nothing and says the same
when it is taken again, in a session as well, whatever this has read before. -/
theorem run_again (t : FileTree) (environment : Environment) (words : List String)
    (hending : (run t environment words).2.ending = .returned 0)
    (hapart : ∀ options inputs, Loads t environment words options inputs →
      ∀ p ∈ options.sources, t.placeOf p ∉ writtenPlaces t options inputs.declaration.name) :
    run (run t environment words).1 environment words = run t environment words ∧
      ∀ s : Session, s.tree = t →
        let first := (s.step (.lower environment words)).1
        first.tree = (run t environment words).1 ∧
          first.step (.lower environment words) =
            (first, .ok (.run (run t environment words).2 [])) := by
  have hsame : run (run t environment words).1 environment words = run t environment words := by
    obtain ⟨options, inputs, _, _, h, _, _⟩ := exists_of_returned_zero hending
    obtain ⟨target, text, hassemble, htext, hwrite⟩ := h.exists_writePair hending
    have hfree := h.isHalfFree_of_returned hending
    have hfree' := h.isHalfFree_later hending h (hapart _ _ h)
    rw [hfree] at hfree'
    have hpublish := (FileTree.publish_ok_iff hassemble htext).2 hwrite
    have hpublish' := (FileTree.publish_ok_iff hassemble htext).2 (FileTree.writePair_again hwrite)
    obtain ⟨threshold, hstarted, hrun⟩ := h.started
    obtain ⟨_, hstarted', hrun'⟩ := (h.later hending h (hapart _ _ h)).started
    cases hstarted.symm.trans hstarted'
    calc run (run t environment words).1 environment words
        = lower (run t environment words).1 options threshold inputs := hrun'
      _ = lower t options threshold inputs := by
          simp only [lower, hassemble, hfree, hfree', if_true, hpublish, hpublish']
      _ = run t environment words := hrun.symm
  refine ⟨hsame, ?_⟩
  rintro s rfl
  refine ⟨rfl, ?_⟩
  simp only [Session.step, hsame, FileTree.changes_self]

/-- The phone is lowered twice, and the second time nothing happens. -/
theorem phone_again :
    let first := run sampleTree ⟨none, none, none⟩ (sampleWords "phone.json")
    first.2.ending = .returned 0 ∧
      run first.1 ⟨none, none, none⟩ (sampleWords "phone.json") = first := by
  refine ⟨sampleTree_phone_published, ?_⟩
  refine (run_again sampleTree _ _ sampleTree_phone_published ?_).1
  intro options inputs h
  obtain ⟨rfl, rfl⟩ := h.unique (sampleTree_loads sampleTree_phone_started sampleTree_phone)
  decide

end CommandLine.Lower

end EmulatedDevice
