import EmulatedDevice.Proofs.DeviceDocuments
import EmulatedDevice.Proofs.Faults
import EmulatedDevice.Proofs.Publishing

/-!
# Names that a declaration may have

A device is published under its own name, so what the schema lets through as a name
goes into two paths. It lets through no slash and no NUL, hence the pair stays in
the directory that was asked for and only the tree can refuse it. It does let
through `.` and `..`, which are no names of entries: `.` stands for the directory
itself and `..` for the one above. Neither is ever written to.
-/

namespace EmulatedDevice

namespace Schema

variable {name : String}

/-- Besides name characters a name holds at most a newline. -/
theorem char_of_isName (h : isName name = true) {c : Char} (hc : c ∈ name.toList) :
    isNameChar c = true ∨ c = '\n' := by
  obtain ⟨_, core, _, hchars, hname | hname⟩ := isName_iff.1 h
  · exact .inl (isNameChar_iff.2 (hchars c (hname ▸ hc)))
  · rw [hname, List.mem_append, List.mem_singleton] at hc
    exact hc.imp_left fun hcore => isNameChar_iff.2 (hchars c hcore)

theorem not_mem_of_isName (h : isName name = true) {c : Char} (hchar : isNameChar c = false)
    (hnewline : c ≠ '\n') : c ∉ name.toList := by
  intro hmem
  rcases char_of_isName h hmem with hname | heq
  · cases hchar.symm.trans hname
  · exact hnewline heq

theorem no_slash_of_isName (h : isName name = true) : '/' ∉ name.toList :=
  not_mem_of_isName h (by decide) (by decide)

theorem no_nul_of_isName (h : isName name = true) : '\x00' ∉ name.toList :=
  not_mem_of_isName h (by decide) (by decide)

theorem ne_empty_of_isName (h : isName name = true) : name ≠ "" := by
  rintro rfl
  exact absurd h (by decide)

end Schema

/-! ## The two paths -/

namespace Path

theorem NulFree.ofString {name : String} (hslash : '/' ∉ name.toList)
    (hnul : '\x00' ∉ name.toList) : (Path.ofString name).NulFree := by
  intro component hcomponent
  rw [ofString_components hslash] at hcomponent
  split at hcomponent
  · rw [List.mem_singleton.1 hcomponent]
    exact hnul
  · exact absurd hcomponent List.not_mem_nil

variable {directory : Path} {name : String}

theorem NulFree.scriptPath (h : directory.NulFree) (hname : Schema.isName name = true) :
    (scriptPath directory name).NulFree :=
  h.join (.ofString (Schema.no_slash_of_isName hname) (Schema.no_nul_of_isName hname))

theorem not_mem_descriptorName {c : Char} (hc : c ∉ name.toList)
    (hmore : c ∉ "_boot_action.json".toList) : c ∉ (descriptorName name).toList := by
  rw [descriptorName, String.toList_append, List.mem_append, not_or]
  exact ⟨hc, hmore⟩

theorem NulFree.descriptorPath (h : directory.NulFree) (hname : Schema.isName name = true) :
    (descriptorPath directory name).NulFree :=
  h.join (.ofString
    (not_mem_descriptorName (Schema.no_slash_of_isName hname) (by decide))
    (not_mem_descriptorName (Schema.no_nul_of_isName hname) (by decide)))

end Path

/-! ## Names that are written to -/

namespace FileTree

variable {t after : FileTree} {directory : Path} {name : String} {mode : Nat}
  {script descriptor : List UInt8}

/-- `.` is the directory itself, and nothing is moved onto a directory. -/
theorem not_takes_here (h : t.isDirectory directory = true) :
    ¬ t.Takes (scriptPath directory ".") := by
  intro htakes
  have hpath : scriptPath directory "." = directory := Path.join_here directory
  -- the way to the directory ends at a directory, which is not free
  rw [hpath] at htakes
  obtain ⟨_, place, hleads⟩ := isDirectory_iff.1 h
  refine htakes.free ?_
  rw [placeOf, ← walk_eq_foldl hleads.walk]
  exact hleads.directory

/-- `..` names nothing in a directory. -/
theorem not_takes_above : ¬ t.Takes (scriptPath directory "..") := by
  intro htakes
  obtain ⟨_, between, last, _, _, hlast, hup, _⟩ := destination_ok_iff.1 htakes.destination
  have hjoin : (scriptPath directory "..").components = directory.components ++ [".."] :=
    Path.join_name_components directory (by decide)
  rw [hjoin, List.getLast?_concat] at hlast
  exact hup (Option.some.inj hlast).symm

/-- A script that was put in its place has the name of an entry. -/
theorem isEntryName_of_writePair (hname : Schema.isName name = true)
    (h : t.writePair directory name mode script descriptor = (after, .ok ())) :
    Path.IsEntryName name := by
  rcases t.writePair_outcome directory name mode script descriptor with
    ⟨_, fault, hfail⟩ | ⟨hdir, houtcome⟩
  · rw [h] at hfail
    cases hfail
  · rw [h] at houtcome
    cases houtcome with
    | published hscript _ _ =>
        refine ⟨⟨Schema.ne_empty_of_isName hname, ?_, Schema.no_slash_of_isName hname⟩, ?_⟩
        · rintro rfl
          exact not_takes_here hdir hscript
        · rintro rfl
          exact not_takes_above hscript

end FileTree

end EmulatedDevice
