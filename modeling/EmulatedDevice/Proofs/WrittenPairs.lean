import EmulatedDevice.Proofs.Publishing

/-!
# The tree after a pair was written

What a tree shows after a pair was written leaves open in which order it keeps its
entries. Here the tree itself is told: with the directories made, it takes the two
files under their paths, and that is all. The temporary files are put in behind
everything else and are taken out again, so not even the entries have a trace of
them.

The directories stay what they were, so whether a second pair can be written is
known from before the first. And a pair that is there already is put in where it
stands: writing it once more gives back the very same tree.
-/

namespace EmulatedDevice

namespace FileTree

/-! ## One pair -/

section Moving

variable {t : FileTree} {place : Location} {p q : Path} {first second : String}
  {script descriptor : FileNode}

/-- Two paths that can take a file take the staged ones, and the temporary files leave nothing. -/
theorem movePair_of_takes (h : t.Temporaries place p q first second)
    (hscript : script ≠ .directory) (hdescriptor : descriptor ≠ .directory) (hp : t.Takes p)
    (hq : t.Takes q) :
    ((t.insert (first :: place) script).insert (second :: place) descriptor).movePair
        (first :: place) (second :: place) p q =
      ((t.insert (t.placeOf p) script).insert (t.placeOf q) descriptor, .ok ()) := by
  have hne : first :: place ≠ second :: place := fun heq => h.ne (List.cons.inj heq).1
  have hfirst := hp.placeOf_ne h.first_ne.1 place
  have hsecond := hp.placeOf_ne h.second_ne.1 place
  -- the script is moved out of a tree with both temporary files
  obtain ⟨hstaged, hsource⟩ := h.staged hscript hdescriptor
  have herased : ((t.insert (first :: place) script).insert (second :: place) descriptor).erase
      (first :: place) = t.insert (second :: place) descriptor := by
    rw [erase_insert_of_ne hne.symm, erase_insert_self h.first_free]
  have hmove := (moveTo_iff_takes hsource).2 ⟨hstaged.takes hp, rfl, rfl⟩
  rw [herased, hstaged.1.placeOf] at hmove
  -- the descriptor is moved out of a tree with the second one only
  have hmoved : t.SameDirectories
      ((t.insert (second :: place) descriptor).insert (t.placeOf p) script) := by
    refine (sameDirectories_insert ?_ hdescriptor).trans (sameDirectories_insert ?_ hscript)
    · rw [h.second_free]
      nofun
    · rw [get?_insert_of_ne _ hsecond.symm]
      exact hp.free
  have hsource' : ((t.insert (second :: place) descriptor).insert (t.placeOf p) script).get?
      (second :: place) = some descriptor := by
    rw [get?_insert_of_ne _ hsecond, get?_insert_self _ (List.cons_ne_nil _ _)]
  have herased' : ((t.insert (second :: place) descriptor).insert (t.placeOf p) script).erase
      (second :: place) = t.insert (t.placeOf p) script := by
    rw [erase_insert_of_ne hsecond.symm, erase_insert_self h.second_free]
  have hmove' := (moveTo_iff_takes hsource').2 ⟨hmoved.takes hq, rfl, rfl⟩
  rw [herased', hmoved.1.placeOf] at hmove'
  simp only [movePair, hmove, hmove']

end Moving

/-- A tree that has a directory and takes a pair under a name in it. -/
structure TakesPair (t : FileTree) (directory : Path) (name : String) : Prop where
  made : t.isDirectory directory = true
  script : t.Takes (scriptPath directory name)
  descriptor : t.Takes (descriptorPath directory name)

/-- A tree with two files under the paths of a pair. -/
def withPair (t : FileTree) (directory : Path) (name : String) (mode : Nat)
    (script descriptor : List UInt8) : FileTree :=
  (t.insert (t.placeOf (scriptPath directory name)) (.file script mode)).insert
    (t.placeOf (descriptorPath directory name)) (.file descriptor defaultMode)

section Writing

variable {t after : FileTree} {directory : Path} {name : String} {mode : Nat}
  {script descriptor : List UInt8}

theorem TakesPair.sameDirectories (h : t.TakesPair directory name) (mode : Nat)
    (script descriptor : List UInt8) :
    t.SameDirectories (t.withPair directory name mode script descriptor) := by
  refine (sameDirectories_insert h.script.free ?_).trans (sameDirectories_insert ?_ ?_)
  · exact FileNode.file_ne_directory _ _
  · rw [get?_insert_of_ne _ (t.placeOf_descriptorPath_ne directory name)]
    exact h.descriptor.free
  · exact FileNode.file_ne_directory _ _

/-- Putting in the same pair twice is putting it in once. -/
theorem TakesPair.withPair_withPair (h : t.TakesPair directory name) (mode : Nat)
    (script descriptor : List UInt8) :
    (t.withPair directory name mode script descriptor).withPair directory name mode script
      descriptor = t.withPair directory name mode script descriptor := by
  have hplace := (h.sameDirectories mode script descriptor).1.placeOf
  have hne := t.placeOf_descriptorPath_ne directory name
  have hscript : (t.withPair directory name mode script descriptor).get?
      (t.placeOf (scriptPath directory name)) = some (.file script mode) := by
    rw [withPair, get?_insert_of_ne _ hne.symm, get?_insert_self _ h.script.placeOf_ne_nil]
  have hdescriptor : (t.withPair directory name mode script descriptor).get?
      (t.placeOf (descriptorPath directory name)) = some (.file descriptor defaultMode) := by
    rw [withPair, get?_insert_self _ h.descriptor.placeOf_ne_nil]
  rw [withPair, hplace, hplace, insert_eq_self hscript h.script.placeOf_ne_nil,
    insert_eq_self hdescriptor h.descriptor.placeOf_ne_nil]

/-- A pair can be written when the directories are the same. -/
theorem TakesPair.congr {t' : FileTree} (h : t.TakesPair directory name)
    (hsame : t.SameDirectories t') : t'.TakesPair directory name := by
  obtain ⟨hcheck, place, hleads⟩ := isDirectory_iff.1 h.made
  exact ⟨isDirectory_iff.2 ⟨hcheck, place, hsame.1.leadsTo hleads⟩, hsame.takes h.script,
    hsame.takes h.descriptor⟩

/-- Writing a pair is making the directory and putting in the two files, if it takes them. -/
theorem writePair_ok_iff :
    t.writePair directory name mode script descriptor = (after, .ok ()) ↔
      (t.makeDirectories directory).1.TakesPair directory name ∧
        after = (t.makeDirectories directory).1.withPair directory name mode script descriptor := by
  have hwrite (h : (t.makeDirectories directory).1.TakesPair directory name) :
      t.writePair directory name mode script descriptor =
        ((t.makeDirectories directory).1.withPair directory name mode script descriptor,
          .ok ()) := by
    have hok := (t.makeDirectories_wayMade directory).ok_iff.2 h.made
    obtain ⟨hcheck, place, hleads⟩ := isDirectory_iff.1 h.made
    have hlocate := locate_ok_iff.2 ⟨hcheck, hleads.walk⟩
    rcases hmade : t.makeDirectories directory with ⟨made, result⟩
    rw [hmade] at h hok hlocate
    obtain rfl : result = .ok () := hok
    simp only [writePair, hmade, hlocate]
    exact movePair_of_takes (temporaries_fresh _ _ _ _) (FileNode.file_ne_directory _ _)
      (FileNode.file_ne_directory _ _) h.script h.descriptor
  constructor
  · intro h
    rcases t.writePair_outcome directory name mode script descriptor with
      ⟨_, fault, hfail⟩ | ⟨hdir, houtcome⟩
    · rw [h] at hfail
      cases hfail
    · rw [h] at houtcome
      cases houtcome with
      | published hscript hdescriptor _ =>
          have hresult := h.symm.trans (hwrite ⟨hdir, hscript, hdescriptor⟩)
          exact ⟨⟨hdir, hscript, hdescriptor⟩, (Prod.mk.inj hresult).1⟩
  · rintro ⟨htakes, rfl⟩
    exact hwrite htakes

/-- Writing a pair keeps all directories. -/
theorem keepsDirectories_of_writePair
    (h : t.writePair directory name mode script descriptor = (after, .ok ())) :
    t.KeepsDirectories after := by
  obtain ⟨htakes, rfl⟩ := writePair_ok_iff.1 h
  exact (t.makeDirectories_wayMade directory).makesWay.keepsDirectories.trans
    (htakes.sameDirectories mode script descriptor).1

/-- What a path led to it still leads to, unless a file of the pair has taken its place. -/
theorem find_of_writePair {p : Path} {node : FileNode}
    (h : t.writePair directory name mode script descriptor = (after, .ok ()))
    (hfind : t.find p = .ok node) (hscript : t.placeOf p ≠ t.placeOf (scriptPath directory name))
    (hdescriptor : t.placeOf p ≠ t.placeOf (descriptorPath directory name)) :
    after.find p = .ok node := by
  have hkept := (published_of_writePair h).elsewhere _ hscript hdescriptor
  have hnode : t.get? (t.placeOf p) ≠ none := by
    rw [find_eq_placeOf hfind]
    exact Option.some_ne_none _
  exact (keepsDirectories_of_writePair h).find hfind (hkept.eq_of_ne_none hnode)

/-! ## The same pair again -/

/-- Making a directory that is there changes nothing. -/
theorem makeDirectories_of_isDirectory {p : Path} (h : t.isDirectory p = true) :
    t.makeDirectories p = (t, .ok ()) := by
  unfold makeDirectories makeDirectoriesUpTo
  split
  · next t' hmade =>
    -- it would be new, but the path leads to a directory
    obtain ⟨location, hdest, hnone, _⟩ := makeDirectory_ok_iff.1 hmade
    obtain ⟨_, place, hleads⟩ := isDirectory_iff.1 h
    obtain rfl := destination_eq_placeOf hdest
    rw [placeOf, ← walk_eq_foldl hleads.walk, hleads.directory] at hnone
    cases hnone
  · next hmissing _ => exact absurd h (by simp [isDirectory_of_makeDirectory_notFound hmissing])
  · next hmissing _ => exact absurd h (by simp [isDirectory_of_makeDirectory_notFound hmissing])
  · rw [if_pos h]

/-- A pair that was written can be written again, and the tree stays as it is. -/
theorem writePair_again
    (h : t.writePair directory name mode script descriptor = (after, .ok ())) :
    after.writePair directory name mode script descriptor = (after, .ok ()) := by
  obtain ⟨htakes, rfl⟩ := writePair_ok_iff.1 h
  have hagain := htakes.congr (htakes.sameDirectories mode script descriptor)
  rw [writePair_ok_iff, makeDirectories_of_isDirectory hagain.made]
  exact ⟨hagain, (htakes.withPair_withPair mode script descriptor).symm⟩

end Writing

/-- Publishing an assembled target goes well when its two texts can be written. -/
theorem publish_ok_iff {t after : FileTree} {r : TargetRequest} {target : Target} {text : String}
    {directory : Path} {name : String} (h : r.assemble = .ok target)
    (htext : target.script.expand = .ok text) :
    t.publish target directory name = (after, .ok ()) ↔
      t.writePair directory name 0o755 (Text.encodeUtf8 text.toList)
        (Text.encodeUtf8 target.descriptorText.toList) = (after, .ok ()) := by
  obtain ⟨hexecutable, _⟩ := TargetRequest.expand_of_assemble h
  have hmode : publishedMode target.script.executable = 0o755 := by
    rw [hexecutable]
    rfl
  rw [← hmode]
  constructor
  · intro hpublish
    obtain ⟨written, hwritten, hwrite⟩ := writePair_of_publish htext hpublish
    cases written with
    | error fault => cases hwritten
    | ok _ => exact hwrite
  · intro hwrite
    rw [publish, htext]
    simp only [hwrite]
    rfl

end FileTree

end EmulatedDevice
