import EmulatedDevice.Proofs.Faults
import EmulatedDevice.Proofs.Publishing

/-!
# Pairs that are begun and not finished

A text with half of a surrogate pair in it has no octets. That this is so comes out
when the text is written to its temporary file, and it is no refusal of the tree, so
nothing is cleaned up: directories that were made stay, and so do the temporary files.
`Begun` says what a caller finds. Nothing that was there is lost, because no file has
been moved yet; what has come are directories on the way, the empty file that could
not be filled, and the script if this was the descriptor.

Before the texts are looked at a begun pair can be refused like a whole one, and
whether it is does not depend on the texts.
-/

namespace EmulatedDevice.FileTree

variable {t made after : FileTree} {directory p q : Path} {name first second : String} {mode : Nat}
  {script? : Option (List UInt8)} {node? : Option FileNode}

/-! ## What is left -/

/-- A tree that has two temporary names taken for a pair: one for a file that is as far as it was to
be, or not begun, and one for a file that is empty. Nothing else has come but directories on the
way. -/
structure BegunUnder (t : FileTree) (directory : Path) (finished unfinished : String)
    (node? : Option FileNode) (after : FileTree) : Prop where
  finished_free : t.get? (finished :: t.placeOf directory) = none
  unfinished_free : t.get? (unfinished :: t.placeOf directory) = none
  written : after.get? (finished :: t.placeOf directory) = node?
  empty : after.get? (unfinished :: t.placeOf directory) = some (.file [] unfinishedMode)
  elsewhere : ∀ location, location ≠ finished :: t.placeOf directory →
    location ≠ unfinished :: t.placeOf directory → t.KeptOrMade directory after location

/-- A tree in which a pair was begun under some temporary names. -/
def Begun (t : FileTree) (directory : Path) (node? : Option FileNode) (after : FileTree) : Prop :=
  ∃ finished unfinished, t.BegunUnder directory finished unfinished node? after

/-- Something has come to the tree. -/
theorem Begun.ne (h : t.Begun directory node? after) : after ≠ t := by
  rintro rfl
  obtain ⟨_, _, h⟩ := h
  cases h.unfinished_free.symm.trans h.empty

/-- Nothing of the tree is lost. -/
theorem Begun.kept (h : t.Begun directory node? after) {location : Location} {node : FileNode}
    (hnode : t.get? location = some node) : after.get? location = some node := by
  obtain ⟨finished, unfinished, h⟩ := h
  have hne {other : Location} (hfree : t.get? other = none) : location ≠ other := by
    rintro rfl
    cases hfree.symm.trans hnode
  have hkept := h.elsewhere location (hne h.finished_free) (hne h.unfinished_free)
  rw [hkept.eq_of_ne_none (by rw [hnode]; nofun), hnode]

/-- How beginning a pair ends is settled before the texts are looked at. -/
theorem writePartly_independent (t : FileTree) (directory : Path) (name : String)
    (mode mode' : Nat) (script? script?' : Option (List UInt8)) :
    (t.writePartly directory name mode' script?').2 =
      (t.writePartly directory name mode script?).2 := by
  unfold writePartly
  rcases t.makeDirectories directory with ⟨made, fault | _⟩
  · rfl
  · simp only
    cases made.locate directory with
    | error fault => rfl
    | ok place => cases script? <;> cases script?' <;> rfl

/-! ## Targets -/

/-- Publishing a target partly is writing nothing of it, or its script. -/
theorem writePartly_of_publishPartly {r : TargetRequest} {target : Target} {text : String}
    (h : r.assemble = .ok target) (htext : target.script.expand = .ok text) (t : FileTree)
    (directory : Path) (name : String) (inScript : Bool) :
    let script? := if inScript then none else some (Text.encodeUtf8 text.toList)
    t.publishPartly target directory name inScript =
      ((t.writePartly directory name 0o755 script?).1,
        (t.writePartly directory name 0o755 script?).2.mapError .file) := by
  obtain ⟨hexecutable, _⟩ := TargetRequest.expand_of_assemble h
  rw [publishPartly, htext, hexecutable]
  rfl

end EmulatedDevice.FileTree
