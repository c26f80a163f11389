import EmulatedDevice.Proofs.PairMoves

/-!
# What files hold is of no account to where they go

Whether a path can be followed and whether a file can be moved somewhere is decided
by names and directories. Two trees are alike when they have directories in the same
places and files in the same places. Every request comes to the same end in both,
and leaves them alike. So writing a pair of files comes to an end that does not
depend on the texts of the two, nor on the mode of the script.
-/

namespace EmulatedDevice

/-- What a location holds in either of two trees: nothing, a directory, or some file. -/
inductive FileNode.SameKind : Option FileNode → Option FileNode → Prop
  | none : SameKind none none
  | directory : SameKind (some .directory) (some .directory)
  | file (content content' : List UInt8) (mode mode' : Nat) :
      SameKind (some (.file content mode)) (some (.file content' mode'))

theorem FileNode.SameKind.refl (node : Option FileNode) : SameKind node node := by
  match node with
  | .none => exact .none
  | some .directory => exact .directory
  | some (.file ..) => exact .file ..

namespace FileTree

/-- Trees that differ in the contents and the modes of files and in nothing else. -/
structure Alike (t t' : FileTree) : Prop where
  workingDirectory : t'.workingDirectory = t.workingDirectory
  kinds : ∀ location, FileNode.SameKind (t.get? location) (t'.get? location)

namespace Alike

variable {t t' : FileTree}

theorem refl (t : FileTree) : t.Alike t := ⟨rfl, fun _ => .refl _⟩

theorem insert (h : t.Alike t') (location : Location) {node node' : FileNode}
    (hnode : FileNode.SameKind (some node) (some node')) :
    (t.insert location node).Alike (t'.insert location node') := by
  refine ⟨h.workingDirectory, fun other => ?_⟩
  by_cases hroot : other = []
  · subst hroot
    exact .directory
  · by_cases hother : other = location
    · subst hother
      rw [get?_insert_self _ hroot, get?_insert_self _ hroot]
      exact hnode
    · rw [get?_insert_of_ne _ hother, get?_insert_of_ne _ hother]
      exact h.kinds other

theorem erase (h : t.Alike t') (location : Location) :
    (t.erase location).Alike (t'.erase location) := by
  refine ⟨h.workingDirectory, fun other => ?_⟩
  by_cases hroot : other = []
  · subst hroot
    exact .directory
  · by_cases hother : other = location
    · subst hother
      rw [get?_erase_self hroot, get?_erase_self hroot]
      exact .none
    · rw [get?_erase_of_ne hother, get?_erase_of_ne hother]
      exact h.kinds other

theorem walk (h : t.Alike t') (location : Location) (names : List String) :
    t'.walk location names = t.walk location names := by
  induction names generalizing location with
  | nil => rfl
  | cons name rest ih =>
      have hnext : (t'.get? (name :: location)).isNone = (t.get? (name :: location)).isNone := by
        have hkind := h.kinds (name :: location)
        generalize t.get? (name :: location) = node, t'.get? (name :: location) = node' at hkind ⊢
        cases hkind <;> rfl
      have hkind := h.kinds location
      rw [FileTree.walk, FileTree.walk, hnext, ih, ih]
      generalize t.get? location = node, t'.get? location = node' at hkind ⊢
      cases hkind <;> rfl

theorem destination (h : t.Alike t') (p : Path) (unnamed : FileFault) :
    t'.destination p unnamed = t.destination p unnamed := by
  have hstart : t'.startOf p = t.startOf p := by
    unfold startOf
    rw [h.workingDirectory]
  unfold FileTree.destination
  rw [hstart, h.walk]
  cases checkPath p with
  | error fault => rfl
  | ok _ =>
      cases t.walk (t.startOf p) p.components.dropLast with
      | error fault => rfl
      | ok between =>
          have hkind := h.kinds between
          simp only [bind, Except.bind]
          generalize t.get? between = node, t'.get? between = node' at hkind ⊢
          cases hkind <;> rfl

/-- A move is refused in both trees for one reason, or it is done in both. -/
theorem moveTo (h : t.Alike t') (source : Location) (p : Path) :
    (∃ fault, t.moveTo source p = .error fault ∧ t'.moveTo source p = .error fault) ∨
      ∃ after after' target, t.moveTo source p = .ok (after, target) ∧
        t'.moveTo source p = .ok (after', target) ∧ after.Alike after' := by
  unfold FileTree.moveTo
  rw [h.destination]
  cases t.destination p .busy with
  | error fault => exact .inl ⟨fault, rfl, rfl⟩
  | ok target =>
      have hsource := h.kinds source
      have htarget := h.kinds target
      simp only [bind, Except.bind]
      generalize t.get? source = node, t'.get? source = node' at hsource ⊢
      generalize t.get? target = held, t'.get? target = held' at htarget ⊢
      cases hsource with
      | none => exact .inl ⟨_, rfl, rfl⟩
      | directory =>
          cases htarget with
          | directory => exact .inl ⟨_, rfl, rfl⟩
          | none | file => exact .inr ⟨_, _, _, rfl, rfl, (h.erase source).insert target .directory⟩
      | file =>
          cases htarget with
          | directory => exact .inl ⟨_, rfl, rfl⟩
          | none | file => exact .inr ⟨_, _, _, rfl, rfl, (h.erase source).insert target (.file ..)⟩

theorem movePair (h : t.Alike t') (first second : Location) (p q : Path) :
    (t'.movePair first second p q).2 = (t.movePair first second p q).2 := by
  unfold FileTree.movePair
  rcases h.moveTo first p with ⟨fault, hmove, hmove'⟩ | ⟨after, after', _, hmove, hmove', hafter⟩
  · rw [hmove, hmove']
  · simp only [hmove, hmove']
    rcases hafter.moveTo second q with ⟨fault, hmove, hmove'⟩ | ⟨_, _, _, hmove, hmove', _⟩
    · rw [hmove, hmove']
    · rw [hmove, hmove']

end Alike

/-- How writing a pair ends is settled before the texts are looked at. -/
theorem writePair_independent (t : FileTree) (directory : Path) (name : String)
    (mode mode' : Nat) (script script' descriptor descriptor' : List UInt8) :
    (t.writePair directory name mode' script' descriptor').2 =
      (t.writePair directory name mode script descriptor).2 := by
  unfold writePair
  rcases t.makeDirectories directory with ⟨made, fault | _⟩
  · rfl
  · simp only
    cases made.locate directory with
    | error fault => rfl
    | ok place =>
        exact (((Alike.refl made).insert _ (.file ..)).insert _ (.file ..)).movePair _ _ _ _

end FileTree

end EmulatedDevice
