import EmulatedDevice.Proofs.Moves

/-!
# Making directories

Making a directory with all that it lies in only ever adds directories, and only
at places that the path passes; whether it succeeds or fails, nothing else in the
tree is touched. And it succeeds exactly when there is a directory in the end: a
fault on the way is forgotten when the directory turns out to be there, and it is
reported when it is not.

The recursion goes up to the parent and tries again on the way back, so the
induction is on the number of components, and the tree that the second try works
on is the one that the first has left.
-/

namespace EmulatedDevice

namespace FileTree

/-- A location that a path passes or ends at. -/
def OnWayTo (t : FileTree) (p : Path) (location : Location) : Prop :=
  ∃ names, names <+: p.components ∧ location = names.foldl stepFrom (t.startOf p)

/-- A location holds what it held, or nothing was there and it has become a
directory on the way of a path. -/
def KeptOrMade (t : FileTree) (p : Path) (t' : FileTree) (location : Location) :
    Prop :=
  t'.get? location = t.get? location ∨
    (t.get? location = none ∧ t'.get? location = some .directory ∧
      t.OnWayTo p location)

/-- A tree with nothing new in it but directories on the way of a path. -/
structure MakesWay (t : FileTree) (p : Path) (t' : FileTree) : Prop where
  workingDirectory : t'.workingDirectory = t.workingDirectory
  keptOrMade : ∀ location, t.KeptOrMade p t' location

theorem KeptOrMade.eq_of_ne_none {t t' : FileTree} {p : Path}
    {location : Location} (h : t.KeptOrMade p t' location)
    (hnode : t.get? location ≠ none) : t'.get? location = t.get? location := by
  rcases h with hkept | ⟨hnone, _, _⟩
  · exact hkept
  · exact absurd hnone hnode

/-- What is free in the grown tree was free before. -/
theorem KeptOrMade.eq_none {t t' : FileTree} {p : Path} {location : Location}
    (h : t.KeptOrMade p t' location) (hnone : t'.get? location = none) :
    t.get? location = none := by
  rcases h with hkept | ⟨hfree, _, _⟩
  · rw [← hkept]
    exact hnone
  · exact hfree

namespace MakesWay

theorem refl (t : FileTree) (p : Path) : t.MakesWay p t :=
  ⟨rfl, fun _ => .inl rfl⟩

theorem keepsDirectories {t t' : FileTree} {p : Path} (h : t.MakesWay p t') :
    t.KeepsDirectories t' := by
  refine ⟨h.workingDirectory, fun location hdir => ?_⟩
  rw [(h.keptOrMade location).eq_of_ne_none (hdir ▸ Option.some_ne_none _)]
  exact hdir

/-- The way of a parent is part of the way of a path. -/
theorem of_parent {t t' : FileTree} {p : Path} (h : t.MakesWay p.parent t') :
    t.MakesWay p t' := by
  refine ⟨h.workingDirectory, fun location => ?_⟩
  rcases h.keptOrMade location with hkept | ⟨hnone, hmade, names, hprefix, hlocation⟩
  · exact .inl hkept
  · exact .inr ⟨hnone, hmade, names, hprefix.trans (List.dropLast_prefix _), hlocation⟩

/-- One more directory at the end of the way. -/
theorem insert {t t' : FileTree} {p : Path} (h : t.MakesWay p t')
    (hnone : t'.get? (t.placeOf p) = none) :
    t.MakesWay p (t'.insert (t.placeOf p) .directory) := by
  refine ⟨h.workingDirectory, fun location => ?_⟩
  by_cases hlocation : location = t.placeOf p
  · subst hlocation
    have hne : t.placeOf p ≠ [] := by
      intro hroot
      rw [hroot, get?_root] at hnone
      cases hnone
    exact .inr ⟨(h.keptOrMade _).eq_none hnone, get?_insert_self _ hne,
      p.components, List.prefix_refl _, rfl⟩
  · unfold KeptOrMade
    rw [get?_insert_of_ne _ hlocation]
    exact h.keptOrMade location

end MakesWay

/-! ## One directory -/

theorem makeDirectory_of_destination {t : FileTree} {p : Path}
    {location : Location} (h : t.destination p .alreadyExists = .ok location) :
    t.makeDirectory p = (t.get? location).elim (.ok (t.insert location .directory))
      fun _ => .error .alreadyExists := by
  unfold makeDirectory
  rw [h]
  simp only [bind, Except.bind]
  cases t.get? location <;> rfl

theorem makeDirectory_of_destination_error {t : FileTree} {p : Path}
    {fault : FileFault} (h : t.destination p .alreadyExists = .error fault) :
    t.makeDirectory p = .error fault := by
  rw [makeDirectory, h]
  rfl

theorem makeDirectory_ok_iff {t t' : FileTree} {p : Path} :
    t.makeDirectory p = .ok t' ↔
      ∃ location, t.destination p .alreadyExists = .ok location ∧
        t.get? location = none ∧ t' = t.insert location .directory := by
  cases hdest : t.destination p .alreadyExists with
  | error fault => simp [makeDirectory_of_destination_error hdest]
  | ok location =>
      rw [makeDirectory_of_destination hdest]
      simp only [Except.ok.injEq, exists_eq_left']
      cases t.get? location with
      | none => simp [eq_comm]
      | some node => simp

/-- A directory that was made is there. -/
theorem isDirectory_of_makeDirectory {t t' : FileTree} {p : Path}
    (h : t.makeDirectory p = .ok t') : t'.isDirectory p = true := by
  obtain ⟨location, hdest, hnone, rfl⟩ := makeDirectory_ok_iff.1 h
  obtain ⟨hcheck, between, last, hwalk, hdir, hlast, hup, hshort, rfl⟩ :=
    destination_ok_iff.1 hdest
  have hkeeps : t.KeepsDirectories (t.insert (last :: between) .directory) :=
    keepsDirectories_insert (hnone ▸ nofun)
  have hmade := get?_insert_self (t := t) .directory (List.cons_ne_nil last between)
  refine isDirectory_iff.2 ⟨hcheck, last :: between, ?_, hmade⟩
  rw [hkeeps.startOf, ← List.dropLast_append_getLast? last hlast, walk_append_ok_iff]
  refine ⟨between, hkeeps.walk hwalk hdir, walk_cons_ok_iff.2
    ⟨⟨hkeeps.2 _ hdir, fun _ => hshort, fun _ => ?_⟩, ?_⟩⟩
  · rw [hmade]
    exact Option.some_ne_none _
  · rw [stepFrom, if_neg hup]
    rfl

/-- A directory that is said to be missing is not there. -/
theorem isDirectory_of_makeDirectory_notFound {t : FileTree} {p : Path}
    (h : t.makeDirectory p = .error .notFound) : t.isDirectory p = false := by
  refine eq_false_of_ne_true fun hdir => ?_
  have hdest : t.destination p .alreadyExists ≠ .error .notFound :=
    destination_ne_notFound hdir FileFault.noConfusion
  cases hlocation : t.destination p .alreadyExists with
  | error fault =>
      rw [makeDirectory_of_destination_error hlocation] at h
      obtain rfl := Except.error.inj h
      exact hdest hlocation
  | ok location =>
      rw [makeDirectory_of_destination hlocation] at h
      cases hnode : t.get? location with
      | none =>
          rw [hnode] at h
          cases h
      | some node =>
          rw [hnode] at h
          cases h

theorem MakesWay.makeDirectory {t t' t'' : FileTree} {p : Path}
    (h : t.MakesWay p t') (hmade : t'.makeDirectory p = .ok t'') :
    t.MakesWay p t'' := by
  obtain ⟨location, hdest, hnone, rfl⟩ := makeDirectory_ok_iff.1 hmade
  obtain rfl := destination_eq_placeOf hdest
  rw [h.keepsDirectories.placeOf] at hnone ⊢
  exact h.insert hnone

/-! ## All directories on the way -/

theorem ensureDirectory_ok {t t' t'' : FileTree} {p : Path} (h : t.MakesWay p t')
    (hmade : t'.ensureDirectory p = .ok t'') :
    t.MakesWay p t'' ∧ t''.isDirectory p = true := by
  unfold ensureDirectory at hmade
  split at hmade
  · next hnew =>
    obtain rfl := Except.ok.inj hmade
    exact ⟨h.makeDirectory hnew, isDirectory_of_makeDirectory hnew⟩
  · split at hmade
    · next hdir =>
      obtain rfl := Except.ok.inj hmade
      exact ⟨h, hdir⟩
    · cases hmade

theorem ensureDirectory_error {t : FileTree} {p : Path} {fault : FileFault}
    (h : t.ensureDirectory p = .error fault) : t.isDirectory p = false := by
  unfold ensureDirectory at h
  split at h
  · cases h
  · split at h
    · cases h
    · next hdir => exact eq_false_of_ne_true hdir

/-- What making directories leaves behind, and when it succeeds. -/
structure WayMade (t : FileTree) (p : Path)
    (result : FileTree × Except FileFault Unit) : Prop where
  makesWay : t.MakesWay p result.1
  ok_iff : result.2 = .ok () ↔ result.1.isDirectory p = true

/-- A fault other than a missing parent settles the matter either way. -/
theorem WayMade.of_tested (t : FileTree) (p : Path) (fault : FileFault) :
    t.WayMade p (t, if t.isDirectory p then .ok () else .error fault) := by
  refine ⟨.refl t p, ?_⟩
  cases t.isDirectory p <;> simp

theorem makeDirectoriesUpTo_wayMade (t : FileTree) {depth : Nat} {p : Path}
    (hdepth : p.components.length = depth) :
    t.WayMade p (t.makeDirectoriesUpTo depth p) := by
  induction depth generalizing p with
  | zero =>
      unfold makeDirectoriesUpTo
      split
      · next t' hmade =>
        exact ⟨(MakesWay.refl t p).makeDirectory hmade,
          iff_of_true rfl (isDirectory_of_makeDirectory hmade)⟩
      · next hmissing _ =>
        have hno := isDirectory_of_makeDirectory_notFound hmissing
        exact ⟨.refl t p, by simp [hno]⟩
      · next hdeeper => cases hdeeper
      · exact .of_tested t p _
  | succ depth ih =>
      have hparent : p.parent.components.length = depth := by
        rw [Path.parent_components, List.length_dropLast, hdepth, Nat.add_sub_cancel]
      obtain ⟨hway, hok⟩ := ih hparent
      unfold makeDirectoriesUpTo
      split
      · next t' hmade =>
        exact ⟨(MakesWay.refl t p).makeDirectory hmade,
          iff_of_true rfl (isDirectory_of_makeDirectory hmade)⟩
      · next hnever => cases hnever
      · next depth' hmissing hdepth' =>
        obtain rfl : depth = depth' := by omega
        split
        · next t' fault hresult =>
          rw [hresult] at hway hok
          refine ⟨hway.of_parent, iff_of_false nofun fun hdir => ?_⟩
          exact absurd (hok.2 (isDirectory_parent hdir)) nofun
        · next t' hresult =>
          rw [hresult] at hway
          split
          · next t'' hensured =>
            obtain ⟨hway', hdir⟩ := ensureDirectory_ok hway.of_parent hensured
            exact ⟨hway', iff_of_true rfl hdir⟩
          · next fault hensured =>
            have hno := ensureDirectory_error hensured
            exact ⟨hway.of_parent, by simp [hno]⟩
      · exact .of_tested t p _

/-- Making directories adds nothing but directories on the way, and succeeds
exactly when the path leads to one in the end. -/
theorem makeDirectories_wayMade (t : FileTree) (p : Path) :
    t.WayMade p (t.makeDirectories p) :=
  makeDirectoriesUpTo_wayMade t rfl

end FileTree

end EmulatedDevice
