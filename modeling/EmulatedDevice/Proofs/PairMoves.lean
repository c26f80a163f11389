import EmulatedDevice.Proofs.Moves
import EmulatedDevice.Publication
import Mathlib.Logic.Function.Basic

/-!
# Moving a script and its descriptor into place

There are three ways in which moving a staged script and its descriptor to their
paths can end. The script is refused: then the tree is what it was. The script is
moved and the descriptor is refused: then the script is taken back, and with it
goes what stood in its place before. Or both are moved.

`PairOutcome` says this about the tree as it looks from outside. The temporary
files do not show in it: their names were free, and they are free again. Trees
are compared by what they show and not by their entries, which are in another
order after each change.
-/

namespace EmulatedDevice

open Function (update)

namespace FileTree

/-! ## Trees as seen from outside -/

/-- A tree with the same working directory as another and the given look. -/
structure ChangedTo (t : FileTree) (view : Location → Option FileNode)
    (after : FileTree) : Prop where
  workingDirectory : after.workingDirectory = t.workingDirectory
  get? : after.get? = view

/-- A look at a tree that shows the same directories. -/
def ShowsDirectories (t : FileTree) (view : Location → Option FileNode) : Prop :=
  ∀ location, view location = some .directory ↔ t.get? location = some .directory

namespace ChangedTo

variable {t after : FileTree} {view : Location → Option FileNode}

theorem refl (t : FileTree) : t.ChangedTo t.get? t := ⟨rfl, rfl⟩

theorem insert (h : t.ChangedTo view after) {location : Location}
    (hne : location ≠ []) (node : FileNode) :
    t.ChangedTo (update view location (some node)) (after.insert location node) := by
  refine ⟨h.workingDirectory, ?_⟩
  funext other
  by_cases hother : other = location
  · rw [hother, get?_insert_self node hne, Function.update_self]
  · rw [get?_insert_of_ne node hother, Function.update_of_ne hother, h.get?]

theorem erase (h : t.ChangedTo view after) {location : Location}
    (hne : location ≠ []) :
    t.ChangedTo (update view location none) (after.erase location) := by
  refine ⟨h.workingDirectory, ?_⟩
  funext other
  by_cases hother : other = location
  · rw [hother, get?_erase_self hne, Function.update_self]
  · rw [get?_erase_of_ne hother, Function.update_of_ne hother, h.get?]

theorem sameDirectories (h : t.ChangedTo view after)
    (hview : t.ShowsDirectories view) : t.SameDirectories after := by
  refine ⟨⟨h.workingDirectory, fun location hdir => ?_⟩,
    ⟨h.workingDirectory.symm, fun location hdir => ?_⟩⟩
  · rw [h.get?]
    exact (hview location).2 hdir
  · rw [h.get?] at hdir
    exact (hview location).1 hdir

end ChangedTo

theorem ShowsDirectories.refl (t : FileTree) : t.ShowsDirectories t.get? :=
  fun _ => Iff.rfl

/-- Putting anything but a directory where no directory is. -/
theorem ShowsDirectories.update {t : FileTree} {view : Location → Option FileNode}
    (h : t.ShowsDirectories view) {location : Location} {node : Option FileNode}
    (hlocation : t.get? location ≠ some .directory) (hnode : node ≠ some .directory) :
    t.ShowsDirectories (update view location node) := by
  intro other
  by_cases hother : other = location
  · rw [hother, Function.update_self]
    exact iff_of_false hnode hlocation
  · rw [Function.update_of_ne hother]
    exact h other

/-- A node at a free location comes and goes without a trace. -/
theorem update_update_free {view : Location → Option FileNode}
    {location : Location} {node : Option FileNode} (h : view location = none) :
    update (update view location node) location none = view := by
  rw [Function.update_idem, ← h, Function.update_eq_self]

theorem update_update_update_free {view : Location → Option FileNode}
    {location other : Location} {node node' : Option FileNode}
    (h : view location = none) (hne : location ≠ other) :
    update (update (update view location node) other node') location none =
      update view other node' := by
  have hother : update view other node' location = none := by
    rw [Function.update_of_ne hne]
    exact h
  rw [Function.update_comm hne, update_update_free hother]

/-! ## Temporary files -/

/-- Two temporary names that are free in a directory and are not the last names of
two paths. -/
structure Temporaries (t : FileTree) (place : Location) (p q : Path)
    (first second : String) : Prop where
  ne : first ≠ second
  first_ne : first ≠ p.name ∧ first ≠ q.name
  second_ne : second ≠ p.name ∧ second ≠ q.name
  first_free : t.get? (first :: place) = none
  second_free : t.get? (second :: place) = none

theorem get?_eq_none_of_not_mem {t : FileTree} {place : Location} {name : String}
    (h : name ∉ t.namesIn place) : t.get? (name :: place) = none := by
  by_contra hne
  exact h (mem_namesIn hne)

/-- Fresh names are fit for temporary files. -/
theorem temporaries_fresh (t : FileTree) (place : Location) (p q : Path) :
    let taken := p.name :: q.name :: t.namesIn place
    t.Temporaries place p q (freshName taken) (freshName (freshName taken :: taken)) := by
  intro taken
  have hfirst := freshName_not_mem taken
  have hsecond := freshName_not_mem (freshName taken :: taken)
  rw [List.mem_cons, not_or] at hsecond
  obtain ⟨hne, hsecond⟩ := hsecond
  generalize freshName (freshName taken :: taken) = second at *
  generalize freshName taken = first at *
  simp only [taken, List.mem_cons, not_or] at hfirst hsecond
  exact ⟨fun h => hne h.symm, ⟨hfirst.1, hfirst.2.1⟩, ⟨hsecond.1, hsecond.2.1⟩,
    get?_eq_none_of_not_mem hfirst.2.2, get?_eq_none_of_not_mem hsecond.2.2⟩

/-- A temporary file is not in the place of a file that is moved. -/
theorem Takes.placeOf_ne {t : FileTree} {p : Path} (h : t.Takes p)
    {name : String} (hname : name ≠ p.name) (place : Location) :
    name :: place ≠ t.placeOf p := by
  obtain ⟨between, hplace⟩ := h.placeOf_eq
  rw [hplace]
  exact fun heq => hname (List.cons.inj heq).1

theorem Takes.placeOf_ne_nil {t : FileTree} {p : Path} (h : t.Takes p) :
    t.placeOf p ≠ [] := by
  obtain ⟨between, hplace⟩ := h.placeOf_eq
  rw [hplace]
  exact List.cons_ne_nil _ _

/-! ## The pair -/

/-- How moving a script and a descriptor to two paths can end. -/
inductive PairOutcome (t : FileTree) (p q : Path) (script descriptor : FileNode) :
    FileTree × Except FileFault Unit → Prop
  | scriptRefused {after : FileTree} {fault : FileFault} (hscript : ¬ t.Takes p)
      (hafter : fault.isRefusal = true → t.ChangedTo t.get? after) :
      PairOutcome t p q script descriptor (after, .error fault)
  | descriptorRefused {after : FileTree} {fault : FileFault} (hscript : t.Takes p)
      (hdescriptor : ¬ t.Takes q)
      (hafter : fault.isRefusal = true →
        t.ChangedTo (update t.get? (t.placeOf p) none) after) :
      PairOutcome t p q script descriptor (after, .error fault)
  | published {after : FileTree} (hscript : t.Takes p) (hdescriptor : t.Takes q)
      (hafter : t.ChangedTo (update (update t.get? (t.placeOf p) (some script))
        (t.placeOf q) (some descriptor)) after) :
      PairOutcome t p q script descriptor (after, .ok ())

section Moving

variable {t : FileTree} {place : Location} {p q : Path} {first second : String}
  {script descriptor : FileNode}

/-- Two staged files are no directories, and the first of them is there to be moved. -/
theorem Temporaries.staged (h : t.Temporaries place p q first second)
    (hfile : script ≠ .directory) (hfile' : descriptor ≠ .directory) :
    t.SameDirectories ((t.insert (first :: place) script).insert (second :: place) descriptor) ∧
      ((t.insert (first :: place) script).insert (second :: place) descriptor).get?
        (first :: place) = some script := by
  have hne : first :: place ≠ second :: place := fun heq => h.ne (List.cons.inj heq).1
  refine ⟨(sameDirectories_insert ?_ hfile).trans (sameDirectories_insert ?_ hfile'), ?_⟩
  · rw [h.first_free]
    nofun
  · rw [get?_insert_of_ne _ hne.symm, h.second_free]
    nofun
  · rw [get?_insert_of_ne _ hne, get?_insert_self _ (List.cons_ne_nil _ _)]

/-- The second half: the script is in its place and the descriptor is to be
moved. -/
theorem moveSecond_outcome (h : t.Temporaries place p q first second)
    (hfile : script ≠ .directory) (hfile' : descriptor ≠ .directory)
    (hscript : t.Takes p) {moved : FileTree}
    (hmoved : t.ChangedTo (update (update t.get? (second :: place) (some descriptor))
      (t.placeOf p) (some script)) moved) :
    t.PairOutcome p q script descriptor
      (match moved.moveTo (second :: place) q with
        | .error fault =>
          (moved.cleanUp fault (second :: place) (t.placeOf p), .error fault)
        | .ok (after, _) => (after, .ok ())) := by
  have hne := hscript.placeOf_ne h.second_ne.1 place
  have hsame : t.SameDirectories moved := by
    refine hmoved.sameDirectories (((ShowsDirectories.refl t).update ?_ ?_).update
      hscript.free ?_)
    · rw [h.second_free]
      nofun
    · simpa using hfile'
    · simpa using hfile
  have hsource : moved.get? (second :: place) = some descriptor := by
    rw [hmoved.get?, Function.update_of_ne hne, Function.update_self]
  split
  · next fault hrefused =>
    have hnot := not_takes_of_moveTo hsource hrefused
    refine .descriptorRefused hscript (fun htakes => hnot (hsame.takes htakes)) ?_
    intro hrefusal
    have herased := (hmoved.erase (List.cons_ne_nil second place)).erase
      hscript.placeOf_ne_nil
    rw [update_update_update_free h.second_free hne, Function.update_idem] at herased
    rw [cleanUp, if_pos hrefusal]
    exact herased
  · next after target hdone =>
    obtain ⟨htakes, _, rfl⟩ := (moveTo_iff_takes hsource).1 hdone
    have htakes := hsame.symm.takes htakes
    have hplaced := (hmoved.erase (List.cons_ne_nil second place)).insert
      htakes.placeOf_ne_nil descriptor
    rw [update_update_update_free h.second_free hne] at hplaced
    rw [hsame.1.placeOf]
    exact .published hscript htakes hplaced

/-- Moving two files that were staged under temporary names. -/
theorem movePair_outcome (h : t.Temporaries place p q first second)
    (hfile : script ≠ .directory) (hfile' : descriptor ≠ .directory) :
    t.PairOutcome p q script descriptor
      (((t.insert (first :: place) script).insert (second :: place) descriptor).movePair
        (first :: place) (second :: place) p q) := by
  have hne : first :: place ≠ second :: place := fun heq => h.ne (List.cons.inj heq).1
  obtain ⟨hsame, hsource⟩ := h.staged hfile hfile'
  have hstaged := ((ChangedTo.refl t).insert (List.cons_ne_nil first place) script).insert
    (List.cons_ne_nil second place) descriptor
  generalize (t.insert (first :: place) script).insert (second :: place) descriptor =
    staged at *
  unfold movePair
  split
  · next fault hrefused =>
    have hnot := not_takes_of_moveTo hsource hrefused
    refine .scriptRefused (fun htakes => hnot (hsame.takes htakes)) ?_
    intro hrefusal
    have herased := (hstaged.erase (List.cons_ne_nil first place)).erase
      (List.cons_ne_nil second place)
    rw [update_update_update_free h.first_free hne, update_update_free h.second_free]
      at herased
    rw [cleanUp, if_pos hrefusal]
    exact herased
  · next moved target hdone =>
    obtain ⟨htakes, rfl, rfl⟩ := (moveTo_iff_takes hsource).1 hdone
    have htakes := hsame.symm.takes htakes
    have hmoved := (hstaged.erase (List.cons_ne_nil first place)).insert
      htakes.placeOf_ne_nil script
    rw [update_update_update_free h.first_free hne] at hmoved
    rw [hsame.1.placeOf]
    exact moveSecond_outcome h hfile hfile' htakes hmoved

end Moving

end FileTree

end EmulatedDevice
