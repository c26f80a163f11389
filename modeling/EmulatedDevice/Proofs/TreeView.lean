import EmulatedDevice.FileTree
import EmulatedDevice.Proofs.PathNames

/-!
# What a tree shows under a path

A walk either stops at a fault or arrives at the place that the names spell out,
whatever the tree holds: a tree can refuse a walk but not divert it. So a path
has one place, `placeOf`, and two trees that both let the path through agree on
it.

A walk that ends at a directory has passed nothing but directories. It is still
possible in every tree that keeps the directories of the first, and that is all
that the requests here ever do to a tree before they look again.
-/

namespace EmulatedDevice

theorem FileNode.file_ne_directory (content : List UInt8) (mode : Nat) :
    FileNode.file content mode ≠ .directory := nofun

namespace FileTree

/-! ## Single locations -/

theorem get?_root (t : FileTree) : t.get? [] = some .directory := rfl

theorem get?_insert_self {t : FileTree} {location : Location} (node : FileNode)
    (h : location ≠ []) : (t.insert location node).get? location = some node := by
  rw [get?, if_neg h]
  exact Entries.get?_put_self _ _ _

theorem get?_insert_of_ne {t : FileTree} {location other : Location}
    (node : FileNode) (h : other ≠ location) :
    (t.insert location node).get? other = t.get? other := by
  unfold get?
  rw [insert, Entries.get?_put_of_ne h]

theorem get?_erase_self {t : FileTree} {location : Location} (h : location ≠ []) :
    (t.erase location).get? location = none := by
  rw [get?, if_neg h]
  exact Entries.get?_filter_self _ _

theorem get?_erase_of_ne {t : FileTree} {location other : Location}
    (h : other ≠ location) : (t.erase location).get? other = t.get? other := by
  unfold get?
  rw [erase, Entries.get?_filter_of_ne h]

theorem insert_eq_self {t : FileTree} {location : Location} {node : FileNode}
    (h : t.get? location = some node) (hne : location ≠ []) : t.insert location node = t := by
  rw [get?, if_neg hne] at h
  rw [insert, Entries.put_eq_self h]

theorem erase_insert_self {t : FileTree} {location : Location}
    (h : t.get? location = none) (node : FileNode) :
    (t.insert location node).erase location = t := by
  have hne : location ≠ [] := by
    rintro rfl
    cases h
  rw [get?, if_neg hne] at h
  rw [insert, erase, Entries.filter_put_self h]

theorem erase_insert_of_ne {location other : Location} (hne : location ≠ other) (t : FileTree)
    (node : FileNode) : (t.insert location node).erase other = (t.erase other).insert location node := by
  rw [insert, erase, insert, erase, Entries.filter_put_of_ne hne]

/-- Every name that a directory holds is among its names. -/
theorem mem_namesIn {t : FileTree} {place : Location} {name : String}
    (h : t.get? (name :: place) ≠ none) : name ∈ t.namesIn place := by
  rw [get?, if_neg (List.cons_ne_nil _ _), ne_eq, ← Option.not_isSome_iff_eq_none,
    not_not, Entries.get?_isSome_iff] at h
  obtain ⟨entry, hentry, hkey⟩ := List.mem_map.1 h
  refine List.mem_filterMap.2 ⟨entry, hentry, ?_⟩
  obtain ⟨location, node⟩ := entry
  obtain rfl : location = name :: place := hkey
  exact if_pos rfl

/-! ## Walks -/

/-- Where one name leads from a location. -/
def stepFrom (location : Location) (name : String) : Location :=
  if name = ".." then location.tail else name :: location

/-- The place that a path spells out. -/
def placeOf (t : FileTree) (p : Path) : Location :=
  p.components.foldl stepFrom (t.startOf p)

/-- What a walk asks for before it takes a step. -/
structure CanStep (t : FileTree) (location : Location) (name : String) : Prop where
  directory : t.get? location = some .directory
  short : name ≠ ".." → nameTooLong name = false
  present : name ≠ ".." → t.get? (name :: location) ≠ none

theorem walk_cons_ok_iff {t : FileTree} {location target : Location}
    {name : String} {rest : List String} :
    t.walk location (name :: rest) = .ok target ↔
      t.CanStep location name ∧ t.walk (stepFrom location name) rest = .ok target := by
  rw [walk, stepFrom]
  split
  · next hnone => exact ⟨nofun, fun h => by simpa [hnone] using h.1.directory⟩
  · next hfile => exact ⟨nofun, fun h => by simpa [hfile] using h.1.directory⟩
  · next hdir =>
    by_cases hup : name = ".."
    · rw [if_pos hup, if_pos hup]
      exact ⟨fun h => ⟨⟨hdir, fun hne => absurd hup hne, fun hne => absurd hup hne⟩, h⟩,
        fun h => h.2⟩
    · rw [if_neg hup, if_neg hup]
      split
      · next hlong => exact ⟨nofun, fun h => by simpa [hlong] using h.1.short hup⟩
      · next hshort =>
        split
        · next hgone =>
          exact ⟨nofun, fun h => absurd (Option.isNone_iff_eq_none.1 hgone) (h.1.present hup)⟩
        · next hthere =>
          rw [Option.isNone_iff_eq_none] at hthere
          exact ⟨fun h => ⟨⟨hdir, fun _ => eq_false_of_ne_true hshort, fun _ => hthere⟩, h⟩,
            fun h => h.2⟩

theorem walk_append_ok_iff {t : FileTree} {xs ys : List String}
    {location target : Location} :
    t.walk location (xs ++ ys) = .ok target ↔
      ∃ between, t.walk location xs = .ok between ∧
        t.walk between ys = .ok target := by
  induction xs generalizing location with
  | nil => simp [walk]
  | cons name rest ih =>
      rw [List.cons_append, walk_cons_ok_iff, ih]
      constructor
      · rintro ⟨hstep, between, hrest, hys⟩
        exact ⟨between, walk_cons_ok_iff.2 ⟨hstep, hrest⟩, hys⟩
      · rintro ⟨between, hxs, hys⟩
        obtain ⟨hstep, hrest⟩ := walk_cons_ok_iff.1 hxs
        exact ⟨hstep, between, hrest, hys⟩

/-- A walk that arrives arrives where its names say. -/
theorem walk_eq_foldl {t : FileTree} {names : List String}
    {location target : Location} (h : t.walk location names = .ok target) :
    target = names.foldl stepFrom location := by
  induction names generalizing location with
  | nil => exact (Except.ok.inj h).symm
  | cons name rest ih => exact ih (walk_cons_ok_iff.1 h).2

/-- A tree that keeps the directories of another. -/
def KeepsDirectories (t t' : FileTree) : Prop :=
  t'.workingDirectory = t.workingDirectory ∧
    ∀ location, t.get? location = some .directory → t'.get? location = some .directory

/-- Keeping the directories keeps every walk, as long as there is something at its end. -/
theorem KeepsDirectories.walk_of_present {t t' : FileTree} (h : t.KeepsDirectories t')
    {names : List String} {location target : Location}
    (hwalk : t.walk location names = .ok target) (htarget : t'.get? target ≠ none) :
    t'.walk location names = .ok target := by
  induction names generalizing location with
  | nil => exact hwalk
  | cons name rest ih =>
      obtain ⟨hstep, hrest⟩ := walk_cons_ok_iff.1 hwalk
      refine walk_cons_ok_iff.2 ⟨⟨h.2 _ hstep.directory, hstep.short, ?_⟩, ih hrest⟩
      intro hup
      -- The walk ends at the next location, or passes it and so finds a directory there.
      rw [stepFrom, if_neg hup] at hrest
      cases rest with
      | nil =>
          obtain rfl := Except.ok.inj hrest
          exact htarget
      | cons next rest =>
          rw [h.2 _ (walk_cons_ok_iff.1 hrest).1.directory]
          exact Option.some_ne_none _

theorem KeepsDirectories.walk {t t' : FileTree} (h : t.KeepsDirectories t')
    {names : List String} {location target : Location}
    (hwalk : t.walk location names = .ok target)
    (htarget : t.get? target = some .directory) :
    t'.walk location names = .ok target :=
  h.walk_of_present hwalk (by rw [h.2 _ htarget]; exact Option.some_ne_none _)

theorem KeepsDirectories.trans {t t' t'' : FileTree} (h : t.KeepsDirectories t')
    (h' : t'.KeepsDirectories t'') : t.KeepsDirectories t'' :=
  ⟨h'.1.trans h.1, fun location hdir => h'.2 location (h.2 location hdir)⟩

/-! ## Looking up a path -/

/-- What is put behind a directory is looked up from where the directory is. -/
theorem startOf_join_name (t : FileTree) (directory : Path) {name : String}
    (h : '/' ∉ name.toList) :
    t.startOf (directory / Path.ofString name) = t.startOf directory := by
  rw [startOf, startOf, Path.join_name_root directory h]

/-- A path that a tree lets through to a directory. -/
structure LeadsTo (t : FileTree) (p : Path) (place : Location) : Prop where
  walk : t.walk (t.startOf p) p.components = .ok place
  directory : t.get? place = some .directory

theorem KeepsDirectories.startOf {t t' : FileTree} (h : t.KeepsDirectories t')
    (p : Path) : t'.startOf p = t.startOf p := by
  unfold FileTree.startOf
  rw [h.1]

theorem KeepsDirectories.placeOf {t t' : FileTree} (h : t.KeepsDirectories t')
    (p : Path) : t'.placeOf p = t.placeOf p := by
  unfold FileTree.placeOf
  rw [h.startOf]

theorem KeepsDirectories.leadsTo {t t' : FileTree} (h : t.KeepsDirectories t')
    {p : Path} {place : Location} (hleads : t.LeadsTo p place) :
    t'.LeadsTo p place := by
  refine ⟨?_, h.2 _ hleads.directory⟩
  rw [h.startOf]
  exact h.walk hleads.walk hleads.directory

theorem locate_ok_iff {t : FileTree} {p : Path} {place : Location} :
    t.locate p = .ok place ↔
      checkPath p = .ok () ∧ t.walk (t.startOf p) p.components = .ok place := by
  unfold locate
  cases hcheck : checkPath p with
  | error fault => exact ⟨nofun, fun h => nomatch h.1⟩
  | ok _ => exact ⟨fun h => ⟨rfl, h⟩, fun h => h.2⟩

theorem find_of_locate {t : FileTree} {p : Path} {place : Location}
    (h : t.locate p = .ok place) :
    t.find p = (t.get? place).elim (.error .notFound) .ok := by
  unfold find
  rw [h]
  simp only [bind, Except.bind]
  cases t.get? place <;> rfl

theorem find_ok_iff {t : FileTree} {p : Path} {node : FileNode} :
    t.find p = .ok node ↔ ∃ place, t.locate p = .ok place ∧ t.get? place = some node := by
  cases hlocate : t.locate p with
  | error fault =>
      rw [find, hlocate]
      constructor
      · intro h
        cases h
      · rintro ⟨_, h, _⟩
        cases h
  | ok place =>
      rw [find_of_locate hlocate]
      simp only [Except.ok.injEq, exists_eq_left']
      cases t.get? place with
      | none => simp
      | some found => simp

theorem find_eq_placeOf {t : FileTree} {p : Path} {node : FileNode}
    (h : t.find p = .ok node) : t.get? (t.placeOf p) = some node := by
  obtain ⟨place, hlocate, hnode⟩ := find_ok_iff.1 h
  obtain ⟨_, hwalk⟩ := locate_ok_iff.1 hlocate
  rw [placeOf, ← walk_eq_foldl hwalk]
  exact hnode

/-- What a path leads to is still found when it is still in its place. -/
theorem KeepsDirectories.find {t t' : FileTree} (h : t.KeepsDirectories t') {p : Path}
    {node : FileNode} (hfind : t.find p = .ok node)
    (hkept : t'.get? (t.placeOf p) = t.get? (t.placeOf p)) : t'.find p = .ok node := by
  have hnode := find_eq_placeOf hfind
  obtain ⟨place, hlocate, _⟩ := find_ok_iff.1 hfind
  obtain ⟨hcheck, hwalk⟩ := locate_ok_iff.1 hlocate
  obtain rfl : place = t.placeOf p := walk_eq_foldl hwalk
  refine find_ok_iff.2 ⟨_, locate_ok_iff.2 ⟨hcheck, ?_⟩, hkept.trans hnode⟩
  rw [h.startOf]
  exact h.walk_of_present hwalk (by rw [hkept, hnode]; exact Option.some_ne_none _)

theorem isDirectory_iff {t : FileTree} {p : Path} :
    t.isDirectory p = true ↔ checkPath p = .ok () ∧ ∃ place, t.LeadsTo p place := by
  have hfind : t.isDirectory p = true ↔ t.find p = .ok .directory := by
    unfold isDirectory
    split
    · next h => simp [h]
    · next h => simpa using h
  rw [hfind, find_ok_iff]
  constructor
  · rintro ⟨place, hlocate, hdir⟩
    obtain ⟨hcheck, hwalk⟩ := locate_ok_iff.1 hlocate
    exact ⟨hcheck, place, hwalk, hdir⟩
  · rintro ⟨hcheck, place, hwalk, hdir⟩
    exact ⟨place, locate_ok_iff.2 ⟨hcheck, hwalk⟩, hdir⟩

/-- The last step of a path to a directory is taken from a directory. -/
theorem LeadsTo.last_step {t : FileTree} {p : Path} {place : Location}
    (h : t.LeadsTo p place) {front : List String} {last : String}
    (hlast : p.components = front ++ [last]) :
    ∃ between, t.walk (t.startOf p) front = .ok between ∧
      t.CanStep between last ∧ place = stepFrom between last := by
  have hwalk := h.walk
  rw [hlast, walk_append_ok_iff] at hwalk
  obtain ⟨between, hfront, hstep⟩ := hwalk
  obtain ⟨hcan, hend⟩ := walk_cons_ok_iff.1 hstep
  exact ⟨between, hfront, hcan, (Except.ok.inj hend).symm⟩

theorem isDirectory_parent {t : FileTree} {p : Path}
    (h : t.isDirectory p = true) : t.isDirectory p.parent = true := by
  obtain ⟨hcheck, place, hleads⟩ := isDirectory_iff.1 h
  refine isDirectory_iff.2 ⟨checkPath_parent hcheck, ?_⟩
  rcases List.eq_nil_or_concat p.components with hnil | ⟨front, last, hlast⟩
  · rw [Path.parent_of_nil hnil]
    exact ⟨place, hleads⟩
  · rw [List.concat_eq_append] at hlast
    obtain ⟨between, hfront, hcan, _⟩ := hleads.last_step hlast
    refine ⟨between, ?_, hcan.directory⟩
    rw [Path.parent_components_of_concat hlast]
    exact hfront

end FileTree

end EmulatedDevice
