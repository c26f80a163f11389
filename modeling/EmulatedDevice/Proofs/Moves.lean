import EmulatedDevice.Proofs.TreeView
import Mathlib.Data.List.Nodup
import Mathlib.Data.List.Perm.Subperm

/-!
# Moving a file to a path

Moving a file to a path is refused for the same reasons for which finding a file
there would fail, but for one: the place may be free. So where a move is refused
the path leads to no file, and where it is not refused the path leads to what was
moved.

Which paths can take a file is a matter of the directories alone. Files that come
and go elsewhere change nothing about it, so a second move can be judged by the
tree from before the first.
-/

namespace EmulatedDevice

/-- A name that something in a directory can have. -/
def Path.IsEntryName (name : String) : Prop :=
  IsComponent name ∧ name ≠ ".."

instance (name : String) : Decidable (Path.IsEntryName name) :=
  inferInstanceAs (Decidable (_ ∧ _))

namespace FileTree

/-! ## Destinations -/

/-- Looking for a destination, once the path is no fault and the walk to the
directory has arrived. -/
theorem destination_of_walk {t : FileTree} {p : Path} {unnamed : FileFault}
    {between : Location} (hcheck : checkPath p = .ok ())
    (hwalk : t.walk (t.startOf p) p.components.dropLast = .ok between) :
    t.destination p unnamed =
      match t.get? between with
      | none => .error .notFound
      | some (.file ..) => .error .notDirectory
      | some .directory =>
        match p.components.getLast? with
        | none => .error unnamed
        | some last =>
          if last = ".." then .error unnamed
          else if nameTooLong last then .error .nameTooLong
          else .ok (last :: between) := by
  unfold destination
  rw [hcheck, hwalk]
  rfl

theorem destination_ok_iff {t : FileTree} {p : Path} {unnamed : FileFault}
    {target : Location} :
    t.destination p unnamed = .ok target ↔
      checkPath p = .ok () ∧ ∃ between last,
        t.walk (t.startOf p) p.components.dropLast = .ok between ∧
        t.get? between = some .directory ∧ p.components.getLast? = some last ∧
        last ≠ ".." ∧ nameTooLong last = false ∧ target = last :: between := by
  constructor
  · intro h
    cases hcheck : checkPath p with
    | error fault =>
        rw [destination, hcheck] at h
        cases h
    | ok _ =>
        cases hwalk : t.walk (t.startOf p) p.components.dropLast with
        | error fault =>
            rw [destination, hcheck, hwalk] at h
            cases h
        | ok between =>
            rw [destination_of_walk hcheck hwalk] at h
            split at h
            · cases h
            · cases h
            · next hdir =>
              split at h
              · cases h
              · next last hlast =>
                split at h
                · cases h
                · next hup =>
                  split at h
                  · cases h
                  · next hshort =>
                    exact ⟨rfl, between, last, rfl, hdir, hlast, hup,
                      eq_false_of_ne_true hshort, (Except.ok.inj h).symm⟩
  · rintro ⟨hcheck, between, last, hwalk, hdir, hlast, hup, hshort, rfl⟩
    rw [destination_of_walk hcheck hwalk, hdir, hlast]
    simp [hup, hshort]

/-- A destination is the place that its path spells out. -/
theorem destination_eq_placeOf {t : FileTree} {p : Path} {unnamed : FileFault}
    {location : Location} (h : t.destination p unnamed = .ok location) :
    location = t.placeOf p := by
  obtain ⟨_, between, last, hwalk, _, hlast, hup, _, rfl⟩ := destination_ok_iff.1 h
  have hsplit := List.dropLast_append_getLast? last hlast
  rw [placeOf, ← hsplit, List.foldl_append, ← walk_eq_foldl hwalk]
  exact (if_neg hup).symm

/-- What is a destination stays one while the directories stay. -/
theorem KeepsDirectories.destination {t t' : FileTree} (h : t.KeepsDirectories t')
    {p : Path} {unnamed : FileFault} {target : Location}
    (htarget : t.destination p unnamed = .ok target) :
    t'.destination p unnamed = .ok target := by
  obtain ⟨hcheck, between, last, hwalk, hdir, hlast, hup, hshort, rfl⟩ :=
    destination_ok_iff.1 htarget
  refine destination_ok_iff.2
    ⟨hcheck, between, last, ?_, h.2 _ hdir, hlast, hup, hshort, rfl⟩
  rw [h.startOf]
  exact h.walk hwalk hdir

/-- What a destination holds is found there. -/
theorem find_of_destination {t : FileTree} {p : Path} {unnamed : FileFault}
    {target : Location} {node : FileNode}
    (htarget : t.destination p unnamed = .ok target)
    (hnode : t.get? target = some node) : t.find p = .ok node := by
  obtain ⟨hcheck, between, last, hwalk, hdir, hlast, hup, hshort, rfl⟩ :=
    destination_ok_iff.1 htarget
  refine find_ok_iff.2 ⟨last :: between, locate_ok_iff.2 ⟨hcheck, ?_⟩, hnode⟩
  rw [← List.dropLast_append_getLast? last hlast, walk_append_ok_iff]
  refine ⟨between, hwalk, walk_cons_ok_iff.2
    ⟨⟨hdir, fun _ => hshort, fun _ => ?_⟩, ?_⟩⟩
  · rw [hnode]
    exact Option.some_ne_none _
  · rw [stepFrom, if_neg hup]
    rfl

/-- A path to a directory is not missing when something is to be made there. -/
theorem destination_ne_notFound {t : FileTree} {p : Path} {unnamed : FileFault}
    (h : t.isDirectory p = true) (hunnamed : unnamed ≠ .notFound) :
    t.destination p unnamed ≠ .error .notFound := by
  obtain ⟨hcheck, place, hleads⟩ := isDirectory_iff.1 h
  rcases List.eq_nil_or_concat p.components with hnil | ⟨front, last, hlast⟩
  · have hwalk := hleads.walk
    have hstart : t.walk (t.startOf p) p.components.dropLast = .ok place := by
      rw [hnil] at hwalk ⊢
      exact hwalk
    rw [destination_of_walk hcheck hstart, hleads.directory, hnil]
    simpa using hunnamed
  · rw [List.concat_eq_append] at hlast
    obtain ⟨between, hfront, hcan, _⟩ := hleads.last_step hlast
    have hwalk : t.walk (t.startOf p) p.components.dropLast = .ok between := by
      rw [hlast, List.dropLast_concat]
      exact hfront
    rw [destination_of_walk hcheck hwalk, hcan.directory, hlast,
      List.getLast?_concat]
    by_cases hup : last = ".."
    · simpa [hup] using hunnamed
    · simp [hup, hcan.short hup]

/-! ## Moves -/

theorem moveTo_of_destination {t : FileTree} {source target : Location} {p : Path}
    (h : t.destination p .busy = .ok target) :
    t.moveTo source p = (t.get? source).elim (.error .notFound) fun node =>
      if t.get? target = some .directory then
        .error (if target.isSuffixOf source then .notEmpty else .isDirectory)
      else .ok ((t.erase source).insert target node, target) := by
  unfold moveTo
  rw [h]
  simp only [bind, Except.bind]
  cases t.get? source with
  | none => rfl
  | some node =>
      rw [Option.elim_some]
      cases t.get? target with
      | none => rfl
      | some other => cases other <;> rfl

theorem moveTo_ok_iff {t t' : FileTree} {source target : Location} {p : Path} :
    t.moveTo source p = .ok (t', target) ↔
      t.destination p .busy = .ok target ∧ t.get? target ≠ some .directory ∧
        ∃ node, t.get? source = some node ∧
          t' = (t.erase source).insert target node := by
  cases hdest : t.destination p .busy with
  | error fault =>
      rw [moveTo, hdest]
      constructor
      · intro h
        cases h
      · rintro ⟨h, _⟩
        cases h
  | ok place =>
      rw [moveTo_of_destination hdest, Except.ok.injEq]
      cases t.get? source with
      | none => simp
      | some node =>
          rw [Option.elim_some]
          split
          · next hdir =>
            constructor
            · intro h
              cases h
            · rintro ⟨rfl, hfree, _⟩
              exact absurd hdir hfree
          · next hfree =>
            constructor
            · intro h
              obtain ⟨rfl, rfl⟩ := Prod.mk.inj (Except.ok.inj h)
              exact ⟨rfl, hfree, node, rfl, rfl⟩
            · rintro ⟨rfl, _, found, hfound, rfl⟩
              obtain rfl := Option.some.inj hfound
              rfl

/-- A path that a file can be moved to. -/
structure Takes (t : FileTree) (p : Path) : Prop where
  destination : t.destination p .busy = .ok (t.placeOf p)
  free : t.get? (t.placeOf p) ≠ some .directory

theorem moveTo_iff_takes {t t' : FileTree} {source target : Location} {p : Path}
    {node : FileNode} (hsource : t.get? source = some node) :
    t.moveTo source p = .ok (t', target) ↔
      t.Takes p ∧ target = t.placeOf p ∧
        t' = (t.erase source).insert (t.placeOf p) node := by
  rw [moveTo_ok_iff]
  constructor
  · rintro ⟨hdest, hfree, found, hfound, rfl⟩
    obtain rfl := destination_eq_placeOf hdest
    obtain rfl := Option.some.inj (hsource.symm.trans hfound)
    exact ⟨⟨hdest, hfree⟩, rfl, rfl⟩
  · rintro ⟨htakes, rfl, rfl⟩
    exact ⟨htakes.destination, htakes.free, node, hsource, rfl⟩

theorem not_takes_of_moveTo {t : FileTree} {source : Location} {p : Path}
    {node : FileNode} {fault : FileFault} (hsource : t.get? source = some node)
    (h : t.moveTo source p = .error fault) : ¬ t.Takes p := by
  intro htakes
  rw [(moveTo_iff_takes hsource).2 ⟨htakes, rfl, rfl⟩] at h
  cases h

/-- The place that a path can take is named by its last component. -/
theorem Takes.placeOf_eq {t : FileTree} {p : Path} (h : t.Takes p) :
    ∃ between, t.placeOf p = p.name :: between := by
  obtain ⟨_, between, last, _, _, hlast, _, _, hplace⟩ :=
    destination_ok_iff.1 h.destination
  refine ⟨between, ?_⟩
  rw [Path.name, hlast, hplace]
  rfl

/-- A file that a path leads to could be replaced. -/
theorem takes_of_find {t : FileTree} {p : Path} {last : String}
    {content : List UInt8} {mode : Nat} (hlast : p.components.getLast? = some last)
    (hup : last ≠ "..") (h : t.find p = .ok (.file content mode)) : t.Takes p := by
  have hnode := find_eq_placeOf h
  obtain ⟨place, hlocate, _⟩ := find_ok_iff.1 h
  obtain ⟨hcheck, hwalk⟩ := locate_ok_iff.1 hlocate
  rw [← List.dropLast_append_getLast? last hlast, walk_append_ok_iff] at hwalk
  obtain ⟨between, hfront, hstep⟩ := hwalk
  obtain ⟨hcan, _⟩ := walk_cons_ok_iff.1 hstep
  have hdest : t.destination p .busy = .ok (last :: between) :=
    destination_ok_iff.2 ⟨hcheck, between, last, hfront, hcan.directory, hlast, hup,
      hcan.short hup, rfl⟩
  refine ⟨?_, ?_⟩
  · rw [← destination_eq_placeOf hdest]
    exact hdest
  · rw [hnode]
    nofun

/-! ## Paths without a file -/

/-- A path that leads to no file. -/
def NoFileAt (t : FileTree) (p : Path) : Prop :=
  ∀ content mode, t.find p ≠ .ok (.file content mode)

theorem NoFileAt.of_get?_eq_none {t : FileTree} {p : Path}
    (h : t.get? (t.placeOf p) = none) : t.NoFileAt p := by
  intro content mode hfind
  rw [find_eq_placeOf hfind] at h
  cases h

section Entry

variable {t : FileTree} {directory : Path} {name : String}

theorem getLast?_entry (directory : Path) (hname : Path.IsEntryName name) :
    (directory / Path.ofString name).components.getLast? = some name := by
  rw [Path.join_name_components directory hname.1, List.getLast?_concat]

theorem NoFileAt.of_not_takes (hname : Path.IsEntryName name)
    (h : ¬ t.Takes (directory / Path.ofString name)) :
    t.NoFileAt (directory / Path.ofString name) :=
  fun _ _ hfind => h (takes_of_find (getLast?_entry directory hname) hname.2 hfind)

/-- Where there is no directory there are no files in it. -/
theorem NoFileAt.of_not_isDirectory (hname : Path.IsEntryName name)
    (h : t.isDirectory directory = false) :
    t.NoFileAt (directory / Path.ofString name) := by
  intro content mode hfind
  obtain ⟨target, hlocate, _⟩ := find_ok_iff.1 hfind
  obtain ⟨hcheck, hwalk⟩ := locate_ok_iff.1 hlocate
  rw [Path.join_name_components directory hname.1, walk_append_ok_iff] at hwalk
  obtain ⟨between, hfront, hstep⟩ := hwalk
  rw [t.startOf_join_name directory hname.1.not_slash] at hfront
  have hdirectory : t.isDirectory directory = true := by
    refine isDirectory_iff.2 ⟨?_, between, hfront, (walk_cons_ok_iff.1 hstep).1.directory⟩
    have hparent := checkPath_parent hcheck
    rwa [Path.parent_join_name directory hname.1] at hparent
  rw [h] at hdirectory
  cases hdirectory

end Entry

/-! ## Trees with the same directories -/

theorem keepsDirectories_insert {t : FileTree} {location : Location}
    {node : FileNode} (h : t.get? location ≠ some .directory) :
    t.KeepsDirectories (t.insert location node) := by
  refine ⟨rfl, fun other hdir => ?_⟩
  have hne : other ≠ location := by
    intro heq
    rw [heq] at hdir
    exact h hdir
  rw [get?_insert_of_ne node hne]
  exact hdir

/-- Two trees that differ in their files at most. -/
def SameDirectories (t t' : FileTree) : Prop :=
  t.KeepsDirectories t' ∧ t'.KeepsDirectories t

theorem SameDirectories.symm {t t' : FileTree} (h : t.SameDirectories t') :
    t'.SameDirectories t :=
  ⟨h.2, h.1⟩

theorem SameDirectories.trans {t t' t'' : FileTree} (h : t.SameDirectories t')
    (h' : t'.SameDirectories t'') : t.SameDirectories t'' :=
  ⟨h.1.trans h'.1, h'.2.trans h.2⟩

/-- A file where no directory is. -/
theorem sameDirectories_insert {t : FileTree} {location : Location} {node : FileNode}
    (hlocation : t.get? location ≠ some .directory) (hnode : node ≠ .directory) :
    t.SameDirectories (t.insert location node) := by
  refine ⟨keepsDirectories_insert hlocation, rfl, fun other hdir => ?_⟩
  by_cases hother : other = location
  · subst hother
    have hne : other ≠ [] := fun hroot => hlocation (by rw [hroot, get?_root])
    rw [get?_insert_self node hne] at hdir
    exact absurd (Option.some.inj hdir) hnode
  · rwa [get?_insert_of_ne node hother] at hdir

/-- Which paths can take a file is a matter of the directories alone. -/
theorem SameDirectories.takes {t t' : FileTree} (h : t.SameDirectories t')
    {p : Path} (htakes : t.Takes p) : t'.Takes p := by
  refine ⟨?_, ?_⟩
  · rw [h.1.placeOf]
    exact h.1.destination htakes.destination
  · rw [h.1.placeOf]
    exact fun hdir => htakes.free (h.2.2 _ hdir)

/-! ## Fresh names -/

theorem temporaryName_injective : Function.Injective temporaryName := by
  intro m n h
  have htext : (temporaryName m).toList = (temporaryName n).toList := by rw [h]
  simp only [temporaryName, String.toList_append] at htext
  have hdigits : Nat.toDigits 10 m = Nat.toDigits 10 n := by
    have hnumber := List.append_cancel_left (List.append_cancel_right htext)
    simpa [Nat.toString_eq_ofList_toDigits] using hnumber
  rw [← Nat.ofDigitChars_ten_toDigits (n := m), hdigits,
    Nat.ofDigitChars_ten_toDigits]

theorem freshFrom_taken {taken : List String} {tries n : Nat}
    (h : freshFrom taken tries n ∈ taken) :
    ∀ i ≤ tries, temporaryName (n + i) ∈ taken := by
  induction tries generalizing n with
  | zero =>
      intro i hi
      obtain rfl : i = 0 := by omega
      exact h
  | succ tries ih =>
      rw [freshFrom] at h
      split at h
      · next hfirst =>
        intro i hi
        cases i with
        | zero => exact hfirst
        | succ i =>
            have hnext := ih h i (by omega)
            rwa [Nat.add_assoc, Nat.add_comm 1 i] at hnext
      · next hfirst => exact absurd h hfirst

/-- Among more numbers than there are taken names, one gives a name that is not
taken. -/
theorem freshName_not_mem (taken : List String) : freshName taken ∉ taken := by
  intro h
  have hall := freshFrom_taken h
  have hsubset : (List.range (taken.length + 1)).map temporaryName ⊆ taken := by
    intro name hname
    obtain ⟨i, hi, rfl⟩ := List.mem_map.1 hname
    have hmem := hall i (Nat.le_of_lt_succ (List.mem_range.1 hi))
    rwa [Nat.zero_add] at hmem
  have hnodup : ((List.range (taken.length + 1)).map temporaryName).Nodup :=
    List.Nodup.map temporaryName_injective List.nodup_range
  have hlength := (List.subperm_of_subset hnodup hsubset).length_le
  rw [List.length_map, List.length_range] at hlength
  omega

end FileTree

end EmulatedDevice
