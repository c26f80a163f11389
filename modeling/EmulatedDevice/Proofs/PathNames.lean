import EmulatedDevice.FileTree
import Mathlib.Data.List.Basic

/-!
# A name in a directory

Putting a name behind a directory's path goes through reading the name as a path,
and reading drops what is no step. So a name that is a component is the last one
of the new path, and taking the parent leads back to the directory. Whatever the
name is, a text without a slash that is put behind it only changes the last
component, or makes one where the name has none.
-/

namespace EmulatedDevice

namespace Path

theorem segments_of_not_mem {text : List Char} (h : '/' ∉ text) :
    segments text = [text] := by
  induction text with
  | nil => rfl
  | cons c rest ih =>
      rw [List.mem_cons, not_or] at h
      have hc : c ≠ '/' := fun e => h.1 e.symm
      rw [segments, if_neg hc, ih h.2]

/-- Text without a slash that is put behind a text goes into its last piece. -/
theorem segments_append {more : List Char} (h : '/' ∉ more) (text : List Char) :
    ∃ front last, '/' ∉ last ∧ segments text = front ++ [last] ∧
      segments (text ++ more) = front ++ [last ++ more] := by
  induction text with
  | nil => exact ⟨[], [], by simp, rfl, segments_of_not_mem h⟩
  | cons c rest ih =>
      obtain ⟨front, last, hlast, hrest, hmore⟩ := ih
      rw [List.cons_append, segments, segments, hrest, hmore]
      by_cases hc : c = '/'
      · rw [if_pos hc, if_pos hc]
        exact ⟨[] :: front, last, hlast, rfl, rfl⟩
      · rw [if_neg hc, if_neg hc]
        cases front with
        | nil =>
            refine ⟨[], c :: last, ?_, rfl, rfl⟩
            rw [List.mem_cons, not_or]
            exact ⟨fun e => hc e.symm, hlast⟩
        | cons piece pieces => exact ⟨(c :: piece) :: pieces, last, hlast, rfl, rfl⟩

theorem takeWhile_slash_of_not_mem {text : List Char} (h : '/' ∉ text) :
    text.takeWhile (· = '/') = [] := by
  cases text with
  | nil => rfl
  | cons c rest =>
      rw [List.mem_cons, not_or] at h
      have hc : ¬ c = '/' := fun e => h.1 e.symm
      rw [List.takeWhile_cons_of_neg (by simpa using hc)]

theorem takeWhile_slash_append {more : List Char} (h : '/' ∉ more)
    (text : List Char) :
    (text ++ more).takeWhile (· = '/') = text.takeWhile (· = '/') := by
  induction text with
  | nil => exact takeWhile_slash_of_not_mem h
  | cons c rest ih => rw [List.cons_append, List.takeWhile_cons, List.takeWhile_cons, ih]

theorem ofString_root {name : String} (h : '/' ∉ name.toList) :
    (ofString name).root = .none := by
  show RootMarker.ofSlashCount (name.toList.takeWhile (· = '/')).length = .none
  rw [takeWhile_slash_of_not_mem h]
  rfl

theorem ofString_components {name : String} (h : '/' ∉ name.toList) :
    (ofString name).components = if IsComponent name then [name] else [] := by
  show componentsOf name.toList = _
  unfold componentsOf
  rw [segments_of_not_mem h, List.map_singleton, String.ofList_toList]
  split <;> simp_all

theorem IsComponent.not_slash {name : String} (h : IsComponent name) :
    '/' ∉ name.toList := h.2.2

theorem join_of_root_none {p q : Path} (h : q.root = .none) :
    (p / q).root = p.root ∧ (p / q).components = p.components ++ q.components := by
  show (join p q).root = _ ∧ (join p q).components = _
  unfold join
  rw [if_pos h]
  exact ⟨rfl, rfl⟩

theorem join_of_root_ne_none {p q : Path} (h : q.root ≠ .none) : p / q = q :=
  if_neg h

theorem eq_of_parts {p q : Path} (hroot : p.root = q.root)
    (hcomponents : p.components = q.components) : p = q := by
  cases p
  cases q
  simp_all

theorem join_assoc (p q r : Path) : p / q / r = p / (q / r) := by
  by_cases hr : r.root = .none
  · by_cases hq : q.root = .none
    · have hpq := join_of_root_none (p := p) hq
      have hqr := join_of_root_none (p := q) hr
      have hleft := join_of_root_none (p := p / q) hr
      have hright := join_of_root_none (p := p) (hqr.1.trans hq)
      refine eq_of_parts ?_ ?_
      · rw [hleft.1, hright.1, hpq.1]
      · rw [hleft.2, hright.2, hpq.2, hqr.2, List.append_assoc]
    · have hqr : (q / r).root ≠ .none := by rwa [(join_of_root_none hr).1]
      rw [join_of_root_ne_none hq, join_of_root_ne_none hqr]
  · rw [join_of_root_ne_none hr, join_of_root_ne_none hr, join_of_root_ne_none hr]

theorem join_name_root (p : Path) {name : String} (h : '/' ∉ name.toList) :
    (p / ofString name).root = p.root :=
  (join_of_root_none (ofString_root h)).1

theorem join_name_components (p : Path) {name : String} (h : IsComponent name) :
    (p / ofString name).components = p.components ++ [name] := by
  rw [(join_of_root_none (ofString_root h.not_slash)).2,
    ofString_components h.not_slash, if_pos h]

/-- `.` behind a directory is the directory. -/
theorem join_here (p : Path) : p / ofString "." = p := by
  have hjoin := join_of_root_none (p := p) (q := ofString ".") rfl
  exact eq_of_parts hjoin.1 (hjoin.2.trans (List.append_nil _))

/-- A long enough text without a slash that is put behind a name goes into its
last component, or makes one where the name has none. -/
theorem ofString_append (name : String) {more : String} (hslash : '/' ∉ more.toList)
    (hlong : 2 < more.toList.length) :
    ∃ front last, (ofString (name ++ more)).root = (ofString name).root ∧
      (ofString (name ++ more)).components = front ++ [last ++ more] ∧
      (ofString name).components = front ++ if IsComponent last then [last] else [] := by
  obtain ⟨front, last, hlast, hname, hmore⟩ := segments_append hslash name.toList
  have hlength : ∀ other, .ofList last ++ more = other → 2 < other.toList.length := by
    intro other h
    rw [← h, String.toList_append, List.length_append]
    omega
  have hcomponent : IsComponent (.ofList last ++ more) := by
    refine ⟨fun h => absurd (hlength _ h) (by decide),
      fun h => absurd (hlength _ h) (by decide), ?_⟩
    rw [String.toList_append, String.toList_ofList, List.mem_append, not_or]
    exact ⟨hlast, hslash⟩
  refine ⟨(front.map String.ofList).filter fun name => decide (IsComponent name),
    .ofList last, ?_, ?_, ?_⟩
  · show RootMarker.ofSlashCount (List.takeWhile _ _).length = _
    rw [String.toList_append, takeWhile_slash_append hslash]
    rfl
  · show componentsOf _ = _
    rw [componentsOf, String.toList_append, hmore]
    simp [hcomponent, String.ofList_append]
  · show componentsOf _ = _
    rw [componentsOf, hname]
    by_cases h : IsComponent (.ofList last) <;> simp [h]

theorem join_append (directory : Path) (name : String) {more : String}
    (hslash : '/' ∉ more.toList) (hlong : 2 < more.toList.length) :
    ∃ front last,
      (directory / ofString (name ++ more)).root = (directory / ofString name).root ∧
      (directory / ofString (name ++ more)).components = front ++ [last ++ more] ∧
      (directory / ofString name).components =
        front ++ if IsComponent last then [last] else [] := by
  obtain ⟨front, last, hroot, hmore, hname⟩ := ofString_append name hslash hlong
  by_cases h : (ofString name).root = .none
  · refine ⟨directory.components ++ front, last, ?_, ?_, ?_⟩
    · rw [(join_of_root_none h).1, (join_of_root_none (hroot.trans h)).1]
    · rw [(join_of_root_none (hroot.trans h)).2, hmore, List.append_assoc]
    · rw [(join_of_root_none h).2, hname, List.append_assoc]
  · rw [join_of_root_ne_none h, join_of_root_ne_none (by rw [hroot]; exact h)]
    exact ⟨front, last, hroot, hmore, hname⟩

theorem parent_root (p : Path) : p.parent.root = p.root := rfl

theorem parent_components (p : Path) :
    p.parent.components = p.components.dropLast := rfl

theorem parent_components_of_concat {p : Path} {front : List String}
    {last : String} (h : p.components = front ++ [last]) :
    p.parent.components = front := by
  rw [parent_components, h, List.dropLast_concat]

theorem parent_join_name (p : Path) {name : String} (h : IsComponent name) :
    (p / ofString name).parent = p := by
  refine eq_of_parts ?_ (parent_components_of_concat (join_name_components p h))
  rw [parent_root, join_name_root p h.not_slash]

theorem parent_of_nil {p : Path} (h : p.components = []) : p.parent = p := by
  refine eq_of_parts (parent_root p) ?_
  rw [parent_components, h, List.dropLast_nil]

theorem IsComponent.size_pos {name : String} (h : IsComponent name) :
    0 < name.utf8ByteSize := by
  rw [Nat.pos_iff_ne_zero, ne_eq, String.utf8ByteSize_eq_zero_iff]
  exact h.1

/-- Leaving out the last component makes no path longer. -/
theorem size_render_parent (p : Path) :
    p.parent.render.utf8ByteSize ≤ p.render.utf8ByteSize := by
  rcases List.eq_nil_or_concat p.components with hnil | ⟨front, last, hlast⟩
  · exact Nat.le_of_eq (by rw [parent_of_nil hnil])
  · rw [List.concat_eq_append] at hlast
    have hpos : 0 < last.utf8ByteSize :=
      (p.isComponent last (by rw [hlast]; simp)).size_pos
    have hne : ¬ (p.root = .none ∧ p.components = []) := by
      rw [hlast]
      simp
    unfold render
    rw [parent_components_of_concat hlast, parent_root, if_neg hne, hlast, String.utf8ByteSize_append]
    by_cases hfront : front = []
    · subst hfront
      rw [List.nil_append, String.intercalate_singleton]
      split
      · have hdot : ".".utf8ByteSize = 1 := by decide
        omega
      · rw [String.utf8ByteSize_append, String.intercalate_nil]
        have hempty : "".utf8ByteSize = 0 := by decide
        omega
    · rw [if_neg (fun h => hfront h.2), String.utf8ByteSize_append,
        String.intercalate_append_of_ne_nil hfront (List.cons_ne_nil _ _),
        String.utf8ByteSize_append, String.utf8ByteSize_append]
      omega

end Path

namespace FileTree

theorem checkPath_ok_iff {p : Path} :
    checkPath p = .ok () ↔
      (∀ name ∈ p.components, '\x00' ∉ name.toList) ∧
        p.render.utf8ByteSize < 4096 := by
  unfold checkPath octetLength
  split
  · next h =>
      simp only [List.any_eq_true, List.contains_iff_mem] at h
      obtain ⟨name, hname, hnul⟩ := h
      constructor
      · intro h
        cases h
      · intro h
        exact absurd hnul (h.1 name hname)
  · next h =>
      simp only [List.any_eq_true, List.contains_iff_mem, not_exists,
        not_and] at h
      split
      · next hlong =>
          constructor
          · intro h
            cases h
          · intro h
            omega
      · next hshort => exact ⟨fun _ => ⟨h, by omega⟩, fun _ => rfl⟩

theorem checkPath_parent {p : Path} (h : checkPath p = .ok ()) :
    checkPath p.parent = .ok () := by
  rw [checkPath_ok_iff] at h ⊢
  refine ⟨fun name hname => h.1 name (List.dropLast_subset _ hname), ?_⟩
  have hsize := Path.size_render_parent p
  omega

end FileTree

end EmulatedDevice
