import EmulatedDevice.Proofs.GeneratedFiles
import EmulatedDevice.Proofs.PathTexts

/-!
# The directory and the name of a file

The exec path of a file that is given by texts is the written form of a path, so reading
it again gives this path, and directory and name of the file are its parent and its last
component. A path with a component is its parent with this component behind it, and
components can be joined to a path without loss. A path without components is a root or
nothing at all; there is no name to it, and its parent is the path itself.

A root that is put in front of a path stays clear of the last component. So files are
recognised by their names wherever they were generated.
-/

namespace EmulatedDevice

namespace Path

variable {p : Path}

theorem name_of_nil (h : p.components = []) : p.name = "" := by
  rw [name, h]
  rfl

theorem name_of_concat {front : List String} {last : String}
    (h : p.components = front ++ [last]) : p.name = last := by
  rw [name, h, List.getLast?_concat]
  rfl

theorem isComponent_of_concat {front : List String} {last : String}
    (h : p.components = front ++ [last]) : IsComponent last :=
  p.isComponent last (by rw [h]; exact List.mem_append_right _ (List.mem_singleton_self _))

/-- A path without components is written as its root, or as a dot. -/
theorem render_of_nil (h : p.components = []) :
    p.render = "." ∨ p.render = "/" ∨ p.render = "//" := by
  rw [render, h]
  cases p.root with
  | none => exact .inl rfl
  | single => exact .inr (.inl rfl)
  | double => exact .inr (.inr rfl)

/-- A path is its parent with its last component behind it. -/
theorem parent_join_last {front : List String} {last : String}
    (h : p.components = front ++ [last]) : p.parent / ofString last = p := by
  have hlast := isComponent_of_concat h
  refine eq_of_parts ?_ ?_
  · rw [join_name_root _ hlast.not_slash, parent_root]
  · rw [join_name_components _ hlast, parent_components_of_concat h, h]

/-- Joining something that has components leaves its last component the last one. -/
theorem name_join (base : Path) (h : p.components ≠ []) : (base / p).name = p.name := by
  by_cases hroot : p.root = .none
  · obtain ⟨front, last, hlast⟩ := (List.eq_nil_or_concat p.components).resolve_left h
    rw [List.concat_eq_append] at hlast
    have hjoin : (base / p).components = base.components ++ front ++ [last] := by
      rw [(join_of_root_none hroot).2, hlast, List.append_assoc]
    rw [name_of_concat hjoin, name_of_concat hlast]
  · rw [join_of_root_ne_none hroot]

end Path

namespace Artifact

/-- A file that is given by texts, as a source file or as a generated one. -/
inductive IsGiven : Artifact → Prop where
  | source (path : String) : IsGiven (.source path)
  | derived (root path : String) : IsGiven (.derived root path)

theorem IsGiven.exists_render {a : Artifact} (h : a.IsGiven) : ∃ p : Path, a.exec = p.render := by
  cases h with
  | source path => exact ⟨.ofString path, rfl⟩
  | derived root path => exact ⟨.ofString root / .ofString path, rfl⟩

/-- A file that has a name is found in its directory under this name, which is one step. A file
without a name is a root or the place where one is, and its own directory. A generated file has the
name of the source file with its path, if there is any step in that, whatever its root is. -/
theorem exec_from_parts {a : Artifact} (h : a.IsGiven) :
    (a.basename ≠ "" →
      '/' ∉ a.basename.toList ∧
        (Path.ofString a.execDir / Path.ofString a.basename).render = a.exec) ∧
    (a.basename = "" →
      (a.exec = "." ∨ a.exec = "/" ∨ a.exec = "//") ∧ a.execDir = a.exec) ∧
    ∀ root path, Path.stepsOf path ≠ [] →
      (derived root path).basename = (source path).basename := by
  obtain ⟨p, hexec⟩ := h.exists_render
  rw [basename, execDir, hexec, Path.ofString_render, Path.ofString_render]
  refine ⟨fun hname => ?_, fun hname => ?_, fun root path hsteps => ?_⟩
  · rcases List.eq_nil_or_concat p.components with hnil | ⟨front, last, hlast⟩
    · exact absurd (Path.name_of_nil hnil) hname
    · rw [List.concat_eq_append] at hlast
      rw [Path.name_of_concat hlast, Path.parent_join_last hlast]
      exact ⟨(Path.isComponent_of_concat hlast).not_slash, rfl⟩
  · rcases List.eq_nil_or_concat p.components with hnil | ⟨front, last, hlast⟩
    · exact ⟨Path.render_of_nil hnil, by rw [Path.parent_of_nil hnil]⟩
    · rw [List.concat_eq_append] at hlast
      rw [Path.name_of_concat hlast] at hname
      exact absurd hname (Path.isComponent_of_concat hlast).1
  · rw [← Path.components_ofString] at hsteps
    rw [basename, exec_derived, Path.ofString_render, Path.name_join _ hsteps, basename, source,
      Path.ofString_normalize]

/-- A file above its root, and what is left of a root with nothing below it. -/
theorem exec_from_parts_dotted :
    ((derived "//out/./bin/" "..//tools/./adb").IsGiven ∧
      (derived "//out/./bin/" "..//tools/./adb").basename = "adb" ∧
      (Path.ofString (derived "//out/./bin/" "..//tools/./adb").execDir /
        Path.ofString "adb").render = (derived "//out/./bin/" "..//tools/./adb").exec) ∧
    (source "//./").IsGiven ∧ (source "//./").basename = "" ∧
      (source "//./").execDir = (source "//./").exec := by
  have hadb : (derived "//out/./bin/" "..//tools/./adb").basename = "adb" := by decide +kernel
  have hroot : (source "//./").basename = "" := by decide +kernel
  obtain ⟨hnamed, _, _⟩ := exec_from_parts (.derived "//out/./bin/" "..//tools/./adb")
  obtain ⟨_, hunnamed, _⟩ := exec_from_parts (.source "//./")
  have hjoin := (hnamed (by rw [hadb]; decide)).2
  rw [hadb] at hjoin
  exact ⟨⟨.derived _ _, hadb, hjoin⟩, .source _, hroot, (hunnamed hroot).2⟩

end Artifact

end EmulatedDevice
