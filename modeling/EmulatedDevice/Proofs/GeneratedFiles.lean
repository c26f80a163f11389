import EmulatedDevice.Proofs.Reading
import EmulatedDevice.Proofs.WrittenPaths

/-!
# Where generated files live

A generated file is given by an output root and by a path below it. Its exec path is
the one joined to the other, and its runfiles path is the path alone, so the root
is to show in the exec path and nowhere else. Joining takes care of that for any two
texts, however many dots and slashes are in them, with one exception: a path that
starts with a slash is a place of its own, and the root in front of it is dropped
without a word. Nothing that reads path entries keeps such a path out.

So what is proved of all entries is where exactly the file lives: under its root when
its path is relative, and at its runfiles path when it is not.
-/

namespace EmulatedDevice

open Value

namespace Path

/-- A text that starts at no root. -/
def IsRelative (text : String) : Prop :=
  text.toList.head? ≠ some '/'

instance (text : String) : Decidable (IsRelative text) := by
  unfold IsRelative; infer_instance

theorem ofSlashCount_eq_none {n : Nat} : RootMarker.ofSlashCount n = .none ↔ n = 0 := by
  unfold RootMarker.ofSlashCount
  split <;> simp_all

theorem root_eq_none_iff {text : String} : (ofString text).root = .none ↔ IsRelative text := by
  show RootMarker.ofSlashCount (text.toList.takeWhile (· = '/')).length = .none ↔ _
  rw [ofSlashCount_eq_none, IsRelative]
  cases text.toList with
  | nil => simp
  | cons c rest => by_cases hc : c = '/' <;> simp [hc]

end Path

namespace Artifact

/-- The exec path of a file is its runfiles path behind an output root. -/
def LivesUnder (a : Artifact) (root : String) : Prop :=
  Path.IsWritten a.exec (Path.ofString root).root
    ((Path.ofString root).components ++ (Path.ofString a.runfiles).components)

variable {root path : String}

theorem runfiles_derived : (derived root path).runfiles = (Path.ofString path).render := rfl

theorem exec_derived :
    (derived root path).exec = (Path.ofString root / Path.ofString path).render := rfl

/-- A path that starts with a slash leaves nothing of the root. -/
theorem exec_derived_of_not_isRelative (h : ¬ Path.IsRelative path) :
    (derived root path).exec = (derived root path).runfiles := by
  rw [exec_derived, runfiles_derived,
    Path.join_of_root_ne_none fun hroot => h (Path.root_eq_none_iff.1 hroot)]

/-- A file lives under its root when its path is relative, and otherwise only where the root has
nothing to lose. -/
theorem livesUnder_derived_iff :
    (derived root path).LivesUnder root ↔
      Path.IsRelative path ∨
        (Path.ofString root).root = (Path.ofString path).root ∧
          (Path.ofString root).components = [] := by
  unfold LivesUnder
  by_cases h : Path.IsRelative path
  · have hjoin := Path.join_of_root_none (p := .ofString root) (Path.root_eq_none_iff.2 h)
    rw [exec_derived, runfiles_derived, Path.ofString_render, Path.isWritten_render_iff]
    exact iff_of_true hjoin (.inl h)
  · rw [exec_derived_of_not_isRelative h, runfiles_derived, Path.ofString_render,
      Path.isWritten_render_iff, List.self_eq_append_left, eq_comm, or_iff_right h]

end Artifact

/-- A mapping that the schemas let through as a path entry is read as a generated file. Whatever its
root is, its runfiles path is its path, normalised. It lives under its root, unless its path starts
with a slash: then its exec path is its runfiles path, and of the root nothing is left that is not
in the path as well. -/
theorem generated_entry_outcome {entries : List (Value × Value)}
    (h : Schema.pathEntry.Accepts (.mapping entries)) :
    ∃ root path a, HasField IsText entries "root" root ∧ HasField IsText entries "path" path ∧
      Artifact.ofEntry (.mapping entries) = .ok a ∧ a.isSource = false ∧
      a.runfiles = Path.normalize path ∧
      (¬ Path.IsRelative path → a.exec = a.runfiles) ∧
      (a.LivesUnder root ↔
        Path.IsRelative path ∨
          (Path.ofString root).root = (Path.ofString path).root ∧
            (Path.ofString root).components = []) := by
  obtain ⟨a, ha⟩ := (Schema.reads_pathEntry _).1 h
  have hread := Artifact.ofEntry_eq ha
  cases ha with
  | source htext => cases htext.1
  | derived _ hpath hroot =>
      exact ⟨_, _, _, hroot, hpath, hread, rfl, rfl, Artifact.exec_derived_of_not_isRelative,
        Artifact.livesUnder_derived_iff⟩

/-- The path entry of a generated file. -/
def generatedEntry (root path : String) : List (Value × Value) :=
  [(.text "path", .text path), (.text "root", .text root)]

theorem isPathEntry_generatedEntry (root path : String) (hroot : root ≠ "") (hpath : path ≠ "") :
    IsPathEntry (.mapping (generatedEntry root path)) (.derived root path) :=
  .derived (by simp [HasOnly, generatedEntry]) ⟨_, rfl, rfl, hpath⟩ ⟨_, rfl, rfl, hroot⟩

/-- Dots and slashes are all that is lost on the way under a root. -/
theorem generated_entry_dotted :
    ∃ a, Artifact.ofEntry (.mapping (generatedEntry "//out/./bin/" "..//tools/./adb")) = .ok a ∧
      a.LivesUnder "//out/./bin/" ∧ a.runfiles = "../tools/adb" := by
  have haccepts := (Schema.reads_pathEntry _).2
    ⟨_, isPathEntry_generatedEntry "//out/./bin/" "..//tools/./adb" (by decide) (by decide)⟩
  obtain ⟨root, path, a, ⟨_, hroot, rfl, _⟩, ⟨_, hpath, rfl, _⟩, hread, _, hrunfiles, _, hlives⟩ :=
    generated_entry_outcome haccepts
  obtain rfl : root = "//out/./bin/" := by cases hroot; rfl
  obtain rfl : path = "..//tools/./adb" := by cases hpath; rfl
  exact ⟨a, hread, hlives.2 (.inl (by decide)), hrunfiles.trans (by decide +kernel)⟩

/-- The path of a generated file is let through with a slash in front, and the file is then not
where its root is. -/
theorem absolute_path_leaves_root :
    Schema.pathEntry.Accepts (.mapping (generatedEntry "out/bin" "/tools/adb")) ∧
      Artifact.ofEntry (.mapping (generatedEntry "out/bin" "/tools/adb")) =
        .ok ⟨"/tools/adb", "/tools/adb", false⟩ ∧
      ¬ Artifact.LivesUnder ⟨"/tools/adb", "/tools/adb", false⟩ "out/bin" := by
  have hentry : IsPathEntry (.mapping (generatedEntry "out/bin" "/tools/adb"))
      (.derived "out/bin" "/tools/adb") :=
    isPathEntry_generatedEntry _ _ (by decide) (by decide)
  have hfile : Artifact.derived "out/bin" "/tools/adb" = ⟨"/tools/adb", "/tools/adb", false⟩ := by
    decide +kernel
  have hlives : ¬ (Artifact.derived "out/bin" "/tools/adb").LivesUnder "out/bin" := by
    rw [Artifact.livesUnder_derived_iff]
    decide +kernel
  rw [← hfile]
  exact ⟨(Schema.reads_pathEntry _).2 ⟨_, hentry⟩, Artifact.ofEntry_eq hentry, hlives⟩

end EmulatedDevice
