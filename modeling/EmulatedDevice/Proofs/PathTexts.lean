import EmulatedDevice.Proofs.WrittenPaths

/-!
# When two texts are one path

A text stands for a path by the slashes that it starts with and by the pieces between
its slashes, of which the empty ones and the single dots carry no meaning. Nothing
else of the text is left in its path. So two texts are the same path just when they
agree in these two things, and then they are written alike once they are normalised.

The normal form is such a text itself: it has the root and the steps of the text it
comes from, and so normalising it again changes nothing. Files that are given by texts
are therefore given as well by the normal forms.
-/

namespace EmulatedDevice

namespace Path

/-! ## Steps -/

theorem not_slash_of_mem_segments {text piece : List Char} (h : piece ∈ segments text) :
    '/' ∉ piece := by
  induction text generalizing piece with
  | nil =>
      rw [segments, List.mem_singleton] at h
      rw [h]
      exact List.not_mem_nil
  | cons c rest ih =>
      rw [segments] at h
      split at h
      · rcases List.mem_cons.1 h with rfl | hrest
        · exact List.not_mem_nil
        · exact ih hrest
      · next hc =>
        have hc : '/' ≠ c := fun heq => hc heq.symm
        split at h
        · rw [List.mem_singleton.1 h]
          exact List.not_mem_cons_of_ne_of_not_mem hc List.not_mem_nil
        · next first pieces hsegments =>
          rw [hsegments] at ih
          rcases List.mem_cons.1 h with rfl | hrest
          · exact List.not_mem_cons_of_ne_of_not_mem hc (ih (List.mem_cons_self ..))
          · exact ih (List.mem_cons_of_mem _ hrest)

/-- The pieces of a text between its slashes, without the empty ones and those that are `.`. -/
def stepsOf (text : String) : List String :=
  ((text.toList.splitOn '/').map String.ofList).filter fun piece => piece ≠ "" ∧ piece ≠ "."

theorem segments_eq_splitOn (text : List Char) : segments text = text.splitOn '/' := by
  induction text with
  | nil => rfl
  | cons c rest ih =>
      have hne : segments rest ≠ [] := by
        rw [ih]
        exact List.splitOnP_ne_nil _ _
      rw [List.splitOn] at ih ⊢
      rw [List.splitOnP_cons_eq_if_modifyHead, ← ih, segments]
      by_cases hc : c = '/'
      · rw [if_pos hc, if_pos (by simpa using hc)]
      · rw [if_neg hc, if_neg (by simpa using hc)]
        cases hrest : segments rest with
        | nil => exact absurd hrest hne
        | cons piece pieces => rfl

theorem components_ofString (text : String) : (ofString text).components = stepsOf text := by
  show componentsOf text.toList = _
  rw [componentsOf, stepsOf, ← segments_eq_splitOn]
  refine List.filter_congr fun name hname => ?_
  obtain ⟨piece, hpiece, rfl⟩ := List.mem_map.1 hname
  have hslash := not_slash_of_mem_segments hpiece
  simp [IsComponent, hslash]

/-! ## Roots -/

/-- What a text starts with: no slash, exactly two, or some other number of them. -/
def rootOf (text : String) : RootMarker :=
  match text.toList with
  | '/' :: '/' :: '/' :: _ => .single
  | '/' :: '/' :: _ => .double
  | '/' :: _ => .single
  | _ => .none

theorem takeWhile_slash_of_head {text : List Char} (h : ∀ rest, text = '/' :: rest → False) :
    text.takeWhile (· = '/') = [] := by
  cases text with
  | nil => rfl
  | cons c rest =>
      have hc : ¬ c = '/' := by
        rintro rfl
        exact h rest rfl
      rw [List.takeWhile_cons_of_neg (by simpa using hc)]

theorem root_ofString (text : String) : (ofString text).root = rootOf text := by
  show RootMarker.ofSlashCount (text.toList.takeWhile (· = '/')).length = _
  unfold rootOf
  generalize text.toList = chars
  split
  · rfl
  · next rest hthird => simp [takeWhile_slash_of_head hthird, RootMarker.ofSlashCount]
  · next rest _ hsecond => simp [takeWhile_slash_of_head hsecond, RootMarker.ofSlashCount]
  · next hfirst => simp [takeWhile_slash_of_head hfirst, RootMarker.ofSlashCount]

/-! ## Normal forms -/

/-- Two texts are the same path just when they have one normal form. -/
theorem ofString_eq_iff {a b : String} : ofString a = ofString b ↔ normalize a = normalize b :=
  ⟨fun h => congrArg render h, render_injective⟩

/-- A normal form has a root marker and the steps of its text, and nothing else. -/
theorem normalize_eq_iff {a b : String} :
    normalize a = normalize b ↔ (ofString a).root = (ofString b).root ∧ stepsOf a = stepsOf b := by
  rw [← ofString_eq_iff, ← components_ofString, ← components_ofString]
  exact ⟨fun h => ⟨congrArg root h, congrArg components h⟩, fun h => eq_of_parts h.1 h.2⟩

/-- What a normal form looks like. -/
theorem normalize_eq (text : String) :
    normalize text =
      if rootOf text = .none ∧ stepsOf text = [] then "."
      else (rootOf text).text ++ "/".intercalate (stepsOf text) := by
  rw [normalize, render, root_ofString, components_ofString]

/-- A normal form stands for the path of its text. -/
theorem ofString_normalize (text : String) : ofString (normalize text) = ofString text :=
  ofString_render _

theorem normalize_eq_here_iff {text : String} :
    normalize text = "." ↔ rootOf text = .none ∧ stepsOf text = [] := by
  rw [show "." = normalize "." from rfl, normalize_eq_iff, root_ofString, root_ofString]
  rfl

end Path

namespace Artifact

/-- Source files are the same just when their texts start at the same root and name the same steps.
The path of a source file is in normal form: it is written from the root and the steps, is `.` when
there are none, and stands for the file just as the text did. A generated file can be given as well
by the normal forms of its root and of its path. -/
theorem source_canonical (p q root : String) :
    (source p = source q ↔
      Path.rootOf p = Path.rootOf q ∧ Path.stepsOf p = Path.stepsOf q) ∧
    (source p).exec =
      (if Path.rootOf p = .none ∧ Path.stepsOf p = [] then "."
      else (Path.rootOf p).text ++ "/".intercalate (Path.stepsOf p)) ∧
    ((source p).exec = "." ↔ Path.rootOf p = .none ∧ Path.stepsOf p = []) ∧
    Path.normalize (Path.normalize p) = Path.normalize p ∧
    source (source p).exec = source p ∧
    derived (Path.normalize root) (Path.normalize p) = derived root p := by
  have hagain : Path.normalize (Path.normalize p) = Path.normalize p := by
    rw [Path.normalize, Path.ofString_normalize, Path.normalize]
  refine ⟨?_, Path.normalize_eq p, Path.normalize_eq_here_iff, hagain, ?_, ?_⟩
  · rw [← Path.root_ofString, ← Path.root_ofString, ← Path.normalize_eq_iff]
    exact ⟨fun h => congrArg exec h, fun h => by rw [source, source, h]⟩
  · show source (Path.normalize p) = source p
    rw [source, source, hagain]
  · rw [derived, derived, Path.ofString_normalize, Path.ofString_normalize, hagain]

end Artifact

end EmulatedDevice
