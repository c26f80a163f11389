import EmulatedDevice.Artifact
import EmulatedDevice.Proofs.PathNames

/-!
# A written path can be read back

Components hold no slash and are not empty, so the slashes of a written path are those
between its components and those of its root marker. Reading the text takes it
apart at just these places and finds nothing to drop. Hence different paths are
written differently, and a path that has gone through its text is the same path.
-/

namespace EmulatedDevice

namespace Path

variable {names : List String}

theorem segments_append_slash {piece : List Char} (h : '/' ∉ piece) (rest : List Char) :
    segments (piece ++ '/' :: rest) = piece :: segments rest := by
  induction piece with
  | nil => rw [List.nil_append, segments, if_pos rfl]
  | cons c tail ih =>
      rw [List.mem_cons, not_or] at h
      have hc : c ≠ '/' := fun e => h.1 e.symm
      rw [List.cons_append, segments, if_neg hc, ih h.2]

theorem componentsOf_slash (text : List Char) : componentsOf ('/' :: text) = componentsOf text := by
  rw [componentsOf, segments, if_pos rfl]
  rfl

/-- Components with a slash between each two of them are read as themselves. -/
theorem componentsOf_intercalate (h : ∀ name ∈ names, IsComponent name) :
    componentsOf ("/".intercalate names).toList = names := by
  induction names with
  | nil => rfl
  | cons first rest ih =>
      rw [List.forall_mem_cons] at h
      cases rest with
      | nil =>
          rw [String.intercalate_singleton, componentsOf, segments_of_not_mem h.1.not_slash,
            List.map_singleton, String.ofList_toList]
          simp [h.1]
      | cons second rest =>
          have hrest := ih h.2
          rw [componentsOf] at hrest
          have htext : ("/".intercalate (first :: second :: rest)).toList =
              first.toList ++ '/' :: ("/".intercalate (second :: rest)).toList := by
            rw [String.intercalate_cons_cons, String.append_assoc, String.toList_append,
              String.toList_append]
            rfl
          rw [htext, componentsOf, segments_append_slash h.1.not_slash, List.map_cons,
            String.ofList_toList, List.filter_cons_of_pos (by simpa using h.1), hrest]

/-- No slash stands before the first component. -/
theorem takeWhile_slash_intercalate (h : ∀ name ∈ names, IsComponent name) :
    ("/".intercalate names).toList.takeWhile (· = '/') = [] := by
  cases names with
  | nil => rfl
  | cons first rest =>
      rw [List.forall_mem_cons] at h
      obtain ⟨more, hmore⟩ : ∃ more, "/".intercalate (first :: rest) = first ++ more := by
        cases rest with
        | nil => exact ⟨"", by rw [String.intercalate_singleton, String.append_empty]⟩
        | cons second rest =>
            exact ⟨_, by rw [String.intercalate_cons_cons, String.append_assoc]⟩
      obtain ⟨c, tail, hfirst⟩ := List.exists_cons_of_ne_nil
        (fun hnil => h.1.1 (String.toList_eq_nil_iff.1 hnil))
      have hc : ¬ c = '/' := fun heq => h.1.not_slash (by rw [hfirst, heq]; exact List.mem_cons_self ..)
      rw [hmore, String.toList_append, hfirst, List.cons_append,
        List.takeWhile_cons_of_neg (by simpa using hc)]

theorem ofString_render (p : Path) : ofString p.render = p := by
  unfold render
  split
  · next h => exact eq_of_parts h.1.symm h.2.symm
  · next h =>
    have hcomponents := componentsOf_intercalate p.isComponent
    have hstart := takeWhile_slash_intercalate p.isComponent
    generalize "/".intercalate p.components = text at hcomponents hstart
    refine eq_of_parts ?_ ?_
    · show RootMarker.ofSlashCount (List.takeWhile _ _).length = _
      cases p.root <;> simp [RootMarker.text, RootMarker.ofSlashCount, hstart]
    · show componentsOf _ = _
      cases p.root <;> simp [RootMarker.text, componentsOf_slash, hcomponents]

theorem render_injective {p q : Path} (h : p.render = q.render) : p = q := by
  rw [← ofString_render p, ← ofString_render q, h]

/-! ## Parts of a written path -/

/-- A text is how the path with these parts is written. -/
def IsWritten (text : String) (root : RootMarker) (names : List String) : Prop :=
  ∃ p : Path, p.render = text ∧ p.root = root ∧ p.components = names

theorem isWritten_render (p : Path) : IsWritten p.render p.root p.components :=
  ⟨p, rfl, rfl, rfl⟩

theorem isWritten_render_iff {p : Path} {root : RootMarker} :
    IsWritten p.render root names ↔ p.root = root ∧ p.components = names := by
  constructor
  · rintro ⟨q, hrender, hroot, hcomponents⟩
    obtain rfl := render_injective hrender
    exact ⟨hroot, hcomponents⟩
  · rintro ⟨rfl, rfl⟩
    exact isWritten_render p

/-- Texts of paths with different components are different. -/
theorem IsWritten.ne {text text' : String} {root root' : RootMarker} {names' : List String}
    (h : IsWritten text root names) (h' : IsWritten text' root' names') (hne : names ≠ names') :
    text ≠ text' := by
  rintro rfl
  obtain ⟨p, rfl, _, rfl⟩ := h
  exact hne (isWritten_render_iff.1 h').2

end Path

end EmulatedDevice
