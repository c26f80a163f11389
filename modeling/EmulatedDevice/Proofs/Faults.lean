import EmulatedDevice.Proofs.PathNames
import EmulatedDevice.Publication

/-!
# Which faults can come up

`FaultsIn P x` says that `x` has no fault but those that satisfy `P`; it says nothing
of results. It goes through a computation step by step, and a step may use what the
ones before it have given, so that nothing is said about faults of steps that are not
reached.

The first use of it is the file tree. A path with a NUL in it is the one thing
that is no request to the tree. Without one, whatever goes wrong is a refusal, and a
refusal is what publishing cleans up after.
-/

namespace EmulatedDevice

section Calculus

variable {ε ε' α β : Type} {P Q : ε → Prop}

/-- All faults that a computation can have satisfy `P`. -/
def FaultsIn (P : ε → Prop) (x : Except ε α) : Prop :=
  ∀ fault, x = .error fault → P fault

theorem faultsIn_ok (P : ε → Prop) (a : α) : FaultsIn P (.ok a) := nofun

theorem faultsIn_error {fault : ε} (h : P fault) : FaultsIn P (.error fault : Except ε α) := by
  rintro _ ⟨⟩
  exact h

theorem FaultsIn.bind {x : Except ε α} {next : α → Except ε β} (hx : FaultsIn P x)
    (hnext : ∀ a, x = .ok a → FaultsIn P (next a)) : FaultsIn P (x >>= next) := by
  cases hresult : x with
  | error fault => exact faultsIn_error (hx fault hresult)
  | ok a => exact hnext a hresult

theorem FaultsIn.mapError {P : ε' → Prop} {x : Except ε α} {g : ε → ε'} (hx : FaultsIn Q x)
    (h : ∀ fault, Q fault → P (g fault)) : FaultsIn P (x.mapError g) := by
  cases hresult : x with
  | error fault => exact faultsIn_error (h fault (hx fault hresult))
  | ok a => exact faultsIn_ok P a

/-- A computation that has a result has gone through its first step. -/
theorem exists_of_bind_eq_ok {x : Except ε α} {next : α → Except ε β} {b : β}
    (h : x >>= next = .ok b) : ∃ a, x = .ok a ∧ next a = .ok b := by
  cases hresult : x with
  | error fault =>
      rw [hresult] at h
      cases h
  | ok a =>
      rw [hresult] at h
      exact ⟨a, rfl, h⟩

theorem eq_ok_of_mapError {x : Except ε α} {g : ε → ε'} {a : α}
    (h : x.mapError g = .ok a) : x = .ok a := by
  cases hresult : x with
  | error fault =>
      rw [hresult] at h
      cases h
  | ok b =>
      rw [hresult] at h
      cases h
      rfl

end Calculus

/-! ## Paths without a NUL -/

namespace Path

/-- No step of a path has a NUL in its name. -/
def NulFree (p : Path) : Prop :=
  ∀ name ∈ p.components, '\x00' ∉ name.toList

variable {p q : Path}

theorem NulFree.parent (h : p.NulFree) : p.parent.NulFree :=
  fun name hname => h name (List.dropLast_subset _ hname)

theorem NulFree.join (hp : p.NulFree) (hq : q.NulFree) : (p / q).NulFree := by
  by_cases hroot : q.root = .none
  · intro name hname
    rw [(join_of_root_none hroot).2, List.mem_append] at hname
    exact hname.elim (hp name) (hq name)
  · rw [join_of_root_ne_none hroot]
    exact hq

end Path

namespace FileTree

variable {t : FileTree} {p q : Path}

end FileTree

end EmulatedDevice
