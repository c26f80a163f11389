import EmulatedDevice.Loading
import EmulatedDevice.Proofs.DistinctKeys
import EmulatedDevice.Proofs.Faults

/-!
# In what is loaded no key comes twice

Both notations allow a mapping to be written with a key that is repeated, and both make
a mapping by putting in one pair after the other. So in a value that was loaded every
mapping has each key once, at any depth. The readers are gone through step by step with
`Gives`, which says of a computation what holds of its result: the reader of JSON by
induction on its fuel, that of YAML along the nodes.
-/

namespace EmulatedDevice

/-- A value in which no mapping has a key twice. -/
inductive Value.WellKeyed : Value → Prop where
  | scalar {value : Value} (h : value.isScalar = true) : WellKeyed value
  | list {items : List Value} (h : ∀ item ∈ items, WellKeyed item) : WellKeyed (.list items)
  | mapping {entries : List (Value × Value)} (hkeys : Entries.Distinct sameKey entries)
      (h : ∀ entry ∈ entries, WellKeyed entry.2) : WellKeyed (.mapping entries)

theorem Value.wellKeyed_mappingOfPairs {pairs : List (Value × Value)}
    (h : ∀ pair ∈ pairs, pair.2.WellKeyed) : (mappingOfPairs pairs).WellKeyed :=
  .mapping (Entries.distinct_ofPairs sameKey pairs) (Entries.forall_value_ofPairs h)

section Calculus

variable {ε ε' α β : Type} {P : α → Prop} {Q : β → Prop}

/-- Whatever result a computation has satisfies `P`. -/
def Gives (P : α → Prop) (x : Except ε α) : Prop :=
  ∀ a, x = .ok a → P a

theorem gives_true (x : Except ε α) : Gives (fun _ => True) x := fun _ _ => trivial

theorem gives_error (fault : ε) : Gives P (.error fault) := nofun

theorem gives_ok {a : α} (h : P a) : Gives P (.ok a : Except ε α) := by
  rintro _ ⟨⟩
  exact h

theorem Gives.bind {x : Except ε α} {next : α → Except ε β} (hx : Gives P x)
    (hnext : ∀ a, P a → Gives Q (next a)) : Gives Q (x >>= next) := by
  intro b hb
  obtain ⟨a, ha, hb⟩ := exists_of_bind_eq_ok hb
  exact hnext a (hx a ha) b hb

theorem Gives.map {x : Except ε α} {f : α → β} (hx : Gives P x) (h : ∀ a, P a → Q (f a)) :
    Gives Q (x.map f) := by
  cases x with
  | error fault => exact gives_error fault
  | ok a => exact gives_ok (h a (hx a rfl))

theorem Gives.mapError {x : Except ε α} {g : ε → ε'} (hx : Gives P x) :
    Gives P (x.mapError g) :=
  fun a ha => hx a (eq_ok_of_mapError ha)

end Calculus

open Value

/-! ## JSON -/

namespace Json

theorem splitMagnitude_isScalar {negative : Bool} {text rest : List Char} {value : Value}
    (h : splitMagnitude negative text = some (value, rest)) : value.isScalar = true := by
  obtain ⟨_, _, h⟩ := Option.bind_eq_some_iff.1 h
  simp only at h
  split at h <;> (cases h; rfl)

theorem splitNumber_isScalar {text rest : List Char} {value : Value}
    (h : splitNumber text = some (value, rest)) : value.isScalar = true := by
  unfold splitNumber at h
  split at h <;> exact splitMagnitude_isScalar h

theorem splitWord_isScalar {text rest : List Char} {value : Value}
    (h : splitWord text = some (value, rest)) : value.isScalar = true := by
  have hwords : ∀ entry ∈ words, entry.2.isScalar = true := by decide
  obtain ⟨entry, hentry, h⟩ := List.exists_of_findSome?_eq_some h
  simp only at h
  split at h
  · cases h
    exact hwords _ hentry
  · cases h

variable {fuel : Nat}

theorem gives_readValue (hitems : ∀ text, Gives (fun read => ∀ item ∈ read.1, item.WellKeyed)
      (readItems fuel text))
    (hmembers : ∀ text, Gives (fun read => ∀ pair ∈ read.1, pair.2.WellKeyed)
      (readMembers fuel text)) (text : List Char) :
    Gives (fun read => read.1.WellKeyed) (readValue (fuel + 1) text) := by
  unfold readValue
  split
  · exact (gives_true _).bind fun _ _ => gives_ok (.scalar rfl)
  · split
    · exact gives_ok (.list nofun)
    · exact (hitems _).bind fun _ h => gives_ok (.list h)
  · split
    · exact gives_ok (.mapping List.Pairwise.nil nofun)
    · exact (hmembers _).bind fun _ h => gives_ok (wellKeyed_mappingOfPairs h)
  · split
    · next read hread =>
      refine gives_ok (.scalar ?_)
      cases hword : splitWord text with
      | some word =>
          rw [hword] at hread
          cases hread
          exact splitWord_isScalar hword
      | none =>
          rw [hword] at hread
          exact splitNumber_isScalar hread
    · exact gives_error _

theorem gives_readItems (hvalue : ∀ text, Gives (fun read => read.1.WellKeyed)
      (readValue fuel text))
    (hitems : ∀ text, Gives (fun read => ∀ item ∈ read.1, item.WellKeyed)
      (readItems fuel text)) (text : List Char) :
    Gives (fun read => ∀ item ∈ read.1, item.WellKeyed) (readItems (fuel + 1) text) := by
  rw [readItems]
  refine (hvalue text).bind fun read hitem => ?_
  simp only
  split
  · exact gives_ok (List.forall_mem_singleton.2 hitem)
  · exact (hitems _).bind fun _ hmore => gives_ok (List.forall_mem_cons.2 ⟨hitem, hmore⟩)
  · exact gives_error _

theorem gives_readMembers (hvalue : ∀ text, Gives (fun read => read.1.WellKeyed)
      (readValue fuel text))
    (hmembers : ∀ text, Gives (fun read => ∀ pair ∈ read.1, pair.2.WellKeyed)
      (readMembers fuel text)) (text : List Char) :
    Gives (fun read => ∀ pair ∈ read.1, pair.2.WellKeyed) (readMembers (fuel + 1) text) := by
  unfold readMembers
  split
  · refine (gives_true _).bind fun name _ => ?_
    dsimp only
    split
    · refine (hvalue _).bind fun value hmember => ?_
      split
      · exact gives_ok (List.forall_mem_singleton.2 hmember)
      · exact (hmembers _).bind fun _ hmore => gives_ok (List.forall_mem_cons.2 ⟨hmember, hmore⟩)
      · exact gives_error _
    · exact gives_error _
  · exact gives_error _

/-- Each reader calls the others with less fuel. -/
theorem gives_read (fuel : Nat) :
    (∀ text, Gives (fun read => read.1.WellKeyed) (readValue fuel text)) ∧
    (∀ text, Gives (fun read => ∀ item ∈ read.1, item.WellKeyed) (readItems fuel text)) ∧
    ∀ text, Gives (fun read => ∀ pair ∈ read.1, pair.2.WellKeyed) (readMembers fuel text) := by
  induction fuel with
  | zero =>
      refine ⟨fun text => ?_, fun text => ?_, fun text => ?_⟩
      · rw [readValue]; exact gives_error _
      · rw [readItems]; exact gives_error _
      · rw [readMembers]; exact gives_error _
  | succ fuel ih =>
      obtain ⟨hvalue, hitems, hmembers⟩ := ih
      exact ⟨gives_readValue hitems hmembers, gives_readItems hvalue hitems,
        gives_readMembers hvalue hmembers⟩

theorem gives_parse (text : List Char) : Gives WellKeyed (parse text) := by
  have hdocument : Gives WellKeyed (readDocument text) := by
    unfold readDocument
    split
    · exact gives_error _
    · refine ((gives_read _).1 _).bind fun _ hvalue => ?_
      simp only
      split
      · exact gives_ok hvalue
      · exact gives_error _
  unfold parse
  split
  · next hread => exact gives_ok (hdocument _ hread)
  · exact gives_error _

end Json

/-! ## YAML -/

namespace Yaml

open Node

theorem gives_both {α β : Type} {P : α → Prop} {Q : β → Prop} {x : Deep α} {y : Deep β}
    (hx : Gives P x) (hy : Gives Q y) : Gives (fun both => P both.1 ∧ Q both.2) (both x y) := by
  cases x with
  | error e => cases y <;> exact gives_error _
  | ok a =>
      cases y with
      | error f => exact gives_error f
      | ok b => exact gives_ok ⟨hx a rfl, hy b rfl⟩

theorem gives_scalarValue (tag : Tag) (text : String) :
    Gives (fun value => value.isScalar = true) (scalarValue tag text) := by
  cases tag with
  | null | string => exact gives_ok rfl
  | bool =>
      show Gives _ (truth text)
      unfold truth
      simp only
      split
      · exact gives_ok rfl
      · exact gives_error _
  | int | float | binary => exact (gives_true _).map fun _ _ => rfl
  | timestamp =>
      show Gives _ (timestamp text)
      unfold timestamp
      split
      · exact gives_error _
      · split
        · refine Gives.mapError ?_
          exact (gives_true _).map fun _ _ => rfl
        · refine Gives.mapError ?_
          exact (gives_true _).map fun _ _ => rfl
  | sequence | mapping | merge | default | other => exact gives_error _

/-- Pairs of which every value is well-keyed. -/
def WellKeyedPairs (pairs : List (Value × Value)) : Prop :=
  ∀ pair ∈ pairs, pair.2.WellKeyed

theorem WellKeyedPairs.append {pairs pairs' : List (Value × Value)} (h : WellKeyedPairs pairs)
    (h' : WellKeyedPairs pairs') : WellKeyedPairs (pairs ++ pairs') :=
  List.forall_mem_append.2 ⟨h, h'⟩

mutual

theorem gives_toValue (depth : Nat) (node : Node) : Gives WellKeyed (toValue depth node) := by
  cases node with
  | scalar tag text =>
      intro value h
      exact .scalar (gives_scalarValue tag text _ (eq_ok_of_mapError h))
  | sequence tag items =>
      rw [toValue]
      split
      · exact (gives_itemValues (depth + 1) items).map fun _ h => .list h
      · exact gives_error _
  | mapping tag pairs =>
      rw [toValue]
      split
      · exact (gives_both (gives_mergedPairs (depth + 1) pairs)
          (gives_ownPairs (depth + 1) pairs)).map
            fun _ h => wellKeyed_mappingOfPairs (h.1.append h.2)
      · intro value h
        obtain ⟨text, _, h⟩ := exists_of_bind_eq_ok (eq_ok_of_mapError h)
        exact .scalar (gives_scalarValue tag text _ h)

theorem gives_itemValues (depth : Nat) (nodes : List Node) :
    Gives (fun values => ∀ value ∈ values, value.WellKeyed) (itemValues depth nodes) := by
  cases nodes with
  | nil => exact gives_ok nofun
  | cons node rest =>
      rw [itemValues]
      exact (gives_both (gives_toValue depth node) (gives_itemValues depth rest)).map
        fun _ h => List.forall_mem_cons.2 h

theorem gives_mergedPairs (depth : Nat) (pairs : List (Node × Node)) :
    Gives WellKeyedPairs (mergedPairs depth pairs) := by
  match pairs with
  | [] => exact gives_ok nofun
  | (key, value) :: rest =>
      rw [mergedPairs]
      split
      · exact (gives_both (gives_sourcePairs depth value) (gives_mergedPairs depth rest)).map
          fun _ h => h.1.append h.2
      · exact gives_mergedPairs depth rest

theorem gives_sourcePairs (depth : Nat) (node : Node) :
    Gives WellKeyedPairs (sourcePairs depth node) := by
  cases node with
  | scalar tag text => exact gives_error _
  | sequence tag sources => exact gives_sourcesPairs depth sources
  | mapping tag pairs =>
      rw [sourcePairs]
      exact (gives_both (gives_mergedPairs depth pairs) (gives_ownPairs depth pairs)).map
        fun _ h => h.1.append h.2

theorem gives_sourcesPairs (depth : Nat) (nodes : List Node) :
    Gives WellKeyedPairs (sourcesPairs depth nodes) := by
  match nodes with
  | [] => exact gives_ok nofun
  | .mapping tag pairs :: rest =>
      rw [sourcesPairs]
      exact (gives_both (gives_sourcesPairs depth rest)
        (gives_both (gives_mergedPairs depth pairs) (gives_ownPairs depth pairs))).map
          fun _ h => (h.1.append h.2.1).append h.2.2
  | .scalar .. :: _ | .sequence .. :: _ => exact gives_error _

theorem gives_ownPairs (depth : Nat) (pairs : List (Node × Node)) :
    Gives WellKeyedPairs (ownPairs depth pairs) := by
  match pairs with
  | [] => exact gives_ok nofun
  | (key, value) :: rest =>
      rw [ownPairs]
      split
      · exact gives_ownPairs depth rest
      · exact (gives_both (gives_true (keyValue depth key))
          (gives_both (gives_toValue depth value) (gives_ownPairs depth rest))).map
            fun _ h => List.forall_mem_cons.2 h.2

end

theorem gives_parse (text : List Char) : Gives WellKeyed (parse text) := by
  intro value h
  obtain ⟨_, _, h⟩ := exists_of_bind_eq_ok h
  obtain ⟨root, _, h⟩ := exists_of_bind_eq_ok h
  exact gives_toValue 0 root value (eq_ok_of_mapError h)

end Yaml

/-! ## Documents -/

theorem FileTree.DocumentForm.gives_parse (form : DocumentForm) (text : List Char) :
    Gives WellKeyed (form.parse text) := by
  cases form with
  | json => exact (Json.gives_parse text).mapError
  | yaml => exact (Yaml.gives_parse text).mapError

/-- A document that was loaded has each key once in every mapping. -/
theorem FileTree.gives_loadDocument (t : FileTree) (p : Path) :
    Gives WellKeyed (t.loadDocument p) := by
  unfold loadDocument
  -- the suffix is not to be computed
  generalize DocumentForm.ofSuffix? p.suffix = form
  refine (gives_true _).bind fun found _ => ?_
  cases found with
  | false => exact gives_error _
  | true =>
      cases form with
      | none => exact gives_error _
      | some form =>
          refine (gives_true (t.readText p)).bind fun text _ =>
            (DocumentForm.gives_parse form text).bind fun value hvalue => ?_
          split
          · exact gives_ok hvalue
          · exact gives_error _

end EmulatedDevice
