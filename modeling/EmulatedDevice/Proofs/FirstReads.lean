import EmulatedDevice.Proofs.PathTexts
import EmulatedDevice.Session

/-!
# The first read counts

A session keeps the schemas and the templates that it has read. What a request for
one of them comes to is settled by the first request for the same kind and the same
path that was answered: this one has read the file as it was then, and what it read
is handed out ever after. A request that fails leaves nothing behind, so the next
one reads the file as it is by then.

A session is followed through the steps it takes, together with the tree that each
step has found. After any number of steps, what the session has kept under a path
is what the first answered request in the past has read; this is kept up by every
step, and it decides the next one. Nothing else looks at what is kept. So two
sessions over one tree tell the same story whatever they had kept before, except
for the requests themselves.
-/

namespace EmulatedDevice

namespace Session

/-! ## What is kept -/

/-- The two kinds of things that a session keeps once it has read them. -/
inductive Kept where
  | schema
  | template
  deriving DecidableEq

/-- The step that asks for what is at a path. -/
def Kept.request : Kept → Path → Step
  | .schema, p => .loadSchema p
  | .template, p => .loadTemplate (some p)

/-- What reading a file of a tree comes to. -/
def Kept.read (kind : Kept) (check : SchemaCheck) (t : FileTree) (p : Path) : Outcome :=
  match kind with
  | .schema => (t.loadSchema check p).map .value
  | .template => (t.loadTemplate p).map .text

/-- What a session has kept under a path. -/
def kept (s : Session) (kind : Kept) (p : Path) : Option Answer :=
  match kind with
  | .schema => (Entries.get? (· == ·) p s.schemas).map .value
  | .template => (Entries.get? (· == ·) p s.templates).map .text

/-- How a request can end: what is kept is handed out; what is not kept is read, and kept from then
on if it could be read. -/
inductive Requested (s : Session) (kind : Kept) (p : Path) : Session × Outcome → Prop where
  | known {answer : Answer} (hkept : s.kept kind p = some answer) :
    Requested s kind p (s, .ok answer)
  | failed {fault : LoadFault} (hkept : s.kept kind p = none)
    (hread : kind.read s.check s.tree p = .error fault) : Requested s kind p (s, .error fault)
  | read {answer : Answer} {s' : Session} (hkept : s.kept kind p = none)
    (hread : kind.read s.check s.tree p = .ok answer) (htree : s'.tree = s.tree)
    (hcheck : s'.check = s.check)
    (hkept' : ∀ kind' q,
      s'.kept kind' q = if kind = kind' ∧ p = q then some answer else s.kept kind' q) :
    Requested s kind p (s', .ok answer)

theorem requested_step (s : Session) (kind : Kept) (p : Path) :
    Requested s kind p (s.step (kind.request p)) := by
  cases kind with
  | schema =>
      show Requested s .schema p (s.loadSchema p)
      unfold loadSchema
      split
      · next schema hkept => exact .known (by rw [kept, hkept]; rfl)
      · next hkept =>
        split
        · next schema hread =>
          refine .read (by rw [kept, hkept]; rfl) (by rw [Kept.read, hread]; rfl) rfl rfl ?_
          intro kind' q
          by_cases hq : p = q <;> cases kind' <;> simp [kept, Entries.get?, hq]
        · next fault hread =>
          exact .failed (by rw [kept, hkept]; rfl) (by rw [Kept.read, hread]; rfl)
  | template =>
      show Requested s .template p (s.loadTemplate p)
      unfold loadTemplate
      split
      · next template hkept => exact .known (by rw [kept, hkept]; rfl)
      · next hkept =>
        split
        · next template hread =>
          refine .read (by rw [kept, hkept]; rfl) (by rw [Kept.read, hread]; rfl) rfl rfl ?_
          intro kind' q
          by_cases hq : p = q <;> cases kind' <;> simp [kept, Entries.get?, hq]
        · next fault hread =>
          exact .failed (by rw [kept, hkept]; rfl) (by rw [Kept.read, hread]; rfl)

/-- A session that has kept nothing. -/
def bare (t : FileTree) (check : SchemaCheck) : Session :=
  ⟨t, [], [], check⟩

/-- A step that is no request goes by the tree alone, and changes nothing but the tree. -/
theorem step_of_not_request {step : Step} (h : ∀ kind p, step ≠ Kept.request kind p) (s : Session) :
    s.step step = ({ s with tree := ((bare s.tree s.check).step step).1.tree },
      ((bare s.tree s.check).step step).2) := by
  cases step with
  | write path content =>
      simp only [Session.step, write, makeDirectory, bare]
      rcases s.tree.makeDirectories path.parent with ⟨made, fault | _⟩
      · rfl
      · simp only [update]
        cases made.write path content <;> rfl
  | makeDirectory path =>
      simp only [Session.step, makeDirectory, bare]
      rcases s.tree.makeDirectories path with ⟨made, fault | _⟩ <;> rfl
  | remove path =>
      simp only [Session.step, update, bare]
      cases s.tree.remove path <;> rfl
  | load | loadDeclaration | loadToolchain | loadPackagedSchema | lower | validate => rfl
  | loadSchema path => exact absurd rfl (h .schema path)
  | loadTemplate path =>
      cases path with
      | none => rfl
      | some path => exact absurd rfl (h .template path)

theorem request_or_not (step : Step) :
    (∃ kind p, step = Kept.request kind p) ∨ ∀ kind p, step ≠ Kept.request kind p := by
  rcases em (∃ kind p, step = Kept.request kind p) with h | h
  · exact .inl h
  · exact .inr fun kind p heq => h ⟨kind, p, heq⟩

theorem step_check (s : Session) (step : Step) : (s.step step).1.check = s.check := by
  rcases request_or_not step with ⟨kind, p, rfl⟩ | h
  · have hrequested := s.requested_step kind p
    generalize s.step (kind.request p) = result at hrequested
    cases hrequested with
    | known | failed => rfl
    | read _ _ _ hcheck => exact hcheck
  · rw [step_of_not_request h]

/-! ## The story of a session -/

/-- A step, the tree that it has found, and what it has come to. -/
structure Visit where
  tree : FileTree
  step : Step
  outcome : Outcome

/-- Whether a visit has asked for what is at a path and was answered. -/
def Visit.answers (kind : Kept) (p : Path) (v : Visit) : Bool :=
  match kind, v.step, v.outcome with
  | .schema, .loadSchema q, .ok _ => p = q
  | .template, .loadTemplate (some q), .ok _ => p = q
  | _, _, _ => false

def visit (s : Session) (step : Step) : Visit :=
  ⟨s.tree, step, (s.step step).2⟩

theorem Visit.answers_iff {kind : Kept} {p : Path} {v : Visit} :
    v.answers kind p = true ↔ v.step = kind.request p ∧ ∃ answer, v.outcome = .ok answer := by
  obtain ⟨tree, step, outcome⟩ := v
  cases kind with
  | schema => cases step <;> cases outcome <;> simp [answers, Kept.request, eq_comm]
  | template =>
      cases step with
      | loadTemplate path =>
          cases path <;> cases outcome <;> simp [answers, Kept.request, eq_comm]
      | _ => simp [answers, Kept.request]

/-! ### What the past has read -/

/-- What a session has kept under a path is what the first answered request has read. -/
structure Remembers (s : Session) (past : List Visit) (kind : Kept) (p : Path) : Prop where
  fresh : past.find? (Visit.answers kind p) = none → s.kept kind p = none
  known : ∀ first, past.find? (Visit.answers kind p) = some first →
    ∃ answer, kind.read s.check first.tree p = .ok answer ∧ s.kept kind p = some answer

section Step

variable {s : Session} {step : Step} {kind : Kept} {p : Path}

/-- Only a request for it that is answered changes what is kept under a path. -/
theorem kept_of_not_answers (h : ¬ (s.visit step).answers kind p = true) :
    (s.step step).1.kept kind p = s.kept kind p := by
  rw [Visit.answers_iff] at h
  rcases request_or_not step with ⟨kind', q, rfl⟩ | hother
  · have hrequested := s.requested_step kind' q
    unfold visit at h
    generalize s.step (kind'.request q) = result at h hrequested
    cases hrequested with
    | known | failed => rfl
    | read _ _ _ _ hkept' =>
        rw [hkept', if_neg]
        rintro ⟨rfl, rfl⟩
        exact h ⟨rfl, _, rfl⟩
  · rw [step_of_not_request hother]
    cases kind <;> rfl

/-- An answered request for what was not kept has read it, and it is kept from then on. -/
theorem exists_read_of_answers (h : (s.visit step).answers kind p = true)
    (hkept : s.kept kind p = none) :
    ∃ answer, kind.read s.check s.tree p = .ok answer ∧
      (s.step step).1.kept kind p = some answer := by
  obtain ⟨hstep, answer, houtcome⟩ := Visit.answers_iff.1 h
  obtain rfl : step = kind.request p := hstep
  have hrequested := s.requested_step kind p
  unfold visit at houtcome
  generalize s.step (kind.request p) = result at houtcome hrequested
  cases hrequested with
  | known hsome => cases hkept.symm.trans hsome
  | failed => cases houtcome
  | read _ hread _ _ hkept' => exact ⟨_, hread, by rw [hkept', if_pos ⟨rfl, rfl⟩]⟩

/-- What is kept stays kept. -/
theorem kept_of_kept {answer : Answer} (h : s.kept kind p = some answer) :
    (s.step step).1.kept kind p = some answer := by
  by_cases hanswers : (s.visit step).answers kind p = true
  · obtain ⟨hstep, _⟩ := Visit.answers_iff.1 hanswers
    obtain rfl : step = kind.request p := hstep
    have hrequested := s.requested_step kind p
    generalize s.step (kind.request p) = result at hrequested
    cases hrequested with
    | known => exact h
    | failed hnone => cases hnone.symm.trans h
    | read hnone => cases hnone.symm.trans h
  · rw [kept_of_not_answers hanswers, h]

/-- A step adds to what the past has read. -/
theorem Remembers.next {past : List Visit} (h : s.Remembers past kind p) (step : Step) :
    (s.step step).1.Remembers (past ++ [s.visit step]) kind p := by
  have hcheck := s.step_check step
  cases hpast : past.find? (Visit.answers kind p) with
  | some first =>
      obtain ⟨answer, hread, hkept⟩ := h.known first hpast
      have hfirst : (past ++ [s.visit step]).find? (Visit.answers kind p) = some first := by
        rw [List.find?_append, hpast, Option.some_or]
      refine ⟨fun hnone => ?_, fun first' hfirst' => ?_⟩
      · cases hnone.symm.trans hfirst
      · cases hfirst'.symm.trans hfirst
        exact ⟨answer, by rw [hcheck, hread], kept_of_kept hkept⟩
  | none =>
      have hkept := h.fresh hpast
      have hfind : (past ++ [s.visit step]).find? (Visit.answers kind p) =
          if (s.visit step).answers kind p then some (s.visit step) else none := by
        rw [List.find?_append, hpast, Option.none_or, List.find?_singleton]
      by_cases hanswers : (s.visit step).answers kind p = true
      · rw [if_pos hanswers] at hfind
        obtain ⟨answer, hread, hkept'⟩ := exists_read_of_answers hanswers hkept
        refine ⟨fun hnone => ?_, fun first hfirst => ?_⟩
        · cases hnone.symm.trans hfind
        · cases hfirst.symm.trans hfind
          exact ⟨answer, by rw [hcheck]; exact hread, hkept'⟩
      · rw [if_neg hanswers] at hfind
        refine ⟨fun _ => ?_, fun first hfirst => ?_⟩
        · rw [kept_of_not_answers hanswers, hkept]
        · cases hfirst.symm.trans hfind

/-- What a session remembers of its past decides what a request comes to. -/
theorem Remembers.outcome {past : List Visit} (h : s.Remembers past kind p) :
    (s.step (kind.request p)).2 = kind.read s.check
      ((past.find? (Visit.answers kind p)).getD (s.visit (kind.request p))).tree p := by
  have hrequested := s.requested_step kind p
  cases hpast : past.find? (Visit.answers kind p) with
  | some first =>
      obtain ⟨answer, hread, hkept⟩ := h.known first hpast
      rw [Option.getD_some, hread]
      generalize s.step (kind.request p) = result at hrequested
      cases hrequested with
      | known hsome =>
          cases hsome.symm.trans hkept
          rfl
      | failed hnone => cases hnone.symm.trans hkept
      | read hnone => cases hnone.symm.trans hkept
  | none =>
      have hkept := h.fresh hpast
      rw [Option.getD_none]
      show _ = kind.read s.check s.tree p
      generalize s.step (kind.request p) = result at hrequested
      cases hrequested with
      | known hsome => cases hkept.symm.trans hsome
      | failed _ hread => exact hread.symm
      | read _ hread => exact hread.symm

end Step

/-- Two visits of one step in one tree, with one outcome unless it is a request. -/
structure Visit.Alike (v w : Visit) : Prop where
  tree : v.tree = w.tree
  step : v.step = w.step
  outcome : (∀ kind p, v.step ≠ Kept.request kind p) → v.outcome = w.outcome

end Session

end EmulatedDevice
