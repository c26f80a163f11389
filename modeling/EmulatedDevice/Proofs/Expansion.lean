import EmulatedDevice.Proofs.TemplateScan
import Mathlib.Data.List.Count
import Mathlib.Data.List.Perm.Basic

/-!
# Expanding a template is filling its cut

A template that expands is cut at sixteen places. Between the cuts stands literal
text, and the expansion is that text with a value in every cut and nothing else
done to it. This file makes the cut a thing of its own, without the scan: a
`Cut` is a list of literal segments, each before a placeholder, and a last
literal segment. It is clean when no token begins inside a segment, where a
segment is read together with the token behind it.

Reading a segment with the token behind it is enough. A token that began in a
segment and outlasted the next token would hold that token's two percent signs
besides its own first one, and a token holds two. So a clean cut is the one
reading of its text (`scan_iff_cut`), and a successful expansion is the same
thing as a clean cut with every placeholder in it once (`expand_eq_ok_iff`).
-/

namespace EmulatedDevice

/-! ## Bindings as a mapping -/

theorem Bindings.get?_isSome {bindings : Bindings} {p : Placeholder} :
    (bindings.get? p).isSome ↔ p ∈ bindings.map Prod.fst :=
  Entries.get?_isSome_iff

namespace Template

open Placeholder

/-- A text cut at holes: literal segments, each with the placeholder behind it,
and the literal text behind the last of them. -/
structure Cut where
  segments : List (List Char × Placeholder)
  tail : List Char
  deriving DecidableEq, Repr

/-- No token begins in a literal text that is read together with what follows. -/
def FreeOfTokens (literal next : List Char) : Prop :=
  ∀ rest, rest <:+ literal → rest ≠ [] →
    ∀ p : Placeholder, ¬ p.token.toList <+: rest ++ next

namespace Cut

/-- The placeholders that a text is cut at, in order. -/
def holes (cut : Cut) : List Placeholder :=
  cut.segments.map Prod.snd

/-- The cut put together again with a text for every placeholder. -/
def written (cut : Cut) (text : Placeholder → String) : List Char :=
  cut.segments.flatMap (fun s => s.1 ++ (text s.2).toList) ++ cut.tail

/-- No token begins inside a segment that is read with the token behind it. -/
def IsClean (cut : Cut) : Prop :=
  (∀ s ∈ cut.segments, FreeOfTokens s.1 s.2.token.toList) ∧
    FreeOfTokens cut.tail []

/-- The pieces of a cut. -/
def pieces (cut : Cut) : List Piece :=
  cut.segments.flatMap (fun s => s.1.map .literal ++ [.hole s.2]) ++
    cut.tail.map .literal

end Cut

/-! ## Clean cuts are readings -/

theorem freeOfTokens_nil (next : List Char) : FreeOfTokens [] next := by
  intro rest hrest hne
  exact absurd (List.suffix_nil.1 hrest) hne

theorem freeOfTokens_cons {c : Char} {literal next : List Char} :
    FreeOfTokens (c :: literal) next ↔
      (∀ p : Placeholder, ¬ p.token.toList <+: c :: (literal ++ next)) ∧
        FreeOfTokens literal next := by
  constructor
  · intro h
    refine ⟨h (c :: literal) List.suffix_rfl (List.cons_ne_nil _ _), ?_⟩
    intro rest hrest
    exact h rest (hrest.trans (List.suffix_cons _ _))
  · rintro ⟨hhere, hlater⟩ rest hrest hne
    rcases List.suffix_cons_iff.1 hrest with rfl | hrest
    · exact hhere
    · exact hlater rest hrest hne

/-- A token that begins before another one does not outlast it: it would hold
three percent signs. -/
theorem prefix_of_prefix_past_token {c : Char} {literal more : List Char}
    {p q : Placeholder}
    (h : q.token.toList <+: c :: (literal ++ (p.token.toList ++ more))) :
    q.token.toList <+: c :: (literal ++ p.token.toList) := by
  have hshort : c :: (literal ++ p.token.toList) <+:
      c :: (literal ++ (p.token.toList ++ more)) := by
    rw [← List.append_assoc, ← List.cons_append]
    exact List.prefix_append _ _
  rcases List.prefix_or_prefix_of_prefix h hshort with hq | hq
  · exact hq
  · exfalso
    have hc : c = '%' := by
      rw [token_toList q] at hq
      exact (List.cons_prefix_cons.1 hq).1
    have hcount := hq.count_le '%'
    rw [hc, List.count_cons_self, List.count_append, count_percent_token,
      count_percent_token] at hcount
    omega

/-- Literal characters in front of a reading are read as such. -/
theorem Scan.literals {next : List Char} {found : List Piece}
    (hscan : Scan next found) : ∀ {literal : List Char},
    FreeOfTokens literal next →
    Scan (literal ++ next) (literal.map .literal ++ found) := by
  intro literal
  induction literal with
  | nil =>
      intro _
      exact hscan
  | cons c literal ih =>
      intro hfree
      obtain ⟨hhere, hlater⟩ := freeOfTokens_cons.1 hfree
      exact .literal hhere (ih hlater)

theorem Cut.IsClean.scan {cut : Cut} (h : cut.IsClean) :
    Scan (cut.written token) cut.pieces := by
  obtain ⟨segments, tail⟩ := cut
  obtain ⟨hsegments, htail⟩ := h
  simp only [Cut.written, Cut.pieces] at *
  induction segments with
  | nil =>
      have hscan := Scan.done.literals htail
      simpa using hscan
  | cons s segments ih =>
      obtain ⟨literal, p⟩ := s
      have hfirst := hsegments (literal, p) (List.mem_cons_self ..)
      have hmore := ih fun s hs => hsegments s (List.mem_cons_of_mem _ hs)
      have hscan := @Scan.literals _ _ (Scan.hole p hmore) literal ?_
      · simpa using hscan
      · -- What a segment is free of with its own token, it is free of with all
        -- that follows.
        intro rest hrest hne q hq
        obtain ⟨c, rest, rfl⟩ := List.exists_cons_of_ne_nil hne
        exact hfirst _ hrest hne q (prefix_of_prefix_past_token hq)

theorem Scan.exists_cut {text : List Char} {found : List Piece}
    (h : Scan text found) :
    ∃ cut : Cut, cut.IsClean ∧ cut.written token = text ∧ cut.pieces = found := by
  induction h with
  | done =>
      refine ⟨⟨[], []⟩, ⟨?_, freeOfTokens_nil []⟩, rfl, rfl⟩
      intro s hs
      cases hs
  | hole p _ ih =>
      obtain ⟨⟨segments, tail⟩, ⟨hsegments, htail⟩, rfl, rfl⟩ := ih
      refine ⟨⟨([], p) :: segments, tail⟩, ⟨?_, htail⟩, ?_, ?_⟩
      · intro s hs
        rcases List.mem_cons.1 hs with rfl | hs
        · exact freeOfTokens_nil _
        · exact hsegments s hs
      · simp [Cut.written]
      · simp [Cut.pieces]
  | @literal c rest found hno _ ih =>
      obtain ⟨⟨segments, tail⟩, ⟨hsegments, htail⟩, rfl, rfl⟩ := ih
      cases segments with
      | nil =>
          refine ⟨⟨[], c :: tail⟩, ⟨hsegments, ?_⟩, rfl, rfl⟩
          rw [freeOfTokens_cons]
          refine ⟨?_, htail⟩
          simpa [Cut.written] using hno
      | cons s segments =>
          obtain ⟨literal, q⟩ := s
          refine ⟨⟨(c :: literal, q) :: segments, tail⟩, ⟨?_, htail⟩, ?_, ?_⟩
          · intro s hs
            rcases List.mem_cons.1 hs with rfl | hs
            · rw [freeOfTokens_cons]
              refine ⟨fun p hp => hno p ?_, hsegments _ (List.mem_cons_self ..)⟩
              refine hp.trans ?_
              simp [Cut.written]
            · exact hsegments s (List.mem_cons_of_mem _ hs)
          · simp [Cut.written]
          · simp [Cut.pieces]

/-- The readings of a text are its clean cuts. -/
theorem scan_iff_cut {text : List Char} {found : List Piece} :
    Scan text found ↔
      ∃ cut : Cut, cut.IsClean ∧ cut.written token = text ∧
        cut.pieces = found := by
  constructor
  · exact Scan.exists_cut
  · rintro ⟨cut, hclean, rfl, rfl⟩
    exact hclean.scan

/-! ## What a cut says about its pieces -/

/-- The text that a piece stands for. -/
def pieceText (text : Placeholder → String) : Piece → List Char
  | .literal c => [c]
  | .hole p => (text p).toList

theorem flatMap_literals (text : Placeholder → String) (literal : List Char) :
    (literal.map .literal).flatMap (pieceText text) = literal := by
  induction literal with
  | nil => rfl
  | cons c literal ih =>
      rw [List.map_cons, List.flatMap_cons, ih]
      rfl

theorem Cut.written_eq (cut : Cut) (text : Placeholder → String) :
    cut.written text = cut.pieces.flatMap (pieceText text) := by
  obtain ⟨segments, tail⟩ := cut
  simp only [written, pieces, List.flatMap_append, flatMap_literals]
  congr 1
  induction segments with
  | nil => rfl
  | cons s segments ih =>
      rw [List.flatMap_cons, List.flatMap_cons, List.flatMap_append,
        List.flatMap_append, flatMap_literals, ih]
      simp [pieceText]

theorem count_literals (literal : List Char) (p : Placeholder) :
    (literal.map Piece.literal).count (.hole p) = 0 := by
  refine List.count_eq_zero_of_not_mem fun h => ?_
  obtain ⟨c, _, hc⟩ := List.mem_map.1 h
  cases hc

theorem Cut.count_holes (cut : Cut) (p : Placeholder) :
    cut.holes.count p = cut.pieces.count (.hole p) := by
  obtain ⟨segments, tail⟩ := cut
  simp only [holes, pieces, List.count_append, count_literals, Nat.add_zero]
  induction segments with
  | nil => rfl
  | cons s segments ih =>
      rw [List.map_cons, List.flatMap_cons, List.count_append,
        List.count_append, count_literals, ← ih, List.count_cons,
        List.count_singleton]
      simp only [beq_iff_eq, Piece.hole.injEq]
      omega

theorem count_all (p : Placeholder) : Placeholder.all.count p = 1 := by
  cases p <;> decide

theorem Cut.holes_perm_all {cut : Cut} :
    cut.holes.Perm Placeholder.all ↔
      ∀ p, cut.pieces.count (.hole p) = 1 := by
  rw [List.perm_iff_count]
  constructor
  · intro h p
    rw [← cut.count_holes, h, count_all]
  · intro h p
    rw [cut.count_holes, h, count_all]

/-- A template whose reading meets every placeholder once. -/
def MeetsEachOnce (template : String) : Prop :=
  ∃ found, Scan template.toList found ∧ ∀ p, found.count (.hole p) = 1

theorem meetsEachOnce_iff {template : String} :
    MeetsEachOnce template ↔ ∀ p, (pieces template).count (.hole p) = 1 := by
  simp only [MeetsEachOnce, scan_iff, exists_eq_left]

/-- The tokens one after the other are a template. -/
theorem meetsEachOnce_tokens :
    MeetsEachOnce (.ofList (Placeholder.all.flatMap fun p => p.token.toList)) := by
  let cut : Cut := ⟨Placeholder.all.map fun p => ([], p), []⟩
  have hclean : cut.IsClean := by
    refine ⟨fun s hs => ?_, freeOfTokens_nil []⟩
    obtain ⟨p, _, rfl⟩ := List.mem_map.1 hs
    exact freeOfTokens_nil _
  have hwritten : cut.written token =
      Placeholder.all.flatMap fun p => p.token.toList := by
    simp [cut, Cut.written, List.flatMap_map]
  refine ⟨cut.pieces, ?_, Cut.holes_perm_all.1 ?_⟩
  · rw [String.toList_ofList, ← hwritten]
    exact hclean.scan
  · simp [cut, Cut.holes, Function.comp_def]

/-! ## Checking and filling, by the pieces -/

theorem count_holes (template : String) (p : Placeholder) :
    (holes template).count p = (pieces template).count (.hole p) := by
  unfold holes
  induction pieces template with
  | nil => rfl
  | cons piece found ih =>
      cases piece with
      | literal c => simpa using ih
      | hole q => simp [List.count_cons, ih]

theorem unbound_eq_nil {bindings : Bindings} :
    unbound bindings = [] ↔ ∀ p, (bindings.get? p).isSome := by
  unfold unbound
  rw [List.filter_eq_nil_iff]
  constructor
  · intro h p
    have hp := h p (mem_all p)
    simpa [Option.isSome_iff_ne_none] using hp
  · intro h p _
    simpa [Option.isSome_iff_ne_none] using h p

theorem miscounted_eq_nil {template : String} {bindings : Bindings} :
    miscounted template bindings = [] ↔
      ∀ p ∈ bindings.map Prod.fst, (pieces template).count (.hole p) = 1 := by
  unfold miscounted
  rw [List.filter_eq_nil_iff]
  simp only [List.mem_map, forall_exists_index, and_imp, count_holes]
  constructor
  · rintro h p ⟨q, value⟩ hmem rfl
    simpa using h _ _ hmem rfl
  · rintro h _ ⟨p, value⟩ hmem rfl
    simpa using h _ _ hmem rfl

/-- A template passes when every placeholder has a value and one place. -/
theorem check_eq_ok_iff {template : String} {bindings : Bindings} :
    check template bindings = .ok () ↔
      (∀ p, (bindings.get? p).isSome) ∧ MeetsEachOnce template := by
  rw [← unbound_eq_nil, meetsEachOnce_iff]
  have hcheck : check template bindings = .ok () ↔
      unbound bindings = [] ∧ miscounted template bindings = [] := by
    unfold check
    split <;> simp_all
  rw [hcheck, miscounted_eq_nil]
  constructor
  · rintro ⟨hbound, hcount⟩
    refine ⟨hbound, fun p => hcount p ?_⟩
    exact Bindings.get?_isSome.1 (unbound_eq_nil.1 hbound p)
  · rintro ⟨hbound, hcount⟩
    exact ⟨hbound, fun p _ => hcount p⟩

theorem expand_of_check {template : String} {bindings : Bindings}
    (h : check template bindings = .ok ()) :
    expand template bindings = .ok (fill template bindings) := by
  unfold expand
  rw [h]
  rfl

theorem expand_of_check_error {template : String} {bindings : Bindings}
    {fault : TemplateFault} (h : check template bindings = .error fault) :
    expand template bindings = .error fault := by
  unfold expand
  rw [h]
  rfl

/-- A fault of the expansion is what the check found, both lists of it. -/
theorem expand_error {template : String} {bindings : Bindings}
    {fault : TemplateFault} (h : expand template bindings = .error fault) :
    fault = ⟨unbound bindings, miscounted template bindings⟩ := by
  cases hcheck : check template bindings with
  | ok _ => rw [expand_of_check hcheck] at h; cases h
  | error found =>
      rw [expand_of_check_error hcheck] at h
      obtain rfl := Except.error.inj h
      unfold check at hcheck
      split at hcheck
      · cases hcheck
      · exact (Except.error.inj hcheck).symm

/-- A template expands exactly when it passes the check. -/
theorem exists_expand_iff {template : String} {bindings : Bindings} :
    (∃ text, expand template bindings = .ok text) ↔
      check template bindings = .ok () := by
  constructor
  · rintro ⟨text, h⟩
    cases hcheck : check template bindings with
    | ok _ => rfl
    | error fault =>
        rw [expand_of_check_error hcheck] at h
        cases h
  · intro h
    exact ⟨_, expand_of_check h⟩

theorem fill_toList {template : String} {bindings : Bindings}
    {value : Placeholder → String}
    (hvalue : ∀ p, bindings.get? p = some (value p)) :
    (fill template bindings).toList =
      (pieces template).flatMap (pieceText value) := by
  rw [fill, String.toList_ofList]
  congr 1
  funext piece
  cases piece with
  | literal c => rfl
  | hole p => rw [fillPiece, hvalue]; rfl

theorem exists_value {bindings : Bindings}
    (h : ∀ p, (bindings.get? p).isSome) :
    ∃ value : Placeholder → String, ∀ p, bindings.get? p = some (value p) :=
  ⟨fun p => (bindings.get? p).get (h p), fun p => (Option.some_get (h p)).symm⟩

/-- The expansions of a template are the fillings of its clean cuts that have
every placeholder once. -/
theorem expand_eq_ok_iff {template : String} {bindings : Bindings}
    {text : String} :
    expand template bindings = .ok text ↔
      ∃ (cut : Cut) (value : Placeholder → String),
        cut.written token = template.toList ∧ cut.IsClean ∧
          cut.holes.Perm Placeholder.all ∧
          (∀ p, bindings.get? p = some (value p)) ∧
          text.toList = cut.written value := by
  constructor
  · intro h
    have hcheck := exists_expand_iff.1 ⟨text, h⟩
    rw [expand_of_check hcheck] at h
    obtain ⟨hbound, hcount⟩ := check_eq_ok_iff.1 hcheck
    obtain ⟨value, hvalue⟩ := exists_value hbound
    obtain ⟨cut, hclean, hwritten, hpieces⟩ := (scan_pieces template).exists_cut
    refine ⟨cut, value, hwritten, hclean, ?_, hvalue, ?_⟩
    · rw [Cut.holes_perm_all, hpieces]
      exact meetsEachOnce_iff.1 hcount
    · rw [← Except.ok.inj h, fill_toList hvalue, cut.written_eq, hpieces]
  · rintro ⟨cut, value, hwritten, hclean, hholes, hvalue, htext⟩
    have hpieces : cut.pieces = pieces template := by
      rw [← scan_iff, ← hwritten]
      exact hclean.scan
    have hcheck : check template bindings = .ok () := by
      rw [check_eq_ok_iff, meetsEachOnce_iff, ← hpieces]
      refine ⟨fun p => ?_, Cut.holes_perm_all.1 hholes⟩
      rw [hvalue]
      rfl
    rw [expand_of_check hcheck]
    congr 1
    rw [← String.toList_inj, fill_toList hvalue, htext, cut.written_eq, hpieces]

/-! ## Expansion with the order of trying left open -/

/-- Expansion when, before a rest of the template, the placeholders are tried in
an order that may depend on that rest. -/
def expandTrying (order : List Char → List Placeholder) (template : String)
    (bindings : Bindings) : Except TemplateFault String :=
  let found := piecesTrying order 0 template.toList
  let counts := bindings.map fun (p, _) => (p, found.count (.hole p))
  match unbound bindings, counts.filter fun (_, count) => count != 1 with
  | [], [] => .ok (.ofList (found.flatMap (fillPiece bindings)))
  | ps, counts => .error ⟨ps, counts⟩

theorem expandTrying_eq {order : List Char → List Placeholder}
    (horder : ∀ rest, (order rest).Perm Placeholder.all) (template : String)
    (bindings : Bindings) :
    expandTrying order template bindings = expand template bindings := by
  have hcounts : miscounted template bindings =
      (bindings.map fun (p, _) =>
        (p, (pieces template).count (.hole p))).filter
          fun (_, count) => count != 1 := by
    unfold miscounted
    simp only [count_holes]
  unfold expandTrying expand check
  rw [piecesTrying_eq_pieces horder]
  simp only [← hcounts]
  cases unbound bindings <;> cases miscounted template bindings <;> rfl

/-- What becomes of a template and values for its placeholders. It expands when
all placeholders are bound and its reading meets each of them once; what comes
out is its cut with a value in every hole; the order in which placeholders are
tried is of no account; and a fault names the unbound placeholders in their
order, then the bound ones that are met too rarely or too often. -/
theorem expand_outcome (template : String) (bindings : Bindings) :
    ((∃ text, expand template bindings = .ok text) ↔
      (∀ p, p ∈ bindings.map Prod.fst) ∧ MeetsEachOnce template) ∧
    (∀ text, expand template bindings = .ok text ↔
      ∃ (cut : Cut) (value : Placeholder → String),
        cut.written token = template.toList ∧ cut.IsClean ∧
          cut.holes.Perm Placeholder.all ∧
          (∀ p, bindings.get? p = some (value p)) ∧
          text.toList = cut.written value) ∧
    (∀ order : List Char → List Placeholder,
      (∀ rest, (order rest).Perm Placeholder.all) →
        expandTrying order template bindings = expand template bindings) ∧
    ∀ fault, expand template bindings = .error fault →
      fault.unbound = Placeholder.all.filter (· ∉ bindings.map Prod.fst) ∧
      (∃ found, Scan template.toList found ∧
        fault.miscounted =
          ((bindings.map Prod.fst).map fun p => (p, found.count (.hole p))).filter
            fun (_, count) => count ≠ 1) ∧
      fault.message = "stub template mismatch: " ++ "; ".intercalate
        ((if fault.unbound = [] then []
          else ["no value bound for: " ++
            ", ".intercalate (fault.unbound.map token)]) ++
        fault.miscounted.map fun (p, count) =>
          p.token ++ " must appear exactly once in the template (found " ++
            toString count ++ ")") := by
  refine ⟨?_, fun text => expand_eq_ok_iff,
    fun order horder => expandTrying_eq horder template bindings, ?_⟩
  · rw [exists_expand_iff, check_eq_ok_iff]
    simp only [Bindings.get?_isSome]
  · intro fault h
    obtain rfl := expand_error h
    refine ⟨?_, ⟨pieces template, scan_pieces template, ?_⟩, rfl⟩
    · show unbound bindings = _
      unfold unbound
      refine List.filter_congr fun p _ => ?_
      rw [Bool.eq_iff_iff, decide_eq_true_iff, ← Bindings.get?_isSome,
        Option.not_isSome_iff_eq_none, Option.isNone_iff_eq_none]
    · show miscounted template bindings = _
      unfold miscounted
      rw [List.map_map]
      simp only [count_holes]
      refine List.filter_congr fun pair _ => ?_
      rw [Bool.eq_iff_iff, decide_eq_true_iff, bne_iff_ne]

/-- A token that shares its percent sign with the one before it is not met. -/
example : holes "%adb%adb_static%" = [.adb] := by decide

end Template

end EmulatedDevice
