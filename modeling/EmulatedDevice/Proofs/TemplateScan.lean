import EmulatedDevice.Stub.Template

/-!
# A template has one reading

`piecesAfter` is a function, so of course it gives one list of pieces. What is
worth proving is that nothing else could have come out: that the order in which
the placeholders are tried does not matter, and that cutting a template at its
holes by any other means gives the same cut. Both rest on the shape of a token.
It begins with a percent sign, ends with one, and has none in between. So no
token begins another, and a token that began before another one ended would
have to contain three percent signs.

`Scan` says what a reading is without saying how it is found: at each place
either some token begins, and any of them may be taken, or none does and the
character stays. `scan_iff` is the tie to the function, and `Scan.unique` is the
payoff: with nothing said about which token is taken, there is still only one
result.
-/

namespace EmulatedDevice

/-- What stands before the first mark of a kind can be read off. -/
theorem takeWhile_mark {mark : Char} {text rest : List Char} (h : mark ∉ text) :
    (text ++ mark :: rest).takeWhile (· ≠ mark) = text := by
  rw [List.takeWhile_append_of_pos]
  · simp
  · intro c hc
    simpa using ne_of_mem_of_not_mem hc h

namespace Placeholder

theorem percent_not_mem_name (p : Placeholder) : '%' ∉ p.name.toList := by
  cases p <;> decide

theorem name_injective {p q : Placeholder} (h : p.name = q.name) : p = q := by
  have hall : ∀ p ∈ all, ∀ q ∈ all, p.name = q.name → p = q := by decide
  exact hall p (mem_all p) q (mem_all q) h

theorem token_toList (p : Placeholder) :
    p.token.toList = '%' :: (p.name.toList ++ ['%']) := by
  rw [token, String.toList_append, String.toList_append]
  rfl

/-- A token holds exactly its two percent signs. -/
theorem count_percent_token (p : Placeholder) :
    p.token.toList.count '%' = 2 := by
  rw [token_toList, List.count_cons_self, List.count_append,
    List.count_eq_zero_of_not_mem (percent_not_mem_name p)]
  rfl

/-- At one place of a text at most one token begins. -/
theorem eq_of_prefixes {p q : Placeholder} {text : List Char}
    (hp : p.token.toList <+: text) (hq : q.token.toList <+: text) : p = q := by
  obtain ⟨s, hs⟩ := hp
  obtain ⟨t, ht⟩ := hq
  rw [← ht, token_toList, token_toList, List.cons_append, List.cons_append,
    List.append_assoc, List.append_assoc] at hs
  have hrest := (List.cons.inj hs).2
  have hnames := congrArg (List.takeWhile (· ≠ '%')) hrest
  rw [List.cons_append, List.cons_append,
    takeWhile_mark (percent_not_mem_name p),
    takeWhile_mark (percent_not_mem_name q)] at hnames
  exact name_injective (String.toList_inj.1 hnames)

theorem startsAt_iff {p : Placeholder} {text : List Char} :
    p.startsAt text = true ↔ p.token.toList <+: text :=
  List.isPrefixOf_iff_prefix

/-- Trying placeholders one by one finds the one that begins here, if any of
them does, in whatever order they stand. -/
theorem find?_startsAt {order : List Placeholder} (horder : ∀ p, p ∈ order)
    {p : Placeholder} {text : List Char} :
    order.find? (fun q => q.startsAt text) = some p ↔
      p.token.toList <+: text := by
  constructor
  · intro h
    have hstarts := List.find?_some (p := fun q => startsAt q text) h
    exact startsAt_iff.1 hstarts
  · intro h
    cases hfind : order.find? (fun q => q.startsAt text) with
    | none =>
        have hno := List.find?_eq_none.1 hfind p (horder p)
        exact absurd (startsAt_iff.2 h) hno
    | some q =>
        have hstarts := List.find?_some (p := fun q => startsAt q text) hfind
        rw [eq_of_prefixes (startsAt_iff.1 hstarts) h]

theorem find?_startsAt_none {order : List Placeholder}
    (horder : ∀ p, p ∈ order) {text : List Char} :
    order.find? (fun q => q.startsAt text) = none ↔
      ∀ p : Placeholder, ¬ p.token.toList <+: text := by
  rw [List.find?_eq_none]
  constructor
  · intro h p hp
    exact h p (horder p) (startsAt_iff.2 hp)
  · intro h p _ hp
    exact h p (startsAt_iff.1 hp)

end Placeholder

namespace Template

open Placeholder

/-- The readings of a text: where a token begins a token is taken, and where
none does the character stays. -/
inductive Scan : List Char → List Piece → Prop
  | done : Scan [] []
  | literal {c : Char} {rest : List Char} {pieces : List Piece} :
      (∀ p : Placeholder, ¬ p.token.toList <+: c :: rest) →
      Scan rest pieces → Scan (c :: rest) (.literal c :: pieces)
  | hole (p : Placeholder) {rest : List Char} {pieces : List Piece} :
      Scan rest pieces → Scan (p.token.toList ++ rest) (.hole p :: pieces)

/-! ## The scan, with the order of trying left open -/

/-- The pieces of a text when, before a rest of it, the placeholders are tried
in an order that may depend on that rest. -/
def piecesTrying (order : List Char → List Placeholder) :
    Nat → List Char → List Piece
  | _, [] => []
  | skip + 1, _ :: rest => piecesTrying order skip rest
  | 0, c :: rest =>
    match (order (c :: rest)).find? fun p => p.startsAt (c :: rest) with
    | some p => .hole p :: piecesTrying order (p.token.length - 1) rest
    | none => .literal c :: piecesTrying order 0 rest

theorem piecesTrying_all (skip : Nat) (text : List Char) :
    piecesTrying (fun _ => Placeholder.all) skip text =
      piecesAfter skip text := by
  induction skip, text using piecesAfter.induct with
  | case1 skip => rw [piecesTrying, piecesAfter]
  | case2 skip c rest ih => rw [piecesTrying, piecesAfter, ih]
  | case3 c rest p hp ih =>
      rw [piecesTrying, piecesAfter, hp]
      rw [at?] at hp
      rw [hp]
      simp only []
      rw [ih]
  | case4 c rest hnone ih =>
      rw [piecesTrying, piecesAfter, hnone]
      rw [at?] at hnone
      rw [hnone]
      simp only []
      rw [ih]

theorem piecesTrying_drop (order : List Char → List Placeholder) :
    ∀ (taken rest : List Char),
      piecesTrying order taken.length (taken ++ rest) =
        piecesTrying order 0 rest := by
  intro taken rest
  induction taken with
  | nil => rfl
  | cons c taken ih =>
      rw [List.length_cons, List.cons_append, piecesTrying, ih]

/-- Before a token the scan gives a hole and goes on behind the token. -/
theorem piecesTrying_token {order : List Char → List Placeholder}
    (horder : ∀ rest p, p ∈ order rest) (p : Placeholder) (rest : List Char) :
    piecesTrying order 0 (p.token.toList ++ rest) =
      .hole p :: piecesTrying order 0 rest := by
  have hpre : p.token.toList <+: p.token.toList ++ rest := List.prefix_append _ _
  have hlen : p.token.length - 1 = (p.name.toList ++ ['%']).length := by
    rw [← String.length_toList, token_toList]
    rfl
  rw [token_toList, List.cons_append] at hpre ⊢
  rw [piecesTrying, (find?_startsAt (horder _)).2 (by rw [token_toList]; exact hpre)]
  simp only []
  rw [hlen, piecesTrying_drop]

/-- A reading is what the scan finds, whichever order it tries in. -/
theorem piecesTrying_of_scan {order : List Char → List Placeholder}
    (horder : ∀ rest p, p ∈ order rest) {text : List Char}
    {pieces : List Piece} (h : Scan text pieces) :
    piecesTrying order 0 text = pieces := by
  induction h with
  | done => rw [piecesTrying]
  | literal hno _ ih =>
      rw [piecesTrying, (find?_startsAt_none (horder _)).2 hno]
      simp only []
      rw [ih]
  | hole p _ ih => rw [piecesTrying_token horder, ih]

/-- The scan finds a reading, because what it skips is the rest of a token. -/
theorem scan_piecesAfter (skip : Nat) (text : List Char) :
    Scan (text.drop skip) (piecesAfter skip text) := by
  induction skip, text using piecesAfter.induct with
  | case1 skip =>
      rw [piecesAfter, List.drop_nil]
      exact .done
  | case2 skip c rest ih =>
      rw [piecesAfter, List.drop_succ_cons]
      exact ih
  | case3 c rest p hp ih =>
      rw [piecesAfter, hp]
      simp only [List.drop_zero]
      obtain ⟨behind, hbehind⟩ := (find?_startsAt mem_all).1 hp
      have hrest : rest.drop (p.token.length - 1) = behind := by
        rw [← String.length_toList]
        rw [token_toList, List.cons_append] at hbehind
        rw [← (List.cons.inj hbehind).2, token_toList]
        exact List.drop_left
      rw [hrest] at ih
      rw [← hbehind]
      exact .hole p ih
  | case4 c rest hnone ih =>
      rw [piecesAfter, hnone]
      exact .literal ((find?_startsAt_none mem_all).1 hnone) ih

theorem scan_pieces (template : String) :
    Scan template.toList (pieces template) :=
  scan_piecesAfter 0 template.toList

/-- The pieces of a template are its one reading. -/
theorem scan_iff {template : String} {found : List Piece} :
    Scan template.toList found ↔ found = pieces template := by
  constructor
  · intro h
    rw [pieces, ← piecesTrying_all 0, piecesTrying_of_scan (fun _ => mem_all) h]
  · intro h
    rw [h]
    exact scan_pieces template

theorem Scan.unique {text : List Char} {ps qs : List Piece}
    (hp : Scan text ps) (hq : Scan text qs) : ps = qs := by
  rw [← piecesTrying_of_scan (fun _ => mem_all) hp,
    piecesTrying_of_scan (fun _ => mem_all) hq]

theorem piecesTrying_eq_pieces {order : List Char → List Placeholder}
    (horder : ∀ rest, (order rest).Perm Placeholder.all) (template : String) :
    piecesTrying order 0 template.toList = pieces template :=
  piecesTrying_of_scan (fun rest p => (horder rest).mem_iff.2 (mem_all p))
    (scan_pieces template)

end Template

end EmulatedDevice
