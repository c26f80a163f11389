import EmulatedDevice.Proofs.DistinctKeys
import EmulatedDevice.Proofs.FlowNodes
import EmulatedDevice.Proofs.SharedPieces

/-!
# Tokens inside brackets

A scan that stands before some text of a document, with nothing between but spaces and
breaks, goes on by one token at a time. Inside brackets no indentation counts and no key
is ever needed, so of its state only few things matter: how many brackets are open,
whether a key may begin, and the tokens so far. `Stands` says what they are, and
`Passes` that a scan which so stands before a text comes to stand behind it with certain
new tokens.

Each sign and each scalar is passed with its token. The name of a member is the one
piece that two tokens and a third in front of them are made of, for the place of the key
is only used when the colon is met: here it matters that the line has not ended and that
the name is not too long.

So the pieces of a part of a document are passed with tokens that announce this part.
-/

namespace EmulatedDevice.Yaml

/-- How many brackets are open, and whether it is known that a key may begin. -/
structure Spot where
  depth : Nat
  key : Bool

namespace Scan

/-- A scan is at a spot before a text, with the given tokens behind it, in no block and in need of
no key. -/
structure Stands (s : Scan) (spot : Spot) (text : List Char) (tokens : List Token) : Prop where
  rest : s.cursor.rest.dropWhile isSpacing = text.dropWhile isSpacing
  depth : s.depth = spot.depth
  key : spot.key = true → s.keyAllowed = true
  tokens : s.tokens.toList = tokens
  required : ∀ place ∈ s.keys, place.2.required = false
  indent : s.indent = -1
  outer : s.outer = []

/-- A run of one scan is a run of another that is not before it. -/
def Reaches (s s' : Scan) : Prop :=
  ∀ fuel, s.cursor.rest.length < fuel →
    ∃ fuel', s'.cursor.rest.length < fuel' ∧ run fuel s = run fuel' s'

/-- From before a text a scan gets to before another one, with new tokens. -/
def Passes (spot : Spot) (text : List Char) (new : List Token) (spot' : Spot)
    (text' : List Char) : Prop :=
  ∀ (s : Scan) (tokens : List Token), s.Stands spot text tokens →
    ∃ s', Reaches s s' ∧ s'.Stands spot' text' (tokens ++ new)

section Steps

variable {s s' s'' : Scan} {spot spot' spot'' : Spot} {text text' text'' rest gap : List Char}
  {tokens new new' : List Token} {c : Char} {fuel : Nat} {t : Token}

theorem Reaches.trans (h : Reaches s s') (h' : Reaches s' s'') : Reaches s s'' := by
  intro fuel hfuel
  obtain ⟨fuel', hfuel', heq⟩ := h fuel hfuel
  obtain ⟨fuel'', hfuel'', heq'⟩ := h' fuel' hfuel'
  exact ⟨fuel'', hfuel'', heq.trans heq'⟩

theorem Reaches.refl (s : Scan) : Reaches s s := fun fuel hfuel => ⟨fuel, hfuel, rfl⟩

theorem Passes.trans (h : Passes spot text new spot' text')
    (h' : Passes spot' text' new' spot'' text'') :
    Passes spot text (new ++ new') spot'' text'' := by
  intro s tokens hs
  obtain ⟨s', hreach, hs'⟩ := h s tokens hs
  obtain ⟨s'', hreach', hs''⟩ := h' s' _ hs'
  rw [List.append_assoc] at hs''
  exact ⟨s'', hreach.trans hreach', hs''⟩

/-- A gap is not seen by a scan that stands before it. -/
theorem passes_gap (hgap : ∀ c ∈ gap, isSpacing c = true) (text : List Char) :
    Passes spot (gap ++ text) [] spot text := by
  intro s tokens hs
  refine ⟨s, Reaches.refl s, ?_⟩
  rw [List.append_nil]
  exact { hs with rest := by rw [hs.rest, List.dropWhile_append_of_pos hgap] }

/-! ## Between tokens -/

theorem exists_skipBlanks (h : s.cursor.rest.dropWhile isSpacing = rest)
    (hrest : ∀ ch, rest.head? = some ch → isBreak ch = false ∧ ch ≠ '#')
    (hfuel : s.cursor.rest.length < fuel) :
    ∃ c key, skipBlanks fuel s = { s with cursor := c, keyAllowed := key } ∧ c.rest = rest ∧
      (s.keyAllowed = true → key = true) := by
  induction fuel generalizing s with
  | zero => exact absurd hfuel (Nat.not_lt_zero _)
  | succ fuel ih =>
      have hbreak : ∀ ch, rest.head? = some ch → isBreak ch = false := fun ch hch =>
        (hrest ch hch).1
      rw [skipBlanks]
      rcases Cursor.skipSpaces_cases h hbreak with
        ⟨hpast, hnone⟩ | ⟨hhash, c', htake, hshorter, hc'⟩
      · have hhash : s.cursor.skipSpaces.peek ≠ some '#' := by
          rw [Cursor.peek, hpast]
          exact fun hhash => (hrest '#' hhash).2 rfl
        exact ⟨s.cursor.skipSpaces, s.keyAllowed, by simp only [hhash, if_false, hnone], hpast, id⟩
      · obtain ⟨c, key, heq, hc, hkey⟩ :=
          ih (s := { s with cursor := c', keyAllowed := s.keyAllowed || !s.inFlow }) hc'
            (hshorter.trans_le (Nat.le_of_lt_succ hfuel))
        refine ⟨c, key, ?_, hc, fun h => hkey (by rw [h]; rfl)⟩
        simp only [hhash, if_false, htake, heq]

/-- Whether a key may still begin at a place once the scan has come to a cursor. -/
def stays (cursor : Cursor) (entry : Nat × KeyPlace) : Bool :=
  !(entry.2.line != cursor.line || 1024 < cursor.index - entry.2.index)

theorem dropStaleKeys_eq (h : ∀ place ∈ s.keys, place.2.required = false) :
    s.dropStaleKeys = .ok { s with keys := s.keys.filter (stays s.cursor) } := by
  rw [dropStaleKeys, if_neg]
  · rfl
  · rw [Bool.not_eq_true, List.any_eq_false]
    rintro ⟨depth, place⟩ hmem
    have hplace : place.required = false := h (depth, place) hmem
    simp only [hplace, Bool.and_false, Bool.false_eq_true, not_false_eq_true]

theorem closeBlocks_eq (h : s.outer = []) (column : Int) : s.closeBlocks column = s := by
  unfold closeBlocks
  split
  · rfl
  · rw [h, closeFrom]
    dsimp only
    rw [← h]

theorem exists_dropKey (h : ∀ place ∈ s.keys, place.2.required = false) :
    ∃ keys, s.dropKey = .ok { s with keys } ∧ ∀ place ∈ keys, place.2.required = false := by
  unfold dropKey
  split
  · next place hplace =>
    have hmem : (s.depth, place) ∈ s.keys :=
      Entries.mem_of_get? (fun _ hsame => beq_iff_eq.1 hsame) hplace
    rw [if_neg (by rw [h _ hmem]; exact Bool.false_ne_true)]
    exact ⟨_, rfl, fun place hmem => h place (List.mem_of_mem_filter hmem)⟩
  · exact ⟨s.keys, rfl, h⟩

/-- Where a key may begin, its place is remembered first of all. -/
theorem exists_saveKey_allowed (h : ∀ place ∈ s.keys, place.2.required = false)
    (hindent : s.indent = -1) (hkey : s.keyAllowed = true) :
    ∃ keys, s.saveKey = .ok { s with keys := (s.depth,
        ⟨s.tokens.size, false, s.cursor.index, s.cursor.line, s.cursor.column⟩) :: keys } ∧
      ∀ place ∈ keys, place.2.required = false := by
  have hrequired : (!s.inFlow && s.indent == (s.cursor.column : Int)) = false := by
    rw [hindent, Bool.and_eq_false_iff]
    exact .inr (beq_eq_false_iff_ne.2 (by omega))
  obtain ⟨keys, heq, hkeys⟩ := exists_dropKey h
  refine ⟨keys, ?_, hkeys⟩
  rw [saveKey, if_neg (by rw [hkey]; exact Bool.false_ne_true)]
  simp only [hrequired, heq, bind, Except.bind]
  rfl

theorem exists_saveKey (h : ∀ place ∈ s.keys, place.2.required = false) (hindent : s.indent = -1) :
    ∃ keys, s.saveKey = .ok { s with keys } ∧ ∀ place ∈ keys, place.2.required = false := by
  by_cases hkey : s.keyAllowed = true
  · obtain ⟨keys, heq, hkeys⟩ := exists_saveKey_allowed h hindent hkey
    exact ⟨_, heq, List.forall_mem_cons.2 ⟨rfl, hkeys⟩⟩
  · exact ⟨s.keys, by rw [saveKey, if_pos (by simpa using hkey)]; rfl, h⟩

/-- What a run does, once the blanks are passed and keys are forgotten. -/
theorem run_succ (hblanks : skipBlanks (s.cursor.rest.length + 1) s = s')
    (hstale : s'.dropStaleKeys = .ok s'') (houter : s''.outer = []) (fuel : Nat) :
    run (fuel + 1) s = match s''.cursor.peek with
      | none => do return (← (s''.closeBlocks (-1)).dropKey).tokens
      | some c => s''.tokenAt c >>= run fuel := by
  rw [run, hblanks, hstale]
  change (match (s''.closeBlocks s''.cursor.column).cursor.peek with
    | none => do return (← ((s''.closeBlocks s''.cursor.column).closeBlocks (-1)).dropKey).tokens
    | some c => (s''.closeBlocks s''.cursor.column).tokenAt c >>= run fuel) = _
  rw [closeBlocks_eq houter]

/-- A run looks at what comes next after the blanks, and nothing else has changed by then. -/
theorem exists_ready (h : s.Stands spot text tokens) (hrest : text.dropWhile isSpacing = rest)
    (hhead : ∀ ch, rest.head? = some ch → isBreak ch = false ∧ ch ≠ '#') :
    ∃ s' : Scan, s'.Stands spot rest tokens ∧ s'.cursor.rest = rest ∧
      ∀ fuel, run (fuel + 1) s = match s'.cursor.peek with
        | none => do return (← (s'.closeBlocks (-1)).dropKey).tokens
        | some c => s'.tokenAt c >>= run fuel := by
  obtain ⟨c, key, hblanks, hc, hkey⟩ :=
    exists_skipBlanks (h.rest.trans hrest) hhead (Nat.lt_succ_self s.cursor.rest.length)
  refine ⟨{ s with
      cursor := c, keyAllowed := key, keys := s.keys.filter (stays c) }, ?_, hc,
    run_succ hblanks (dropStaleKeys_eq h.required) h.outer⟩
  exact { h with
    rest := by rw [hc]
    key := fun hspot => hkey (h.key hspot)
    required := fun place hmem => h.required place (List.mem_of_mem_filter hmem) }

/-- A token is passed if what it makes of the scan that stands right before it is known, or where
that scan gets to. -/
theorem passes_of_reaches (hspacing : isSpacing c = false) (hbreak : isBreak c = false)
    (hhash : c ≠ '#')
    (h : ∀ (s : Scan) (tokens : List Token), s.Stands spot (c :: text) tokens →
      s.cursor.rest = c :: text → ∃ s' s'', s.tokenAt c = .ok s' ∧
        s'.cursor.rest.length ≤ text.length ∧ Reaches s' s'' ∧
        s''.Stands spot' rest (tokens ++ new)) :
    Passes spot (c :: text) new spot' rest := by
  intro s tokens hs
  have hrest : (c :: text).dropWhile isSpacing = c :: text :=
    List.dropWhile_cons_of_neg (by rw [hspacing]; exact Bool.false_ne_true)
  obtain ⟨s₁, hs₁, hahead, hrun⟩ := exists_ready hs hrest (by rintro _ ⟨⟩; exact ⟨hbreak, hhash⟩)
  obtain ⟨s', s'', htoken, hlength, hreach, hs''⟩ := h s₁ tokens hs₁ hahead
  refine ⟨s'', Reaches.trans (fun fuel hfuel => ?_) hreach, hs''⟩
  have hlonger : (c :: text).length ≤ s.cursor.rest.length := by
    rw [← hrest, ← hs.rest]
    exact (List.dropWhile_sublist _).length_le
  obtain ⟨fuel, rfl⟩ := Nat.exists_eq_add_one_of_ne_zero (Nat.ne_zero_of_lt hfuel)
  refine ⟨fuel, ?_, ?_⟩
  · rw [List.length_cons] at hlonger
    omega
  · rw [hrun fuel, Cursor.peek_eq hahead]
    simp only [htoken]
    rfl

theorem passes_of_tokenAt (hspacing : isSpacing c = false) (hbreak : isBreak c = false)
    (hhash : c ≠ '#')
    (h : ∀ (s : Scan) (tokens : List Token), s.Stands spot (c :: text) tokens →
      s.cursor.rest = c :: text → ∃ s', s.tokenAt c = .ok s' ∧
        s'.cursor.rest.length ≤ text.length ∧ s'.Stands spot' rest (tokens ++ new)) :
    Passes spot (c :: text) new spot' rest := by
  refine passes_of_reaches hspacing hbreak hhash fun s tokens hs hrest => ?_
  obtain ⟨s', htoken, hlength, hs'⟩ := h s tokens hs hrest
  exact ⟨s', s', htoken, hlength, Reaches.refl s', hs'⟩

/-- What a token does to a scan: it is put behind the others, and the cursor has moved. -/
theorem Stands.push (hs : s.Stands spot text tokens) (t : Token) {cursor : Cursor}
    (hrest : cursor.rest.dropWhile isSpacing = text'.dropWhile isSpacing) {depth depth' : Nat}
    (hdepth : depth = depth') {key key' : Bool} (hkey : key' = true → key = true)
    {keys : List (Nat × KeyPlace)} (hkeys : ∀ place ∈ keys, place.2.required = false) :
    Stands { s with cursor, tokens := s.tokens.push t, depth, keyAllowed := key, keys }
      ⟨depth', key'⟩ text' (tokens ++ [t]) where
  rest := hrest
  depth := hdepth
  key := hkey
  tokens := by rw [Array.toList_push, hs.tokens]
  required := hkeys
  indent := hs.indent
  outer := hs.outer

theorem Stands.inFlow {depth : Nat} {key : Bool} (hs : s.Stands ⟨depth + 1, key⟩ text tokens) :
    s.inFlow = true := by
  have hdepth : s.depth = depth + 1 := hs.depth
  rw [Scan.inFlow, hdepth]
  rfl

/-! ## Signs -/

theorem rest_skip_one (h : s.cursor.rest = c :: text) : (s.cursor.skip 1).rest = text := by
  rw [Cursor.rest_skip, h]
  rfl

/-- An opening bracket or brace. -/
theorem passes_openFlow (hspacing : isSpacing c = false) (hbreak : isBreak c = false)
    (hhash : c ≠ '#') (htoken : ∀ s : Scan, s.tokenAt c = s.openFlow t) :
    Passes spot (c :: text) [t] ⟨spot.depth + 1, true⟩ text := by
  refine passes_of_tokenAt hspacing hbreak hhash fun s tokens hs hrest => ?_
  obtain ⟨keys, hsave, hkeys⟩ := exists_saveKey hs.required hs.indent
  have hnext := rest_skip_one hrest
  refine ⟨{ s with
      cursor := s.cursor.skip 1, tokens := s.tokens.push t, depth := s.depth + 1
      keyAllowed := true, keys }, ?_, hnext ▸ le_rfl,
    hs.push t (by rw [hnext]) (congrArg (· + 1) hs.depth) id hkeys⟩
  rw [htoken, openFlow, hsave]
  rfl

/-- A closing bracket or brace. -/
theorem passes_closeFlow {depth : Nat} {key : Bool} (hspacing : isSpacing c = false)
    (hbreak : isBreak c = false) (hhash : c ≠ '#')
    (htoken : ∀ s : Scan, s.tokenAt c = s.closeFlow t) :
    Passes ⟨depth + 1, key⟩ (c :: text) [t] ⟨depth, false⟩ text := by
  refine passes_of_tokenAt hspacing hbreak hhash fun s tokens hs hrest => ?_
  obtain ⟨keys, hdrop, hkeys⟩ := exists_dropKey hs.required
  have hnext := rest_skip_one hrest
  have hdepth : s.depth = depth + 1 := hs.depth
  have hless : s.depth - 1 = depth := by omega
  refine ⟨{ s with
      cursor := s.cursor.skip 1, tokens := s.tokens.push t, depth := s.depth - 1
      keyAllowed := false, keys }, ?_, hnext ▸ le_rfl,
    hs.push t (by rw [hnext]) hless id hkeys⟩
  rw [htoken, closeFlow, hdrop]
  simp only [bind, Except.bind, hdepth]
  rfl

theorem passes_comma : Passes spot (',' :: text) [.flowEntry] ⟨spot.depth, true⟩ text := by
  refine passes_of_tokenAt rfl rfl (by decide) fun s tokens hs hrest => ?_
  obtain ⟨keys, hdrop, hkeys⟩ := exists_dropKey (s := s.allowKey true) hs.required
  have hnext := rest_skip_one hrest
  refine ⟨{ s with
      cursor := s.cursor.skip 1, tokens := s.tokens.push .flowEntry, keyAllowed := true, keys },
    ?_, hnext ▸ le_rfl, hs.push .flowEntry (by rw [hnext]) hs.depth id hkeys⟩
  rw [show s.tokenAt ',' = s.flowEntry from rfl, flowEntry, hdrop]
  rfl

/-! ## Scalars -/

theorem rest_skip_string {raw : List Char} (h : s.cursor.rest = '"' :: (raw ++ '"' :: text)) :
    (s.cursor.skip (raw.length + 2)).rest = text := by
  rw [Cursor.rest_skip, h]
  simp

/-- A string is passed with the scalar that it is. -/
theorem passes_string {raw chars : List Char} (h : Json.Decodes raw chars)
    (hshared : Json.IsSharedString raw) :
    Passes spot ('"' :: (raw ++ '"' :: text)) [.scalar (.ofList chars) false]
      ⟨spot.depth, false⟩ text := by
  refine passes_of_tokenAt rfl rfl (by decide) fun s tokens hs hrest => ?_
  obtain ⟨keys, hsave, hkeys⟩ := exists_saveKey hs.required hs.indent
  have hquoted := Scalar.quoted_decodes h hshared hrest
  have hnext := rest_skip_string hrest
  refine ⟨{ s with
      cursor := s.cursor.skip (raw.length + 2)
      tokens := s.tokens.push (.scalar (.ofList chars) false), keyAllowed := false, keys },
    ?_, ?_, hs.push _ (by rw [hnext]) hs.depth id hkeys⟩
  · rw [show s.tokenAt '"' = s.quotedScalar true from rfl, quotedScalar, content, hsave, hquoted]
    rfl
  · rw [hnext, List.length_append, List.length_cons]
    omega

/-- A text begins like a plain scalar: with a character that nothing else begins with, or with a
single minus that is no indicator. -/
inductive BeginsPlain : List Char → Prop where
  | plain {c : Char} {more : List Char} (h : beginsPlain true c none = true) (hpoint : c ≠ '.') :
    BeginsPlain (c :: more)
  | minus {d : Char} {more : List Char} (hends : endsIndicator (some d) = false)
    (hminus : d ≠ '-') : BeginsPlain ('-' :: d :: more)

theorem tokenAt_plain (hflow : s.inFlow = true) (h : BeginsPlain (c :: text))
    (hrest : s.cursor.rest = c :: text ++ rest) : s.tokenAt c = s.plainScalar := by
  cases h with
  | plain h hpoint =>
      have hne : ∀ d, beginsPlain true d none = false → c ≠ d := by
        rintro d hd rfl
        rw [h] at hd
        cases hd
      have hbegins : ∀ following, beginsPlain true c following = true := by
        intro following
        have hword := h
        unfold beginsPlain at hword ⊢
        dsimp only at hword ⊢
        rw [show endsIndicator none = true from rfl, Bool.not_true, Bool.false_and,
          Bool.or_false] at hword
        rw [hword, Bool.true_or]
      simp only [tokenAt, hne '%' rfl, hne '-' rfl, hpoint, hne '[' rfl, hne '{' rfl, hne ']' rfl,
        hne '}' rfl, hne ',' rfl, hne '?' rfl, hne ':' rfl, hne '*' rfl, hne '&' rfl, hne '!' rfl,
        hne '|' rfl, hne '>' rfl, hne '\'' rfl, hne '"' rfl, hflow, false_and, if_false,
        hbegins, if_true]
  | @minus d more hends hminus =>
      have hfollowing : s.cursor.peekAt 1 = some d := by
        rw [Cursor.peekAt, hrest]
        rfl
      have hmarker : s.cursor.atMarker = false := by
        rw [Cursor.atMarker, hrest]
        simp [hminus]
      rw [tokenAt, hfollowing]
      simp only [hmarker, hends, hflow]
      simp [beginsPlain, hends]

theorem isSpacing_of_isFlowSign (h : Scalar.isFlowSign c = true) : isSpacing c = false := by
  simp only [Scalar.isFlowSign, Bool.or_eq_true, beq_iff_eq] at h
  rcases h with (((rfl | rfl) | rfl) | rfl) | rfl <;> rfl

/-- A word or a numeral in front of a sign is passed with the scalar that it is. -/
theorem passes_plain {raw : List Char} {depth : Nat} {key : Bool} {sign : Char} {more : List Char}
    (hbegins : BeginsPlain raw) (hraw : ∀ ch ∈ raw, Scalar.isPlain ch = true)
    (hahead : text.dropWhile isSpacing = sign :: more) (hsign : Scalar.isFlowSign sign = true) :
    Passes ⟨depth + 1, key⟩ (raw ++ text) [.scalar (.ofList raw) true] ⟨depth + 1, false⟩ text := by
  obtain ⟨c, raw', rfl⟩ : ∃ c raw', raw = c :: raw' := by
    cases hbegins with
    | plain | minus => exact ⟨_, _, rfl⟩
  have hc := hraw c List.mem_cons_self
  simp only [Scalar.isPlain, Bool.and_eq_true, Bool.not_eq_true', bne_iff_ne] at hc
  obtain ⟨⟨⟨hends, -⟩, hhash⟩, -⟩ := hc
  have hspacing : isSpacing c = false ∧ isBreak c = false := by
    simp only [endsIndicator, Bool.or_eq_false_iff] at hends
    refine ⟨?_, hends.2⟩
    simp only [isBreak, Bool.or_eq_false_iff] at hends
    simp [isSpacing, hends]
  rw [List.cons_append]
  refine passes_of_tokenAt hspacing.1 hspacing.2 hhash fun s tokens hs hrest => ?_
  have hflow := hs.inFlow
  obtain ⟨keys, hsave, hkeys⟩ := exists_saveKey hs.required hs.indent
  obtain ⟨c', broken, hplain, hc'⟩ := Scalar.exists_plain s.cursor (s.indent + 1)
    (List.cons_ne_nil c raw') hraw hrest hahead hsign
  refine ⟨{ s with
      cursor := c', tokens := s.tokens.push (.scalar (.ofList (c :: raw')) true)
      keyAllowed := broken, keys }, ?_, ?_,
    hs.push _ ?_ hs.depth (fun hkey : false = true => by cases hkey) hkeys⟩
  · rw [tokenAt_plain hflow hbegins hrest, plainScalar, hsave]
    simp only [bind, Except.bind]
    rw [show inFlow { s with keys } = true from hflow, hplain]
    rfl
  · rw [hc', ← hahead, List.length_append]
    exact (List.dropWhile_sublist _).length_le.trans (Nat.le_add_left _ _)
  · rw [hc', hahead, List.dropWhile_cons_of_neg]
    rw [isSpacing_of_isFlowSign hsign]
    exact Bool.false_ne_true

/-! ## Names -/

theorem skipBlanks_spaces (fuel : Nat) (hrest : s.cursor.rest = gap ++ c :: text)
    (hgap : ∀ ch ∈ gap, ch = ' ') (hspace : c ≠ ' ') (hbreak : isBreak c = false)
    (hhash : c ≠ '#') :
    skipBlanks (fuel + 1) s = { s with cursor := s.cursor.skip gap.length } := by
  have htake : s.cursor.rest.takeWhile (· == ' ') = gap := by
    rw [hrest, List.takeWhile_append_of_pos fun ch hch => by rw [hgap ch hch]; rfl]
    simp [hspace]
  have hskip : s.cursor.skipSpaces = s.cursor.skip gap.length := by
    rw [Cursor.skipSpaces, Cursor.dropWhile, Cursor.takeWhile, htake]
  have hahead : (s.cursor.skip gap.length).rest = c :: text := by
    rw [Cursor.rest_skip, hrest, List.drop_left]
  have hnone : (s.cursor.skip gap.length).takeBreak? = none := by
    refine Cursor.takeBreak?_eq_none fun ch hch => ?_
    rw [hahead] at hch
    exact Option.some.inj hch ▸ hbreak
  rw [skipBlanks, hskip]
  simp only [Cursor.peek_eq hahead, Option.some.injEq, hhash, if_false, hnone]

theorem insertIdx_length (ts more : List Token) (t : Token) :
    (ts ++ more).insertIdx ts.length t = ts ++ t :: more := by
  induction ts with
  | nil => rfl
  | cons t' ts ih => simpa using ih

theorem toList_insertIdxIfInBounds (ts : Array Token) (t t' : Token) :
    ((ts.push t).insertIdxIfInBounds ts.size t').toList = ts.toList ++ [t', t] := by
  rw [Array.insertIdxIfInBounds, dif_pos (by simp), Array.toList_insertIdx, Array.toList_push,
    ← Array.length_toList, insertIdx_length]

/-- A colon where the place of a key is remembered. -/
theorem tokenAt_colon {place : KeyPlace} {keys : List (Nat × KeyPlace)} (hflow : s.inFlow = true)
    (hplace : s.keys = (s.depth, place) :: keys) :
    s.tokenAt ':' = .ok { s with
      cursor := s.cursor.skip 1
      tokens := (s.tokens.insertIdxIfInBounds place.token .key).push .value
      keyAllowed := false
      keys := s.keys.filter fun (depth, _) => depth != s.depth } := by
  have hhere : s.keyHere? = some place := by
    rw [keyHere?, hplace, Entries.get?, if_pos (beq_self_eq_true s.depth)]
  have hvalue : s.tokenAt ':' = s.value := by
    rw [tokenAt, hflow]
    rfl
  have hopen : (s.depth != 0) = true := hflow
  rw [hvalue, value, hhere]
  simp only [valueOfKey, inFlow, hopen, if_true]
  rfl

/-- A colon on the line of a key, and not too far behind it. -/
theorem reaches_colon {place : KeyPlace} {keys : List (Nat × KeyPlace)} (hflow : s.inFlow = true)
    (hplace : s.keys = (s.depth, place) :: keys) (hrest : s.cursor.rest = gap ++ ':' :: text)
    (hgap : ∀ ch ∈ gap, ch = ' ') (hline : place.line = s.cursor.line)
    (hindex : s.cursor.index + gap.length ≤ place.index + 1024)
    (hrequired : ∀ place ∈ s.keys, place.2.required = false) (houter : s.outer = []) :
    Reaches s { s with
      cursor := (s.cursor.skip gap.length).skip 1
      tokens := (s.tokens.insertIdxIfInBounds place.token .key).push .value
      keyAllowed := false
      keys := (s.keys.filter (stays (s.cursor.skip gap.length))).filter
        fun (depth, _) => depth != s.depth } := by
  have hahead : (s.cursor.skip gap.length).rest = ':' :: text := by
    rw [Cursor.rest_skip, hrest, List.drop_left]
  have hstays : stays (s.cursor.skip gap.length) (s.depth, place) = true := by
    have hline' : (s.cursor.skip gap.length).line = s.cursor.line := by
      refine Cursor.line_skip fun ch hch => ?_
      rw [hrest, List.take_left] at hch
      rw [hgap ch hch]
      rfl
    have hindex' : (s.cursor.skip gap.length).index = s.cursor.index + gap.length :=
      Cursor.index_skip (by rw [hrest, List.length_append]; omega)
    simp only [stays, hline, hline', hindex', bne_self_eq_false, Bool.false_or, Bool.not_eq_true',
      decide_eq_false_iff_not]
    omega
  have hkept : s.keys.filter (stays (s.cursor.skip gap.length)) =
      (s.depth, place) :: keys.filter (stays (s.cursor.skip gap.length)) := by
    rw [hplace, List.filter_cons_of_pos hstays]
  have hblanks := skipBlanks_spaces s.cursor.rest.length hrest hgap (by decide) rfl
    (by decide)
  have hrun := run_succ hblanks (dropStaleKeys_eq hrequired) houter
  intro fuel hfuel
  obtain ⟨fuel, rfl⟩ := Nat.exists_eq_add_one_of_ne_zero (Nat.ne_zero_of_lt hfuel)
  refine ⟨fuel, ?_, ?_⟩
  · dsimp only
    rw [Cursor.rest_skip, hahead]
    rw [hrest, List.length_append, List.length_cons] at hfuel
    simp only [List.drop_succ_cons, List.drop_zero]
    omega
  · rw [hrun fuel, Cursor.peek_eq hahead]
    dsimp only
    rw [tokenAt_colon (s := { s with
      cursor := s.cursor.skip gap.length
      keys := s.keys.filter (stays (s.cursor.skip gap.length)) }) hflow hkept]
    rfl

/-- The quotes and the text of a name are on one line. -/
theorem line_skip_name {raw chars : List Char} (h : Json.Decodes raw chars)
    (hshared : Json.IsSharedName raw gap) (hrest : s.cursor.rest = '"' :: (raw ++ '"' :: text)) :
    (s.cursor.skip (raw.length + 2)).line = s.cursor.line := by
  have htake : s.cursor.rest.take (raw.length + 2) = '"' :: (raw ++ ['"']) := by
    rw [hrest]
    simp [List.take_append, List.take_of_length_le]
  refine Cursor.line_skip fun ch hch => ?_
  rw [htake, List.mem_cons, List.mem_append, List.mem_singleton] at hch
  rcases hch with rfl | hraw | rfl
  · rfl
  · refine Scalar.isBreak_eq_false (h.not_control ch hraw) ?_ (hshared.unbroken ch hraw)
    rintro rfl
    exact hshared.shared.notNextLine hraw
  · rfl

/-- The name of a member is passed with its colon. The token for the key goes before the name. -/
theorem passes_name {raw chars : List Char} {depth : Nat} (h : Json.Decodes raw chars)
    (hshared : Json.IsSharedName raw gap) :
    Passes ⟨depth + 1, true⟩ ('"' :: (raw ++ '"' :: (gap ++ ':' :: text)))
      [.key, .scalar (.ofList chars) false, .value] ⟨depth + 1, false⟩ text := by
  refine passes_of_reaches rfl rfl (by decide) fun s tokens hs hrest => ?_
  obtain ⟨keys, hsave, hkeys⟩ := exists_saveKey_allowed hs.required hs.indent (hs.key rfl)
  have hquoted := Scalar.quoted_decodes h hshared.shared hrest
  have hnext := rest_skip_string hrest
  have hline := line_skip_name h hshared hrest
  have hindex : (s.cursor.skip (raw.length + 2)).index = s.cursor.index + (raw.length + 2) :=
    Cursor.index_skip (by rw [hrest]; simp)
  have hshort := hshared.short
  have hrequired : ∀ place ∈ ((s.depth, ⟨s.tokens.size, false, s.cursor.index, s.cursor.line,
      s.cursor.column⟩) :: keys : List (Nat × KeyPlace)), place.2.required = false :=
    List.forall_mem_cons.2 ⟨rfl, hkeys⟩
  have hcolon := reaches_colon (s := { s with
      cursor := s.cursor.skip (raw.length + 2)
      tokens := s.tokens.push (.scalar (.ofList chars) false), keyAllowed := false
      keys := (s.depth, ⟨s.tokens.size, false, s.cursor.index, s.cursor.line, s.cursor.column⟩) ::
        keys }) hs.inFlow rfl hnext hshared.spaces hline.symm (by simp only [hindex]; omega)
      hrequired hs.outer
  have hend : (((s.cursor.skip (raw.length + 2)).skip gap.length).skip 1).rest = text := by
    rw [Cursor.rest_skip, Cursor.rest_skip, hnext, List.drop_left]
    rfl
  refine ⟨_, _, ?_, ?_, hcolon, ?_⟩
  · rw [show s.tokenAt '"' = s.quotedScalar true from rfl, quotedScalar, content, hsave, hquoted]
    rfl
  · rw [hnext]
    simp
    omega
  · exact {
      rest := by rw [hend]
      depth := hs.depth
      key := nofun
      tokens := by
        rw [Array.toList_push, toList_insertIdxIfInBounds, hs.tokens, List.append_assoc]
        rfl
      required := fun place hmem =>
        hrequired place (List.mem_of_mem_filter (List.mem_of_mem_filter hmem))
      indent := hs.indent
      outer := hs.outer }

/-! ## Whole texts -/

theorem cursor_start (h : text.head? ≠ some '\ufeff') :
    (start text).cursor = Cursor.start text :=
  if_neg h

theorem stands_start (h : text.head? ≠ some '\ufeff') :
    (start text).Stands ⟨0, true⟩ text [] where
  rest := by
    rw [cursor_start h]
    rfl
  depth := rfl
  key := fun _ => rfl
  tokens := rfl
  required := by simp [start]
  indent := rfl
  outer := rfl

/-- Where nothing but a gap is left, the tokens are complete. -/
theorem exists_run_end (hs : s.Stands spot text tokens) (htext : ∀ c ∈ text, isSpacing c = true)
    (fuel : Nat) : ∃ ts, run (fuel + 1) s = .ok ts ∧ ts.toList = tokens := by
  obtain ⟨s', hs', hahead, hrun⟩ := exists_ready hs (List.dropWhile_eq_nil_iff.2 htext) nofun
  have hpeek : s'.cursor.peek = none := by
    rw [Cursor.peek, hahead]
    rfl
  obtain ⟨keys, hdrop, -⟩ := exists_dropKey hs'.required
  refine ⟨s'.tokens, ?_, hs'.tokens⟩
  rw [hrun fuel, hpeek]
  dsimp only
  rw [closeBlocks_eq hs'.outer, hdrop]
  rfl

theorem scan_of_passes (hmark : text.head? ≠ some '\ufeff')
    (hallowed : ∀ c ∈ text, isAllowed c = true)
    (h : Passes ⟨0, true⟩ text new spot rest) (hrest : ∀ c ∈ rest, isSpacing c = true) :
    Token.scan text = .ok new := by
  obtain ⟨s, hreach, hs⟩ := h _ _ (stands_start hmark)
  obtain ⟨fuel, hfuel, hrun⟩ := hreach (text.length + 1) (by
    rw [cursor_start hmark]
    exact Nat.lt_succ_self _)
  obtain ⟨fuel, rfl⟩ := Nat.exists_eq_add_one_of_ne_zero (Nat.ne_zero_of_lt hfuel)
  obtain ⟨ts, hend, htokens⟩ := exists_run_end hs hrest fuel
  have hall : text.all isAllowed = true := List.all_eq_true.2 hallowed
  rw [Token.scan, hall, hrun, hend]
  exact congrArg Except.ok htokens

end Steps

end Scan

end EmulatedDevice.Yaml
