import EmulatedDevice.Proofs.JsonSpelling

/-!
# JSON texts piece by piece

A text can be cut into blanks, signs, strings, and words and numerals without asking
whether it is JSON. A string that is the name of a member is taken together with what
stands up to its colon, since it is only the colon that makes it a name.

A text that the reader takes for a value is made of pieces that spell this value: the
pieces of a scalar, or brackets around the pieces of its parts, with blanks wherever
they may stand. Cutting such a text gives just these pieces back. So what is known of
the pieces of a document is known of every string, numeral and blank that the reader
has met in it.
-/

namespace EmulatedDevice.Json

/-! ## Cutting a text -/

/-- A piece of a text. A string is kept as it stands between its quotes, and a name with the gap
between it and its colon. -/
inductive Piece where
  | blank (c : Char)
  | sign (c : Char)
  | string (raw : List Char)
  | name (raw gap : List Char)
  | bare (raw : List Char)
  deriving DecidableEq, Repr

def Piece.text : Piece → List Char
  | .blank c => [c]
  | .sign c => [c]
  | .string raw => '"' :: (raw ++ ['"'])
  | .name raw gap => '"' :: (raw ++ '"' :: (gap ++ [':']))
  | .bare raw => raw

def textOf (ps : List Piece) : List Char := ps.flatMap Piece.text

def isSign (c : Char) : Bool :=
  c == ',' || c == ':' || c == '[' || c == ']' || c == '{' || c == '}'

/-- Whether a character is part of a word or a numeral. -/
def isBare (c : Char) : Bool :=
  !isBlank c && c != '"' && !isSign c

/-- The text of a string up to the quote that closes it. A character behind a backslash closes
nothing. -/
def rawString (escaped : Bool) : List Char → List Char
  | [] => []
  | c :: rest =>
    if escaped then c :: rawString false rest
    else if c = '"' then []
    else c :: rawString (c = '\\') rest

/-- Cuts a text into pieces. Each of them takes at least one character, so the length of the text
is enough fuel. -/
def piecesFrom : Nat → List Char → List Piece
  | 0, _ => []
  | _ + 1, [] => []
  | fuel + 1, c :: rest =>
    if isBlank c then .blank c :: piecesFrom fuel rest
    else if c = '"' then
      let raw := rawString false rest
      let after := rest.drop (raw.length + 1)
      match skipBlanks after with
      | ':' :: more => .name raw (after.takeWhile isBlank) :: piecesFrom fuel more
      | _ => .string raw :: piecesFrom fuel after
    else if isSign c then .sign c :: piecesFrom fuel rest
    else .bare ((c :: rest).takeWhile isBare) :: piecesFrom fuel ((c :: rest).dropWhile isBare)

def pieces (text : List Char) : List Piece := piecesFrom text.length text

/-! ## Spelling a value -/

def IsGap (gap : List Char) : Prop := ∀ c ∈ gap, isBlank c = true

def blanks (gap : List Char) : List Piece := gap.map .blank

/-- What some pieces can be: a value, the items of a list with the bracket that closes it, or the
members of a mapping with the brace that closes it. -/
inductive Part where
  | value (v : Value)
  | items (vs : List Value)
  | members (pairs : List (Value × Value))

/-- The pieces of a text spell a part of a document, with the words that a table has. -/
inductive Spells (table : List (String × Value)) : List Piece → Part → Prop where
  | string {raw chars : List Char} (h : Decodes raw chars) :
    Spells table [.string raw] (.value (.text (.ofList chars)))
  | word {word : String} {v : Value} (h : (word, v) ∈ table) :
    Spells table [.bare word.toList] (.value v)
  | number {n : Numeral} (h : n.WellFormed) : Spells table [.bare n.text] (.value n.value)
  | emptyList {gap : List Char} (hgap : IsGap gap) :
    Spells table (.sign '[' :: (blanks gap ++ [.sign ']'])) (.value (.list []))
  | list {gap : List Char} {ps : List Piece} {vs : List Value} (hgap : IsGap gap)
    (h : Spells table ps (.items vs)) :
    Spells table (.sign '[' :: (blanks gap ++ ps)) (.value (.list vs))
  | lastItem {gap : List Char} {ps : List Piece} {v : Value} (h : Spells table ps (.value v))
    (hgap : IsGap gap) : Spells table (ps ++ (blanks gap ++ [.sign ']'])) (.items [v])
  | item {gap gap' : List Char} {ps more : List Piece} {v : Value} {vs : List Value}
    (h : Spells table ps (.value v)) (hgap : IsGap gap) (hgap' : IsGap gap')
    (hmore : Spells table more (.items vs)) :
    Spells table (ps ++ (blanks gap ++ .sign ',' :: (blanks gap' ++ more))) (.items (v :: vs))
  | emptyMapping {gap : List Char} (hgap : IsGap gap) :
    Spells table (.sign '{' :: (blanks gap ++ [.sign '}'])) (.value (.mapping []))
  | mapping {gap : List Char} {ps : List Piece} {pairs : List (Value × Value)} (hgap : IsGap gap)
    (h : Spells table ps (.members pairs)) :
    Spells table (.sign '{' :: (blanks gap ++ ps)) (.value (.mappingOfPairs pairs))
  | lastMember {raw chars gap gap' gap'' : List Char} {ps : List Piece} {v : Value}
    (hname : Decodes raw chars) (hgap : IsGap gap) (hgap' : IsGap gap')
    (h : Spells table ps (.value v)) (hgap'' : IsGap gap'') :
    Spells table (.name raw gap :: (blanks gap' ++ (ps ++ (blanks gap'' ++ [.sign '}']))))
      (.members [(.text (.ofList chars), v)])
  | member {raw chars gap gap' gap'' gap₃ : List Char} {ps more : List Piece} {v : Value}
    {pairs : List (Value × Value)} (hname : Decodes raw chars) (hgap : IsGap gap)
    (hgap' : IsGap gap') (h : Spells table ps (.value v)) (hgap'' : IsGap gap'')
    (hgap₃ : IsGap gap₃) (hmore : Spells table more (.members pairs)) :
    Spells table (.name raw gap :: (blanks gap' ++ (ps ++ (blanks gap'' ++
        .sign ',' :: (blanks gap₃ ++ more)))))
      (.members ((.text (.ofList chars), v) :: pairs))

@[simp] theorem textOf_nil : textOf [] = [] := rfl

@[simp] theorem textOf_cons (p : Piece) (ps : List Piece) :
    textOf (p :: ps) = p.text ++ textOf ps := rfl

@[simp] theorem textOf_append (ps ps' : List Piece) :
    textOf (ps ++ ps') = textOf ps ++ textOf ps' := List.flatMap_append

@[simp] theorem textOf_blanks (gap : List Char) : textOf (blanks gap) = gap := by
  induction gap with
  | nil => rfl
  | cons c gap ih => exact congrArg (c :: ·) ih

/-! ## What the reader takes is spelled by pieces -/

section Reading

variable {text rest : List Char}

theorem exists_gap (text : List Char) : ∃ gap, IsGap gap ∧ text = gap ++ skipBlanks text :=
  ⟨text.takeWhile isBlank, fun _ hc => List.mem_takeWhile_imp hc,
    List.takeWhile_append_dropWhile.symm⟩

/-- The blanks before what is found behind them. -/
theorem exists_gap_of_skipBlanks {found : List Char} (h : skipBlanks text = found) :
    ∃ gap, IsGap gap ∧ text = gap ++ found :=
  h ▸ exists_gap text

/-- What was read at the start of a text is spelled there. -/
def SpelledAt (part : Part) (text rest : List Char) : Prop :=
  ∃ ps, text = textOf ps ++ rest ∧ Spells words ps part

variable {fuel : Nat}

theorem spelledAt_of_readValue
    (hitems : ∀ {text rest vs}, readItems fuel text = .ok (vs, rest) →
      SpelledAt (.items vs) text rest)
    (hmembers : ∀ {text rest pairs}, readMembers fuel text = .ok (pairs, rest) →
      SpelledAt (.members pairs) text rest)
    {v : Value} (h : readValue (fuel + 1) text = .ok (v, rest)) :
    SpelledAt (.value v) text rest := by
  unfold readValue at h
  split at h
  · obtain ⟨⟨chars, _⟩, hchars, hresult⟩ := exists_of_bind_eq_ok h
    cases hresult
    obtain ⟨raw, rfl, hraw⟩ := exists_of_readChars hchars
    exact ⟨[.string raw], by simp [Piece.text], .string hraw⟩
  · split at h
    · next hskip =>
      obtain ⟨gap, hgap, rfl⟩ := exists_gap_of_skipBlanks hskip
      cases h
      exact ⟨_, by simp [Piece.text], .emptyList hgap⟩
    · next inner _ _ =>
      obtain ⟨gap, hgap, htext⟩ := exists_gap inner
      obtain ⟨⟨vs, _⟩, hread, hresult⟩ := exists_of_bind_eq_ok h
      cases hresult
      obtain ⟨ps, hps, hspells⟩ := hitems hread
      rw [hps] at htext
      exact ⟨_, by simp [Piece.text, htext], .list hgap hspells⟩
  · split at h
    · next hskip =>
      obtain ⟨gap, hgap, rfl⟩ := exists_gap_of_skipBlanks hskip
      cases h
      exact ⟨_, by simp [Piece.text], .emptyMapping hgap⟩
    · next inner _ _ =>
      obtain ⟨gap, hgap, htext⟩ := exists_gap inner
      obtain ⟨⟨pairs, _⟩, hread, hresult⟩ := exists_of_bind_eq_ok h
      cases hresult
      obtain ⟨ps, hps, hspells⟩ := hmembers hread
      rw [hps] at htext
      exact ⟨_, by simp [Piece.text, htext], .mapping hgap hspells⟩
  · split at h
    · next read hread =>
      cases h
      cases hword : splitWord text with
      | some word =>
          rw [hword] at hread
          cases hread
          obtain ⟨word, hmem, rfl⟩ := exists_of_splitWord hword
          exact ⟨[.bare word.toList], by simp [Piece.text], .word hmem⟩
      | none =>
          rw [hword] at hread
          obtain ⟨n, hn, rfl, rfl⟩ := exists_of_splitNumber hread
          exact ⟨[.bare n.text], by simp [Piece.text], .number hn⟩
    · cases h

theorem spelledAt_of_readItems
    (hvalue : ∀ {text rest v}, readValue fuel text = .ok (v, rest) →
      SpelledAt (.value v) text rest)
    (hitems : ∀ {text rest vs}, readItems fuel text = .ok (vs, rest) →
      SpelledAt (.items vs) text rest)
    {vs : List Value} (h : readItems (fuel + 1) text = .ok (vs, rest)) :
    SpelledAt (.items vs) text rest := by
  rw [readItems] at h
  obtain ⟨⟨v, after⟩, hv, hread⟩ := exists_of_bind_eq_ok h
  obtain ⟨ps, rfl, hspells⟩ := hvalue hv
  simp only at hread
  split at hread
  · next hskip =>
    obtain ⟨gap, hgap, rfl⟩ := exists_gap_of_skipBlanks hskip
    cases hread
    exact ⟨_, by simp [Piece.text], .lastItem hspells hgap⟩
  · next more hskip =>
    obtain ⟨gap, hgap, rfl⟩ := exists_gap_of_skipBlanks hskip
    obtain ⟨⟨vs', _⟩, hvs, hresult⟩ := exists_of_bind_eq_ok hread
    cases hresult
    obtain ⟨gap', hgap', hmore⟩ := exists_gap more
    obtain ⟨ps', hps', hspells'⟩ := hitems hvs
    rw [hps'] at hmore
    exact ⟨_, by simp [Piece.text, hmore], .item hspells hgap hgap' hspells'⟩
  · cases hread

theorem spelledAt_of_readMembers
    (hvalue : ∀ {text rest v}, readValue fuel text = .ok (v, rest) →
      SpelledAt (.value v) text rest)
    (hmembers : ∀ {text rest pairs}, readMembers fuel text = .ok (pairs, rest) →
      SpelledAt (.members pairs) text rest)
    {pairs : List (Value × Value)} (h : readMembers (fuel + 1) text = .ok (pairs, rest)) :
    SpelledAt (.members pairs) text rest := by
  unfold readMembers at h
  split at h
  · obtain ⟨⟨chars, afterName⟩, hchars, hread⟩ := exists_of_bind_eq_ok h
    obtain ⟨raw, rfl, hraw⟩ := exists_of_readChars hchars
    simp only at hread
    split at hread
    · next afterColon hskip =>
      obtain ⟨gap, hgap, rfl⟩ := exists_gap_of_skipBlanks hskip
      obtain ⟨⟨v, after⟩, hv, hread⟩ := exists_of_bind_eq_ok hread
      obtain ⟨gap', hgap', hcolon⟩ := exists_gap afterColon
      obtain ⟨ps, hps, hspells⟩ := hvalue hv
      rw [hps] at hcolon
      simp only at hread
      split at hread
      · next hskip =>
        obtain ⟨gap'', hgap'', rfl⟩ := exists_gap_of_skipBlanks hskip
        cases hread
        exact ⟨_, by simp [Piece.text, hcolon], .lastMember hraw hgap hgap' hspells hgap''⟩
      · next more hskip =>
        obtain ⟨gap'', hgap'', rfl⟩ := exists_gap_of_skipBlanks hskip
        obtain ⟨⟨pairs', _⟩, hpairs, hresult⟩ := exists_of_bind_eq_ok hread
        cases hresult
        obtain ⟨gap₃, hgap₃, hmore⟩ := exists_gap more
        obtain ⟨ps', hps', hspells'⟩ := hmembers hpairs
        rw [hps'] at hmore
        exact ⟨_, by simp [Piece.text, hcolon, hmore],
          .member hraw hgap hgap' hspells hgap'' hgap₃ hspells'⟩
      · cases hread
    · cases hread
  · cases h

/-- Each reader calls the others with less fuel. -/
theorem spelledAt_of_read (fuel : Nat) :
    (∀ {text rest v}, readValue fuel text = .ok (v, rest) → SpelledAt (.value v) text rest) ∧
    (∀ {text rest vs}, readItems fuel text = .ok (vs, rest) →
      SpelledAt (.items vs) text rest) ∧
    ∀ {text rest pairs}, readMembers fuel text = .ok (pairs, rest) →
      SpelledAt (.members pairs) text rest := by
  induction fuel with
  | zero =>
      refine ⟨fun h => ?_, fun h => ?_, fun h => ?_⟩
      · rw [readValue] at h; cases h
      · rw [readItems] at h; cases h
      · rw [readMembers] at h; cases h
  | succ fuel ih =>
      obtain ⟨hvalue, hitems, hmembers⟩ := ih
      exact ⟨spelledAt_of_readValue hitems hmembers, spelledAt_of_readItems hvalue hitems,
        spelledAt_of_readMembers hvalue hmembers⟩

/-- A document is a value with blanks around it. -/
theorem exists_of_parse {v : Value} (h : parse text = .ok v) :
    text.head? ≠ some '\ufeff' ∧ ∃ gap ps gap', IsGap gap ∧ IsGap gap' ∧
      Spells words ps (.value v) ∧ text = gap ++ (textOf ps ++ gap') := by
  unfold parse at h
  split at h
  · next hdocument =>
    cases h
    unfold readDocument at hdocument
    split at hdocument
    · cases hdocument
    · next hmark =>
      obtain ⟨⟨v', rest⟩, hv, hread⟩ := exists_of_bind_eq_ok hdocument
      simp only at hread
      split at hread
      · next hskip =>
        cases hread
        obtain ⟨gap, hgap, htext⟩ := exists_gap text
        obtain ⟨gap', hgap', rfl⟩ := exists_gap_of_skipBlanks hskip
        obtain ⟨ps, hps, hspells⟩ := (spelledAt_of_read _).1 hv
        rw [hps, List.append_nil] at htext
        exact ⟨hmark, gap, ps, gap', hgap, hgap', hspells, htext⟩
      · cases hread
  · cases h

end Reading

/-! ## Cutting what is spelled gives its pieces -/

/-- Cutting a text gives some pieces and goes on with the rest. -/
def Cuts (text : List Char) (ps : List Piece) (rest : List Char) : Prop :=
  ∀ fuel, text.length ≤ fuel →
    ∃ fuel', rest.length ≤ fuel' ∧ piecesFrom fuel text = ps ++ piecesFrom fuel' rest

/-- A text before which a string is no name, and a word or a numeral has ended. -/
structure Delimits (rest : List Char) : Prop where
  notBare : ∀ c, rest.head? = some c → isBare c = false
  notColon : (skipBlanks rest).head? ≠ some ':'

section Cutting

variable {text text' rest raw chars gap : List Char} {ps ps' : List Piece} {c : Char}

theorem Cuts.trans (h : Cuts text ps text') (h' : Cuts text' ps' rest) :
    Cuts text (ps ++ ps') rest := by
  intro fuel hfuel
  obtain ⟨fuel', hfuel', heq⟩ := h fuel hfuel
  obtain ⟨fuel'', hfuel'', heq'⟩ := h' fuel' hfuel'
  exact ⟨fuel'', hfuel'', by rw [heq, heq', List.append_assoc]⟩

/-- A piece is cut in one step, which takes a character. -/
theorem cuts_of_step {p : Piece}
    (h : ∀ fuel, piecesFrom (fuel + 1) (c :: text) = p :: piecesFrom fuel rest)
    (hlength : rest.length ≤ text.length) : Cuts (c :: text) [p] rest := by
  intro fuel hfuel
  obtain ⟨fuel, rfl⟩ := Nat.exists_eq_add_one_of_ne_zero (Nat.ne_zero_of_lt hfuel)
  exact ⟨fuel, hlength.trans (Nat.le_of_succ_le_succ hfuel), h fuel⟩

theorem cuts_gap (h : IsGap gap) (rest : List Char) : Cuts (gap ++ rest) (blanks gap) rest := by
  induction gap with
  | nil => exact fun fuel hfuel => ⟨fuel, hfuel, rfl⟩
  | cons c gap ih =>
      have hc : isBlank c = true := h c List.mem_cons_self
      have hblank : Cuts (c :: (gap ++ rest)) [.blank c] (gap ++ rest) :=
        cuts_of_step (fun fuel => by rw [piecesFrom, if_pos hc]) (by simp)
      exact hblank.trans (ih fun d hd => h d (List.mem_cons_of_mem c hd))

theorem cuts_sign (h : isSign c = true) (rest : List Char) : Cuts (c :: rest) [.sign c] rest := by
  have hblank : isBlank c = false := by
    simp only [isSign, Bool.or_eq_true, beq_iff_eq] at h
    rcases h with ((((rfl | rfl) | rfl) | rfl) | rfl) | rfl <;> rfl
  have hquote : c ≠ '"' := by
    rintro rfl
    cases h
  exact cuts_of_step (fun fuel => by simp [piecesFrom, hblank, hquote, h]) le_rfl

theorem cuts_bare (hne : raw ≠ []) (hraw : ∀ c ∈ raw, isBare c = true)
    (hrest : ∀ c, rest.head? = some c → isBare c = false) :
    Cuts (raw ++ rest) [.bare raw] rest := by
  obtain ⟨htake, hdrop⟩ := span_run hraw hrest
  cases raw with
  | nil => exact absurd rfl hne
  | cons c raw =>
      have hc : isBare c = true := hraw c List.mem_cons_self
      simp only [isBare, Bool.and_eq_true, Bool.not_eq_true', bne_iff_ne] at hc
      obtain ⟨⟨hblank, hquote⟩, hsign⟩ := hc
      refine cuts_of_step (fun fuel => ?_) (by simp)
      rw [List.cons_append] at htake hdrop
      simp [piecesFrom, hblank, hquote, hsign, htake, hdrop]

/-- Characters that neither close a string nor begin an escape are kept. -/
theorem rawString_plain (h : ∀ c ∈ raw, c ≠ '"' ∧ c ≠ '\\') (rest : List Char) :
    rawString false (raw ++ rest) = raw ++ rawString false rest := by
  induction raw with
  | nil => rfl
  | cons c raw ih =>
      obtain ⟨hquote, hescape⟩ := h c List.mem_cons_self
      simp [rawString, hquote, hescape, ih fun d hd => h d (List.mem_cons_of_mem c hd)]

theorem rawString_escapes {spelled : List Char} (h : Escapes spelled c) (rest : List Char) :
    rawString true (spelled ++ rest) = spelled ++ rawString false rest := by
  cases h with
  | simple => rfl
  | code _ hcode =>
      exact congrArg ('u' :: ·) (rawString_plain (fun _ => ne_of_mem_hexNumber? hcode) rest)
  | @pair digits digits' _ _ _ hhigh _ _ hlow _ =>
      have hdigits := rawString_plain (fun _ => ne_of_mem_hexNumber? hhigh)
        ('\\' :: 'u' :: (digits' ++ rest))
      have hdigits' := rawString_plain (fun _ => ne_of_mem_hexNumber? hlow) rest
      simp [rawString, hdigits, hdigits']

theorem rawString_decodes (h : Decodes raw chars) (rest : List Char) :
    rawString false (raw ++ '"' :: rest) = raw := by
  induction h with
  | nil => rfl
  | plain hquote hescape _ _ ih => simp [rawString, hquote, hescape, ih]
  | escape hspelled _ ih => simp [rawString, rawString_escapes hspelled, ih]

theorem cuts_string (h : Decodes raw chars) (hrest : (skipBlanks rest).head? ≠ some ':') :
    Cuts ('"' :: (raw ++ '"' :: rest)) [.string raw] rest := by
  refine cuts_of_step (fun fuel => ?_) (by simp; omega)
  have hraw := rawString_decodes h rest
  have hafter : (raw ++ '"' :: rest).drop (raw.length + 1) = rest := by simp
  rw [piecesFrom, if_neg (by decide), if_pos rfl]
  simp only [hraw, hafter]
  split
  · next hcolon => exact absurd (by rw [hcolon]; rfl) hrest
  · rfl

theorem cuts_name (h : Decodes raw chars) (hgap : IsGap gap) (rest : List Char) :
    Cuts ('"' :: (raw ++ '"' :: (gap ++ ':' :: rest))) [.name raw gap] rest := by
  refine cuts_of_step (fun fuel => ?_) (by simp; omega)
  have hraw := rawString_decodes h (gap ++ ':' :: rest)
  have hafter : (raw ++ '"' :: (gap ++ ':' :: rest)).drop (raw.length + 1) =
      gap ++ ':' :: rest := by simp
  have hskip : skipBlanks (gap ++ ':' :: rest) = ':' :: rest := by
    rw [skipBlanks, List.dropWhile_append_of_pos hgap]
    rfl
  have htake : (gap ++ ':' :: rest).takeWhile isBlank = gap := by
    rw [List.takeWhile_append_of_pos hgap]
    simp [isBlank]
  rw [piecesFrom, if_neg (by decide), if_pos rfl]
  simp only [hraw, hafter, hskip, htake]

/-- Behind the value of an item or a member there are blanks and a sign, or the end. -/
theorem delimits_gap_sign (hgap : IsGap gap) (hsign : isSign c = true) (hcolon : c ≠ ':')
    (rest : List Char) : Delimits (gap ++ c :: rest) := by
  have hc : isBlank c = false := by
    simp only [isSign, Bool.or_eq_true, beq_iff_eq] at hsign
    rcases hsign with ((((rfl | rfl) | rfl) | rfl) | rfl) | rfl <;> rfl
  constructor
  · cases gap with
    | nil =>
        rintro _ ⟨⟩
        simp [isBare, hsign]
    | cons d gap =>
        rintro _ ⟨⟩
        simp [isBare, hgap d List.mem_cons_self]
  · rw [skipBlanks, List.dropWhile_append_of_pos hgap, List.dropWhile_cons_of_neg (by simp [hc])]
    simpa using hcolon

theorem delimits_gap (hgap : IsGap gap) : Delimits gap := by
  constructor
  · intro c hc
    simp [isBare, hgap c (List.mem_of_mem_head? hc)]
  · rw [skipBlanks, List.dropWhile_eq_nil_iff.2 hgap]
    simp

/-- A numeral is made of characters that go into one piece. -/
theorem Numeral.WellFormed.isBare {n : Numeral} (h : n.WellFormed) (hc : c ∈ n.text) :
    isBare c = true := by
  refine h.of_mem_text Json.isBare (fun c hdigit => ?_) (by decide) hc
  have hne : ∀ d : Char, d.isDigit = false → c ≠ d := fun d hd => ne_of_isDigit hdigit hd
  simp [Json.isBare, isBlank, isSign, hne]

/-- What holds of the characters of all words holds of those of each. -/
theorem of_mem_word {p : Char → Bool} {word : String} (h : word ∈ words.map Prod.fst)
    (hall : (words.map Prod.fst).all (fun word => word.toList.all p) = true)
    (hc : c ∈ word.toList) : p c = true :=
  List.all_eq_true.1 (List.all_eq_true.1 hall word h) c hc

theorem ne_nil_of_mem_words {word : String} {v : Value} (h : (word, v) ∈ words) :
    word.toList ≠ [] := by
  have hall : ∀ pair ∈ words.map Prod.fst, pair.toList ≠ [] := by decide
  exact hall word (List.mem_map_of_mem h)

/-- What spells a part of a document is cut into its pieces, wherever the part may end. -/
theorem cuts_of_spells {part : Part} (h : Spells words ps part) (hrest : Delimits rest) :
    Cuts (textOf ps ++ rest) ps rest := by
  induction h generalizing rest with
  | string hraw => simpa [Piece.text] using cuts_string hraw hrest.notColon
  | word hmem =>
      simpa [Piece.text] using cuts_bare (ne_nil_of_mem_words hmem)
        (fun c hc => of_mem_word (List.mem_map_of_mem hmem) (by decide) hc) hrest.notBare
  | number hn =>
      simpa [Piece.text] using cuts_bare hn.text_ne_nil (fun c hc => hn.isBare hc) hrest.notBare
  | emptyList hgap =>
      simpa [Piece.text] using (cuts_sign (by decide) _).trans
        ((cuts_gap hgap _).trans (cuts_sign (by decide) rest))
  | list hgap _ ih =>
      simpa [Piece.text] using (cuts_sign (by decide) _).trans ((cuts_gap hgap _).trans (ih hrest))
  | lastItem _ hgap ih =>
      simpa [Piece.text] using (ih (delimits_gap_sign hgap (by decide) (by decide) rest)).trans
        ((cuts_gap hgap _).trans (cuts_sign (by decide) rest))
  | item _ hgap hgap' _ ih ihmore =>
      simpa [Piece.text] using (ih (delimits_gap_sign hgap (by decide) (by decide) _)).trans
        ((cuts_gap hgap _).trans ((cuts_sign (by decide) _).trans
          ((cuts_gap hgap' _).trans (ihmore hrest))))
  | emptyMapping hgap =>
      simpa [Piece.text] using (cuts_sign (by decide) _).trans
        ((cuts_gap hgap _).trans (cuts_sign (by decide) rest))
  | mapping hgap _ ih =>
      simpa [Piece.text] using (cuts_sign (by decide) _).trans ((cuts_gap hgap _).trans (ih hrest))
  | lastMember hraw hgap hgap' _ hgap'' ih =>
      simpa [Piece.text] using (cuts_name hraw hgap _).trans ((cuts_gap hgap' _).trans
        ((ih (delimits_gap_sign hgap'' (by decide) (by decide) rest)).trans
          ((cuts_gap hgap'' _).trans (cuts_sign (by decide) rest))))
  | member hraw hgap hgap' _ hgap'' hgap₃ _ ih ihmore =>
      simpa [Piece.text] using (cuts_name hraw hgap _).trans ((cuts_gap hgap' _).trans
        ((ih (delimits_gap_sign hgap'' (by decide) (by decide) _)).trans
          ((cuts_gap hgap'' _).trans ((cuts_sign (by decide) _).trans
            ((cuts_gap hgap₃ _).trans (ihmore hrest))))))

/-- The pieces of a document are those that spell its value, with the blanks around it. -/
theorem pieces_document {gap' : List Char} {v : Value} (hgap : IsGap gap) (hgap' : IsGap gap')
    (h : Spells words ps (.value v)) :
    pieces (gap ++ (textOf ps ++ gap')) = blanks gap ++ (ps ++ blanks gap') := by
  have hend : Cuts gap' (blanks gap') [] := by
    simpa using cuts_gap hgap' []
  obtain ⟨fuel, _, heq⟩ := (cuts_gap hgap _).trans
    ((cuts_of_spells h (delimits_gap hgap')).trans hend) _ le_rfl
  have hnil : piecesFrom fuel [] = [] := by
    cases fuel <;> rfl
  rw [pieces, heq, hnil, List.append_nil]

end Cutting

end EmulatedDevice.Json
