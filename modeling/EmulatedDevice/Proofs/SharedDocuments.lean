import EmulatedDevice.Proofs.FlowTokens
import EmulatedDevice.Proofs.NumberWords

/-!
# Documents that both notations read alike

Part by part a scan passes the pieces that spell a JSON document, with tokens that
announce the part. A mapping is therefore scanned to tokens that are composed to it, and
a JSON text of shared pieces is the same mapping as a YAML text, except where a word for
what is no number stands. Nothing that a schema accepts has such a word left in it.

Only a mapping or a list is followed to its end by its own text: a word or a numeral
that is a whole document would go on in YAML, and its reader would look for more of it.
-/

namespace EmulatedDevice.Yaml

open Json (Part Spells Numeral IsGap blanks textOf)

section Parts

variable {ps : List Json.Piece} {part : Part} {gap : List Char}

/-- Wherever a part stands inside brackets, its pieces are passed with the given tokens. A value
has to have a sign behind it, since this ends it; items and members end with one. -/
def PassedWith (ps : List Json.Piece) (ts : List Token) : Part → Prop
  | .value _ => ∀ (depth : Nat) (key : Bool) (sign : Char) (more rest : List Char),
      rest.dropWhile isSpacing = sign :: more → Scalar.isFlowSign sign = true →
      Scan.Passes ⟨depth + 1, key⟩ (textOf ps ++ rest) ts ⟨depth + 1, false⟩ rest
  | .items _ | .members _ => ∀ (depth : Nat) (rest : List Char),
      Scan.Passes ⟨depth + 1, true⟩ (textOf ps ++ rest) ts ⟨depth, false⟩ rest

theorem isSpacing_of_shared (hgap : IsGap gap) (hshared : ∀ p ∈ blanks gap, p.IsShared) :
    ∀ c ∈ gap, isSpacing c = true := fun c hc =>
  Json.isSpacing_of_isBlank (hgap c hc) (hshared _ (List.mem_map_of_mem hc))

/-- Behind a gap a sign is what comes next. -/
theorem dropWhile_gap {c : Char} {rest : List Char} (hgap : ∀ c ∈ gap, isSpacing c = true)
    (hc : isSpacing c = false) : (gap ++ c :: rest).dropWhile isSpacing = c :: rest := by
  rw [List.dropWhile_append_of_pos hgap,
    List.dropWhile_cons_of_neg (by rw [hc]; exact Bool.false_ne_true)]

theorem beginsPlain_word {word : String} (h : word ∈ Json.words.map Prod.fst) :
    Scan.BeginsPlain word.toList := by
  simp only [Json.words, List.map_cons, List.map_nil, List.mem_cons, List.not_mem_nil,
    or_false] at h
  rcases h with rfl | rfl | rfl | rfl | rfl | rfl
  -- only the last word begins with a minus
  iterate 5 exact .plain (by decide) (by decide)
  exact .minus rfl (by decide)

theorem beginsPlain_numeral {n : Numeral} (h : n.WellFormed) : Scan.BeginsPlain n.text := by
  obtain ⟨w, more, hhead, hw⟩ := h.exists_head
  have hne : ∀ d : Char, d.isDigit = false → w ≠ d := fun d hd => ne_of_isDigit hw hd
  rw [Numeral.text, hhead]
  cases n.negative with
  | true => exact .minus (by simp [endsIndicator, isBreak, hne]) (hne '-' rfl)
  | false =>
      refine .plain ?_ (hne '.' rfl)
      simp [Scan.beginsPlain, endsIndicator, isBreak, hne]

/-! ## Parts in their brackets -/

section Brackets

variable {gap' gap'' raw chars : List Char} {ps' : List Json.Piece} {ts ts' : List Token}
  {v : Value} {vs : List Value} {pairs : List (Value × Value)} {depth : Nat} {key : Bool}

theorem passedWith_string (hraw : Json.Decodes raw chars) (hshared : Json.IsSharedString raw) :
    PassedWith [.string raw] [.scalar (.ofList chars) false] (.value v) := by
  intro depth key sign more rest _ _
  have hpasses : Scan.Passes ⟨depth + 1, key⟩ ('"' :: (raw ++ '"' :: rest)) _ _ rest :=
    Scan.passes_string hraw hshared
  simpa [Json.Piece.text] using hpasses

/-- A word or a numeral. -/
theorem passedWith_bare (hbegins : Scan.BeginsPlain raw)
    (hallowed : ∀ c ∈ raw, isAllowed c = true ∧ Scalar.isPlain c = true) :
    PassedWith [.bare raw] [.scalar (.ofList raw) true] (.value v) := by
  intro depth key sign more rest hrest hsign
  have hpasses : Scan.Passes ⟨depth + 1, key⟩ (raw ++ rest) _ _ rest :=
    Scan.passes_plain hbegins (fun c hc => (hallowed c hc).2) hrest hsign
  simpa [Json.Piece.text] using hpasses

/-- The pieces of a list from any spot on, if those behind its opening sign are passed. -/
theorem passes_list (hgap : ∀ c ∈ gap, isSpacing c = true) (h : PassedWith ps ts (.items vs))
    (rest : List Char) :
    Scan.Passes ⟨depth, key⟩ (textOf (.sign '[' :: (blanks gap ++ ps)) ++ rest)
      (.flowSequenceStart :: ts) ⟨depth, false⟩ rest := by
  have hopen : Scan.Passes ⟨depth, key⟩ ('[' :: (gap ++ (textOf ps ++ rest)))
      [.flowSequenceStart] _ _ := Scan.passes_openFlow rfl rfl (by decide) fun _ => rfl
  have hpasses := hopen.trans ((Scan.passes_gap hgap _).trans (h depth rest))
  simpa [Json.Piece.text] using hpasses

/-- The pieces of a mapping from any spot on, if those behind its opening sign are passed. -/
theorem passes_mapping (hgap : ∀ c ∈ gap, isSpacing c = true)
    (h : PassedWith ps ts (.members pairs)) (rest : List Char) :
    Scan.Passes ⟨depth, key⟩ (textOf (.sign '{' :: (blanks gap ++ ps)) ++ rest)
      (.flowMappingStart :: ts) ⟨depth, false⟩ rest := by
  have hopen : Scan.Passes ⟨depth, key⟩ ('{' :: (gap ++ (textOf ps ++ rest)))
      [.flowMappingStart] _ _ := Scan.passes_openFlow rfl rfl (by decide) fun _ => rfl
  have hpasses := hopen.trans ((Scan.passes_gap hgap _).trans (h depth rest))
  simpa [Json.Piece.text] using hpasses

theorem passes_listEnd (rest : List Char) :
    Scan.Passes ⟨depth + 1, key⟩ (']' :: rest) [.flowSequenceEnd] ⟨depth, false⟩ rest :=
  Scan.passes_closeFlow rfl rfl (by decide) fun _ => rfl

theorem passes_mappingEnd (rest : List Char) :
    Scan.Passes ⟨depth + 1, key⟩ ('}' :: rest) [.flowMappingEnd] ⟨depth, false⟩ rest :=
  Scan.passes_closeFlow rfl rfl (by decide) fun _ => rfl

/-- A comma between two items or two members, and what is passed behind it. -/
theorem passes_next {spot : Spot} {more rest : List Char} (hgap : ∀ c ∈ gap, isSpacing c = true)
    (h : Scan.Passes ⟨depth, true⟩ more ts spot rest) :
    Scan.Passes ⟨depth, key⟩ (',' :: (gap ++ more)) (.flowEntry :: ts) spot rest :=
  Scan.passes_comma.trans ((Scan.passes_gap hgap more).trans h)

/-- A value inside brackets, and what is passed from the sign behind it on. -/
theorem PassedWith.before {spot : Spot} {sign : Char} {more rest : List Char}
    (h : PassedWith ps ts (.value v)) (hgap : ∀ c ∈ gap, isSpacing c = true)
    (hsign : Scalar.isFlowSign sign = true)
    (hmore : Scan.Passes ⟨depth + 1, false⟩ (sign :: more) ts' spot rest) :
    Scan.Passes ⟨depth + 1, key⟩ (textOf ps ++ (gap ++ sign :: more)) (ts ++ ts') spot rest := by
  have hahead : (gap ++ sign :: more).dropWhile isSpacing = sign :: more :=
    dropWhile_gap hgap (Scan.isSpacing_of_isFlowSign hsign)
  exact (h depth key sign more _ hahead hsign).trans ((Scan.passes_gap hgap _).trans hmore)

theorem passedWith_listEnd : PassedWith [.sign ']'] [.flowSequenceEnd] (.items []) :=
  fun _ rest => passes_listEnd rest

theorem PassedWith.lastItem (h : PassedWith ps ts (.value v))
    (hgap : ∀ c ∈ gap, isSpacing c = true) :
    PassedWith (ps ++ (blanks gap ++ [.sign ']'])) (ts ++ [.flowSequenceEnd]) (.items [v]) := by
  intro depth rest
  have hpasses : Scan.Passes ⟨depth + 1, true⟩ _ _ _ rest :=
    h.before hgap rfl (passes_listEnd rest)
  simpa [Json.Piece.text] using hpasses

theorem PassedWith.item (h : PassedWith ps ts (.value v))
    (hgap : ∀ c ∈ gap, isSpacing c = true) (hgap' : ∀ c ∈ gap', isSpacing c = true)
    (hmore : PassedWith ps' ts' (.items vs)) :
    PassedWith (ps ++ (blanks gap ++ .sign ',' :: (blanks gap' ++ ps')))
      (ts ++ .flowEntry :: ts') (.items (v :: vs)) := by
  intro depth rest
  have hpasses : Scan.Passes ⟨depth + 1, true⟩ _ _ _ rest :=
    h.before hgap rfl (passes_next hgap' (hmore depth rest))
  simpa [Json.Piece.text] using hpasses

theorem passedWith_mappingEnd : PassedWith [.sign '}'] [.flowMappingEnd] (.members []) :=
  fun _ rest => passes_mappingEnd rest

/-- The name of a member with its colon, and what is passed behind a gap. -/
theorem passes_named {gap₀ more rest : List Char} {spot : Spot} (hraw : Json.Decodes raw chars)
    (hname : Json.IsSharedName raw gap₀) (hgap : ∀ c ∈ gap, isSpacing c = true)
    (hmore : Scan.Passes ⟨depth + 1, false⟩ more ts spot rest) :
    Scan.Passes ⟨depth + 1, true⟩ ('"' :: (raw ++ '"' :: (gap₀ ++ ':' :: (gap ++ more))))
      (.key :: .scalar (.ofList chars) false :: .value :: ts) spot rest :=
  (Scan.passes_name hraw hname).trans ((Scan.passes_gap hgap more).trans hmore)

theorem PassedWith.lastMember {gap₀ : List Char} (h : PassedWith ps ts (.value v))
    (hraw : Json.Decodes raw chars) (hname : Json.IsSharedName raw gap₀)
    (hgap : ∀ c ∈ gap, isSpacing c = true) (hgap' : ∀ c ∈ gap', isSpacing c = true) :
    PassedWith (.name raw gap₀ :: (blanks gap ++ (ps ++ (blanks gap' ++ [.sign '}']))))
      (.key :: .scalar (.ofList chars) false :: .value :: (ts ++ [.flowMappingEnd]))
      (.members pairs) := by
  intro depth rest
  have hpasses : Scan.Passes ⟨depth + 1, true⟩ _ _ _ rest :=
    passes_named hraw hname hgap (h.before hgap' rfl (passes_mappingEnd rest))
  simpa [Json.Piece.text] using hpasses

theorem PassedWith.member {gap₀ : List Char} {pairs' : List (Value × Value)}
    (h : PassedWith ps ts (.value v))
    (hraw : Json.Decodes raw chars) (hname : Json.IsSharedName raw gap₀)
    (hgap : ∀ c ∈ gap, isSpacing c = true) (hgap' : ∀ c ∈ gap', isSpacing c = true)
    (hgap'' : ∀ c ∈ gap'', isSpacing c = true) (hmore : PassedWith ps' ts' (.members pairs)) :
    PassedWith (.name raw gap₀ :: (blanks gap ++ (ps ++ (blanks gap' ++
        .sign ',' :: (blanks gap'' ++ ps')))))
      (.key :: .scalar (.ofList chars) false :: .value :: (ts ++ .flowEntry :: ts'))
      (.members pairs') := by
  intro depth rest
  have hpasses : Scan.Passes ⟨depth + 1, true⟩ _ _ _ rest :=
    passes_named hraw hname hgap (h.before hgap' rfl (passes_next hgap'' (hmore depth rest)))
  simpa [Json.Piece.text] using hpasses

end Brackets

/-- The pieces of a part that are all shared are passed with tokens that announce the part. -/
theorem exists_announced (h : Spells Node.jsonWords ps part) (hshared : ∀ p ∈ ps, p.IsShared) :
    ∃ ts, Announces ts part ∧ PassedWith ps ts part := by
  induction h with
  | @string raw chars hraw =>
      exact ⟨_, .string _, passedWith_string hraw (hshared _ List.mem_cons_self)⟩
  | @word word v hmem =>
      -- both tables have the same words
      have hword : word ∈ Json.words.map Prod.fst := List.mem_map_of_mem hmem
      have hpassed := passedWith_bare (v := v) (beginsPlain_word hword) fun c hc =>
        Bool.and_eq_true_iff.1 (Json.isPlainAllowed_word hword hc)
      rw [String.ofList_toList] at hpassed
      exact ⟨_, .plain (Node.scalarValue_word hmem), hpassed⟩
  | @number n hn =>
      have hnumeral := Json.isShared_of_isSharedBare hn (hshared _ List.mem_cons_self)
      exact ⟨_, .plain (Node.scalarValue_numeral hn hnumeral),
        passedWith_bare (beginsPlain_numeral hn) fun c hc =>
          Bool.and_eq_true_iff.1 (Json.isPlainAllowed_numeral hn hc)⟩
  | @emptyList gap hgap =>
      simp only [List.forall_mem_cons, List.forall_mem_append] at hshared
      obtain ⟨-, hblanks, -⟩ := hshared
      exact ⟨_, .emptyList, fun _ _ _ _ rest _ _ =>
        passes_list (isSpacing_of_shared hgap hblanks) passedWith_listEnd rest⟩
  | @list gap ps vs hgap _ ih =>
      simp only [List.forall_mem_cons, List.forall_mem_append] at hshared
      obtain ⟨-, hblanks, hitems⟩ := hshared
      obtain ⟨ts, hts, hpassed⟩ := ih hitems
      exact ⟨_, .list hts, fun _ _ _ _ rest _ _ =>
        passes_list (isSpacing_of_shared hgap hblanks) hpassed rest⟩
  | @lastItem gap ps v _ hgap ih =>
      simp only [List.forall_mem_cons, List.forall_mem_append] at hshared
      obtain ⟨hvalue, hblanks, -⟩ := hshared
      obtain ⟨ts, hts, hpassed⟩ := ih hvalue
      exact ⟨_, .lastItem hts, hpassed.lastItem (isSpacing_of_shared hgap hblanks)⟩
  | @item gap gap' ps more v vs _ hgap hgap' _ ih ihmore =>
      simp only [List.forall_mem_cons, List.forall_mem_append] at hshared
      obtain ⟨hvalue, hblanks, -, hblanks', hmore⟩ := hshared
      obtain ⟨ts, hts, hpassed⟩ := ih hvalue
      obtain ⟨ts', hts', hpassed'⟩ := ihmore hmore
      exact ⟨_, .item hts hts', hpassed.item (isSpacing_of_shared hgap hblanks)
        (isSpacing_of_shared hgap' hblanks') hpassed'⟩
  | @emptyMapping gap hgap =>
      simp only [List.forall_mem_cons, List.forall_mem_append] at hshared
      obtain ⟨-, hblanks, -⟩ := hshared
      exact ⟨_, .emptyMapping, fun _ _ _ _ rest _ _ =>
        passes_mapping (isSpacing_of_shared hgap hblanks) passedWith_mappingEnd rest⟩
  | @mapping gap ps pairs hgap _ ih =>
      simp only [List.forall_mem_cons, List.forall_mem_append] at hshared
      obtain ⟨-, hblanks, hmembers⟩ := hshared
      obtain ⟨ts, hts, hpassed⟩ := ih hmembers
      exact ⟨_, .mapping hts, fun _ _ _ _ rest _ _ =>
        passes_mapping (isSpacing_of_shared hgap hblanks) hpassed rest⟩
  | @lastMember raw chars gap gap' gap'' ps v hraw _ hgap' _ hgap'' ih =>
      simp only [List.forall_mem_cons, List.forall_mem_append] at hshared
      obtain ⟨hname, hblanks', hvalue, hblanks'', -⟩ := hshared
      obtain ⟨ts, hts, hpassed⟩ := ih hvalue
      exact ⟨_, .lastMember _ hts, hpassed.lastMember hraw hname
        (isSpacing_of_shared hgap' hblanks') (isSpacing_of_shared hgap'' hblanks'')⟩
  | @member raw chars gap gap' gap'' gap₃ ps more v pairs hraw _ hgap' _ hgap'' hgap₃ _ ih ihmore =>
      simp only [List.forall_mem_cons, List.forall_mem_append] at hshared
      obtain ⟨hname, hblanks', hvalue, hblanks'', -, hblanks₃, hmore⟩ := hshared
      obtain ⟨ts, hts, hpassed⟩ := ih hvalue
      obtain ⟨ts', hts', hpassed'⟩ := ihmore hmore
      exact ⟨_, .member _ hts hts', hpassed.member hraw hname
        (isSpacing_of_shared hgap' hblanks') (isSpacing_of_shared hgap'' hblanks'')
        (isSpacing_of_shared hgap₃ hblanks₃) hpassed'⟩

/-! ## Whole documents -/

/-- A mapping that is a whole document needs no sign behind it. -/
theorem exists_announced_mapping {entries : List (Value × Value)} {v : Value}
    (h : Spells Node.jsonWords ps (.value v)) (hv : v = .mapping entries)
    (hshared : ∀ p ∈ ps, p.IsShared) (rest : List Char) :
    ∃ ts, Announces ts (.value v) ∧
      Scan.Passes ⟨0, true⟩ (textOf ps ++ rest) ts ⟨0, false⟩ rest := by
  cases h with
  | string => cases hv
  | @word word v hmem =>
      have hwords : ∀ pair ∈ Node.jsonWords, ∀ entries, pair.2 ≠ .mapping entries := by
        simp [Node.jsonWords]
      exact absurd hv (hwords (word, v) hmem entries)
  | @number n =>
      unfold Numeral.value at hv
      split at hv <;> cases hv
  | emptyList => cases hv
  | list => cases hv
  | @emptyMapping gap hgap =>
      simp only [List.forall_mem_cons, List.forall_mem_append] at hshared
      obtain ⟨-, hblanks, -⟩ := hshared
      exact ⟨_, .emptyMapping,
        passes_mapping (isSpacing_of_shared hgap hblanks) passedWith_mappingEnd rest⟩
  | @mapping gap ps pairs hgap hmembers =>
      simp only [List.forall_mem_cons, List.forall_mem_append] at hshared
      obtain ⟨-, hblanks, hshared⟩ := hshared
      obtain ⟨ts, hts, hpassed⟩ := exists_announced hmembers hshared
      exact ⟨_, .mapping hts, passes_mapping (isSpacing_of_shared hgap hblanks) hpassed rest⟩

/-- A mapping in JSON is the same mapping in YAML, but for words for what is no number, if all
pieces of the text are shared. -/
theorem parse_of_shared {text : List Char} {entries : List (Value × Value)}
    (h : Json.parse text = .ok (.mapping entries))
    (hshared : ∀ p ∈ Json.pieces text, p.IsShared) :
    ∃ w, parse text = .ok w ∧ (Value.mapping entries).TakenAs w := by
  obtain ⟨hmark, gap, ps, gap', hgap, hgap', hspells, rfl⟩ := Json.exists_of_parse h
  rw [Json.pieces_document hgap hgap' hspells] at hshared
  simp only [List.forall_mem_append] at hshared
  obtain ⟨hblanks, hps, hblanks'⟩ := hshared
  have hspacing := isSpacing_of_shared hgap hblanks
  have hspacing' := isSpacing_of_shared hgap' hblanks'
  have hallowed : ∀ c ∈ gap ++ (textOf ps ++ gap'), isAllowed c = true := by
    simp only [List.forall_mem_append]
    refine ⟨fun c hc => Json.isAllowed_spacing (hspacing c hc), fun c hc => ?_,
      fun c hc => Json.isAllowed_spacing (hspacing' c hc)⟩
    obtain ⟨p, hp, hcp⟩ := List.mem_flatMap.1 hc
    exact Json.isAllowed_of_isShared (Json.isProper_of_spells hspells p hp) (hps p hp) hcp
  obtain ⟨_, hspells', ⟨htaken⟩⟩ := hspells.exists_takenAs
  obtain ⟨entries', rfl⟩ := htaken.exists_mapping
  obtain ⟨ts, hts, hpasses⟩ := exists_announced_mapping hspells' rfl hps gap'
  have hscan : Token.scan (gap ++ (textOf ps ++ gap')) = .ok ts :=
    Scan.scan_of_passes hmark hallowed ((Scan.passes_gap hspacing _).trans hpasses) hspacing'
  obtain ⟨root, hroot, hvalue⟩ := Node.ofTokens_announced hts
  refine ⟨.mapping entries', ?_, htaken⟩
  rw [parse, hscan]
  simp only [bind, Except.bind, hroot, hvalue]
  rfl

/-- What a schema accepts is the same in both notations, if all pieces of the text are shared. -/
theorem parse_eq_of_accepts {schema : Schema} {text : List Char} {entries : List (Value × Value)}
    (htidy : schema.Tidy) (haccepts : schema.Accepts (.mapping entries))
    (h : Json.parse text = .ok (.mapping entries))
    (hshared : ∀ p ∈ Json.pieces text, p.IsShared) : parse text = .ok (.mapping entries) := by
  obtain ⟨w, hw, htaken⟩ := parse_of_shared h hshared
  rw [hw, htidy.eq_of_takenAs (Json.gives_parse text _ h) haccepts htaken]

end Parts

end EmulatedDevice.Yaml
