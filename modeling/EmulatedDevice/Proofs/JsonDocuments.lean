import EmulatedDevice.Proofs.DistinctKeys
import EmulatedDevice.Proofs.FloatText

/-!
# JSON documents are read back

What is written for a value starts with a character of its own and is followed by a
comma or a line break, whatever stands around it. That is all a reader needs to know
about the place of a value, so each form of a value can be dealt with by itself, on
the assumption that its parts are read back. The fuel of the reader is twice the
length of the text, and every value leaves its parts enough of it. By induction over
a value, all that JSON has a form for is read back from its document. Dates and
octets are left out, since they are written as texts.
-/

namespace EmulatedDevice

namespace Json

/-- A value that is read back from what is written for it, at every depth. -/
structure ReadsBack (value : Value) : Prop where
  head : ∀ depth, ∃ c more, renderAt depth value = c :: more ∧
    isBlank c = false ∧ c ≠ ']' ∧ c ≠ '\ufeff'
  read : ∀ depth fuel rest, Follows rest → 2 * (renderAt depth value).length ≤ fuel →
    readValue fuel (renderAt depth value ++ rest) = .ok (value, rest)
  noReturn : ∀ depth, '\r' ∉ renderAt depth value

/-! ## Scalars -/

theorem ReadsBack.of_isScalar {text : List Char} {value : Value}
    (htext : ∀ depth, renderAt depth value = text) (h : IsScalar text value) :
    ReadsBack value := by
  obtain ⟨c, more, hhead, hc⟩ := h.head
  refine ⟨fun depth => ⟨c, more, (htext depth).trans hhead, ?_⟩, ?_, ?_⟩
  · refine ⟨?_, ?_, ?_⟩
    · rw [isBlank]
      rcases hc with hc | rfl
      · simp only [Bool.or_eq_false_iff, beq_eq_false_iff_ne]
        refine ⟨⟨⟨?_, ?_⟩, ?_⟩, ?_⟩ <;> rintro rfl <;> cases hc
      · rfl
    · rintro rfl
      rcases hc with hc | hc <;> cases hc
    · rintro rfl
      rcases hc with hc | hc <;> cases hc
  · intro depth fuel rest hrest hfuel
    rw [htext depth, hhead, List.length_cons] at hfuel
    obtain ⟨fuel, rfl⟩ : ∃ n, fuel = n + 1 := ⟨fuel - 1, by omega⟩
    rw [htext]
    exact readValue_scalar h hrest fuel
  · intro depth
    rw [htext]
    exact h.noReturn

theorem readsBack_null : ReadsBack .null := by
  have hnull : IsScalar "null".toList .null := isScalar_word (by simp [words])
  exact .of_isScalar (fun _ => rfl) hnull

theorem readsBack_bool (b : Bool) : ReadsBack (.bool b) := by
  have htrue : IsScalar "true".toList (.bool true) := isScalar_word (by simp [words])
  have hfalse : IsScalar "false".toList (.bool false) := isScalar_word (by simp [words])
  cases b with
  | true => exact .of_isScalar (fun _ => rfl) htrue
  | false => exact .of_isScalar (fun _ => rfl) hfalse

theorem readsBack_int (n : Int) : ReadsBack (.int n) :=
  .of_isScalar (fun _ => rfl) (isScalar_int n)

theorem readsBack_float {x : Binary64} (h : x.IsCanonical) : ReadsBack (.float x) :=
  .of_isScalar (fun _ => rfl) (Binary64.isScalar_renderFloat h)

theorem readsBack_text (text : String) : ReadsBack (.text text) := by
  refine ⟨fun depth => ⟨'"', _, rfl, by decide⟩, ?_, fun _ => return_not_mem_renderText text⟩
  intro depth fuel rest _ hfuel
  obtain ⟨fuel, rfl⟩ : ∃ n, fuel = n + 1 := by
    refine ⟨fuel - 1, ?_⟩
    simp only [renderAt, renderText, List.length_append, List.length_cons] at hfuel
    omega
  exact readValue_text text rest fuel

/-! ## Blanks -/

theorem skipBlanks_of_not_isBlank {c : Char} {more : List Char} (h : isBlank c = false) :
    skipBlanks (c :: more) = c :: more := by
  rw [skipBlanks, List.dropWhile_cons, h]
  rfl

theorem skipBlanks_blank (text : List Char) : skipBlanks (' ' :: text) = skipBlanks text := rfl

theorem skipBlanks_lineBreak (depth : Nat) (text : List Char) :
    skipBlanks (lineBreak depth ++ text) = skipBlanks text := by
  have hblank : ∀ c ∈ lineBreak depth, isBlank c = true := by
    intro c hc
    rcases List.mem_cons.1 hc with rfl | hc
    · rfl
    · rw [List.eq_of_mem_replicate hc]
      rfl
  rw [skipBlanks, List.dropWhile_append_of_pos hblank, skipBlanks]

theorem return_not_mem_lineBreak (depth : Nat) : '\r' ∉ lineBreak depth := by
  intro h
  rcases List.mem_cons.1 h with h | h
  · cases h
  · cases List.eq_of_mem_replicate h

theorem follows_lineBreak (depth : Nat) (text : List Char) : Follows (lineBreak depth ++ text) :=
  ⟨_, .inr rfl⟩

theorem ReadsBack.skipBlanks {value : Value} (h : ReadsBack value) (depth : Nat)
    (rest : List Char) :
    Json.skipBlanks (renderAt depth value ++ rest) = renderAt depth value ++ rest := by
  obtain ⟨c, more, htext, hblank, _⟩ := h.head depth
  rw [htext]
  exact skipBlanks_of_not_isBlank hblank

/-! ## Lists -/

/-- Items are read one after the other, up to the bracket behind the last one. -/
theorem readItems_render {depth outer : Nat} {rest : List Char} {item : Value}
    {items : List Value} (h : ∀ value ∈ item :: items, ReadsBack value) (fuel : Nat)
    (hfuel : 2 * (renderAt depth item ++ renderItems depth items).length < fuel) :
    readItems fuel (renderAt depth item ++
      (renderItems depth items ++ (lineBreak outer ++ ']' :: rest))) =
        .ok (item :: items, rest) := by
  induction items generalizing item fuel with
  | nil =>
      obtain ⟨fuel, rfl⟩ : ∃ n, fuel = n + 1 := ⟨fuel - 1, by omega⟩
      have hitem := h item (List.mem_cons_self ..)
      rw [renderItems, List.append_nil] at hfuel
      rw [renderItems, List.nil_append, readItems,
        hitem.read _ _ _ (follows_lineBreak _ _) (by omega)]
      simp only [bind, Except.bind]
      rw [skipBlanks_lineBreak, skipBlanks_of_not_isBlank rfl]
      rfl
  | cons next items ih =>
      obtain ⟨fuel, rfl⟩ : ∃ n, fuel = n + 1 := ⟨fuel - 1, by omega⟩
      have hitem := h item (List.mem_cons_self ..)
      have hnext : ReadsBack next := h next (by simp)
      simp only [renderItems, List.length_append, List.length_cons] at hfuel
      simp only [renderItems, List.cons_append, List.append_assoc]
      rw [readItems, hitem.read _ _ _ ⟨_, .inl rfl⟩ (by omega)]
      simp only [bind, Except.bind]
      rw [skipBlanks_of_not_isBlank rfl]
      simp only
      rw [skipBlanks_lineBreak, hnext.skipBlanks,
        ih (fun value hvalue => h value (List.mem_cons_of_mem _ hvalue)) _
          (by rw [List.length_append]; omega)]
      rfl

theorem return_not_mem_renderItems {items : List Value} (h : ∀ item ∈ items, ReadsBack item)
    (depth : Nat) : '\r' ∉ renderItems depth items := by
  induction items with
  | nil => exact List.not_mem_nil
  | cons item items ih =>
      obtain ⟨hitem, hitems⟩ := List.forall_mem_cons.1 h
      simp [renderItems, return_not_mem_lineBreak, hitem.noReturn, ih hitems]

/-- A list that does not close at once is its items. -/
theorem readValue_list {text more : List Char} {c : Char} (htext : skipBlanks text = c :: more)
    (hc : c ≠ ']') {items : List Value} {rest : List Char} {fuel : Nat}
    (hread : readItems fuel (c :: more) = .ok (items, rest)) :
    readValue (fuel + 1) ('[' :: text) = .ok (.list items, rest) := by
  rw [readValue, htext]
  split
  · next heq => exact absurd (List.cons.inj heq).1 hc
  · rw [hread]
    rfl

theorem readsBack_list {items : List Value} (h : ∀ item ∈ items, ReadsBack item) :
    ReadsBack (.list items) := by
  cases items with
  | nil =>
      refine ⟨fun _ => ⟨'[', _, rfl, by decide⟩, ?_, fun _ => by simp [renderAt]⟩
      intro depth fuel rest _ hfuel
      obtain ⟨fuel, rfl⟩ : ∃ n, fuel = n + 1 := ⟨fuel - 1, by simp [renderAt] at hfuel; omega⟩
      rfl
  | cons item items =>
      obtain ⟨hitem, hitems⟩ := List.forall_mem_cons.1 h
      refine ⟨fun _ => ⟨'[', _, rfl, by decide⟩, ?_, ?_⟩
      · intro depth fuel rest _ hfuel
        obtain ⟨c, more, hhead, _, hc, _⟩ := hitem.head (depth + 1)
        simp only [renderAt, List.length_append, List.length_cons] at hfuel
        obtain ⟨fuel, rfl⟩ : ∃ n, fuel = n + 1 := ⟨fuel - 1, by omega⟩
        have hread : readItems fuel (renderAt (depth + 1) item ++
            (renderItems (depth + 1) items ++ (lineBreak depth ++ ']' :: rest))) =
              .ok (item :: items, rest) :=
          readItems_render h fuel (by rw [List.length_append]; omega)
        have hskip := (skipBlanks_lineBreak (depth + 1) _).trans (hitem.skipBlanks (depth + 1)
          (renderItems (depth + 1) items ++ (lineBreak depth ++ ']' :: rest)))
        rw [hhead, List.cons_append] at hread hskip
        simp only [renderAt, List.cons_append, List.append_assoc, List.nil_append]
        rw [hhead]
        exact readValue_list hskip hc hread
      · intro depth
        simp [renderAt, return_not_mem_lineBreak, hitem.noReturn,
          return_not_mem_renderItems hitems]

/-! ## Mappings -/

/-- Fields as a reader gives them, with the members of what is written for them. -/
def members (fields : List (String × Value)) : List (Value × Value) :=
  fields.map fun (key, value) => (.text key, value)

/-- What is written for fields after the first. -/
theorem renderMembers_members_cons (depth : Nat) (key : String) (value : Value)
    (fields : List (String × Value)) :
    renderMembers depth (members ((key, value) :: fields)) =
      ',' :: (lineBreak depth ++ (renderText key ++ (':' :: ' ' :: (renderAt depth value ++
        renderMembers depth (members fields))))) := by
  simp [members, renderMembers, Value.plain]

/-- Members are read one after the other, up to the brace behind the last one. -/
theorem readMembers_render {depth outer : Nat} {rest : List Char} {key : String} {value : Value}
    {fields : List (String × Value)} (h : ∀ field ∈ (key, value) :: fields, ReadsBack field.2)
    (fuel : Nat)
    (hfuel : 2 * (renderAt depth value ++ renderMembers depth (members fields)).length < fuel) :
    readMembers fuel (renderText key ++ (':' :: ' ' :: (renderAt depth value ++
      (renderMembers depth (members fields) ++ (lineBreak outer ++ '\x7d' :: rest))))) =
        .ok (members ((key, value) :: fields), rest) := by
  induction fields generalizing key value fuel with
  | nil =>
      obtain ⟨fuel, rfl⟩ : ∃ n, fuel = n + 1 := ⟨fuel - 1, by omega⟩
      have hvalue : ReadsBack value := h (key, value) (List.mem_cons_self ..)
      simp only [members, List.map_nil, renderMembers, List.append_nil] at hfuel
      simp only [members, List.map_nil, renderMembers, List.nil_append]
      rw [renderText_append, readMembers, readChars_escaped]
      simp only [bind, Except.bind]
      rw [skipBlanks_of_not_isBlank rfl]
      simp only
      rw [skipBlanks_blank, hvalue.skipBlanks,
        hvalue.read _ _ _ (follows_lineBreak _ _) (by omega)]
      simp only
      rw [skipBlanks_lineBreak, skipBlanks_of_not_isBlank rfl]
      simp only [String.ofList_toList]
      rfl
  | cons next fields ih =>
      obtain ⟨fuel, rfl⟩ : ∃ n, fuel = n + 1 := ⟨fuel - 1, by omega⟩
      obtain ⟨nextKey, nextValue⟩ := next
      have hvalue : ReadsBack value := h (key, value) (List.mem_cons_self ..)
      simp only [renderMembers_members_cons, List.length_append, List.length_cons] at hfuel
      have hrest := ih (fun field hfield => h field (List.mem_cons_of_mem _ hfield)) fuel
        (by rw [List.length_append]; omega)
      simp only [renderMembers_members_cons, List.cons_append, List.append_assoc]
      rw [renderText_append, readMembers, readChars_escaped]
      simp only [bind, Except.bind]
      rw [skipBlanks_of_not_isBlank rfl]
      simp only
      rw [skipBlanks_blank, hvalue.skipBlanks, hvalue.read _ _ _ ⟨_, .inl rfl⟩ (by omega)]
      simp only
      rw [skipBlanks_of_not_isBlank rfl]
      simp only
      rw [skipBlanks_lineBreak, renderText_append, skipBlanks_of_not_isBlank rfl,
        ← renderText_append, hrest]
      simp only [String.ofList_toList]
      rfl

theorem return_not_mem_renderMembers {fields : List (String × Value)}
    (h : ∀ field ∈ fields, ReadsBack field.2) (depth : Nat) :
    '\r' ∉ renderMembers depth (members fields) := by
  induction fields with
  | nil => exact List.not_mem_nil
  | cons field fields ih =>
      obtain ⟨hfield, hfields⟩ := List.forall_mem_cons.1 h
      obtain ⟨key, value⟩ := field
      simp [renderMembers_members_cons, return_not_mem_lineBreak, return_not_mem_renderText,
        hfield.noReturn, ih hfields]

/-- A mapping of members is what was read, when no key comes twice. -/
theorem mappingOfPairs_members {fields : List (String × Value)}
    (h : (fields.map Prod.fst).Nodup) :
    Value.mappingOfPairs (members fields) = .ofFields fields := by
  have hpairs : Entries.Distinct Value.sameKey (members fields) := by
    rw [members, Entries.Distinct, List.pairwise_map]
    refine (List.pairwise_map.1 h).imp fun hne => ?_
    exact beq_false_of_ne hne
  rw [Value.mappingOfPairs, Entries.ofPairs_eq_self hpairs]
  rfl

/-- A mapping that does not close at once is its members. -/
theorem readValue_mapping {text more : List Char} {c : Char}
    (htext : skipBlanks text = c :: more) (hc : c ≠ '\x7d') {pairs : List (Value × Value)}
    {rest : List Char} {fuel : Nat} (hread : readMembers fuel (c :: more) = .ok (pairs, rest)) :
    readValue (fuel + 1) ('\x7b' :: text) = .ok (.mappingOfPairs pairs, rest) := by
  rw [readValue, htext]
  split
  · next heq => exact absurd (List.cons.inj heq).1 hc
  · rw [hread]
    rfl

theorem readsBack_fields {fields : List (String × Value)} (hkeys : (fields.map Prod.fst).Nodup)
    (h : ∀ field ∈ fields, ReadsBack field.2) : ReadsBack (.ofFields fields) := by
  cases fields with
  | nil =>
      refine ⟨fun _ => ⟨'\x7b', _, rfl, by decide⟩, ?_, fun _ => by simp [Value.ofFields, renderAt]⟩
      intro depth fuel rest _ hfuel
      obtain ⟨fuel, rfl⟩ : ∃ n, fuel = n + 1 :=
        ⟨fuel - 1, by simp [Value.ofFields, renderAt] at hfuel; omega⟩
      rfl
  | cons field fields =>
      obtain ⟨key, value⟩ := field
      obtain ⟨hvalue, hfields⟩ := List.forall_mem_cons.1 h
      have htext : ∀ depth, renderAt depth (.ofFields ((key, value) :: fields)) =
          '\x7b' :: (lineBreak (depth + 1) ++ (renderText key ++ (':' :: ' ' ::
            (renderAt (depth + 1) value ++ (renderMembers (depth + 1) (members fields) ++
              (lineBreak depth ++ ['\x7d'])))))) := by
        intro depth
        simp [Value.ofFields, renderAt, members, Value.plain]
      refine ⟨fun depth => ⟨'\x7b', _, htext depth, by decide⟩, ?_, ?_⟩
      · intro depth fuel rest _ hfuel
        rw [htext] at hfuel ⊢
        simp only [List.length_append, List.length_cons] at hfuel
        obtain ⟨fuel, rfl⟩ : ∃ n, fuel = n + 1 := ⟨fuel - 1, by omega⟩
        have hread : readMembers fuel (renderText key ++ (':' :: ' ' ::
            (renderAt (depth + 1) value ++ (renderMembers (depth + 1) (members fields) ++
              (lineBreak depth ++ '\x7d' :: rest))))) =
                .ok (members ((key, value) :: fields), rest) :=
          readMembers_render h fuel (by rw [List.length_append]; omega)
        have hskip := skipBlanks_lineBreak (depth + 1) (renderText key ++ (':' :: ' ' ::
            (renderAt (depth + 1) value ++ (renderMembers (depth + 1) (members fields) ++
              (lineBreak depth ++ '\x7d' :: rest)))))
        rw [renderText_append, skipBlanks_of_not_isBlank rfl, ← renderText_append] at hskip
        simp only [List.cons_append, List.append_assoc, List.nil_append]
        rw [renderText_append] at hskip hread ⊢
        rw [readValue_mapping hskip (by decide) hread, mappingOfPairs_members hkeys]
      · intro depth
        rw [htext]
        simp [return_not_mem_lineBreak, return_not_mem_renderText, hvalue.noReturn,
          return_not_mem_renderMembers hfields]

/-! ## Documents -/

/-- A value is read back from its document. -/
theorem ReadsBack.parse {value : Value} (h : ReadsBack value) :
    Json.parse ((render value).toList ++ ['\n']) = .ok value := by
  obtain ⟨c, more, htext, hblank, _, hmark⟩ := h.head 0
  have hdocument : readDocument (renderAt 0 value ++ ['\n']) = .ok value := by
    have hread := h.read 0 (2 * (renderAt 0 value ++ ['\n']).length + 2) ['\n'] ⟨[], .inr rfl⟩
      (by rw [List.length_append]; omega)
    have hhead : (renderAt 0 value ++ ['\n']).head? ≠ some '\ufeff' := by
      rw [htext]
      simpa using hmark
    rw [readDocument, if_neg hhead, h.skipBlanks, hread]
    rfl
  rw [render, String.toList_ofList, Json.parse, hdocument]

/-- A value that has a form in JSON: no date and no octets, and only texts for keys, each once. -/
inductive IsJson : Value → Prop where
  | null : IsJson .null
  | bool (b : Bool) : IsJson (.bool b)
  | int (n : Int) : IsJson (.int n)
  | float {x : Binary64} (h : x.IsCanonical) : IsJson (.float x)
  | text (s : String) : IsJson (.text s)
  | list {items : List Value} (h : ∀ item ∈ items, IsJson item) : IsJson (.list items)
  | fields {fields : List (String × Value)} (hkeys : (fields.map Prod.fst).Nodup)
      (h : ∀ field ∈ fields, IsJson field.2) : IsJson (.ofFields fields)

theorem IsJson.readsBack {value : Value} (h : IsJson value) : ReadsBack value := by
  induction h with
  | null => exact readsBack_null
  | bool b => exact readsBack_bool b
  | int n => exact readsBack_int n
  | float h => exact readsBack_float h
  | text s => exact readsBack_text s
  | list _ ih => exact readsBack_list ih
  | fields hkeys _ ih => exact readsBack_fields hkeys ih

end Json

end EmulatedDevice
