import EmulatedDevice.Proofs.JsonPieces
import EmulatedDevice.Yaml.Document

/-!
# What tokens inside brackets stand for

A document that is a value between brackets or braces has tokens of a few kinds only:
the brackets themselves, commas, scalars, and for each member of a mapping a key that
was announced. `Announces` says how these make up the parts of a document. What they
are composed to has just this value: a sequence the list of its items, and a mapping
what its members make, for no member is merged into it.
-/

namespace EmulatedDevice.Yaml

open Json (Part)

/-- Tokens stand for a value, for the items of a list up to the closing bracket, or for the members
of a mapping up to the closing brace. -/
inductive Announces : List Token → Part → Prop where
  | string (text : String) : Announces [.scalar text false] (.value (.text text))
  | plain {text : String} {v : Value} (h : Node.scalarValue (Tag.resolve text) text = .ok v) :
    Announces [.scalar text true] (.value v)
  | emptyList : Announces [.flowSequenceStart, .flowSequenceEnd] (.value (.list []))
  | list {ts : List Token} {vs : List Value} (h : Announces ts (.items vs)) :
    Announces (.flowSequenceStart :: ts) (.value (.list vs))
  | lastItem {ts : List Token} {v : Value} (h : Announces ts (.value v)) :
    Announces (ts ++ [.flowSequenceEnd]) (.items [v])
  | item {ts more : List Token} {v : Value} {vs : List Value} (h : Announces ts (.value v))
    (hmore : Announces more (.items vs)) : Announces (ts ++ .flowEntry :: more) (.items (v :: vs))
  | emptyMapping : Announces [.flowMappingStart, .flowMappingEnd] (.value (.mapping []))
  | mapping {ts : List Token} {pairs : List (Value × Value)} (h : Announces ts (.members pairs)) :
    Announces (.flowMappingStart :: ts) (.value (.mappingOfPairs pairs))
  | lastMember (name : String) {ts : List Token} {v : Value} (h : Announces ts (.value v)) :
    Announces (.key :: .scalar name false :: .value :: (ts ++ [.flowMappingEnd]))
      (.members [(.text name, v)])
  | member (name : String) {ts more : List Token} {v : Value} {pairs : List (Value × Value)}
    (h : Announces ts (.value v)) (hmore : Announces more (.members pairs)) :
    Announces (.key :: .scalar name false :: .value :: (ts ++ .flowEntry :: more))
      (.members ((.text name, v) :: pairs))

/-- Whether a token is the first one of a node without properties. -/
def Token.beginsNode : Token → Bool
  | .scalar .. | .flowSequenceStart | .flowMappingStart => true
  | _ => false

theorem Announces.exists_head {ts : List Token} {v : Value} (h : Announces ts (.value v)) :
    ∃ t more, ts = t :: more ∧ t.beginsNode = true := by
  cases h with
  | string | plain | emptyList | list | emptyMapping | mapping => exact ⟨_, _, rfl, rfl⟩

namespace Node

/-! ## Steps of composing -/

section Steps

variable {α β : Type} {s s' s'' : Composition} {fuel : Nat} {first : Bool} {t : Token}
  {rest : List Token} {items : List Node} {pairs : List (Node × Node)} {x : Node}

/-- A step of composing goes from one state to another and gives a result. -/
def Gives (m : Compose α) (s : Composition) (a : α) (s' : Composition) : Prop :=
  m.run s = .ok (a, s')

theorem Gives.bind {m : Compose α} {f : α → Compose β} {a : α} {b : β} (h : Gives m s a s')
    (h' : Gives (f a) s' b s'') : Gives (m >>= f) s b s'' := by
  rw [Gives, StateT.run_bind, h]
  exact h'

theorem gives_pure (a : α) (s : Composition) : Gives (pure a) s a s := rfl

theorem gives_peek (h : s.tokens = t :: rest) : Gives peek s (some t) s := by
  rw [Gives, peek]
  exact congrArg (fun o => Except.ok (o, s)) (by rw [h]; rfl)

theorem gives_advance (h : s.tokens = t :: rest) :
    Gives advance s () { s with tokens := rest } := by
  obtain rfl : s.tokens.tail = rest := by
    rw [h]
    rfl
  rfl

theorem gives_skip? (h : s.tokens = t :: rest) :
    Gives (skip? t) s true { s with tokens := rest } := by
  refine (gives_peek h).bind ?_
  rw [if_pos rfl]
  exact (gives_advance h).bind (gives_pure true _)

theorem gives_skip?_false {token : Token} (h : s.tokens = t :: rest) (hne : t ≠ token) :
    Gives (skip? token) s false s := by
  refine (gives_peek h).bind ?_
  rw [if_neg (fun heq => hne (Option.some.inj heq))]
  exact gives_pure false s

theorem gives_nextIsOneOf (tokens : List Token) (h : s.tokens = t :: rest) :
    Gives (nextIsOneOf tokens) s (tokens.contains t) s :=
  (gives_peek h).bind (gives_pure _ s)

theorem gives_flowItems_end (h : s.tokens = .flowSequenceEnd :: rest) :
    Gives (flowItems (fuel + 1) first) s [] { s with tokens := rest } := by
  rw [flowItems]
  exact (gives_skip? h).bind (gives_pure [] _)

/-- The first item of a sequence and the others. -/
theorem gives_flowItems_first (h : s.tokens = t :: rest) (ht : t.beginsNode = true)
    (hitem : Gives (node fuel false false) s x s')
    (hmore : Gives (flowItems fuel false) s' items s'') :
    Gives (flowItems (fuel + 1) true) s (x :: items) s'' := by
  have hne : ∀ token : Token, token.beginsNode = false → t ≠ token := by
    rintro _ htoken rfl
    rw [ht] at htoken
    cases htoken
  rw [flowItems]
  refine (gives_skip?_false h (hne _ rfl)).bind ?_
  refine (gives_skip?_false h (hne _ rfl)).bind ?_
  refine (gives_skip?_false h (hne _ rfl)).bind ?_
  exact hitem.bind (hmore.bind (gives_pure _ _))

/-- An item that follows another one, and those after it. -/
theorem gives_flowItems_next (h : s.tokens = .flowEntry :: t :: rest) (ht : t.beginsNode = true)
    (hitem : Gives (node fuel false false) { s with tokens := t :: rest } x s')
    (hmore : Gives (flowItems fuel false) s' items s'') :
    Gives (flowItems (fuel + 1) false) s (x :: items) s'' := by
  have hne : ∀ token : Token, token.beginsNode = false → t ≠ token := by
    rintro _ htoken rfl
    rw [ht] at htoken
    cases htoken
  rw [flowItems]
  refine (gives_skip?_false h (by decide)).bind ?_
  refine (gives_skip? h).bind ?_
  refine (gives_skip?_false rfl (hne _ rfl)).bind ?_
  refine (gives_skip?_false rfl (hne _ rfl)).bind ?_
  exact hitem.bind (hmore.bind (gives_pure _ _))

theorem gives_flowPairs_end (h : s.tokens = .flowMappingEnd :: rest) :
    Gives (flowPairs (fuel + 1) first) s [] { s with tokens := rest } := by
  rw [flowPairs]
  exact (gives_skip? h).bind (gives_pure [] _)

theorem gives_takeProperties (h : s.tokens = t :: rest) (ht : t.beginsNode = true) :
    Gives takeProperties s (none, none) s := by
  have hanchor : Gives takeAnchor s none s := by
    refine (gives_peek h).bind ?_
    cases t <;> first | exact gives_pure none s | cases ht
  have htag : Gives takeTag s none s := by
    refine (gives_peek h).bind ?_
    cases t <;> first | exact gives_pure none s | cases ht
  exact hanchor.bind (htag.bind (hanchor.bind (gives_pure _ s)))

theorem gives_node (h : s.tokens = t :: rest) (ht : t.beginsNode = true) {block flush : Bool}
    (hcontent : Gives (content fuel block flush none false) s x s') :
    Gives (node (fuel + 1) block flush) s x s' := by
  rw [node]
  refine (gives_peek h).bind ?_
  cases t <;> first | exact (gives_takeProperties h rfl).bind hcontent | cases ht

theorem gives_scalar (text : String) (plain : Bool) (h : s.tokens = .scalar text plain :: rest)
    (block flush : Bool) :
    Gives (node (fuel + 2) block flush) s
      (.scalar (if plain then .resolve text else .string) text) { s with tokens := rest } := by
  refine gives_node h rfl ?_
  rw [content]
  exact (gives_peek h).bind ((gives_advance h).bind (gives_pure _ _))

theorem gives_sequence (h : s.tokens = .flowSequenceStart :: rest) (block flush : Bool)
    (hitems : Gives (flowItems fuel true) { s with tokens := rest } items s') :
    Gives (node (fuel + 2) block flush) s (.sequence .sequence items) s' := by
  refine gives_node h rfl ?_
  rw [content]
  exact (gives_peek h).bind ((gives_advance h).bind (hitems.bind (gives_pure _ _)))

theorem gives_mapping (h : s.tokens = .flowMappingStart :: rest) (block flush : Bool)
    (hpairs : Gives (flowPairs fuel true) { s with tokens := rest } pairs s') :
    Gives (node (fuel + 2) block flush) s (.mapping .mapping pairs) s' := by
  refine gives_node h rfl ?_
  rw [content]
  exact (gives_peek h).bind ((gives_advance h).bind (hpairs.bind (gives_pure _ _)))

theorem gives_nodeUnless {stops : List Token} (h : s.tokens = t :: rest)
    (hstops : stops.contains t = false) {block flush : Bool}
    (hnode : Gives (node fuel block flush) s x s') :
    Gives (nodeUnless (fuel + 1) stops block flush) s x s' := by
  rw [nodeUnless]
  refine (gives_nextIsOneOf stops h).bind ?_
  rw [hstops]
  exact hnode

/-- A member of a mapping: an announced key between quotes, and a value. -/
theorem gives_member {key : String}
    (h : s.tokens = .key :: .scalar key false :: .value :: t :: rest)
    (ht : t.beginsNode = true)
    (hvalue : Gives (node (fuel + 1) false false) { s with tokens := t :: rest } x s')
    (hmore : Gives (flowPairs (fuel + 3) false) s' pairs s'') :
    Gives (do
      if ← skip? .key then
        let key ← nodeUnless (fuel + 3) [.value, .flowEntry, .flowMappingEnd] false false
        let value ← valueUnless (fuel + 3) [.flowEntry, .flowMappingEnd] false false
        return (key, value) :: (← flowPairs (fuel + 3) false)
      else if ← skip? .flowMappingEnd then return []
      else
        let key ← node (fuel + 3) false false
        return (key, empty) :: (← flowPairs (fuel + 3) false)) s
      ((.scalar .string key, x) :: pairs) s'' := by
  have hstops : [Token.flowEntry, .flowMappingEnd].contains t = false := by
    cases t <;> first | rfl | cases ht
  refine (gives_skip? h).bind ?_
  refine (gives_nodeUnless rfl rfl (gives_scalar key false rfl false false)).bind ?_
  have hread : Gives (valueUnless (fuel + 3) [.flowEntry, .flowMappingEnd] false false)
      { s with tokens := .value :: t :: rest } x s' := by
    rw [valueUnless]
    exact (gives_skip? rfl).bind (gives_nodeUnless rfl hstops hvalue)
  exact hread.bind (hmore.bind (gives_pure _ _))

/-- The first member of a mapping and the others. -/
theorem gives_flowPairs_first {key : String}
    (h : s.tokens = .key :: .scalar key false :: .value :: t :: rest) (ht : t.beginsNode = true)
    (hvalue : Gives (node (fuel + 1) false false) { s with tokens := t :: rest } x s')
    (hmore : Gives (flowPairs (fuel + 3) false) s' pairs s'') :
    Gives (flowPairs (fuel + 4) true) s ((.scalar .string key, x) :: pairs) s'' := by
  rw [flowPairs]
  exact (gives_skip?_false h (by decide)).bind (gives_member h ht hvalue hmore)

/-- A member that follows another one, and those after it. -/
theorem gives_flowPairs_next {key : String}
    (h : s.tokens = .flowEntry :: .key :: .scalar key false :: .value :: t :: rest)
    (ht : t.beginsNode = true)
    (hvalue : Gives (node (fuel + 1) false false) { s with tokens := t :: rest } x s')
    (hmore : Gives (flowPairs (fuel + 3) false) s' pairs s'') :
    Gives (flowPairs (fuel + 4) false) s ((.scalar .string key, x) :: pairs) s'' := by
  rw [flowPairs]
  refine (gives_skip?_false h (by decide)).bind ?_
  exact (gives_skip? h).bind (gives_member rfl ht hvalue hmore)

theorem gives_peek_end (h : s.tokens = []) : Gives peek s none s := by
  rw [Gives, peek]
  exact congrArg (fun o => Except.ok (o, s)) (by rw [h]; rfl)

/-- A document that is a node and nothing else. -/
theorem gives_document (h : s.tokens = t :: rest) (ht : t.beginsNode = true)
    (hroot : Gives (node fuel true false) s x s') (hend : s'.tokens = []) :
    Gives (document fuel) s x s' := by
  have hskip : Gives (skipEnds fuel) s' () s' := by
    cases fuel with
    | zero => exact gives_pure () s'
    | succ fuel =>
        rw [skipEnds]
        have hnone : Gives (skip? .documentEnd) s' false s' :=
          (gives_peek_end hend).bind (gives_pure false s')
        exact hnone.bind (gives_pure () s')
  rw [document]
  refine (gives_peek h).bind ?_
  have hlast : Gives (do
      let root ← node fuel true false
      skipEnds fuel
      if (← peek).isSome then throw .malformed
      return root) s x s' := by
    refine hroot.bind (hskip.bind ?_)
    exact (gives_peek_end hend).bind (gives_pure x s')
  cases t <;> first | exact hlast | cases ht

end Steps

/-! ## What announced parts are composed to -/

/-- Tokens are composed to something of a value: to a node, or to the items or pairs of one. The
items and pairs may come first, or behind a comma. -/
def Composes (ts : List Token) : Part → Prop
  | .value v => ∃ x : Node,
      (∀ (s : Composition) (rest : List Token) (fuel : Nat) (block flush : Bool),
        s.tokens = ts ++ rest → 4 * ts.length ≤ fuel →
        Gives (node fuel block flush) s x { s with tokens := rest }) ∧
      ∀ depth, x.toValue depth = .ok v
  | .items vs => ∃ xs : List Node,
      (∀ (s : Composition) (rest : List Token) (fuel : Nat), 4 * ts.length ≤ fuel →
        (s.tokens = ts ++ rest → Gives (flowItems fuel true) s xs { s with tokens := rest }) ∧
        (s.tokens = .flowEntry :: (ts ++ rest) →
          Gives (flowItems fuel false) s xs { s with tokens := rest })) ∧
      ∀ depth, itemValues depth xs = .ok vs
  | .members pairs => ∃ xs : List (Node × Node),
      (∀ (s : Composition) (rest : List Token) (fuel : Nat), 4 * ts.length ≤ fuel →
        (s.tokens = ts ++ rest → Gives (flowPairs fuel true) s xs { s with tokens := rest }) ∧
        (s.tokens = .flowEntry :: (ts ++ rest) →
          Gives (flowPairs fuel false) s xs { s with tokens := rest })) ∧
      ∀ depth, mergedPairs depth xs = .ok [] ∧ ownPairs depth xs = .ok pairs

section Composing

variable {ts more rest after : List Token} {v : Value} {vs : List Value}
  {pairs : List (Value × Value)} {x : Node} {xs : List Node} {ps : List (Node × Node)}

theorem toValue_scalar {tag : Tag} {text : String} (h : scalarValue tag text = .ok v)
    (depth : Nat) : toValue depth (.scalar tag text) = .ok v := by
  rw [toValue, h]
  rfl

theorem itemValues_cons {depth : Nat} (hx : toValue depth x = .ok v)
    (hxs : itemValues depth xs = .ok vs) : itemValues depth (x :: xs) = .ok (v :: vs) := by
  rw [itemValues, hx, hxs]
  rfl

/-- A key between quotes is a text, and never merges anything. -/
theorem pairs_cons {depth : Nat} (key : String) (hx : toValue depth x = .ok v)
    (hps : mergedPairs depth ps = .ok [] ∧ ownPairs depth ps = .ok pairs) :
    mergedPairs depth ((.scalar .string key, x) :: ps) = .ok [] ∧
      ownPairs depth ((.scalar .string key, x) :: ps) = .ok ((.text key, v) :: pairs) := by
  obtain ⟨hmerged, hown⟩ := hps
  have htag : (Node.scalar .string key).tag ≠ .merge := by
    rw [tag]
    decide
  constructor
  · rw [mergedPairs, if_neg htag, hmerged]
  · rw [ownPairs, if_neg htag, hx, hown]
    rfl

theorem gives_flowItems_cons (h : Announces ts (.value v)) {s : Composition} {fuel : Nat}
    (hx : ∀ s : Composition, s.tokens = ts ++ after →
      Gives (node fuel false false) s x { s with tokens := after })
    (hmore : Gives (flowItems fuel false) { s with tokens := after } xs
      { s with tokens := rest }) :
    (s.tokens = ts ++ after →
      Gives (flowItems (fuel + 1) true) s (x :: xs) { s with tokens := rest }) ∧
    (s.tokens = .flowEntry :: (ts ++ after) →
      Gives (flowItems (fuel + 1) false) s (x :: xs) { s with tokens := rest }) := by
  obtain ⟨t, more, rfl, ht⟩ := h.exists_head
  exact ⟨fun hs => gives_flowItems_first hs ht (hx s hs) hmore,
    fun hs => gives_flowItems_next hs ht (hx { s with tokens := _ } rfl) hmore⟩

theorem gives_flowPairs_cons (h : Announces ts (.value v)) (key : String) {s : Composition}
    {fuel : Nat}
    (hx : ∀ s : Composition, s.tokens = ts ++ after →
      Gives (node (fuel + 1) false false) s x { s with tokens := after })
    (hmore : Gives (flowPairs (fuel + 3) false) { s with tokens := after } ps
      { s with tokens := rest }) :
    (s.tokens = .key :: .scalar key false :: .value :: (ts ++ after) →
      Gives (flowPairs (fuel + 4) true) s ((.scalar .string key, x) :: ps)
        { s with tokens := rest }) ∧
    (s.tokens = .flowEntry :: .key :: .scalar key false :: .value :: (ts ++ after) →
      Gives (flowPairs (fuel + 4) false) s ((.scalar .string key, x) :: ps)
        { s with tokens := rest }) := by
  obtain ⟨t, more, rfl, ht⟩ := h.exists_head
  exact ⟨fun hs => gives_flowPairs_first hs ht (hx { s with tokens := _ } rfl) hmore,
    fun hs => gives_flowPairs_next hs ht (hx { s with tokens := _ } rfl) hmore⟩

theorem composes_scalar {text : String} (plain : Bool)
    (h : scalarValue (if plain then .resolve text else .string) text = .ok v) :
    Composes [.scalar text plain] (.value v) := by
  refine ⟨.scalar (if plain then .resolve text else .string) text,
    fun s rest fuel block flush hs hfuel => ?_, toValue_scalar h⟩
  obtain ⟨fuel, rfl⟩ := Nat.exists_eq_add_of_le' (show 2 ≤ fuel by simp at hfuel; omega)
  exact gives_scalar text plain hs block flush

theorem composes_emptyList :
    Composes [.flowSequenceStart, .flowSequenceEnd] (.value (.list [])) := by
  refine ⟨.sequence .sequence [], fun s rest fuel block flush hs hfuel => ?_, fun depth => ?_⟩
  · obtain ⟨fuel, rfl⟩ := Nat.exists_eq_add_of_le' (show 3 ≤ fuel by simp at hfuel; omega)
    exact gives_sequence hs block flush (gives_flowItems_end rfl)
  · rw [toValue, if_pos rfl, itemValues]
    rfl

theorem Composes.list (h : Composes ts (.items vs)) :
    Composes (.flowSequenceStart :: ts) (.value (.list vs)) := by
  obtain ⟨xs, hxs, hvalues⟩ := h
  refine ⟨.sequence .sequence xs, fun s rest fuel block flush hs hfuel => ?_, fun depth => ?_⟩
  · rw [List.length_cons] at hfuel
    obtain ⟨fuel, rfl⟩ := Nat.exists_eq_add_of_le' (show 2 ≤ fuel by omega)
    exact gives_sequence hs block flush ((hxs _ rest fuel (by omega)).1 rfl)
  · rw [toValue, if_pos rfl, hvalues]
    rfl

theorem Composes.lastItem (hts : Announces ts (.value v)) (h : Composes ts (.value v)) :
    Composes (ts ++ [.flowSequenceEnd]) (.items [v]) := by
  obtain ⟨x, hx, hvalue⟩ := h
  refine ⟨[x], fun s rest fuel hfuel => ?_, fun depth => itemValues_cons (hvalue depth) rfl⟩
  rw [List.length_append, List.length_singleton] at hfuel
  obtain ⟨fuel, rfl⟩ := Nat.exists_eq_add_of_le' (show 2 ≤ fuel by omega)
  rw [List.append_assoc]
  exact gives_flowItems_cons hts (fun s hs => hx s _ _ _ _ hs (by omega))
    (gives_flowItems_end rfl)

theorem Composes.item (hts : Announces ts (.value v)) (h : Composes ts (.value v))
    (hmore : Composes more (.items vs)) :
    Composes (ts ++ .flowEntry :: more) (.items (v :: vs)) := by
  obtain ⟨x, hx, hvalue⟩ := h
  obtain ⟨xs, hxs, hvalues⟩ := hmore
  refine ⟨x :: xs, fun s rest fuel hfuel => ?_,
    fun depth => itemValues_cons (hvalue depth) (hvalues depth)⟩
  rw [List.length_append, List.length_cons] at hfuel
  obtain ⟨fuel, rfl⟩ := Nat.exists_eq_add_of_le' (show 1 ≤ fuel by omega)
  rw [List.append_assoc]
  exact gives_flowItems_cons hts (fun s hs => hx s _ _ _ _ hs (by omega))
    ((hxs _ rest fuel (by omega)).2 rfl)

theorem composes_emptyMapping :
    Composes [.flowMappingStart, .flowMappingEnd] (.value (.mapping [])) := by
  refine ⟨.mapping .mapping [], fun s rest fuel block flush hs hfuel => ?_, fun depth => ?_⟩
  · obtain ⟨fuel, rfl⟩ := Nat.exists_eq_add_of_le' (show 3 ≤ fuel by simp at hfuel; omega)
    exact gives_mapping hs block flush (gives_flowPairs_end rfl)
  · rw [toValue, if_pos rfl, mergedPairs, ownPairs]
    rfl

theorem Composes.mapping (h : Composes ts (.members pairs)) :
    Composes (.flowMappingStart :: ts) (.value (.mappingOfPairs pairs)) := by
  obtain ⟨ps, hps, hpairs⟩ := h
  refine ⟨.mapping .mapping ps, fun s rest fuel block flush hs hfuel => ?_, fun depth => ?_⟩
  · rw [List.length_cons] at hfuel
    obtain ⟨fuel, rfl⟩ := Nat.exists_eq_add_of_le' (show 2 ≤ fuel by omega)
    exact gives_mapping hs block flush ((hps _ rest fuel (by omega)).1 rfl)
  · rw [toValue, if_pos rfl, (hpairs _).1, (hpairs _).2]
    rfl

theorem Composes.lastMember (name : String) (hts : Announces ts (.value v))
    (h : Composes ts (.value v)) :
    Composes (.key :: .scalar name false :: .value :: (ts ++ [.flowMappingEnd]))
      (.members [(.text name, v)]) := by
  obtain ⟨x, hx, hvalue⟩ := h
  refine ⟨[(.scalar .string name, x)], fun s rest fuel hfuel => ?_,
    fun depth => pairs_cons name (hvalue depth) ⟨rfl, rfl⟩⟩
  simp only [List.length_cons, List.length_append, List.length_nil] at hfuel
  obtain ⟨fuel, rfl⟩ := Nat.exists_eq_add_of_le' (show 4 ≤ fuel by omega)
  simp only [List.cons_append, List.append_assoc]
  exact gives_flowPairs_cons hts name (fun s hs => hx s _ _ _ _ hs (by omega))
    (gives_flowPairs_end rfl)

theorem Composes.member (name : String) (hts : Announces ts (.value v))
    (h : Composes ts (.value v)) (hmore : Composes more (.members pairs)) :
    Composes (.key :: .scalar name false :: .value :: (ts ++ .flowEntry :: more))
      (.members ((.text name, v) :: pairs)) := by
  obtain ⟨x, hx, hvalue⟩ := h
  obtain ⟨ps, hps, hpairs⟩ := hmore
  refine ⟨(.scalar .string name, x) :: ps, fun s rest fuel hfuel => ?_,
    fun depth => pairs_cons name (hvalue depth) (hpairs depth)⟩
  simp only [List.length_cons, List.length_append] at hfuel
  obtain ⟨fuel, rfl⟩ := Nat.exists_eq_add_of_le' (show 4 ≤ fuel by omega)
  simp only [List.cons_append, List.append_assoc]
  exact gives_flowPairs_cons hts name (fun s hs => hx s _ _ _ _ hs (by omega))
    ((hps _ rest (fuel + 3) (by omega)).2 rfl)

/-- Tokens that announce a part of a document are composed to it. -/
theorem composes_of_announces {part : Part} (h : Announces ts part) : Composes ts part := by
  induction h with
  | string text => exact composes_scalar false rfl
  | plain h => exact composes_scalar true h
  | emptyList => exact composes_emptyList
  | list _ ih => exact ih.list
  | lastItem h ih => exact .lastItem h ih
  | item h _ ih ihmore => exact .item h ih ihmore
  | emptyMapping => exact composes_emptyMapping
  | mapping _ ih => exact ih.mapping
  | lastMember name h ih => exact .lastMember name h ih
  | member name h _ ih ihmore => exact .member name h ih ihmore

/-- The tokens of a whole document make the value that they announce. -/
theorem ofTokens_announced (h : Announces ts (.value v)) :
    ∃ root, ofTokens ts = .ok root ∧ root.toValue 0 = .ok v := by
  obtain ⟨t, more, rfl, ht⟩ := h.exists_head
  obtain ⟨x, hx, hvalue⟩ := composes_of_announces h
  have hroot : Gives (node (4 * (t :: more).length + 4) true false)
      ⟨t :: more, [], standardHandles⟩ x ⟨[], [], standardHandles⟩ :=
    hx ⟨t :: more, [], standardHandles⟩ [] _ true false (List.append_nil _).symm (by omega)
  refine ⟨x, ?_, hvalue 0⟩
  rw [ofTokens, gives_document rfl ht hroot rfl]
  rfl

end Composing

end Node

end EmulatedDevice.Yaml
