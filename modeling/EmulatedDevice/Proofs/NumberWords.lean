import EmulatedDevice.Proofs.JsonPieces
import EmulatedDevice.Proofs.ReorderedValues
import EmulatedDevice.Proofs.SharedNumerals
import EmulatedDevice.Proofs.Violations

/-!
# Words for what is no number

JSON has words for three doubles that are no numbers, and YAML takes these words for
texts. So the readers may find different values in a text with such words. The values
differ in the places of the words only, and the difference is lost where another value
is put under the same key later.

A schema accepts no such double anywhere. What it accepts is therefore the same value
in both notations, whatever words stood in places that were given up.
-/

namespace EmulatedDevice

/-! ## Values that differ in such words -/

mutual

/-- The same value, but perhaps with texts in the place of doubles that are no numbers. -/
inductive Value.TakenAs : Value → Value → Prop where
  | same (v : Value) : TakenAs v v
  | word {x : Binary64} (h : x.toInt? = none) (word : String) : TakenAs (.float x) (.text word)
  | list {vs ws : List Value} (h : ItemsTakenAs vs ws) : TakenAs (.list vs) (.list ws)
  | mapping {entries entries' : List (Value × Value)} (h : EntriesTakenAs entries entries') :
    TakenAs (.mapping entries) (.mapping entries')

inductive Value.ItemsTakenAs : List Value → List Value → Prop where
  | nil : ItemsTakenAs [] []
  | cons {v w : Value} {vs ws : List Value} (h : TakenAs v w) (hmore : ItemsTakenAs vs ws) :
    ItemsTakenAs (v :: vs) (w :: ws)

inductive Value.EntriesTakenAs : List (Value × Value) → List (Value × Value) → Prop where
  | nil : EntriesTakenAs [] []
  | cons {key v w : Value} {entries entries' : List (Value × Value)} (h : TakenAs v w)
    (hmore : EntriesTakenAs entries entries') :
    EntriesTakenAs ((key, v) :: entries) ((key, w) :: entries')

end

namespace Value

variable {v w : Value} {vs ws : List Value}
  {entries entries' pairs pairs' : List (Value × Value)}

theorem TakenAs.exists_mapping (h : (Value.mapping entries).TakenAs w) :
    ∃ entries', w = .mapping entries' := by
  cases h with
  | same | mapping => exact ⟨_, rfl⟩

theorem EntriesTakenAs.put (h : EntriesTakenAs entries entries') (hvalue : v.TakenAs w)
    (key : Value) :
    EntriesTakenAs (Entries.put sameKey key v entries) (Entries.put sameKey key w entries') := by
  induction entries generalizing entries' with
  | nil =>
      cases h
      exact .cons hvalue .nil
  | cons entry entries ih =>
      cases h with
      | cons hfirst hmore =>
          rw [Entries.put, Entries.put]
          split
          · exact .cons hvalue hmore
          · exact .cons hfirst (ih hmore)

theorem EntriesTakenAs.mappingOfPairs (h : EntriesTakenAs pairs pairs') :
    (mappingOfPairs pairs).TakenAs (mappingOfPairs pairs') := by
  -- for the induction, some entries may be there already
  suffices hall : ∀ entries entries', EntriesTakenAs entries entries' → EntriesTakenAs
      (pairs.foldl (fun entries pair => Entries.put sameKey pair.1 pair.2 entries) entries)
      (pairs'.foldl (fun entries pair => Entries.put sameKey pair.1 pair.2 entries) entries') from
    .mapping (hall [] [] .nil)
  induction pairs generalizing pairs' with
  | nil =>
      cases h
      exact fun _ _ hentries => hentries
  | cons pair pairs ih =>
      cases h with
      | cons hfirst hmore =>
          exact fun entries entries' hentries => ih hmore _ _ (hentries.put hfirst _)

theorem ItemsTakenAs.eq (h : ItemsTakenAs vs ws)
    (heq : ∀ v ∈ vs, ∀ w, v.TakenAs w → v = w) : vs = ws := by
  induction vs generalizing ws with
  | nil =>
      cases h
      rfl
  | cons v vs ih =>
      cases h with
      | cons hfirst hmore =>
          rw [heq v List.mem_cons_self _ hfirst,
            ih hmore fun v hv => heq v (List.mem_cons_of_mem _ hv)]

theorem EntriesTakenAs.eq (h : EntriesTakenAs entries entries')
    (heq : ∀ entry ∈ entries, ∀ w, entry.2.TakenAs w → entry.2 = w) : entries = entries' := by
  induction entries generalizing entries' with
  | nil =>
      cases h
      rfl
  | cons entry entries ih =>
      cases h with
      | @cons key v w _ _ hfirst hmore =>
          obtain rfl : v = w := heq (key, v) List.mem_cons_self _ hfirst
          rw [ih hmore fun entry hentry => heq entry (List.mem_cons_of_mem _ hentry)]

end Value

/-! ## What a schema accepts -/

namespace Schema

variable {schema : Schema} {v w : Value}

/-- Every key is known, so what stands in an entry is what is found for it. -/
theorem Accepts.exists_property {required : List String} {properties : List (String × Schema)}
    {entries : List (Value × Value)} {entry : Value × Value}
    (h : (record required properties).Accepts (.mapping entries))
    (hdistinct : Entries.Distinct Value.sameKey entries) (hentry : entry ∈ entries) :
    ∃ property ∈ properties, property.2.Accepts entry.2 := by
  obtain ⟨_, heq, hknown, -, hproperties⟩ := accepts_record_iff.1 h
  cases heq
  obtain ⟨name, hname, hkey⟩ := hknown entry hentry
  obtain ⟨property, hproperty, rfl⟩ := List.mem_map.1 hname
  have hfound : Value.field? property.1 entries = some entry.2 := by
    rw [Value.field?, ← hkey]
    refine Entries.get?_of_mem ?_ hdistinct hentry
    rw [hkey]
    exact Value.sameKey_text_iff.2 rfl
  exact ⟨property, hproperty, hproperties property hproperty _ hfound⟩

theorem Tidy.eq_of_takenAs (h : schema.Tidy) (hkeyed : v.WellKeyed) (haccepts : schema.Accepts v)
    (htaken : v.TakenAs w) : v = w := by
  induction h generalizing v w with
  | null =>
      obtain rfl := accepts_null_iff.1 haccepts
      cases htaken
      rfl
  | integer =>
      rcases accepts_integer_iff.1 haccepts with ⟨n, rfl⟩ | ⟨x, n, rfl, hx⟩
      · cases htaken
        rfl
      · cases htaken with
        | same => rfl
        | word hnone => cases hnone.symm.trans hx
  | text rule =>
      obtain ⟨s, rfl⟩ : ∃ s, v = .text s := by
        cases rule with
        | nonEmpty =>
            obtain ⟨s, hs, -⟩ := accepts_nonEmpty_iff.1 haccepts
            exact ⟨s, hs⟩
        | name =>
            obtain ⟨s, hs, -⟩ := accepts_name_iff.1 haccepts
            exact ⟨s, hs⟩
      cases htaken
      rfl
  | list _ ih =>
      obtain ⟨vs, rfl, hitems⟩ := accepts_list_iff.1 haccepts
      cases htaken with
      | same => rfl
      | list htaken =>
          cases hkeyed with
          | scalar hscalar => cases hscalar
          | list hkeyed =>
              exact congrArg Value.list
                (htaken.eq fun v hv w => ih (hkeyed v hv) (hitems v hv))
  | record _ _ _ ih =>
      obtain ⟨entries, rfl, -⟩ := accepts_record_iff.1 haccepts
      cases htaken with
      | same => rfl
      | mapping htaken =>
          cases hkeyed with
          | scalar hscalar => cases hscalar
          | mapping hdistinct hkeyed =>
              refine congrArg Value.mapping (htaken.eq fun entry hentry w => ?_)
              obtain ⟨property, hproperty, hpart⟩ := haccepts.exists_property hdistinct hentry
              exact ih property hproperty (hkeyed entry hentry) hpart
  | oneOf _ ih =>
      obtain ⟨schema, hschema, haccepts⟩ := accepts_oneOf_iff.1 haccepts
      exact ih schema hschema hkeyed haccepts htaken
  | named _ ih => exact ih hkeyed (accepts_named_iff.1 haccepts) htaken

end Schema

/-! ## One spelling with two tables of words -/

namespace Json

variable {ps : List Piece} {part : Part}

/-- Parts whose values differ in words for what is no number. -/
inductive Part.TakenAs : Part → Part → Prop where
  | value {v w : Value} (h : v.TakenAs w) : TakenAs (.value v) (.value w)
  | items {vs ws : List Value} (h : Value.ItemsTakenAs vs ws) : TakenAs (.items vs) (.items ws)
  | members {pairs pairs' : List (Value × Value)} (h : Value.EntriesTakenAs pairs pairs') :
    TakenAs (.members pairs) (.members pairs')

theorem exists_takenAs_word {word : String} {v : Value} (h : (word, v) ∈ words) :
    ∃ w, (word, w) ∈ Yaml.Node.jsonWords ∧ v.TakenAs w := by
  simp only [words, List.mem_cons, Prod.mk.injEq, List.not_mem_nil, or_false] at h
  rcases h with ⟨rfl, rfl⟩ | ⟨rfl, rfl⟩ | ⟨rfl, rfl⟩ | ⟨rfl, rfl⟩ | ⟨rfl, rfl⟩ | ⟨rfl, rfl⟩
  · exact ⟨.null, by simp [Yaml.Node.jsonWords], .same _⟩
  · exact ⟨.bool true, by simp [Yaml.Node.jsonWords], .same _⟩
  · exact ⟨.bool false, by simp [Yaml.Node.jsonWords], .same _⟩
  · exact ⟨.text "NaN", by simp [Yaml.Node.jsonWords], .word rfl _⟩
  · exact ⟨.text "Infinity", by simp [Yaml.Node.jsonWords], .word rfl _⟩
  · exact ⟨.text "-Infinity", by simp [Yaml.Node.jsonWords], .word rfl _⟩

/-- What pieces spell in JSON they spell in YAML, but for the words for what is no number. -/
theorem Spells.exists_takenAs (h : Spells words ps part) :
    ∃ part', Spells Yaml.Node.jsonWords ps part' ∧ part.TakenAs part' := by
  induction h with
  | string hraw => exact ⟨_, .string hraw, .value (.same _)⟩
  | word hword =>
      obtain ⟨w, hw, htaken⟩ := exists_takenAs_word hword
      exact ⟨_, .word hw, .value htaken⟩
  | number hn => exact ⟨_, .number hn, .value (.same _)⟩
  | emptyList hgap => exact ⟨_, .emptyList hgap, .value (.same _)⟩
  | list hgap _ ih =>
      obtain ⟨_, hspells, htaken⟩ := ih
      cases htaken with
      | items hitems => exact ⟨_, .list hgap hspells, .value (.list hitems)⟩
  | lastItem _ hgap ih =>
      obtain ⟨_, hspells, ⟨htaken⟩⟩ := ih
      exact ⟨_, .lastItem hspells hgap, .items (.cons htaken .nil)⟩
  | item _ hgap hgap' _ ih ihmore =>
      obtain ⟨_, hspells, ⟨htaken⟩⟩ := ih
      obtain ⟨_, hspells', htaken'⟩ := ihmore
      cases htaken' with
      | items hmore => exact ⟨_, .item hspells hgap hgap' hspells', .items (.cons htaken hmore)⟩
  | emptyMapping hgap => exact ⟨_, .emptyMapping hgap, .value (.same _)⟩
  | mapping hgap _ ih =>
      obtain ⟨_, hspells, htaken⟩ := ih
      cases htaken with
      | members hpairs => exact ⟨_, .mapping hgap hspells, .value hpairs.mappingOfPairs⟩
  | lastMember hname hgap hgap' _ hgap'' ih =>
      obtain ⟨_, hspells, ⟨htaken⟩⟩ := ih
      exact ⟨_, .lastMember hname hgap hgap' hspells hgap'', .members (.cons htaken .nil)⟩
  | member hname hgap hgap' _ hgap'' hgap₃ _ ih ihmore =>
      obtain ⟨_, hspells, ⟨htaken⟩⟩ := ih
      obtain ⟨_, hspells', htaken'⟩ := ihmore
      cases htaken' with
      | members hmore =>
          exact ⟨_, .member hname hgap hgap' hspells hgap'' hgap₃ hspells',
            .members (.cons htaken hmore)⟩

end Json

end EmulatedDevice
