import EmulatedDevice.Proofs.PackagedScript

/-!
# A script gives its values back

The packaged template puts every hole between double quotes. A value that holds none
ends where the next quote stands, whatever else it is made of: newlines, percent
signs, a token, a line of the script itself. The rest of a script is the same in all
of them, so whoever knows the lines of the template can go along a script, pass over
what is known and read a value up to its quote (`Template.readBack`). A script is
therefore filled with one set of values only.
-/

namespace EmulatedDevice

namespace Template

open Placeholder

/-! ## Lines with a quoted hole -/

/-- A line whose hole, if it has one, is closed by a double quote. -/
def Line.IsQuoted : Line → Prop
  | .plain _ => True
  | .around _ _ after => after.toList.head? = some '"'

instance : (line : Line) → Decidable line.IsQuoted
  | .plain _ => inferInstanceAs (Decidable True)
  | .around _ _ after => inferInstanceAs (Decidable (after.toList.head? = some '"'))

/-- The values between the known parts of a text that lines were filled to, each up to its
closing quote. -/
def readBack : List Line → List Char → Bindings
  | [], _ => []
  | .plain line :: lines, text => readBack lines (text.drop (line.toList.length + 1))
  | .around before p after :: lines, text =>
    let opened := text.drop before.toList.length
    let value := opened.takeWhile (· ≠ '"')
    (p, .ofList value) ::
      readBack lines (opened.drop (value.length + (after.toList.length + 1)))

/-- Whatever holds no double quote is read back, hole by hole. -/
theorem readBack_written {lines : List Line} (h : ∀ line ∈ lines, line.IsQuoted)
    {value : Placeholder → String} (hvalue : ∀ p, '"' ∉ (value p).toList) :
    readBack lines (written value lines).toList =
      (lines.filterMap Line.hole?).map fun p => (p, value p) := by
  induction lines with
  | nil => rfl
  | cons line lines ih =>
      obtain ⟨hline, hlines⟩ := List.forall_mem_cons.1 h
      rw [written_cons]
      cases line with
      | plain line =>
          have hrest : (line.toList ++ '\n' :: (written value lines).toList).drop
              (line.toList.length + 1) = (written value lines).toList := by
            simp
          rw [Line.written, readBack, hrest, ih hlines]
          rfl
      | around before p after =>
          obtain ⟨closing, hafter⟩ := List.head?_eq_some_iff.1 hline
          have htext : ((Line.around before p after).written value).toList ++
              '\n' :: (written value lines).toList =
                before.toList ++ ((value p).toList ++
                  '"' :: (closing ++ '\n' :: (written value lines).toList)) := by
            simp [Line.written, hafter]
          have hclosed : ((value p).toList ++
              '"' :: (closing ++ '\n' :: (written value lines).toList)).drop
                ((value p).toList.length + (after.toList.length + 1)) =
              (written value lines).toList := by
            simp [hafter]
          rw [htext, readBack, List.drop_left, takeWhile_mark (hvalue p), hclosed, ih hlines,
            String.ofList_toList]
          rfl

/-! ## The packaged template -/

theorem isQuoted_packagedShape : ∀ line ∈ packagedShape, line.IsQuoted := by
  decide +kernel

theorem mem_holes_packagedShape (p : Placeholder) : p ∈ packagedShape.filterMap Line.hole? := by
  cases p <;> decide +kernel

end Template

/-- Bindings with a value for every placeholder and no double quote in any of them. -/
def Bindings.IsUnquoted (bindings : Bindings) : Prop :=
  ∀ p, ∃ value, bindings.get? p = some value ∧ '"' ∉ value.toList

theorem Bindings.get?_map_of_mem {ps : List Placeholder} {p : Placeholder} (h : p ∈ ps)
    (value : Placeholder → String) :
    get? (ps.map fun q => (q, value q)) p = some (value p) := by
  induction ps with
  | nil => cases h
  | cons q rest ih =>
      unfold get? at ih ⊢
      rw [List.map_cons, Entries.get?]
      by_cases hq : q = p
      · simp [hq]
      · simpa [hq] using ih ((List.mem_cons.1 h).resolve_left (Ne.symm hq))

namespace Template

/-- Bindings without a double quote fill the packaged template, and each of their values is found
again in the script. So two such bindings that give the same script are the same. -/
theorem values_recovered {bindings bindings' : Bindings} (h : bindings.IsUnquoted)
    (h' : bindings'.IsUnquoted) :
    (∃ text, expand packaged bindings = .ok text ∧
      ∀ p, (readBack packagedShape text.toList).get? p = bindings.get? p) ∧
    (expand packaged bindings = expand packaged bindings' →
      ∀ p, bindings.get? p = bindings'.get? p) := by
  have hread : ∀ {bindings : Bindings}, bindings.IsUnquoted →
      ∃ text, expand packaged bindings = .ok text ∧
        ∀ p, (readBack packagedShape text.toList).get? p = bindings.get? p := by
    intro bindings h
    obtain ⟨value, hvalue⟩ := Classical.axiomOfChoice h
    refine ⟨_, expand_packaged fun p => (hvalue p).1, fun p => ?_⟩
    rw [readBack_written isQuoted_packagedShape fun p => (hvalue p).2,
      Bindings.get?_map_of_mem (mem_holes_packagedShape p), (hvalue p).1]
  obtain ⟨text, htext, hback⟩ := hread h
  obtain ⟨text', htext', hback'⟩ := hread h'
  refine ⟨⟨text, htext, hback⟩, fun heq p => ?_⟩
  obtain rfl : text = text' := Except.ok.inj (htext.symm.trans (heq.trans htext'))
  rw [← hback p, hback' p]

/-- Every placeholder bound to its own token, with the beginning of a later line behind it. -/
def confusing : Bindings :=
  Placeholder.all.map fun p => (p, p.token ++ "\n  --adb=")

theorem confusing_recovered :
    confusing.IsUnquoted ∧
      ∃ text, expand packaged confusing = .ok text ∧
        (readBack packagedShape text.toList).get? .adb = some "%adb%\n  --adb=" := by
  have h : confusing.IsUnquoted := fun p => by cases p <;> exact ⟨_, rfl, by decide⟩
  obtain ⟨⟨text, htext, hback⟩, _⟩ := values_recovered h h
  exact ⟨h, text, htext, hback .adb⟩

end Template

end EmulatedDevice
