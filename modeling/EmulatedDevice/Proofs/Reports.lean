import EmulatedDevice.Proofs.KeywordOrder
import Mathlib.Data.List.Lex
import Mathlib.Data.Set.Card

/-!
# The report on a refused document

A report shows the violations of a document in the order of their paths, the paths
being lists of texts that are compared as such, and stops after twenty with a remark
on how many are left. The sort is stable, so violations with one path stay in the order
of the keywords they come from. Nothing is shown twice or passed over, and so what is
shown and what is announced make up all that is wrong with the document.
-/

namespace EmulatedDevice.Schema

/-- Paths are compared as lists of texts. -/
theorem pathLe_iff {p q : List String} : pathLe p q = true ↔ p ≤ q := by
  induction p generalizing q with
  | nil => exact iff_of_true rfl (not_lt.1 (List.not_lt_nil q))
  | cons a p ih =>
      cases q with
      | nil => exact iff_of_false nofun (not_le.2 (List.nil_lt_cons a p))
      | cons b q =>
          rw [pathLe, ← not_lt, List.cons_lt_cons_iff]
          split
          · next heq =>
            subst heq
            rw [ih, ← not_lt]
            simp
          · next hne =>
            rw [decide_eq_true_iff, not_or, not_lt]
            exact ⟨fun hlt => ⟨hlt.le, fun h => hne h.1.symm⟩, fun h => lt_of_le_of_ne h.1 hne⟩

/-- The item at place 10 comes before the one at place 2. -/
example : pathLe ["tags", "10"] ["tags", "2"] = true := by decide

theorem isStableSort_sorted (vs : List Violation) :
    IsStableSort Violation.texts vs (sorted vs) :=
  isStableSort_mergeSort vs fun _ _ => pathLe_iff

/-- All that is wrong with a value, each violation once, in the order of the paths and at one place
in the order of the schema. -/
structure ListsAll (schema : Schema) (value : Value) (vs : List Violation) : Prop where
  mem : ∀ v, v ∈ vs ↔ schema.Fails value v
  nodup : vs.Nodup
  inOrder : vs.Pairwise fun v w => v.texts < w.texts ∨ v.texts = w.texts ∧ schema.Before v w

variable {schema : Schema} {value : Value} {vs : List Violation}

theorem Tidy.listsAll (h : schema.Tidy) (value : Value) :
    schema.ListsAll value (sorted (schema.violations value)) := by
  have hsort := isStableSort_sorted (schema.violations value)
  refine ⟨fun v => hsort.perm.mem_iff.trans h.mem_violations_iff,
    hsort.perm.nodup_iff.2 (h.nodup value), ?_⟩
  refine (hsort.ordered.and (hsort.pairwise (h.inOrder value))).imp fun {v w} hvw => ?_
  exact (lt_or_eq_of_le hvw.1).imp_right fun heq => ⟨heq, hvw.2 heq⟩

/-- A list of all that is wrong has as many members as there are things wrong. -/
theorem ListsAll.ncard_eq (h : schema.ListsAll value vs) :
    {v | schema.Fails value v}.ncard = vs.length := by
  classical
  have hset : {v | schema.Fails value v} = (vs.toFinset : Set Violation) := by
    ext v
    simp [h.mem]
  rw [hset, Set.ncard_coe_finset, List.toFinset_card_of_nodup h.nodup]

theorem Rejection.lines_eq (place : String) (vs : List Violation) :
    lines ⟨place, vs⟩ = ((sorted vs).take 20).map (Violation.line place) ++
      if 20 < (sorted vs).length then
        ["... (" ++ toString ((sorted vs).length - 20) ++ " more)"]
      else [] := by
  show _ ++ (if (sorted vs).length - 20 = 0 then [] else _) = _
  by_cases hlong : 20 < (sorted vs).length
  · rw [if_pos hlong, if_neg (Nat.sub_ne_zero_of_lt hlong)]
    rfl
  · rw [if_neg hlong, if_pos (Nat.sub_eq_zero_of_le (Nat.le_of_not_lt hlong))]
    rfl

/-! ## What an entry shows -/

/-- What is said of a violation, complaint by complaint. -/
inductive Complaint.Says : Complaint → String → Prop where
  | wrongKind (value : Value) (kind : String) :
      Says (.wrongKind value kind) (value.display ++ " is not of type " ++ Text.quoted kind)
  | unknownKey (key : Value) :
      Says (.unknownKeys [key])
        ("Additional properties are not allowed (" ++ key.display ++ " was unexpected)")
  | unknownKeys {keys : List Value} (h : keys.length ≠ 1) :
      Says (.unknownKeys keys) ("Additional properties are not allowed ("
        ++ ", ".intercalate (keys.map Value.display) ++ " were unexpected)")
  | missingKey (key : String) :
      Says (.missingKey key) (Text.quoted key ++ " is a required property")
  | noName (s : String) :
      Says (.noName s) (Text.quoted s ++ " does not match " ++ Text.quoted "^[A-Za-z0-9_.+-]+$")
  | emptyText : Says .emptyText (Text.quoted "" ++ " should be non-empty")
  | noAlternative (value : Value) :
      Says (.noAlternative value) (value.display ++ " is not valid under any of the given schemas")

/-- The entry of a report for a violation: the document, the path in it unless the whole document
is meant, and what is said. -/
inductive Violation.ShownBy (place : String) (v : Violation) : String → Prop where
  | whole {said : String} (hsaid : v.complaint.Says said)
      (hpath : "/".intercalate v.texts = "") : ShownBy place v ("- " ++ place ++ ": " ++ said)
  | part {said : String} (hsaid : v.complaint.Says said)
      (hpath : "/".intercalate v.texts ≠ "") :
      ShownBy place v ("- " ++ place ++ ":" ++ "/".intercalate v.texts ++ ": " ++ said)

theorem Complaint.says_message (complaint : Complaint) : complaint.Says complaint.message := by
  cases complaint with
  | wrongKind value kind => exact .wrongKind value kind
  | unknownKeys keys =>
      have hend : (if keys.length = 1 then " was" else " were") ++ " unexpected)" =
          if keys.length = 1 then " was unexpected)" else " were unexpected)" := by
        split <;> decide
      have hmessage : (Complaint.unknownKeys keys).message =
          "Additional properties are not allowed (" ++ ", ".intercalate (keys.map Value.display)
            ++ if keys.length = 1 then " was unexpected)" else " were unexpected)" :=
        String.append_assoc.trans (congrArg (_ ++ ·) hend)
      rw [hmessage]
      split
      · next hone =>
        obtain ⟨key, rfl⟩ := List.length_eq_one_iff.1 hone
        exact .unknownKey key
      · next hmany => exact .unknownKeys hmany
  | missingKey key => exact .missingKey key
  | noName s => exact .noName s
  | emptyText => exact .emptyText
  | noAlternative value => exact .noAlternative value

theorem Violation.shownBy_line (place : String) (v : Violation) :
    v.ShownBy place (v.line place) := by
  have hsaid := v.complaint.says_message
  show v.ShownBy place (_ ++ (if "/".intercalate v.texts = "" then "" else _) ++ _ ++ _)
  by_cases hpath : "/".intercalate v.texts = ""
  · rw [if_pos hpath, String.append_empty]
    exact .whole hsaid hpath
  · rw [if_neg hpath, ← String.append_assoc]
    exact .part hsaid hpath

/-! ## The report -/

/-- What a packaged schema makes of a value with `n` things wrong. With nothing wrong it lets the
value pass. Otherwise its message shows the first twenty of all violations in the order of a stable
sort by the paths, or all if there are no more, and after them how many it leaves out. There is no
message when one of the violations cannot be said, for a number that has too many digits. -/
theorem check_reports (hschema : schema ∈ [device, toolchain]) (place : String) (value : Value) :
    ∃ vs n, IsStableSort Violation.texts (schema.violations value) vs ∧ schema.ListsAll value vs ∧
      n = {v | schema.Fails value v}.ncard ∧ n = vs.length ∧
      (vs.take 20).length = min n 20 ∧
      (∀ v ∈ vs.take 20, ∀ w ∈ vs.drop 20, v.texts ≤ w.texts) ∧
      (n = 0 → schema.check place value = .ok ()) ∧
      (n ≠ 0 → schema.CanReport value → ∃ rejection entries,
        schema.check place value = .error (.rejected rejection) ∧
        List.Forall₂ (Violation.ShownBy place) (vs.take 20) entries ∧
        rejection.message = "\n".intercalate (entries ++
          if 20 < n then ["... (" ++ toString (n - 20) ++ " more)"] else [])) ∧
      (¬ schema.CanReport value → schema.check place value = .error .tooManyDigits) ∧
      (value.isWritable = true → schema.CanReport value) := by
  have htidy : schema.Tidy := by
    rcases List.mem_cons.1 hschema with rfl | hschema
    · exact tidy_device
    · rw [List.mem_singleton.1 hschema]
      exact tidy_toolchain
  have hsort := isStableSort_sorted (schema.violations value)
  have hall := htidy.listsAll value
  have hlength := hsort.perm.length_eq
  have haccepts : schema.Accepts value ↔ (sorted (schema.violations value)).length = 0 := by
    rw [hlength, List.length_eq_zero_iff]
    exact Iff.rfl
  refine ⟨_, _, hsort, hall, hall.ncard_eq.symm, rfl, ?_, ?_, ?_, ?_, check_of_not_canReport,
    canReport_of_isWritable schema value⟩
  · rw [List.length_take, Nat.min_comm]
  · have hordered := hsort.ordered
    rw [← List.take_append_drop 20 (sorted _), List.pairwise_append] at hordered
    exact hordered.2.2
  · exact fun hzero => check_eq_ok_iff.2 (haccepts.2 hzero)
  · intro hsome hreport
    refine ⟨_, _, check_of_canReport (fun h => hsome (haccepts.1 h)) hreport,
      List.forall₂_map_right_iff.2 (List.forall₂_same.2 fun v _ => v.shownBy_line place), ?_⟩
    rw [Rejection.message, Rejection.lines_eq]

/-- A document with no required key and with twenty-one tags that are no texts. -/
def crowded : Value :=
  .ofFields [("tags", .list (List.replicate 21 .null))]

theorem crowded_reported :
    device ∈ [device, toolchain] ∧ {v | device.Fails crowded v}.ncard = 29 ∧
    ∃ rejection entries, device.check "crowded.json" crowded = .error (.rejected rejection) ∧
      entries.length = 20 ∧
      rejection.message = "\n".intercalate (entries ++ ["... (9 more)"]) := by
  have hdevice : device ∈ [device, toolchain] := List.mem_cons_self ..
  obtain ⟨vs, n, hsort, _, hn, hlength, htaken, _, _, hreport, _, hwritable⟩ :=
    check_reports hdevice "crowded.json" crowded
  have hcount : n = 29 := by
    rw [hlength, hsort.perm.length_eq]
    decide +kernel
  subst hcount
  obtain ⟨rejection, entries, hrejection, hshown, hmessage⟩ :=
    hreport (by decide) (hwritable (by decide))
  refine ⟨hdevice, hn.symm, rejection, entries, hrejection, ?_, hmessage⟩
  rw [← hshown.length_eq, htaken]
  rfl

/-- Seven keys are missing from the numbered document, and its name is no text. There is no report
that says so. -/
theorem numbered_not_reported :
    (device.violations Declaration.numbered).length = 8 ∧
      ¬ ∃ rejection, device.check "d.yaml" Declaration.numbered = .error (.rejected rejection) := by
  have hreport : ¬ device.CanReport Declaration.numbered := by decide +kernel
  refine ⟨by decide +kernel, ?_⟩
  rw [check_of_not_canReport hreport]
  exact nofun

end EmulatedDevice.Schema
