import EmulatedDevice.Proofs.Assembly
import EmulatedDevice.Stub.Packaged

/-!
# The script that the packaged template gives

A token holds no newline, so a template of many lines can be filled line by line,
and a line with one token is the text around a hole. The packaged template is of
this kind: two lines set a variable, fourteen pass a flag to the launcher, and all
others are the same in every script. What a script passes to the launcher can then
be read off as a list of flags and values, whatever the values hold.
-/

namespace EmulatedDevice.Template

open Placeholder

/-! ## Templates of lines -/

theorem freeOfTokens_of_not_mem {literal : List Char} (h : '%' ∉ literal) (next : List Char) :
    FreeOfTokens literal next := by
  intro rest hrest hne p hp
  obtain ⟨c, rest, rfl⟩ := List.exists_cons_of_ne_nil hne
  rw [token_toList, List.cons_append, List.cons_prefix_cons] at hp
  exact h (hrest.mem (hp.1 ▸ List.mem_cons_self ..))

/-- A line of a template: a text that stays, or a hole with the text before and behind it. -/
inductive Line where
  | plain (text : String)
  | around (before : String) (p : Placeholder) (after : String)
  deriving DecidableEq, Repr

namespace Line

/-- A line with a text for every placeholder. -/
def written (text : Placeholder → String) : Line → String
  | .plain line => line
  | .around before p after => before ++ text p ++ after

/-- The only percent signs of a line are those of its token. -/
def IsClean : Line → Prop
  | .plain line => '%' ∉ line.toList
  | .around before _ after => '%' ∉ before.toList ∧ '%' ∉ after.toList

instance (line : Line) : Decidable line.IsClean := by
  cases line <;> unfold IsClean <;> infer_instance

def hole? : Line → Option Placeholder
  | .plain _ => none
  | .around _ p _ => some p

def pieces : Line → List Piece
  | .plain line => line.toList.map .literal
  | .around before p after =>
    before.toList.map .literal ++ .hole p :: after.toList.map .literal

theorem pieces_flatMap (line : Line) (text : Placeholder → String) :
    line.pieces.flatMap (pieceText text) = (line.written text).toList := by
  cases line with
  | plain line => exact flatMap_literals _ _
  | around before p after =>
      rw [pieces, List.flatMap_append, List.flatMap_cons, flatMap_literals, flatMap_literals,
        written, String.toList_append, String.toList_append, List.append_assoc]
      rfl

theorem count_pieces (line : Line) (p : Placeholder) :
    line.pieces.count (.hole p) = line.hole?.toList.count p := by
  cases line with
  | plain line => exact count_literals _ _
  | around before q after =>
      rw [pieces, List.count_append, List.count_cons, count_literals, count_literals]
      simp [hole?, List.count_singleton]

/-- A clean line is read as its pieces, whatever is read behind it. -/
theorem IsClean.scan {line : Line} (h : line.IsClean) {next : List Char} {found : List Piece}
    (hnext : Scan next found) :
    Scan ((line.written token).toList ++ next) (line.pieces ++ found) := by
  cases line with
  | plain line => exact hnext.literals (freeOfTokens_of_not_mem h _)
  | around before p after =>
      have hafter := hnext.literals (freeOfTokens_of_not_mem h.2 _)
      have hbefore := (Scan.hole p hafter).literals (freeOfTokens_of_not_mem h.1 _)
      simpa [written, pieces] using hbefore

end Line

/-- The text of lines, each with a newline behind it. -/
def linesText (lines : List String) : String :=
  String.join (lines.map (· ++ "\n"))

/-- The text of lines with a text for every placeholder. -/
def written (text : Placeholder → String) (lines : List Line) : String :=
  linesText (lines.map (Line.written text))

def linePieces (lines : List Line) : List Piece :=
  lines.flatMap fun line => line.pieces ++ [.literal '\n']

theorem written_cons (text : Placeholder → String) (line : Line) (lines : List Line) :
    (written text (line :: lines)).toList =
      (line.written text).toList ++ '\n' :: (written text lines).toList := by
  simp [written, linesText, String.toList_join]

theorem linePieces_flatMap (lines : List Line) (text : Placeholder → String) :
    (linePieces lines).flatMap (pieceText text) = (written text lines).toList := by
  induction lines with
  | nil => rfl
  | cons line lines ih =>
      rw [written_cons, ← ih, linePieces, List.flatMap_cons, List.flatMap_append,
        List.flatMap_append, line.pieces_flatMap, List.append_assoc]
      rfl

theorem count_linePieces (lines : List Line) (p : Placeholder) :
    (linePieces lines).count (.hole p) = (lines.filterMap Line.hole?).count p := by
  induction lines with
  | nil => rfl
  | cons line lines ih =>
      rw [linePieces, List.flatMap_cons, List.count_append, List.count_append, line.count_pieces,
        ← linePieces, ih, List.filterMap_cons]
      cases line.hole? <;> simp [List.count_cons, Nat.add_comm]

/-- Clean lines are read line by line. -/
theorem scan_lines {lines : List Line} (h : ∀ line ∈ lines, line.IsClean) :
    Scan (written token lines).toList (linePieces lines) := by
  induction lines with
  | nil => exact .done
  | cons line lines ih =>
      obtain ⟨hline, hlines⟩ := List.forall_mem_cons.1 h
      have hbreak : FreeOfTokens ['\n'] (written token lines).toList :=
        freeOfTokens_of_not_mem (by decide) _
      rw [written_cons, linePieces, List.flatMap_cons, List.append_assoc]
      exact hline.scan ((ih hlines).literals hbreak)

/-- Clean lines are filled line by line. -/
theorem fill_lines {lines : List Line} (h : ∀ line ∈ lines, line.IsClean) {bindings : Bindings}
    {value : Placeholder → String} (hvalue : ∀ p, bindings.get? p = some (value p)) :
    fill (written token lines) bindings = written value lines := by
  rw [← String.toList_inj, fill_toList hvalue, ← scan_iff.1 (scan_lines h), linePieces_flatMap]

theorem meetsEachOnce_lines {lines : List Line} (h : ∀ line ∈ lines, line.IsClean)
    (hholes : ∀ p, (lines.filterMap Line.hole?).count p = 1) :
    MeetsEachOnce (written token lines) :=
  ⟨_, scan_lines h, fun p => by rw [count_linePieces, hholes]⟩

/-! ## The packaged template -/

/-- The flags that the packaged template passes to the launcher with a value. -/
def packagedFlags : List (String × Placeholder) :=
  [ ("adb", .adb), ("adb_static", .adbStatic), ("emulator_x86", .emulatorX86)
  , ("emulator_arm", .emulatorArm), ("mksdcard", .mksdcard)
  , ("empty_snapshot_fs", .emptySnapshot), ("system_images", .systemImages)
  , ("bios_files", .biosFiles), ("source_properties_file", .propertiesFile)
  , ("image_input_file", .imageInput), ("emulator_metadata_path", .metadataPath)
  , ("android_runtest", .runtest), ("testing_shbase", .shbase), ("android_sdk_path", .sdkPath) ]

/-- The lines before those flags: the runfiles tree is found, and the launcher named. -/
def packagedOpening : List Line :=
  (packagedLines.take 10).map .plain
    ++ [.around "WORKSPACE_NAME=\"" .workspace "\""]
    ++ ((packagedLines.drop 11).take 27).map .plain
    ++ [.around "UNIFIED_LAUNCHER=\"" .unifiedLauncher "\""]
    ++ ((packagedLines.drop 39).take 3).map .plain

/-- The line that passes a flag to the launcher. -/
def flagLine (name : String) (p : Placeholder) : Line :=
  .around ("  --" ++ name ++ "=\"") p "\" \\"

def packagedEnding : List Line :=
  (packagedLines.drop 56).map .plain

def packagedShape : List Line :=
  packagedOpening ++ packagedFlags.map (fun (name, p) => flagLine name p) ++ packagedEnding

theorem packagedLines_eq : packagedLines = packagedShape.map (Line.written token) := by
  decide +kernel

theorem packaged_eq : packaged = written token packagedShape := by
  rw [written, ← packagedLines_eq]
  rfl

theorem isClean_packagedShape : ∀ line ∈ packagedShape, line.IsClean := by
  decide +kernel

/-- The packaged template meets every placeholder once. -/
theorem meetsEachOnce_packaged : MeetsEachOnce packaged := by
  rw [packaged_eq]
  refine meetsEachOnce_lines isClean_packagedShape fun p => ?_
  cases p <;> decide +kernel

/-- The packaged template is filled with whatever its placeholders are bound to. -/
theorem expand_packaged {bindings : Bindings} {value : Placeholder → String}
    (hvalue : ∀ p, bindings.get? p = some (value p)) :
    expand packaged bindings = .ok (written value packagedShape) := by
  have hcheck : check packaged bindings = .ok () :=
    check_eq_ok_iff.2 ⟨fun p => by rw [hvalue]; rfl, meetsEachOnce_packaged⟩
  rw [expand_of_check hcheck, packaged_eq, fill_lines isClean_packagedShape hvalue]

end EmulatedDevice.Template
