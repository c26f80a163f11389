import EmulatedDevice.Declaration
import EmulatedDevice.FileTree
import EmulatedDevice.Json.Reader
import EmulatedDevice.Text.Lines
import EmulatedDevice.Yaml.Document

/-!
# Loading documents from a file tree

The suffix of a path says which notation a document is in. Whether there is
anything at the path is asked first, so a missing file is reported as such
whatever its suffix. A document has to be a mapping at its top level.

Faults keep their causes apart. `LoadFault.isReported` says which of them a
command tells its user about; the others end the command.
-/

namespace EmulatedDevice

inductive LoadFault where
  | missing (path : Path)
  | file (fault : FileFault) (path : Path)
  | undecodable (fault : Text.Utf8Fault)
  | unsupportedSuffix (path : Path)
  | json (fault : Json.Fault)
  | yaml (fault : Yaml.Fault)
  | notMapping (path : Path)
  | notSchema (path : Path)
  | declaration (fault : DeclarationFault)
  deriving Repr

def FileFault.wording : FileFault → Nat × String
  | .notFound => (2, "No such file or directory")
  | .busy => (16, "Device or resource busy")
  | .alreadyExists => (17, "File exists")
  | .notDirectory => (20, "Not a directory")
  | .isDirectory => (21, "Is a directory")
  | .nulInPath => (22, "embedded null byte")
  | .nameTooLong => (36, "File name too long")
  | .notEmpty => (39, "Directory not empty")

def FileFault.message (fault : FileFault) (path : String) : String :=
  match fault with
  | .nulInPath => fault.wording.2
  | _ =>
    "[Errno " ++ toString fault.wording.1 ++ "] " ++ fault.wording.2 ++ ": " ++ Text.quoted path

def LoadFault.message : LoadFault → String
  | .missing path => path.render
  | .file fault path => fault.message path.render
  | .undecodable fault => fault.message
  | .unsupportedSuffix path => "Unsupported spec file extension: " ++ path.render
  | .json fault => fault.message
  | .yaml fault => fault.message
  | .notMapping path => "Top-level spec must be an object: " ++ path.render
  | .notSchema path => "Schema must be an object: " ++ path.render
  | .declaration fault => fault.message

/-- Whether a command reports a fault to its user and ends in order. Files that are missing, and
content that is no text or breaks a schema, are reported; so are values that are out of range. What
the file tree refuses otherwise, and YAML that has no form, are not. -/
def LoadFault.isReported : LoadFault → Bool
  | .missing _ | .undecodable _ | .unsupportedSuffix _ | .json _ | .notMapping _ | .notSchema _ =>
    true
  | .file fault _ => fault == .notFound || fault == .nulInPath
  | .yaml fault =>
    match fault with
    | .badInteger .. | .badFloat _ | .badDate _ | .badCharacter => true
    | .malformed | .emptyNumber | .badBoolean _ | .badTimestamp => false
  | .declaration fault =>
    match fault with
    | .rejected _ | .tooManyDigits | .unreadable (.noNumeral _) | .unreadable .notANumber
    | .entry .tooManyDigits => true
    | .unreadable _ | .entry _ => false

/-- A check that a mapping is a schema in itself. It is not made here but given. -/
abbrev SchemaCheck := Value → Except LoadFault Unit

/-- The check that every mapping passes. -/
def SchemaCheck.acceptAll : SchemaCheck :=
  fun _ => .ok ()

namespace FileTree

/-- The text in a file, with its line ends unified. -/
def readText (t : FileTree) (p : Path) : Except LoadFault (List Char) := do
  let octets ← (t.read p).mapError fun fault => .file fault p
  let chars ← (Text.decodeUtf8 octets).mapError .undecodable
  return Text.unifyNewlines chars

/-- Whether there is anything at a path. A path that cannot be followed leads to nothing; one that
is too long is refused. -/
def exists? (t : FileTree) (p : Path) : Except LoadFault Bool :=
  match t.find p with
  | .ok _ => .ok true
  | .error .nameTooLong => .error (.file .nameTooLong p)
  | .error _ => .ok false

/-- The notations in which a document can be. -/
inductive DocumentForm where
  | json
  | yaml
  deriving DecidableEq, Repr

/-- The notation that a suffix announces, in whatever case it is written. -/
def DocumentForm.ofSuffix? (suffix : String) : Option DocumentForm :=
  let lower := String.ofList (suffix.toList.map Char.toLower)
  if lower = ".yaml" ∨ lower = ".yml" then some .yaml
  else if lower = ".json" then some .json
  else none

/-- The value that a text in a notation writes. -/
def DocumentForm.parse [Text.HalfSigns] : DocumentForm → List Char → Except LoadFault Value
  | .json, text => (Json.parse text).mapError .json
  | .yaml, text => (Yaml.parse text).mapError .yaml

def loadDocument [Text.HalfSigns] (t : FileTree) (p : Path) : Except LoadFault Value := do
  if !(← t.exists? p) then throw (.missing p)
  match DocumentForm.ofSuffix? p.suffix with
  | none => throw (.unsupportedSuffix p)
  | some form =>
    match ← form.parse (← t.readText p) with
    | .mapping entries => return .mapping entries
    | _ => throw (.notMapping p)

def loadDeclaration [Text.HalfSigns] (t : FileTree) (p : Path) :
    Except LoadFault Declaration := do
  (Declaration.parse p.render (← t.loadDocument p)).mapError .declaration

def loadToolchain [Text.HalfSigns] (t : FileTree) (p : Path) : Except LoadFault ToolSet := do
  (ToolSet.parse p.render (← t.loadDocument p)).mapError .declaration

/-- The schema at a path; it is always in JSON, and a mapping that a check for schemas lets pass. -/
def loadSchema (t : FileTree) (check : SchemaCheck) (p : Path) : Except LoadFault Value := do
  match ← (Json.parse (← t.readText p)).mapError .json with
  | .mapping entries =>
    check (.mapping entries)
    return .mapping entries
  | _ => throw (.notSchema p)

def loadTemplate (t : FileTree) (p : Path) : Except LoadFault String := do
  return .ofList (← t.readText p)

end FileTree

end EmulatedDevice
