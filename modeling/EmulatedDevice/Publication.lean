import EmulatedDevice.Descriptor
import EmulatedDevice.FileTree

/-!
# Publishing a target

The script and the descriptor of a target are put into a directory as one pair.
Both are first written under temporary names in that directory and then moved to
their final names, so that nobody sees half a file. When the directory cannot be
made or a move is refused, the temporary files are removed, and so is the script
if it had been moved already. A script that stood under the final name before is
not brought back. Only a refusal is cleaned up after: a name that no request can
be made with leaves the temporary files where they are.

Writing under the temporary names is never refused here: the directory is there,
nothing in it has these names, and they are not the final ones either. But a text may
hold halves of surrogate pairs and then has no octets. A pair with such a text is
written up to that text, and nothing is cleaned up either.
-/

namespace EmulatedDevice

inductive PublicationFault where
  | template (fault : TemplateFault)
  | file (fault : FileFault)
  deriving DecidableEq, Repr

def descriptorName (name : String) : String :=
  name ++ "_boot_action.json"

def scriptPath (directory : Path) (name : String) : Path :=
  directory / Path.ofString name

def descriptorPath (directory : Path) (name : String) : Path :=
  directory / Path.ofString (descriptorName name)

/-- The mode of a script that is to be executed, and of any other file. -/
def publishedMode (executable : Bool) : Nat :=
  if executable then 0o755 else 0o644

namespace FileTree

/-- The tree after a fault: a refusal removes two files, any other fault leaves them. -/
def cleanUp (t : FileTree) (fault : FileFault) (first second : Location) : FileTree :=
  if fault.isRefusal then (t.erase first).erase second else t

/-- Moves two temporary files of a directory to their final paths, or removes both files. -/
def movePair (t : FileTree) (first second : Location) (firstPath secondPath : Path) :
    FileTree × Except FileFault Unit :=
  match t.moveTo first firstPath with
  | .error fault => (t.cleanUp fault first second, .error fault)
  | .ok (t', moved) =>
    match t'.moveTo second secondPath with
    | .error fault => (t'.cleanUp fault second moved, .error fault)
    | .ok (t'', _) => (t'', .ok ())

/-- Writes a script with a mode and its descriptor into a directory, which is made if missing. -/
def writePair (t : FileTree) (directory : Path) (name : String) (mode : Nat)
    (script descriptor : List UInt8) : FileTree × Except FileFault Unit :=
  match t.makeDirectories directory with
  | (t, .error fault) => (t, .error fault)
  | (t, .ok ()) =>
    match t.locate directory with
    | .error fault => (t, .error fault)
    | .ok place =>
      let taken := (scriptPath directory name).name :: (descriptorPath directory name).name ::
        t.namesIn place
      let first := freshName taken
      let second := freshName (first :: taken)
      let staged := (t.insert (first :: place) (.file script mode)).insert (second :: place)
        (.file descriptor defaultMode)
      staged.movePair (first :: place) (second :: place) (scriptPath directory name)
        (descriptorPath directory name)

/-- Publishes a target under a name in a directory. -/
def publish (t : FileTree) (target : Target) (directory : Path) (name : String) :
    FileTree × Except PublicationFault Unit :=
  match target.script.expand with
  | .error fault => (t, .error (.template fault))
  | .ok text =>
    let written := t.writePair directory name (publishedMode target.script.executable)
      (Text.encodeUtf8 text.toList) (Text.encodeUtf8 target.descriptorText.toList)
    (written.1, written.2.mapError .file)

/-- The mode of a temporary file that is not finished. -/
def unfinishedMode : Nat := 0o600

/-- Writes a pair up to the text that has no octets: the descriptor, or the script if this is not
given either. The temporary file for it stays empty. -/
def writePartly (t : FileTree) (directory : Path) (name : String) (mode : Nat)
    (script? : Option (List UInt8)) : FileTree × Except FileFault Unit :=
  match t.makeDirectories directory with
  | (t, .error fault) => (t, .error fault)
  | (t, .ok ()) =>
    match t.locate directory with
    | .error fault => (t, .error fault)
    | .ok place =>
      let taken := (scriptPath directory name).name :: (descriptorPath directory name).name ::
        t.namesIn place
      let first := freshName taken
      let second := freshName (first :: taken)
      match script? with
      | none => (t.insert (first :: place) (.file [] unfinishedMode), .ok ())
      | some script =>
        ((t.insert (first :: place) (.file script mode)).insert (second :: place)
          (.file [] unfinishedMode), .ok ())

/-- Publishes what can be published of a target when its script, or else its descriptor, holds
halves of surrogate pairs. -/
def publishPartly (t : FileTree) (target : Target) (directory : Path) (name : String)
    (inScript : Bool) : FileTree × Except PublicationFault Unit :=
  match target.script.expand with
  | .error fault => (t, .error (.template fault))
  | .ok text =>
    let script? := if inScript then none else some (Text.encodeUtf8 text.toList)
    let written := t.writePartly directory name (publishedMode target.script.executable) script?
    (written.1, written.2.mapError .file)

end FileTree

end EmulatedDevice
