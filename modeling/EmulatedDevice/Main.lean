import EmulatedDevice.CommandLine.Lower
import EmulatedDevice.CommandLine.Validate

/-!
# The command line

The first word says which command to run, `lower` or `validate`, and the other
words are handed to it. What a command does is decided over a file tree, so this
module only brings in the part of the disk that the words may speak of, and
afterwards makes the disk hold what the tree has come to hold.
-/

namespace EmulatedDevice.CommandLine

/-- The absolute path of a location. -/
def diskPath (location : Location) : String :=
  "/" ++ "/".intercalate location.reverse

/-- The locations that names pass through from a location on, whatever is there. -/
def passed (location : Location) : List String → List Location
  | [] => [location]
  | name :: rest =>
    location :: passed (if name = ".." then location.tail else name :: location) rest

def pathsIn (word : String) : List Path :=
  [.ofString word, .ofString ((splitValue word.toList).2.getD "")]

/-- The tree with what the disk holds at a location. -/
def observe (t : FileTree) (location : Location) : IO FileTree := do
  let place := (← IO.currentDir) / diskPath location
  if ← place.isDir then
    return t.insert location .directory
  else if ← place.pathExists then
    return t.insert location (.file (← IO.FS.readBinFile place).toList FileTree.defaultMode)
  else
    return t

/-- The tree with the names that a directory on disk holds. Files that are new to the tree stay
unread, because a command asks only whether they are there. -/
def observeNames (t : FileTree) (location : Location) : IO FileTree := do
  let place := (← IO.currentDir) / diskPath location
  if !(← place.isDir) then return t
  let mut t := t
  for entry in ← place.readDir do
    let below := entry.fileName :: location
    if (t.get? below).isNone then
      let node := if ← entry.path.isDir then .directory else .file [] FileTree.defaultMode
      t := t.insert below node
  return t

/-- The part of the disk that words may speak of. -/
def treeFor (words : List String) : IO FileTree := do
  let here := (Path.ofString (← IO.currentDir).toString).components
  let mut t : FileTree := ⟨[], here.reverse⟩
  let routes := passed [] here ::
    (words.flatMap pathsIn).map fun p => passed (t.startOf p) p.components
  for location in routes.flatten do
    t ← observe t location
  for route in routes do
    t ← observeNames t (route.getLast?.getD [])
  return t

def accessRight (bits : Nat) : IO.AccessRight where
  read := bits.testBit 2
  write := bits.testBit 1
  execution := bits.testBit 0

/-- Makes the disk hold at a location what a tree holds there. -/
def settle (t : FileTree) (location : Location) : IO Unit := do
  let place := (← IO.currentDir) / diskPath location
  match t.get? location with
  | some .directory => IO.FS.createDirAll place
  | some (.file content mode) =>
    IO.FS.writeBinFile place content.toByteArray
    IO.setAccessRights place
      ⟨accessRight (mode / 64), accessRight (mode / 8 % 8), accessRight (mode % 8)⟩
  | none => IO.FS.removeFile place

/-- Settles every location that two trees differ at. -/
def settleAll (before after : FileTree) : IO Unit := do
  let gone := before.nodes.filter fun entry => (after.get? entry.1).isNone
  for entry in gone ++ after.nodes do
    if before.get? entry.1 ≠ after.get? entry.1 then
      settle after entry.1

/-- What is said of a fault that ends a run as it is, and of the halves of surrogate pairs if it is
about any. -/
def Escape.message (halves : Option Text.HalfRun) : Escape → String
  | .load fault => fault.message
  | .unresolvable image => (AssemblyFault.unresolvable image).message
  | .tooManyDigits => AssemblyFault.tooManyDigits.message
  | .publication (.template fault) => fault.message
  | .publication (.file fault) => fault.wording.2
  | .unencodable => (halves.map Text.HalfRun.message).getD ""
  | .unknownLevel name => "unknown log level: " ++ name

def report (run : Run) (halves : Option Text.HalfRun) : IO UInt32 := do
  IO.print run.stdout
  IO.eprint run.stderr
  match run.ending with
  | .escaped fault =>
    IO.eprintln (fault.message halves)
    return 1
  | ending => return UInt32.ofNat (ending.exitCode?.getD 1)

def environment : IO Lower.Environment :=
  return ⟨← IO.getEnv "ANDROID_DEVICE_WORKSPACE", ← IO.getEnv "ANDROID_DEVICE_BIN_ROOT",
    ← IO.getEnv "ANDROID_DEVICE_LOG_LEVEL"⟩

/-- Runs the command that the first word names. -/
def dispatch : List String → IO UInt32
  | "lower" :: words => do
    let before ← treeFor words
    let environment ← environment
    let (after, run) := Lower.run before environment words
    settleAll before after
    report run (Lower.firstHalves? before environment words)
  | "validate" :: words => do
    report (Validate.run (← treeFor words) words) none
  | _ => do
    IO.eprintln "expected a command: lower or validate"
    return 2

end EmulatedDevice.CommandLine

def main (words : List String) : IO UInt32 :=
  EmulatedDevice.CommandLine.dispatch words
