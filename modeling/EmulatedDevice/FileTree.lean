import EmulatedDevice.Entries
import EmulatedDevice.Path
import EmulatedDevice.Text.Utf8

/-!
# File trees

A tree of directories and files, with a working directory from which relative
paths are followed. A location is the list of names from a node up to the root,
innermost first, so that the parent of a location is its tail and the root is the
empty list. There are no links: a location is reached in one way only.

A path is followed name by name. Every node that is passed has to be a directory,
even where the next step is `..`; so a path can be refused although the location
it seems to mean exists.

Nodes are kept as a list of entries, and `get?` is the view of it: the root is
always a directory, and every other location holds what its first entry says.
-/

namespace EmulatedDevice

/-- The names from a node up to the root, innermost first. -/
abbrev Location := List String

/-- What a location holds. Modes are kept for files only. -/
inductive FileNode where
  | directory
  | file (content : List UInt8) (mode : Nat)
  deriving DecidableEq, Repr

/-- Why the tree refuses a request. -/
inductive FileFault where
  | notFound
  | alreadyExists
  | isDirectory
  | notDirectory
  | busy
  | notEmpty
  | nameTooLong
  | nulInPath
  deriving DecidableEq, Repr

/-- Whether a fault is the tree's own refusal. A path with a NUL in it is no request at all. -/
def FileFault.isRefusal : FileFault → Bool
  | .nulInPath => false
  | .notFound | .alreadyExists | .isDirectory | .notDirectory | .busy | .notEmpty | .nameTooLong =>
    true

/-- A tree of files, and where in it relative paths start. -/
structure FileTree where
  nodes : List (Location × FileNode)
  workingDirectory : Location
  deriving Repr

namespace FileTree

/-- A tree with nothing in it but an empty working directory below the root. -/
def empty : FileTree :=
  ⟨[(["work"], .directory)], ["work"]⟩

def get? (t : FileTree) (location : Location) : Option FileNode :=
  if location = [] then some .directory else Entries.get? (· == ·) location t.nodes

def insert (t : FileTree) (location : Location) (node : FileNode) : FileTree :=
  { t with nodes := Entries.put (· == ·) location node t.nodes }

def erase (t : FileTree) (location : Location) : FileTree :=
  { t with nodes := t.nodes.filter fun entry => entry.1 != location }

/-! ## Following paths -/

def octetLength (text : String) : Nat :=
  text.utf8ByteSize

/-- Whether a single name is longer than a directory can hold. -/
def nameTooLong (name : String) : Bool :=
  255 < octetLength name

/-- Follows names from a location. -/
def walk (t : FileTree) : Location → List String → Except FileFault Location
  | location, [] => .ok location
  | location, name :: rest =>
    match t.get? location with
    | none => .error .notFound
    | some (.file ..) => .error .notDirectory
    | some .directory =>
      if name = ".." then walk t location.tail rest
      else if nameTooLong name then .error .nameTooLong
      else if (t.get? (name :: location)).isNone then .error .notFound
      else walk t (name :: location) rest

/-- Where the first name of a path is looked up. -/
def startOf (t : FileTree) (p : Path) : Location :=
  match p.root with
  | .none => t.workingDirectory
  | .single | .double => []

/-- Refuses a path that no request can be made with. -/
def checkPath (p : Path) : Except FileFault Unit :=
  if p.components.any fun name => name.toList.contains '\x00' then .error .nulInPath
  else if 4096 ≤ octetLength p.render then .error .nameTooLong
  else .ok ()

/-- The location of the existing node that a path leads to. -/
def locate (t : FileTree) (p : Path) : Except FileFault Location := do
  checkPath p
  t.walk (t.startOf p) p.components

def find (t : FileTree) (p : Path) : Except FileFault FileNode := do
  match t.get? (← t.locate p) with
  | some node => return node
  | none => throw .notFound

def isDirectory (t : FileTree) (p : Path) : Bool :=
  match t.find p with
  | .ok .directory => true
  | _ => false

/-- The location that the last name of a path has or would have in its directory. A path that ends
in `..` or has no names does not name anything in a directory, and is refused with `unnamed`. -/
def destination (t : FileTree) (p : Path) (unnamed : FileFault) : Except FileFault Location := do
  checkPath p
  let directory ← t.walk (t.startOf p) p.components.dropLast
  match t.get? directory with
  | none => throw .notFound
  | some (.file ..) => throw .notDirectory
  | some .directory =>
    match p.components.getLast? with
    | none => throw unnamed
    | some name =>
      if name = ".." then throw unnamed
      else if nameTooLong name then throw .nameTooLong
      else return name :: directory

/-! ## Requests -/

def read (t : FileTree) (p : Path) : Except FileFault (List UInt8) := do
  match ← t.find p with
  | .directory => throw .isDirectory
  | .file content _ => return content

/-- Makes one directory, in a directory that exists. -/
def makeDirectory (t : FileTree) (p : Path) : Except FileFault FileTree := do
  let location ← t.destination p .alreadyExists
  match t.get? location with
  | some _ => throw .alreadyExists
  | none => return t.insert location .directory

def ensureDirectory (t : FileTree) (p : Path) : Except FileFault FileTree :=
  match t.makeDirectory p with
  | .ok t' => .ok t'
  | .error fault => if t.isDirectory p then .ok t else .error fault

/-- Makes a directory and up to `depth` missing directories that it lies in. What was made before
a fault stays. -/
def makeDirectoriesUpTo : Nat → FileTree → Path → FileTree × Except FileFault Unit
  | depth, t, p =>
    match t.makeDirectory p, depth with
    | .ok t', _ => (t', .ok ())
    | .error .notFound, 0 => (t, .error .notFound)
    | .error .notFound, depth + 1 =>
      match makeDirectoriesUpTo depth t p.parent with
      | (t', .error fault) => (t', .error fault)
      | (t', .ok ()) =>
        match t'.ensureDirectory p with
        | .ok t'' => (t'', .ok ())
        | .error fault => (t', .error fault)
    | .error fault, _ => (t, if t.isDirectory p then .ok () else .error fault)

/-- Makes a directory and all missing directories that it lies in. -/
def makeDirectories (t : FileTree) (p : Path) : FileTree × Except FileFault Unit :=
  makeDirectoriesUpTo p.components.length t p

/-- The mode of a file that is made without asking for one. -/
def defaultMode : Nat := 0o644

/-- Writes a file. A file that was there keeps its mode. -/
def write (t : FileTree) (p : Path) (content : List UInt8) : Except FileFault FileTree := do
  let location ← t.destination p .isDirectory
  match t.get? location with
  | some .directory => throw .isDirectory
  | some (.file _ mode) => return t.insert location (.file content mode)
  | none => return t.insert location (.file content defaultMode)

def remove (t : FileTree) (p : Path) : Except FileFault FileTree := do
  let location ← t.destination p .isDirectory
  match t.get? location with
  | none => throw .notFound
  | some .directory => throw .isDirectory
  | some (.file ..) => return t.erase location

/-- Moves the node at a location to where a path leads, in place of a file that is there. The
location that it was moved to comes with the tree. -/
def moveTo (t : FileTree) (source : Location) (p : Path) :
    Except FileFault (FileTree × Location) := do
  let target ← t.destination p .busy
  match t.get? source, t.get? target with
  | none, _ => throw .notFound
  | some _, some .directory =>
    throw (if target.isSuffixOf source then .notEmpty else .isDirectory)
  | some node, _ => return ((t.erase source).insert target node, target)

/-! ## Fresh names -/

def temporaryName (n : Nat) : String :=
  "tmp" ++ toString n ++ ".tmp"

/-- The first of some numbers from `n` on whose temporary name is not taken. -/
def freshFrom (taken : List String) : Nat → Nat → String
  | 0, n => temporaryName n
  | tries + 1, n =>
    if temporaryName n ∈ taken then freshFrom taken tries (n + 1) else temporaryName n

def freshName (taken : List String) : String :=
  freshFrom taken taken.length 0

def namesIn (t : FileTree) (directory : Location) : List String :=
  t.nodes.filterMap fun (location, _) =>
    match location with
    | [] => none
    | name :: rest => if rest = directory then some name else none

end FileTree

end EmulatedDevice
