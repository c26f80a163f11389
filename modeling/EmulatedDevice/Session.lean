import EmulatedDevice.CommandLine.Lower
import EmulatedDevice.CommandLine.Validate
import EmulatedDevice.FileTree.Change
import EmulatedDevice.Schema.Resources

/-!
# Sessions

A session is a series of steps over one file tree. Schemas and templates that were
read once are kept for the rest of the session under their path, so that later
changes of the file do not show; what could not be read is not kept. Two texts
name the same path when they normalise to the same one.

Commands read the files that they are given anew each time. They also use the packaged
schemas and the packaged template, and those are read through the same memory; but
packaged files are part of the program and taken as constant here, so it makes no
difference whether they are read again, and they are kept apart from the paths of a
session.

What makes a mapping a schema is not decided here. A session has a check for it,
which stays the same throughout.
-/

namespace EmulatedDevice

/-- The state between steps. -/
structure Session where
  tree : FileTree
  schemas : List (Path × Value)
  templates : List (Path × String)
  check : SchemaCheck

namespace Session

def start : Session := ⟨.empty, [], [], .acceptAll⟩

inductive Step where
  | write (path : Path) (content : List UInt8)
  | makeDirectory (path : Path)
  | remove (path : Path)
  | load (path : Path)
  | loadDeclaration (path : Path)
  | loadToolchain (path : Path)
  | loadSchema (path : Path)
  | loadPackagedSchema (name : String)
  | loadTemplate (path : Option Path)
  | lower (environment : CommandLine.Lower.Environment) (words : List String)
  | validate (words : List String)
  deriving Repr

inductive Answer where
  | done
  | value (v : Value)
  | declaration (d : Declaration)
  | tools (t : ToolSet)
  | text (s : String)
  | run (r : CommandLine.Run) (changes : List Change)
  deriving Repr

abbrev Outcome := Except LoadFault Answer

/-- A step that changes the tree or is refused. -/
def update (s : Session) (path : Path) (change : Except FileFault FileTree) : Session × Outcome :=
  match change with
  | .ok tree => ({ s with tree }, .ok .done)
  | .error fault => (s, .error (.file fault path))

/-- Makes a directory and the ones it lies in; what was made before a fault stays. -/
def makeDirectory (s : Session) (path : Path) : Session × Outcome :=
  match s.tree.makeDirectories path with
  | (tree, .ok ()) => ({ s with tree }, .ok .done)
  | (tree, .error fault) => ({ s with tree }, .error (.file fault path))

/-- Writes a file into a directory that is made if missing. -/
def write (s : Session) (path : Path) (content : List UInt8) : Session × Outcome :=
  match s.makeDirectory path.parent with
  | (s, .ok _) => s.update path (s.tree.write path content)
  | (s, .error fault) => (s, .error fault)

/-- The schema at a path, read at most once. -/
def loadSchema (s : Session) (path : Path) : Session × Outcome :=
  match Entries.get? (· == ·) path s.schemas with
  | some schema => (s, .ok (.value schema))
  | none =>
    match s.tree.loadSchema s.check path with
    | .ok schema => ({ s with schemas := (path, schema) :: s.schemas }, .ok (.value schema))
    | .error fault => (s, .error fault)

/-- The template at a path, read at most once. -/
def loadTemplate (s : Session) (path : Path) : Session × Outcome :=
  match Entries.get? (· == ·) path s.templates with
  | some template => (s, .ok (.text template))
  | none =>
    match s.tree.loadTemplate path with
    | .ok template =>
      ({ s with templates := (path, template) :: s.templates }, .ok (.text template))
    | .error fault => (s, .error fault)

/-- Takes one step. -/
def step (s : Session) : Step → Session × Outcome
  | .write path content => s.write path content
  | .makeDirectory path => s.makeDirectory path
  | .remove path => s.update path (s.tree.remove path)
  | .load path => (s, (s.tree.loadDocument path).map .value)
  | .loadDeclaration path => (s, (s.tree.loadDeclaration path).map .declaration)
  | .loadToolchain path => (s, (s.tree.loadToolchain path).map .tools)
  | .loadSchema path => s.loadSchema path
  | .loadPackagedSchema name => (s, (Schema.loadPackaged name).map .value)
  | .loadTemplate none => (s, .ok (.text Template.packaged))
  | .loadTemplate (some path) => s.loadTemplate path
  | .lower environment words =>
    let (tree, run) := CommandLine.Lower.run s.tree environment words
    ({ s with tree }, .ok (.run run (s.tree.changes tree)))
  | .validate words => (s, .ok (.run (CommandLine.Validate.run s.tree words) []))

/-- Takes steps one after the other; a step that fails does not end the session. -/
def run (s : Session) : List Step → Session × List Outcome
  | [] => (s, [])
  | first :: rest =>
    let (s, outcome) := s.step first
    let (s, outcomes) := run s rest
    (s, outcome :: outcomes)

end Session

end EmulatedDevice
