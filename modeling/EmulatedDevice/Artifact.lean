import EmulatedDevice.Path

/-!
# Artifacts

A file of the build is known by two paths. The exec path is relative to the
execution root and is what an action sees during the build; the runfiles path is
relative to the runfiles tree and is what a script sees later. For a source file
they are the same. A generated file lives under an output root, which shows in
the exec path and nowhere else.
-/

namespace EmulatedDevice

/-- A file of the build under its two paths. -/
structure Artifact where
  exec : String
  runfiles : String
  isSource : Bool
  deriving DecidableEq, Repr, Inhabited

namespace Artifact

/-- The source file at a path: both paths are that path, normalised. -/
def source (path : String) : Artifact :=
  ⟨Path.normalize path, Path.normalize path, true⟩

/-- The generated file at a path below an output root. -/
def derived (root path : String) : Artifact :=
  ⟨(Path.ofString root / Path.ofString path).render, Path.normalize path, false⟩

def basename (a : Artifact) : String :=
  (Path.ofString a.exec).name

def execDir (a : Artifact) : String :=
  (Path.ofString a.exec).parent.render

def joinExec (delimiter : String) (artifacts : List Artifact) : String :=
  delimiter.intercalate (artifacts.map exec)

def joinRunfiles (delimiter : String) (artifacts : List Artifact) : String :=
  delimiter.intercalate (artifacts.map runfiles)

/-- The first occurrence of each artifact, in order; `seen` holds those already met. -/
def uniqueAfter (seen : List Artifact) : List Artifact → List Artifact
  | [] => []
  | a :: rest =>
    if a ∈ seen then uniqueAfter seen rest
    else a :: uniqueAfter (a :: seen) rest

/-- The first occurrence of each artifact, in order. -/
def stableUnique (artifacts : List Artifact) : List Artifact :=
  uniqueAfter [] artifacts

end Artifact

/-- A labelled, ordered group of files, such as a system image. -/
structure FileGroup where
  label : String
  files : List Artifact
  deriving DecidableEq, Repr

/-- An executable and the files it needs when it runs. -/
structure ExecutableBundle where
  executable : Artifact
  files : List Artifact
  deriving DecidableEq, Repr

end EmulatedDevice
