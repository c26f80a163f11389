import EmulatedDevice.FileTree

/-!
# What a run changed

The difference between two trees below the working directory: directories that
are new, files whose content or mode is new, and what is gone. Changes come in the
order of the texts they are shown with.
-/

namespace EmulatedDevice

inductive Change where
  | madeDirectory (path : String)
  | wroteFile (path : String) (mode : Nat) (content : List UInt8)
  | gone (path : String)
  deriving DecidableEq, Repr

/-- The text that a change is ordered by; that of a directory ends with a slash. -/
def Change.path : Change → String
  | .madeDirectory path => path ++ "/"
  | .wroteFile path _ _ => path
  | .gone path => path

namespace FileTree

/-- The path of a location from the working directory, if it lies below it. -/
def relativePath? (t : FileTree) (location : Location) : Option String :=
  let names := location.take (location.length - t.workingDirectory.length)
  if names ≠ [] ∧ location = names ++ t.workingDirectory then
    some ("/".intercalate names.reverse)
  else none

def changeAt (before after : FileTree) (location : Location) : Option Change := do
  let path ← before.relativePath? location
  match before.get? location, after.get? location with
  | some _, none => some (.gone path)
  | old, some .directory => if old = some .directory then none else some (.madeDirectory path)
  | old, some (.file content mode) =>
    if old = some (.file content mode) then none else some (.wroteFile path mode content)
  | none, none => none

/-- All differences between two trees below the working directory. -/
def changes (before after : FileTree) : List Change :=
  let gone := (before.nodes.map Prod.fst).filter fun location => (after.get? location).isNone
  let locations := gone ++ after.nodes.map Prod.fst
  (locations.filterMap (changeAt before after)).mergeSort fun a b => decide (a.path ≤ b.path)

end FileTree

end EmulatedDevice
