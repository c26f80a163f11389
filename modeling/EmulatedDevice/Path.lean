/-!
# Slash-separated paths

A path is a root marker and a list of components. Reading drops what carries no
meaning: the empty components that doubled or trailing slashes leave behind, and
the components `.`. The component `..` stays, because what it means depends on
the file tree and not on the text.

A component is a non-empty text without a slash that is not `.`, and a `Path`
carries the proof that its components are such, so `render` can be read back and
a path has one written form only.
-/

namespace EmulatedDevice

/-- What stands before the first component: nothing, one slash, or exactly two. -/
inductive RootMarker where
  | none
  | single
  | double
  deriving DecidableEq, Repr

def RootMarker.text : RootMarker → String
  | .none => ""
  | .single => "/"
  | .double => "//"

/-- Two leading slashes are a marker of their own; three or more count as one. -/
def RootMarker.ofSlashCount : Nat → RootMarker
  | 0 => .none
  | 2 => .double
  | _ => .single

namespace Path

/-- The pieces of a text between its slashes; there is one more piece than slashes. -/
def segments : List Char → List (List Char)
  | [] => [[]]
  | c :: rest =>
    if c = '/' then [] :: segments rest
    else match segments rest with
      | [] => [[c]]
      | piece :: pieces => (c :: piece) :: pieces

/-- A piece between slashes that names a step: neither empty nor `.`. -/
def IsComponent (name : String) : Prop :=
  name ≠ "" ∧ name ≠ "." ∧ '/' ∉ name.toList

instance (name : String) : Decidable (IsComponent name) := by
  unfold IsComponent; infer_instance

end Path

/-- A normalised path. -/
structure Path where
  root : RootMarker
  components : List String
  isComponent : ∀ name ∈ components, Path.IsComponent name
  deriving DecidableEq, Repr

namespace Path

/-- The steps that a text names, in order. -/
def componentsOf (text : List Char) : List String :=
  ((segments text).map String.ofList).filter fun name => decide (IsComponent name)

theorem isComponent_of_mem_componentsOf {text : List Char} {name : String}
    (h : name ∈ componentsOf text) : IsComponent name := by
  simpa using (List.mem_filter.1 h).2

/-- The path a text denotes. -/
def ofString (text : String) : Path where
  root := .ofSlashCount (text.toList.takeWhile (· = '/')).length
  components := componentsOf text.toList
  isComponent _ h := isComponent_of_mem_componentsOf h

/-- The written form; a path with nothing to write is `.`. -/
def render (p : Path) : String :=
  if p.root = .none ∧ p.components = [] then "."
  else p.root.text ++ "/".intercalate p.components

/-- `base / p`: steps follow steps, and a right side that starts at a root drops the left. -/
def join (base p : Path) : Path :=
  if p.root = .none then
    { root := base.root
      components := base.components ++ p.components
      isComponent := fun name h => (List.mem_append.1 h).elim (base.isComponent name)
        (p.isComponent name) }
  else p

instance : HDiv Path Path Path := ⟨join⟩

/-- The last component, empty when there is none. -/
def name (p : Path) : String :=
  p.components.getLast?.getD ""

def parent (p : Path) : Path where
  root := p.root
  components := p.components.dropLast
  isComponent name h := p.isComponent name (List.dropLast_subset _ h)

/-- A suffix starts at the last dot of a name, when characters stand on both sides of it. -/
def suffixOf (name : List Char) : List Char :=
  let tail := name.reverse.takeWhile (· ≠ '.')
  if tail = [] ∨ name.length ≤ tail.length + 1 then [] else '.' :: tail.reverse

/-- The suffix of the last component with its dot, empty when it has none. -/
def suffix (p : Path) : String :=
  .ofList (suffixOf p.name.toList)

def normalize (text : String) : String :=
  (ofString text).render

end Path

end EmulatedDevice
