import EmulatedDevice.Text.Decimal

/-!
# The hardware attributes of a device and their bounds

Six integers describe the emulated hardware. Each bound is a value of its own, so
that checking a device is going through the list of bounds: every broken bound
gives one issue, in the order of the list, and a device may break several. Most
attributes have no upper bound, so a device that breaks none may still have numbers
that are too long to be written.
-/

namespace EmulatedDevice

/-- The numeric attributes, in the order in which a declaration is read. -/
inductive Attribute where
  | horizontalResolution
  | verticalResolution
  | ram
  | screenDensity
  | cache
  | vmHeap
  deriving DecidableEq, Repr

namespace Attribute

def all : List Attribute :=
  [.horizontalResolution, .verticalResolution, .ram, .screenDensity, .cache, .vmHeap]

def key : Attribute → String
  | .horizontalResolution => "horizontal_resolution"
  | .verticalResolution => "vertical_resolution"
  | .ram => "ram"
  | .screenDensity => "screen_density"
  | .cache => "cache"
  | .vmHeap => "vm_heap"

/-- What a message calls an attribute. -/
def noun : Attribute → String
  | .horizontalResolution => "horizontal"
  | .verticalResolution => "vertical"
  | .ram => "ram"
  | .screenDensity => "density"
  | .cache => "cache"
  | .vmHeap => "vm heap"

end Attribute

structure DeviceSpec where
  horizontalResolution : Int
  verticalResolution : Int
  ram : Int
  screenDensity : Int
  cache : Int
  vmHeap : Int
  deriving DecidableEq, Repr

namespace DeviceSpec

def get (spec : DeviceSpec) : Attribute → Int
  | .horizontalResolution => spec.horizontalResolution
  | .verticalResolution => spec.verticalResolution
  | .ram => spec.ram
  | .screenDensity => spec.screenDensity
  | .cache => spec.cache
  | .vmHeap => spec.vmHeap

def ofAttributes (value : Attribute → Int) : DeviceSpec where
  horizontalResolution := value .horizontalResolution
  verticalResolution := value .verticalResolution
  ram := value .ram
  screenDensity := value .screenDensity
  cache := value .cache
  vmHeap := value .vmHeap

/-- Whether every attribute has few enough digits to be written. -/
def IsWritable (spec : DeviceSpec) : Prop :=
  ∀ a ∈ Attribute.all, Text.IsWritable (spec.get a)

instance (spec : DeviceSpec) : Decidable spec.IsWritable :=
  inferInstanceAs (Decidable (∀ a ∈ Attribute.all, Text.IsWritable (spec.get a)))

/-- The width and the height as one text, if they can be written. -/
def screenSize (spec : DeviceSpec) : String :=
  toString spec.horizontalResolution ++ "x" ++ toString spec.verticalResolution

end DeviceSpec

/-- One thing that is wrong with a declared device, and the field it is wrong in. -/
structure Issue where
  field : String
  message : String
  deriving DecidableEq, Repr

def Issue.format (issue : Issue) : String :=
  issue.field ++ ": " ++ issue.message

/-- A bound on one attribute; the limit itself is allowed. -/
inductive Bound where
  | atLeast (subject : Attribute) (limit : Int)
  | atMost (subject : Attribute) (limit : Int)
  deriving DecidableEq, Repr

namespace Bound

/-- Whether a device keeps a bound. -/
def Holds (spec : DeviceSpec) : Bound → Prop
  | .atLeast a limit => limit ≤ spec.get a
  | .atMost a limit => spec.get a ≤ limit

instance (spec : DeviceSpec) (bound : Bound) : Decidable (bound.Holds spec) := by
  cases bound <;> unfold Holds <;> infer_instance

def issue : Bound → Issue
  | .atLeast a limit => ⟨a.key, a.noun ++ " must be at least: " ++ toString limit⟩
  | .atMost a limit => ⟨a.key, a.noun ++ " cannot be greater than: " ++ toString limit⟩

def all : List Bound :=
  [ .atLeast .horizontalResolution 240
  , .atLeast .verticalResolution 240
  , .atLeast .ram 64
  , .atMost .ram 4096
  , .atLeast .screenDensity 30
  , .atLeast .cache 16
  , .atLeast .vmHeap 16 ]

end Bound

/-- One issue for every bound that the device breaks. -/
def DeviceSpec.issues (spec : DeviceSpec) : List Issue :=
  (Bound.all.filter fun bound => decide (¬ bound.Holds spec)).map Bound.issue

/-- A device target that cannot be configured; the target may be unnamed. -/
structure ConfigurationError where
  issues : List Issue
  target : String
  deriving DecidableEq, Repr

def ConfigurationError.message (e : ConfigurationError) : String :=
  let place := if e.target = "" then "" else " for " ++ e.target
  "invalid android_device" ++ place ++ ":\n" ++
    "\n".intercalate (e.issues.map fun issue => "- " ++ issue.format)

end EmulatedDevice
