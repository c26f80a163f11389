import EmulatedDevice.Attributes
import EmulatedDevice.Text.Integer
import EmulatedDevice.Value.Display

/-!
# Reading attributes

An attribute may be given as a whole number, as a double, which loses its
fraction, or as a numeral. The attributes are read in their order, and the first
that cannot be read decides.
-/

namespace EmulatedDevice

inductive AttributeFault where
  | missing (subject : Attribute)
  | noNumeral (text : String)
  | infinite
  | notANumber
  | wrongKind (kind : String)
  deriving DecidableEq, Repr

/-- The wording of a fault; of a long text only the beginning is shown. -/
def AttributeFault.message : AttributeFault → String
  | .missing subject => Text.quoted subject.key
  | .noNumeral text =>
    "invalid literal for int() with base 10: " ++ .ofList ((Text.quoted text).toList.take 200)
  | .infinite => "cannot convert float infinity to integer"
  | .notANumber => "cannot convert float NaN to integer"
  | .wrongKind kind =>
    "int() argument must be a string, a bytes-like object or a real number, not "
      ++ Text.quoted kind

/-- The whole number that a value stands for. -/
def Value.toInteger : Value → Except AttributeFault Int
  | .int n => .ok n
  | .bool b => .ok (if b then 1 else 0)
  | .float (.finite negative m e) => .ok (Binary64.truncate negative m e)
  | .float (.infinity _) => .error .infinite
  | .float .nan => .error .notANumber
  | .text s =>
    match Text.readInteger 10 s.toList with
    | some n => .ok n
    | none => .error (.noNumeral s)
  | value => .error (.wrongKind value.kind)

namespace DeviceSpec

def readAttribute (entries : List (Value × Value)) (subject : Attribute) :
    Except AttributeFault Int :=
  match Value.field? subject.key entries with
  | some value => value.toInteger
  | none => .error (.missing subject)

def ofEntries (entries : List (Value × Value)) : Except AttributeFault DeviceSpec := do
  let horizontalResolution ← readAttribute entries .horizontalResolution
  let verticalResolution ← readAttribute entries .verticalResolution
  let ram ← readAttribute entries .ram
  let screenDensity ← readAttribute entries .screenDensity
  let cache ← readAttribute entries .cache
  let vmHeap ← readAttribute entries .vmHeap
  return { horizontalResolution, verticalResolution, ram, screenDensity, cache, vmHeap }

end DeviceSpec

end EmulatedDevice
