import EmulatedDevice.Binary64
import EmulatedDevice.Calendar
import EmulatedDevice.Entries

/-!
# Values of a document

What a declaration file may hold, whichever notation it is written in. A mapping
keeps its entries in the order in which their keys came first. Its keys are
values too, but only scalars can be keys; keys that are equal as numbers are the
same key, so `1`, `1.0` and `true` are one.
-/

namespace EmulatedDevice

inductive Value where
  | null
  | bool (b : Bool)
  | int (n : Int)
  | float (x : Binary64)
  | text (s : String)
  | date (d : Date)
  | dateTime (t : DateTime)
  | bytes (octets : List UInt8)
  | list (items : List Value)
  | mapping (entries : List (Value × Value))
  deriving Repr, Inhabited

namespace Value

/-- The number that a value is when it serves as a key: a whole number if it is one. -/
def number? : Value → Option (Int ⊕ Binary64)
  | .bool b => some (.inl (if b then 1 else 0))
  | .int n => some (.inl n)
  | .float x => some ((x.toInt?.map .inl).getD (.inr x))
  | _ => none

/-- Whether two scalars are the same key. -/
def sameKey : Value → Value → Bool
  | .null, .null => true
  | .text s, .text t => s == t
  | .date d, .date e => d == e
  | .dateTime t, .dateTime u => t == u
  | .bytes a, .bytes b => a == b
  | v, w =>
    match v.number?, w.number? with
    | some (.inl n), some (.inl m) => n == m
    | some (.inr x), some (.inr y) => x == y
    | _, _ => false

def isScalar : Value → Bool
  | .list _ | .mapping _ => false
  | _ => true

/-- The mapping that results from putting in pairs one after the other. -/
def mappingOfPairs (pairs : List (Value × Value)) : Value :=
  .mapping (Entries.ofPairs sameKey pairs)

def ofTexts (texts : List String) : Value :=
  .list (texts.map .text)

def ofFields (fields : List (String × Value)) : Value :=
  .mapping (fields.map fun (key, value) => (.text key, value))

def field? (key : String) (entries : List (Value × Value)) : Option Value :=
  Entries.get? sameKey (.text key) entries

/-- Whether a value counts as empty: null, false, zero, and what has nothing in it. -/
def isEmpty : Value → Bool
  | .null => true
  | .bool b => !b
  | .int n => n == 0
  | .float x => x.toInt? == some 0
  | .text s => s == ""
  | .date _ | .dateTime _ => false
  | .bytes octets => octets.isEmpty
  | .list items => items.isEmpty
  | .mapping entries => entries.isEmpty

def kind : Value → String
  | .null => "NoneType"
  | .bool _ => "bool"
  | .int _ => "int"
  | .float _ => "float"
  | .text _ => "str"
  | .date _ => "datetime.date"
  | .dateTime _ => "datetime.datetime"
  | .bytes _ => "bytes"
  | .list _ => "list"
  | .mapping _ => "dict"

end Value

end EmulatedDevice
