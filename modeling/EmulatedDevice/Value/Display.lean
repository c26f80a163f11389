import EmulatedDevice.Binary64.Shortest
import EmulatedDevice.Text.Decimal
import EmulatedDevice.Text.Quoted
import EmulatedDevice.Value

/-!
# How a message shows a value

`Value.display` is the form in which a message quotes a value: texts between
quotes, lists in brackets, mappings in braces. `Value.plain` is the same except
that a text, a date or a time stands as it is.

Both are there for every value, but the program gets them only if no whole number in
the value has too many digits to be written (`Value.isWritable`). Whoever uses them
asks for that first.
-/

namespace EmulatedDevice.Value

mutual

/-- The form in which a message quotes a value. -/
def display : Value → String
  | .null => "None"
  | .bool b => if b then "True" else "False"
  | .int n => toString n
  | .float x => x.toText
  | .text s => Text.quoted s
  | .date d => d.term
  | .dateTime t => t.term
  | .bytes octets => Text.quotedBytes octets
  | .list items => "[" ++ ", ".intercalate (displayItems items) ++ "]"
  | .mapping entries => "\x7b" ++ ", ".intercalate (displayEntries entries) ++ "\x7d"

def displayItems : List Value → List String
  | [] => []
  | item :: rest => display item :: displayItems rest

def displayEntries : List (Value × Value) → List String
  | [] => []
  | (key, value) :: rest => (display key ++ ": " ++ display value) :: displayEntries rest

end

mutual

/-- Whether a value can be shown: whether every whole number in it, at any depth, can be written. -/
def isWritable : Value → Bool
  | .int n => decide (Text.IsWritable n)
  | .list items => areWritable items
  | .mapping entries => areWritableEntries entries
  | _ => true

def areWritable : List Value → Bool
  | [] => true
  | item :: rest => isWritable item && areWritable rest

def areWritableEntries : List (Value × Value) → Bool
  | [] => true
  | (key, value) :: rest => (isWritable key && isWritable value) && areWritableEntries rest

end

/-- The form of a value when it is used as a text. -/
def plain : Value → String
  | .text s => s
  | .date d => d.iso
  | .dateTime t => t.iso
  | v => v.display

end EmulatedDevice.Value
