import EmulatedDevice.Calendar
import EmulatedDevice.Text.Quoted

/-!
# What can be wrong with a YAML text

Most faults are faults of form, and are not told apart. The others come from
scalars that are well formed but stand for nothing: a numeral without digits, a
day that does not exist.
-/

namespace EmulatedDevice.Yaml

inductive Fault where
  | malformed
  | badInteger (base : Nat) (text : String)
  | badFloat (text : String)
  | emptyNumber
  | badBoolean (text : String)
  | badTimestamp
  | badDate (fault : CalendarFault)
  | badCharacter
  deriving DecidableEq, Repr

def Fault.message : Fault → String
  | .malformed => "not a YAML document"
  | .badInteger base text =>
    "invalid literal for int() with base " ++ toString base ++ ": "
      ++ .ofList ((Text.quoted text).toList.take 200)
  | .badFloat text => "could not convert string to float: " ++ Text.quoted text
  | .emptyNumber => "string index out of range"
  | .badBoolean text => Text.quoted text
  | .badTimestamp => "'NoneType' object has no attribute 'groupdict'"
  | .badDate fault => fault.message
  | .badCharacter => "chr() arg not in range(0x110000)"

end EmulatedDevice.Yaml
