/-!
# Numbers that can be written

Turning a whole number into a text takes time that grows faster than the number of
its digits, so the interpreter refuses to do it for a number with too many of them.
Such a number comes from a document in which it is written in base two, eight,
sixteen or sixty, and it is refused late, when it is to be put into a message or a
flag. Here numerals are read whatever their length, in base ten as well.
-/

namespace EmulatedDevice.Text

/-- The greatest number of digits that a number is written with. -/
def digitLimit : Nat := 4300

/-- The least number with more digits. -/
@[irreducible] def leastTooLong : Nat := Nat.pow 10 digitLimit

/-- Whether a whole number has few enough digits to be written. -/
def IsWritable (n : Int) : Prop :=
  n.natAbs < leastTooLong

instance (n : Int) : Decidable (IsWritable n) :=
  inferInstanceAs (Decidable (n.natAbs < leastTooLong))

/-- What is said of a number that has too many digits. -/
def tooManyDigits : String :=
  "Exceeds the limit (" ++ toString digitLimit ++ " digits) for integer string conversion; use "
    ++ "sys.set_int_max_str_digits() to increase the limit"

end EmulatedDevice.Text
