/-!
# Line ends

Files may end their lines with a newline, a carriage return, or both. A text that
is read from a file has newlines only.
-/

namespace EmulatedDevice.Text

/-- A text with every line ended by a newline alone. -/
def unifyNewlines : List Char → List Char
  | [] => []
  | '\r' :: '\n' :: rest => '\n' :: unifyNewlines rest
  | c :: rest => (if c = '\r' then '\n' else c) :: unifyNewlines rest

/-- A text without the newline at its end, if it has one there. -/
def dropFinalNewline (text : List Char) : List Char :=
  if text.getLast? = some '\n' then text.dropLast else text

end EmulatedDevice.Text
