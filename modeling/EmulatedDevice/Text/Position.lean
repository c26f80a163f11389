/-!
# Places in a text

A place is counted in characters from the start, and told to a reader as a line
and a column, both from one.
-/

namespace EmulatedDevice.Text

structure Position where
  offset : Nat
  line : Nat
  column : Nat
  deriving DecidableEq, Repr

/-- The place after `offset` characters of a text. -/
def position (text : List Char) (offset : Nat) : Position :=
  let before := text.take offset
  { offset
    line := before.count '\n' + 1
    column := (before.reverse.takeWhile (· ≠ '\n')).length + 1 }

def Position.message (p : Position) : String :=
  "line " ++ toString p.line ++ " column " ++ toString p.column
    ++ " (char " ++ toString p.offset ++ ")"

end EmulatedDevice.Text
