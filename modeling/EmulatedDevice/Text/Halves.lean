import EmulatedDevice.Text.Hex

/-!
# Halves of surrogate pairs

An escape in a document can name the code of one half of a surrogate pair where no
other half is beside it. The interpreter keeps such a half in its texts, but a text
that holds one cannot be encoded. The texts here are made of characters, and a half is
none, so a reader puts a sign where the half would be, one of the characters for private
use. It is told which sign to take for which half, and does nothing with a sign but pass
it on.

So what was made of a document holds a half just where it comes out different when the
document is read with other signs. A message that quotes a text shows the sign.
-/

namespace EmulatedDevice.Text

/-- The character that stands for each half. -/
class HalfSigns where
  sign : Nat → Char

/-- Signs in the order of the codes, from a first one on. -/
@[reducible]
def signsFrom (first : Nat) : HalfSigns where
  sign code := Char.ofNat (first + (code - 0xd800))

/-- The signs that documents are read with. -/
instance : HalfSigns := signsFrom 0xf0000

/-- Signs that a document is read with once more to see where halves are. -/
@[reducible]
def otherSigns : HalfSigns := signsFrom 0x100000

/-- Halves that stand side by side: where they stand, how many they are, and the code of the
first. -/
structure HalfRun where
  place : Nat
  length : Nat
  code : Nat
  deriving DecidableEq, Repr

/-- The first halves of a text that holds some, given the same text with the other signs. -/
def firstHalves (text other : List Char) : HalfRun :=
  let isKept (pair : Char × Char) : Bool := pair.1 == pair.2
  let pairs := text.zip other
  let rest := pairs.dropWhile isKept
  { place := (pairs.takeWhile isKept).length
    length := (rest.takeWhile fun pair => !isKept pair).length
    code := match rest with
      | [] => 0
      | (_, sign) :: _ => sign.toNat - 0x100000 + 0xd800 }

/-- What is said of halves that cannot be encoded. -/
def HalfRun.message (halves : HalfRun) : String :=
  "'utf-8' codec can't encode " ++
    (if halves.length = 1 then
      "character '\\u" ++ .ofList (hexPadded 4 halves.code) ++ "' in position "
        ++ toString halves.place
    else
      "characters in position " ++ toString halves.place ++ "-"
        ++ toString (halves.place + halves.length - 1))
    ++ ": surrogates not allowed"

end EmulatedDevice.Text
