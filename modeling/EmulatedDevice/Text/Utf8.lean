import EmulatedDevice.Text.Quoted

/-!
# UTF-8

A character is written in one to four octets. The lead octet says how many
follow; every one that follows lies between 0x80 and 0xBF, and the first of them
is bounded more narrowly after some leads, so that every character has one
written form and no surrogate has any.

Octets that do not write a text are refused at the first place where this shows.
The fault covers the octets there that could still have begun a character: one
octet that cannot lead, or a lead with as many fitting octets as follow it.
-/

namespace EmulatedDevice.Text

inductive Utf8Cause where
  | badStart
  | badContinuation
  | unexpectedEnd
  deriving DecidableEq, Repr

/-- A fault: what is wrong, where, and the octets that it covers. -/
structure Utf8Fault where
  cause : Utf8Cause
  start : Nat
  octets : List UInt8
  deriving DecidableEq, Repr

def Utf8Cause.message : Utf8Cause → String
  | .badStart => "invalid start byte"
  | .badContinuation => "invalid continuation byte"
  | .unexpectedEnd => "unexpected end of data"

def Utf8Fault.message (fault : Utf8Fault) : String :=
  let place := match fault.octets with
    | [octet] =>
      "byte 0x" ++ .ofList (hexPadded 2 octet.toNat) ++ " in position " ++ toString fault.start
    | octets =>
      "bytes in position " ++ toString fault.start ++ "-"
        ++ toString (fault.start + octets.length - 1)
  "'utf-8' codec can't decode " ++ place ++ ": " ++ fault.cause.message

/-- What a lead octet announces: how many octets follow, the bounds of the first of them, and the
bits that the lead itself contributes. -/
structure Lead where
  following : Nat
  low : Nat
  high : Nat
  bits : Nat
  deriving DecidableEq, Repr

/-- The announcement of an octet, if it can lead. -/
def Lead.of? (octet : Nat) : Option Lead :=
  if octet < 0x80 then some ⟨0, 0x80, 0xbf, octet⟩
  else if octet < 0xc2 then none
  else if octet < 0xe0 then some ⟨1, 0x80, 0xbf, octet - 0xc0⟩
  else if octet < 0xf0 then
    some ⟨2, if octet = 0xe0 then 0xa0 else 0x80, if octet = 0xed then 0x9f else 0xbf,
      octet - 0xe0⟩
  else if octet < 0xf5 then
    some ⟨3, if octet = 0xf0 then 0x90 else 0x80, if octet = 0xf4 then 0x8f else 0xbf,
      octet - 0xf0⟩
  else none

/-- Reads the octets that follow a lead: the code they complete, or what is wrong and how many
of them fitted. -/
def readFollowing : Nat → Nat → Nat → Nat → Nat → List UInt8 → Except (Utf8Cause × Nat) Nat
  | 0, _, _, bits, _, _ => .ok bits
  | _ + 1, _, _, _, fitted, [] => .error (.unexpectedEnd, fitted)
  | following + 1, low, high, bits, fitted, octet :: rest =>
    if low ≤ octet.toNat ∧ octet.toNat ≤ high then
      readFollowing following 0x80 0xbf (bits * 64 + (octet.toNat - 0x80)) (fitted + 1) rest
    else .error (.badContinuation, fitted)

/-- The character that octets begin with, and how many octets follow its lead. -/
def readChar (octet : UInt8) (rest : List UInt8) : Except (Utf8Cause × Nat) (Char × Nat) :=
  match Lead.of? octet.toNat with
  | none => .error (.badStart, 0)
  | some lead => do
    let code ← readFollowing lead.following lead.low lead.high lead.bits 0 rest
    return (Char.ofNat code, lead.following)

/-- Decodes octets that start at a place of a longer sequence, of which the first `skip` are
already accounted for. -/
def decodeFrom (place : Nat) : Nat → List UInt8 → Except Utf8Fault (List Char)
  | _, [] => .ok []
  | skip + 1, _ :: rest => decodeFrom (place + 1) skip rest
  | 0, octet :: rest =>
    match readChar octet rest with
    | .error (cause, fitted) => .error ⟨cause, place, octet :: rest.take fitted⟩
    | .ok (c, following) => do return c :: (← decodeFrom (place + 1) following rest)

def decodeUtf8 (octets : List UInt8) : Except Utf8Fault (List Char) :=
  decodeFrom 0 0 octets

def encodeUtf8 (text : List Char) : List UInt8 :=
  text.flatMap String.utf8EncodeChar

end EmulatedDevice.Text
