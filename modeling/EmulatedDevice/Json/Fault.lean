import EmulatedDevice.Text.Position

/-!
# What can be wrong with a JSON text

A fault is what was expected or found, and the place it is about. For a string
that never ends the place is its opening quote; for a bad escape it is the escape.
-/

namespace EmulatedDevice.Json

inductive Cause where
  | byteOrderMark
  | expectedValue
  | expectedName
  | expectedColon
  | expectedComma
  | extraData
  | unterminatedString
  | controlCharacter
  | badEscape
  | badUnicodeEscape
  deriving DecidableEq, Repr

def Cause.message : Cause → String
  | .byteOrderMark => "Unexpected UTF-8 BOM (decode using utf-8-sig)"
  | .expectedValue => "Expecting value"
  | .expectedName => "Expecting property name enclosed in double quotes"
  | .expectedColon => "Expecting ':' delimiter"
  | .expectedComma => "Expecting ',' delimiter"
  | .extraData => "Extra data"
  | .unterminatedString => "Unterminated string starting at"
  | .controlCharacter => "Invalid control character at"
  | .badEscape => "Invalid \\escape"
  | .badUnicodeEscape => "Invalid \\uXXXX escape"

structure Fault where
  cause : Cause
  place : Text.Position
  deriving DecidableEq, Repr

def Fault.message (fault : Fault) : String :=
  fault.cause.message ++ ": " ++ fault.place.message

end EmulatedDevice.Json
