import EmulatedDevice.Text.Hex
import EmulatedDevice.Text.Printable

/-!
# Quoted text

A message shows a text between quotes, so that blanks, quotes and characters that
cannot be shown are visible. Single quotes are used unless the text holds a
single quote and no double quote. Backslashes and the quote in use get a
backslash; unprintable characters are written by their code.
-/

namespace EmulatedDevice.Text

def quoteChar (quote c : Char) : List Char :=
  if c = quote ∨ c = '\\' then ['\\', c]
  else if c = '\n' then ['\\', 'n']
  else if c = '\r' then ['\\', 'r']
  else if c = '\t' then ['\\', 't']
  else if isPrintable c then [c]
  else if c.toNat < 0x100 then ['\\', 'x'] ++ hexPadded 2 c.toNat
  else if c.toNat < 0x10000 then ['\\', 'u'] ++ hexPadded 4 c.toNat
  else ['\\', 'U'] ++ hexPadded 8 c.toNat

/-- The quote that a text is put between. -/
def quoteFor (text : List Char) : Char :=
  if '\'' ∈ text ∧ '"' ∉ text then '"' else '\''

def quoted (text : String) : String :=
  let quote := quoteFor text.toList
  .ofList (quote :: text.toList.flatMap (quoteChar quote) ++ [quote])

/-- One octet between quotes; octets beyond ASCII are written by their code. -/
def quoteByte (quote : Char) (byte : UInt8) : List Char :=
  if byte.toNat < 0x7f then quoteChar quote (Char.ofNat byte.toNat)
  else ['\\', 'x'] ++ hexPadded 2 byte.toNat

/-- A sequence of octets between quotes, marked as such. -/
def quotedBytes (bytes : List UInt8) : String :=
  let quote := quoteFor (bytes.map fun byte => Char.ofNat byte.toNat)
  .ofList ('b' :: quote :: bytes.flatMap (quoteByte quote) ++ [quote])

end EmulatedDevice.Text
