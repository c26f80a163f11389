import EmulatedDevice.Value.Display

/-!
# Writing JSON

Values are written over several lines: every item of a list and every member of a
mapping gets a line of its own, two blanks deeper than what holds it. An empty
list is `[]` and an empty mapping is a pair of braces. Characters beyond ASCII
stand as they are; only quotes, backslashes and control characters are escaped,
and so what is written can be read back.

JSON has no dates and no octets. They are written as the text that shows them.
-/

namespace EmulatedDevice.Json

def escapeChar (c : Char) : List Char :=
  if c = '"' then ['\\', '"']
  else if c = '\\' then ['\\', '\\']
  else if c = '\n' then ['\\', 'n']
  else if c = '\r' then ['\\', 'r']
  else if c = '\t' then ['\\', 't']
  else if c = '\x08' then ['\\', 'b']
  else if c = '\x0c' then ['\\', 'f']
  else if c.toNat < 0x20 then ['\\', 'u'] ++ Text.hexPadded 4 c.toNat
  else [c]

def renderText (text : String) : List Char :=
  '"' :: text.toList.flatMap escapeChar ++ ['"']

def lineBreak (depth : Nat) : List Char :=
  '\n' :: List.replicate (2 * depth) ' '

/-- A double, with the names that JSON readers know for what has no digits. -/
def renderFloat : Binary64 → List Char
  | .nan => "NaN".toList
  | .infinity negative => (if negative then "-Infinity" else "Infinity").toList
  | x => x.toText.toList

mutual

/-- A value as it stands at a depth; its first line is not indented. -/
def renderAt (depth : Nat) : Value → List Char
  | .null => "null".toList
  | .bool b => (if b then "true" else "false").toList
  | .int n => (toString n).toList
  | .float x => renderFloat x
  | .text s => renderText s
  | .date d => renderText d.iso
  | .dateTime t => renderText t.iso
  | .bytes octets => renderText (Text.quotedBytes octets)
  | .list [] => ['[', ']']
  | .list (item :: items) =>
    '[' :: lineBreak (depth + 1) ++ renderAt (depth + 1) item ++ renderItems (depth + 1) items
      ++ lineBreak depth ++ [']']
  | .mapping [] => ['{', '}']
  | .mapping ((key, value) :: members) =>
    '{' :: lineBreak (depth + 1) ++ renderText key.plain ++ [':', ' ']
      ++ renderAt (depth + 1) value ++ renderMembers (depth + 1) members
      ++ lineBreak depth ++ ['}']

/-- The items after the first, each with the comma before it. -/
def renderItems (depth : Nat) : List Value → List Char
  | [] => []
  | item :: rest => ',' :: lineBreak depth ++ renderAt depth item ++ renderItems depth rest

/-- The members after the first, each with the comma before it. -/
def renderMembers (depth : Nat) : List (Value × Value) → List Char
  | [] => []
  | (key, value) :: rest =>
    ',' :: lineBreak depth ++ renderText key.plain ++ [':', ' '] ++ renderAt depth value
      ++ renderMembers depth rest

end

/-- A value as a JSON document, without a line break at its end. -/
def render (value : Value) : String :=
  .ofList (renderAt 0 value)

end EmulatedDevice.Json
