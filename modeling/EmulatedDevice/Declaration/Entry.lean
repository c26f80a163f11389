import EmulatedDevice.Artifact
import EmulatedDevice.Value.Display

/-!
# Path entries

A path entry is a text, for a source file, or a mapping with an output root and a
path, for a generated file. A list of entries may be left empty in any way that a
value can be empty. A number has to be one that can be written, where an entry is
used as a text or shown in a message.
-/

namespace EmulatedDevice

inductive EntryFault where
  | missingKey (key : String)
  | unsupported (entry : Value)
  | notIterable (kind : String)
  | tooManyDigits
  deriving Repr

def EntryFault.message : EntryFault → String
  | .missingKey key => Text.quoted key
  | .unsupported entry => "unsupported path entry: " ++ entry.display
  | .notIterable kind => Text.quoted kind ++ " object is not iterable"
  | .tooManyDigits => Text.tooManyDigits

namespace Artifact

def entryField (key : String) (entries : List (Value × Value)) : Except EntryFault String :=
  match Value.field? key entries with
  | some value => if value.isWritable then .ok value.plain else .error .tooManyDigits
  | none => .error (.missingKey key)

/-- The artifact that a path entry stands for. The root is asked for before the path. -/
def ofEntry : Value → Except EntryFault Artifact
  | .text path => .ok (.source path)
  | .mapping entries => do
    let root ← entryField "root" entries
    let path ← entryField "path" entries
    return .derived root path
  | entry => .error (if entry.isWritable then .unsupported entry else .tooManyDigits)

/-- The artifacts that a list of path entries stands for, up to the first that is none. -/
def ofEntries : List Value → Except EntryFault (List Artifact)
  | [] => .ok []
  | entry :: rest => do
    let a ← ofEntry entry
    let as ← ofEntries rest
    return a :: as

/-- What one gets by going through a value: the items of a list, the keys of a mapping, the
characters of a text, the numbers of an octet sequence. -/
def entriesOf : Value → Except EntryFault (List Value)
  | .list items => .ok items
  | .mapping entries => .ok (entries.map Prod.fst)
  | .text s => .ok (s.toList.map fun c => .text (.singleton c))
  | .bytes octets => .ok (octets.map fun b => .int b.toNat)
  | value => .error (.notIterable value.kind)

/-- The artifacts that the entries of a value stand for; an empty value has none. -/
def ofEntryList (value : Value) : Except EntryFault (List Artifact) :=
  if value.isEmpty then .ok [] else do ofEntries (← entriesOf value)

end Artifact

end EmulatedDevice
