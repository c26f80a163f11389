import EmulatedDevice.Text.Lines
import EmulatedDevice.Value.Display

/-!
# Schemas and their violations

A schema says which values are acceptable. Checking a value does not stop at the
first thing wrong with it: `Schema.violations` lists everything that is, each with
the path from the whole value to the part it is about, and a value is acceptable
when the list is empty.

A value of the wrong kind has that one violation and no other, since nothing more
can be asked of it. Of a record, unknown keys are reported first and all at once,
then the keys that are missing, then what is wrong under the known keys in the
order of the schema. Where there are alternatives, a value that fits none gives
one violation at the value itself, whatever is wrong with it deeper down.
-/

namespace EmulatedDevice

inductive TextRule where
  | nonEmpty
  | name
  deriving DecidableEq, Repr

inductive Schema where
  | null
  | integer
  | text (rule : TextRule)
  | list (items : Schema)
  | record (required : List String) (properties : List (String × Schema))
  | oneOf (alternatives : List Schema)
  | named (name : String) (body : Schema)
  deriving Repr

namespace Schema

def isNameChar (c : Char) : Bool :=
  c.isAlphanum || c == '_' || c == '.' || c == '+' || c == '-'

def namePattern : String := "^[A-Za-z0-9_.+-]+$"

/-- Whether a text is a name: one or more name characters, and perhaps a newline at the end. -/
def isName (text : String) : Bool :=
  let chars := Text.dropFinalNewline text.toList
  !chars.isEmpty && chars.all isNameChar

/-- One step from a value into a part of it. -/
inductive Step where
  | key (name : String)
  | index (i : Nat)
  deriving DecidableEq, Repr

def Step.text : Step → String
  | .key name => name
  | .index i => toString i

inductive Complaint where
  | wrongKind (value : Value) (wanted : String)
  | unknownKeys (keys : List Value)
  | missingKey (key : String)
  | noName (value : String)
  | emptyText
  | noAlternative (value : Value)
  deriving Repr

def Complaint.message : Complaint → String
  | .wrongKind value wanted => value.display ++ " is not of type " ++ Text.quoted wanted
  | .unknownKeys keys =>
    "Additional properties are not allowed (" ++ ", ".intercalate (keys.map Value.display)
      ++ (if keys.length = 1 then " was" else " were") ++ " unexpected)"
  | .missingKey key => Text.quoted key ++ " is a required property"
  | .noName value => Text.quoted value ++ " does not match " ++ Text.quoted namePattern
  | .emptyText => Text.quoted "" ++ " should be non-empty"
  | .noAlternative value => value.display ++ " is not valid under any of the given schemas"

/-- Whether a complaint can be put into words: whether every number that it shows can be written. -/
def Complaint.isWritable : Complaint → Bool
  | .wrongKind value _ | .noAlternative value => value.isWritable
  | .unknownKeys keys => keys.all Value.isWritable
  | .missingKey _ | .noName _ | .emptyText => true

structure Violation where
  path : List Step
  complaint : Complaint
  deriving Repr

/-- A violation seen from one step further out. -/
def Violation.under (step : Step) (v : Violation) : Violation :=
  { v with path := step :: v.path }

/-- A complaint about the whole value. -/
def complain (complaint : Complaint) : List Violation :=
  [⟨[], complaint⟩]

/-- The keys of a mapping that are none of the given names, in the order of their texts. -/
def unknownKeys (known : List String) (entries : List (Value × Value)) : List Value :=
  let extra := (entries.map Prod.fst).filter fun
    | .text key => !known.contains key
    | _ => true
  extra.mergeSort fun a b => decide (a.plain ≤ b.plain)

def unknownKeyViolations (known : List String) (entries : List (Value × Value)) :
    List Violation :=
  match unknownKeys known entries with
  | [] => []
  | keys => complain (.unknownKeys keys)

/-- A complaint for every required key that a mapping lacks. -/
def missingKeyViolations (required : List String) (entries : List (Value × Value)) :
    List Violation :=
  (required.filter fun key => (Value.field? key entries).isNone).map fun key =>
    ⟨[], .missingKey key⟩

mutual

/-- Everything that is wrong with a value. -/
def violations (schema : Schema) (value : Value) : List Violation :=
  match schema with
  | .null =>
    match value with
    | .null => []
    | _ => complain (.wrongKind value "null")
  | .integer =>
    match value with
    | .int _ => []
    | .float x => if x.toInt?.isSome then [] else complain (.wrongKind value "integer")
    | _ => complain (.wrongKind value "integer")
  | .text rule =>
    match value with
    | .text s =>
      match rule with
      | .nonEmpty => if s = "" then complain .emptyText else []
      | .name => if isName s then [] else complain (.noName s)
    | _ => complain (.wrongKind value "string")
  | .list items =>
    match value with
    | .list vs => vs.zipIdx.flatMap fun (v, i) => (violations items v).map (.under (.index i))
    | _ => complain (.wrongKind value "array")
  | .record required properties =>
    match value with
    | .mapping entries =>
      unknownKeyViolations (properties.map Prod.fst) entries
        ++ missingKeyViolations required entries
        ++ propertyViolations properties entries
    | _ => complain (.wrongKind value "object")
  | .oneOf alternatives =>
    if fitsAny alternatives value then [] else complain (.noAlternative value)
  | .named _ body => violations body value

/-- What is wrong under the known keys of a mapping, in the order of the schema. -/
def propertyViolations (properties : List (String × Schema)) (entries : List (Value × Value)) :
    List Violation :=
  match properties with
  | [] => []
  | (key, schema) :: rest =>
    (match Value.field? key entries with
      | none => []
      | some value => (violations schema value).map (.under (.key key)))
      ++ propertyViolations rest entries

/-- Whether a value is acceptable to one of several schemas. The alternatives of one schema are
of different kinds, so a value fits at most one of them. -/
def fitsAny (alternatives : List Schema) (value : Value) : Bool :=
  match alternatives with
  | [] => false
  | schema :: rest => (violations schema value).isEmpty || fitsAny rest value

end

end Schema

end EmulatedDevice
