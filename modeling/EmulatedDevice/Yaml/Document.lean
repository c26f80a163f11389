import EmulatedDevice.Value
import EmulatedDevice.Yaml.Node
import EmulatedDevice.Yaml.Number

/-!
# The value of a YAML document

A node stands for the value that its tag asks for. Mappings may merge others: what
they merge comes first and is overridden by what they hold themselves, and of
several merged mappings the first counts most. Only scalars can be keys.

A document is gone through level by level, so of several faults the one that is
least deep is told, and the first of equally deep ones.
-/

namespace EmulatedDevice.Yaml

namespace Node

def tag : Node → Tag
  | .scalar tag _ => tag
  | .sequence tag _ => tag
  | .mapping tag _ => tag

mutual

/-- The text of a scalar, or of the default of a mapping. -/
def scalarText : Node → Except Fault String
  | .scalar _ text => .ok text
  | .sequence .. => .error .malformed
  | .mapping _ pairs => defaultText pairs

/-- The text under the first key that marks a default. -/
def defaultText : List (Node × Node) → Except Fault String
  | [] => .error .malformed
  | (key, value) :: rest =>
    if key.tag = .default then scalarText value else defaultText rest

end

def truth (text : String) : Except Fault Value :=
  let lower := String.ofList (text.toList.map Char.toLower)
  match Entries.get? (· == ·) lower Tag.truthWords with
  | some b => .ok (.bool b)
  | none => .error (.badBoolean lower)

/-- The first six digits of a fraction of a second, filled up with zeros. -/
def microseconds (fraction : List Char) : Nat :=
  Nat.ofDigitChars 10 ((fraction.take 6) ++ List.replicate (6 - fraction.length) '0') 0

/-- The date or time that a scalar stands for. -/
def timestamp (text : String) : Except Fault Value :=
  match Tag.timestampParts (Text.dropFinalNewline text.toList) with
  | none => .error .badTimestamp
  | some parts =>
    match parts.time with
    | none => ((Calendar.date parts.year parts.month parts.day).map .date).mapError .badDate
    | some (hour, minute, second) =>
      ((Calendar.dateTime parts.year parts.month parts.day hour minute second
        (microseconds parts.fraction) parts.offset).map .dateTime).mapError .badDate

def scalarValue (tag : Tag) (text : String) : Except Fault Value :=
  match tag with
  | .null => .ok .null
  | .bool => truth text
  | .int => (Number.integer text.toList).map .int
  | .float => (Number.float text.toList).map .float
  | .string => .ok (.text text)
  | .binary => (Number.octets text.toList).map .bytes
  | .timestamp => timestamp text
  | .sequence | .mapping | .merge | .default | .other _ => .error .malformed

/-! ## Collections -/

/-- A value, or a fault with its depth in the document. -/
abbrev Deep (α : Type) := Except (Nat × Fault) α

def malformedAt {α : Type} (depth : Nat) : Deep α :=
  .error (depth, .malformed)

/-- Two results, or the fault that is less deep; the first of two equally deep ones. -/
def both {α β : Type} (x : Deep α) (y : Deep β) : Deep (α × β) :=
  match x, y with
  | .ok a, .ok b => .ok (a, b)
  | .error e, .ok _ => .error e
  | .ok _, .error f => .error f
  | .error e, .error f => .error (if f.1 < e.1 then f else e)

/-- The key that a node at a depth stands for. Only scalars can be keys; the sign of a default is
plain text as a key. -/
def keyValue (depth : Nat) (key : Node) : Deep Value :=
  let read : Except Fault Value := match key with
    | .scalar .default text => .ok (.text text)
    | .scalar tag text => scalarValue tag text
    | .sequence .. => .error .malformed
    | .mapping .mapping _ => .error .malformed
    | .mapping tag pairs => do
      let text ← defaultText pairs
      if tag = .default then return .text text else scalarValue tag text
  read.mapError (depth, ·)

mutual

/-- The value that a node at a depth stands for. -/
def toValue (depth : Nat) : Node → Deep Value
  | .scalar tag text => (scalarValue tag text).mapError (depth, ·)
  | .sequence tag items =>
    if tag = .sequence then (itemValues (depth + 1) items).map .list else malformedAt depth
  | .mapping tag pairs =>
    if tag = .mapping then
      (both (mergedPairs (depth + 1) pairs) (ownPairs (depth + 1) pairs)).map
        fun (merged, own) => .mappingOfPairs (merged ++ own)
    else ((defaultText pairs).bind (scalarValue tag)).mapError (depth, ·)

def itemValues (depth : Nat) : List Node → Deep (List Value)
  | [] => .ok []
  | item :: rest =>
    (both (toValue depth item) (itemValues depth rest)).map fun (v, vs) => v :: vs

/-- The pairs that a mapping takes over from others. -/
def mergedPairs (depth : Nat) : List (Node × Node) → Deep (List (Value × Value))
  | [] => .ok []
  | (key, value) :: rest =>
    if key.tag = .merge then
      (both (sourcePairs depth value) (mergedPairs depth rest)).map
        fun (taken, more) => taken ++ more
    else mergedPairs depth rest

/-- The pairs of a mapping that is merged into another, or of several, the first one last. -/
def sourcePairs (depth : Nat) : Node → Deep (List (Value × Value))
  | .scalar .. => malformedAt depth
  | .mapping _ pairs =>
    (both (mergedPairs depth pairs) (ownPairs depth pairs)).map
      fun (merged, own) => merged ++ own
  | .sequence _ sources => sourcesPairs depth sources

/-- The pairs of several mappings, the first one last. -/
def sourcesPairs (depth : Nat) : List Node → Deep (List (Value × Value))
  | [] => .ok []
  | .mapping _ pairs :: rest =>
    (both (sourcesPairs depth rest) (both (mergedPairs depth pairs) (ownPairs depth pairs))).map
      fun (later, merged, own) => later ++ merged ++ own
  | _ :: _ => malformedAt depth

/-- The pairs that a mapping holds itself. -/
def ownPairs (depth : Nat) : List (Node × Node) → Deep (List (Value × Value))
  | [] => .ok []
  | (key, value) :: rest =>
    if key.tag = .merge then ownPairs depth rest
    else
      (both (keyValue depth key) (both (toValue depth value) (ownPairs depth rest))).map
        fun (k, v, pairs) => (k, v) :: pairs

end

end Node

def parse [Text.HalfSigns] (text : List Char) : Except Fault Value := do
  let root ← Node.ofTokens (← Token.scan text)
  (root.toValue 0).mapError Prod.snd

end EmulatedDevice.Yaml
