import EmulatedDevice.Entries
import EmulatedDevice.Stub.Placeholder
import EmulatedDevice.Text.Quoted

/-!
# Launcher templates

A template is read once, from left to right, into pieces: a placeholder where a
token begins, and a single character everywhere else. Checking and filling in
both go by these pieces, so they agree on where the placeholders are, and a value
that is filled in is never read again.
-/

namespace EmulatedDevice

/-- A piece of a template: a character that stays, or a hole to fill. -/
inductive Piece where
  | literal (c : Char)
  | hole (p : Placeholder)
  deriving DecidableEq, Repr

namespace Template

/-- The pieces of a text of which the first `skip` characters are already accounted for. -/
def piecesAfter : Nat → List Char → List Piece
  | _, [] => []
  | skip + 1, _ :: rest => piecesAfter skip rest
  | 0, c :: rest =>
    match Placeholder.at? (c :: rest) with
    | some p => .hole p :: piecesAfter (p.token.length - 1) rest
    | none => .literal c :: piecesAfter 0 rest

/-- The pieces of a template. -/
def pieces (template : String) : List Piece :=
  piecesAfter 0 template.toList

def holes (template : String) : List Placeholder :=
  (pieces template).filterMap fun
    | .literal _ => none
    | .hole p => some p

end Template

/-- Values for placeholders, in the order in which they were bound. -/
abbrev Bindings := List (Placeholder × String)

namespace Bindings

/-- The bindings that remain when pairs are bound one after the other. -/
def ofPairs (pairs : List (Placeholder × String)) : Bindings :=
  Entries.ofPairs (· == ·) pairs

def get? (bindings : Bindings) (p : Placeholder) : Option String :=
  Entries.get? (· == ·) p bindings

end Bindings

/-- A text that was to be bound although it is the token of no placeholder. -/
structure UnknownToken where
  text : String
  deriving DecidableEq, Repr

def UnknownToken.message (unknown : UnknownToken) : String :=
  Text.quoted unknown.text ++ " is not a valid Placeholder"

/-- The placeholders that pairs are about, up to the first token that is unknown. -/
def Bindings.placeholders : List (String × String) → Except UnknownToken Bindings
  | [] => .ok []
  | (token, value) :: rest =>
    match Placeholder.ofToken? token with
    | none => .error ⟨token⟩
    | some p => do return (p, value) :: (← placeholders rest)

/-- The bindings that tokens and values give when they are bound one after the other. -/
def Bindings.ofTokens (pairs : List (String × String)) : Except UnknownToken Bindings := do
  return .ofPairs (← placeholders pairs)

/-- How a template and its bindings fail to match. -/
structure TemplateFault where
  unbound : List Placeholder
  miscounted : List (Placeholder × Nat)
  deriving DecidableEq, Repr

def TemplateFault.message (fault : TemplateFault) : String :=
  let unbound := if fault.unbound = [] then [] else
    ["no value bound for: " ++ ", ".intercalate (fault.unbound.map Placeholder.token)]
  let miscounted := fault.miscounted.map fun (p, count) =>
    p.token ++ " must appear exactly once in the template (found " ++ toString count ++ ")"
  "stub template mismatch: " ++ "; ".intercalate (unbound ++ miscounted)

namespace Template

/-- The placeholders that have no value, in the order of all placeholders. -/
def unbound (bindings : Bindings) : List Placeholder :=
  Placeholder.all.filter fun p => (bindings.get? p).isNone

/-- The bound placeholders that do not stand in the template exactly once, with their count. -/
def miscounted (template : String) (bindings : Bindings) : List (Placeholder × Nat) :=
  (bindings.map fun (p, _) => (p, (holes template).count p)).filter fun (_, count) => count != 1

/-- Whether every placeholder is bound and every bound one stands in the template exactly once. -/
def check (template : String) (bindings : Bindings) : Except TemplateFault Unit :=
  match unbound bindings, miscounted template bindings with
  | [], [] => .ok ()
  | ps, counts => .error ⟨ps, counts⟩

def fillPiece (bindings : Bindings) : Piece → List Char
  | .literal c => [c]
  | .hole p => ((bindings.get? p).getD "").toList

/-- The template with every hole filled by the value bound to it. -/
def fill (template : String) (bindings : Bindings) : String :=
  .ofList ((pieces template).flatMap (fillPiece bindings))

/-- Checks a template against its bindings and fills it. -/
def expand (template : String) (bindings : Bindings) : Except TemplateFault String := do
  check template bindings
  return fill template bindings

end Template

end EmulatedDevice
