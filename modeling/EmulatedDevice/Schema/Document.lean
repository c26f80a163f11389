import EmulatedDevice.Schema

/-!
# Schemas as documents

A schema is itself written as a document. A named part of it is written where it
is used as a reference, and once in full among the definitions.
-/

namespace EmulatedDevice.Schema

mutual

def toValue : Schema → Value
  | .null => .ofFields [("type", .text "null")]
  | .integer => .ofFields [("type", .text "integer")]
  | .text .nonEmpty => .ofFields [("type", .text "string"), ("minLength", .int 1)]
  | .text .name => .ofFields [("type", .text "string"), ("pattern", .text namePattern)]
  | .list items => .ofFields [("type", .text "array"), ("items", items.toValue)]
  | .record required properties =>
    .ofFields
      [ ("type", .text "object"), ("additionalProperties", .bool false)
      , ("required", .ofTexts required), ("properties", .ofFields (propertyValues properties)) ]
  | .oneOf alternatives => .ofFields [("oneOf", .list (alternativeValues alternatives))]
  | .named name _ => .ofFields [("$ref", .text ("#/$defs/" ++ name))]

def propertyValues : List (String × Schema) → List (String × Value)
  | [] => []
  | (key, schema) :: rest => (key, schema.toValue) :: propertyValues rest

def alternativeValues : List Schema → List Value
  | [] => []
  | schema :: rest => schema.toValue :: alternativeValues rest

end

/-- A schema with its name, its title, and the parts that it refers to. -/
structure Document where
  name : String
  title : String
  body : Schema
  definitions : List (String × Schema)
  deriving Repr

/-- A schema document as a value: what it is, then its body, then its definitions. -/
def Document.toValue (document : Document) : Value :=
  let front : Value := .ofFields
    [ ("$schema", .text "https://json-schema.org/draft/2020-12/schema")
    , ("$id", .text document.name)
    , ("title", .text document.title) ]
  let definitions : Value := .ofFields [("$defs", .ofFields (propertyValues document.definitions))]
  match front, document.body.toValue, definitions with
  | .mapping a, .mapping b, .mapping c => .mapping (a ++ b ++ c)
  | v, _, _ => v

end EmulatedDevice.Schema
