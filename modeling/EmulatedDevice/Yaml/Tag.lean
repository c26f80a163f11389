import EmulatedDevice.Text.Hex
import EmulatedDevice.Text.Lines
import EmulatedDevice.Yaml.Fault

/-!
# Tags, and the tag of a plain scalar

A tag says what kind of value a node stands for. A plain scalar without a tag gets
one by its looks: the words for truth and for nothing, numbers in several bases
and with colons between their sixties, dates, and the two signs that merge
mappings and mark a default. A sign that could only begin some other syntax is
kept apart as well. All else is text.
-/

namespace EmulatedDevice.Yaml

inductive Tag where
  | null
  | bool
  | int
  | float
  | string
  | binary
  | timestamp
  | sequence
  | mapping
  | merge
  | default
  | other (name : String)
  deriving DecidableEq, Repr

namespace Tag

/-- The lead of the names of standard tags. -/
def standardLead : String := "tag:yaml.org,2002:"

def shortNames : List (String × Tag) :=
  [ ("null", .null), ("bool", .bool), ("int", .int), ("float", .float), ("str", .string)
  , ("binary", .binary), ("timestamp", .timestamp), ("seq", .sequence), ("map", .mapping)
  , ("merge", .merge), ("value", .default) ]

def ofName (name : String) : Tag :=
  match shortNames.find? fun pair => standardLead ++ pair.1 == name with
  | some (_, tag) => tag
  | none => .other name

/-! ## The looks of scalars -/

/-- The words for truth values, in lower case. -/
def truthWords : List (String × Bool) :=
  [("yes", true), ("no", false), ("true", true), ("false", false), ("on", true), ("off", false)]

/-- Whether a text is a word in lower case, capitalised, or in upper case. -/
def isCasingOf (word : String) (text : List Char) : Bool :=
  let upper := word.toList.map Char.toUpper
  text == word.toList || text == upper || text == upper.take 1 ++ word.toList.drop 1

def isDigitOrLine (c : Char) : Bool := c.isDigit || c == '_'

/-- Whether a text is a digit followed by digits and separators. -/
def isGrouped (text : List Char) : Bool :=
  match text with
  | c :: rest => c.isDigit && rest.all isDigitOrLine
  | [] => false

/-- The text after a sign, if it starts with one. -/
def dropSign : List Char → List Char
  | '-' :: rest => rest
  | '+' :: rest => rest
  | text => text

/-- Whether digits are a number of sixtieths. -/
def isSixtieth : List Char → Bool
  | [c] => c.isDigit
  | [a, b] => '0' ≤ a && a ≤ '5' && b.isDigit
  | _ => false

/-- The parts of a text between its colons. -/
def colonParts : List Char → List (List Char)
  | [] => [[]]
  | c :: rest =>
    if c = ':' then [] :: colonParts rest
    else match colonParts rest with
      | [] => [[c]]
      | part :: parts => (c :: part) :: parts

def isSexagesimal (text : List Char) : Bool :=
  match colonParts text with
  | first :: second :: more => isGrouped first && (second :: more).all isSixtieth
  | _ => false

def looksInt (text : List Char) : Bool :=
  match dropSign text with
  | '0' :: 'b' :: rest => !rest.isEmpty && rest.all fun c => c == '0' || c == '1' || c == '_'
  | '0' :: 'x' :: rest =>
    !rest.isEmpty && rest.all fun c => (Text.hexValue? c).isSome || c == '_'
  | ['0'] => true
  | '0' :: rest => rest.all fun c => ('0' ≤ c && c ≤ '7') || c == '_'
  | body => isGrouped body || isSexagesimal body

/-- Whether a text is an exponent with a sign, or nothing. -/
def isExponent : List Char → Bool
  | [] => true
  | c :: sign :: rest =>
    (c == 'e' || c == 'E') && (sign == '-' || sign == '+') && !rest.isEmpty
      && rest.all Char.isDigit
  | [_] => false

/-- Whether a text with its sign removed looks like a number with a point. -/
def looksPointed (body : List Char) : Bool :=
  let whole := body.takeWhile (· ≠ '.')
  match body.drop whole.length with
  | '.' :: rest =>
    let fraction := rest.takeWhile isDigitOrLine
    let tail := rest.drop fraction.length
    (isGrouped whole && isExponent tail)
      || (isSexagesimal whole && tail.isEmpty)
  | _ => false

def looksFloat (text : List Char) : Bool :=
  let body := dropSign text
  looksPointed body
    || body == ".inf".toList || body == ".Inf".toList || body == ".INF".toList
    || text == ".nan".toList || text == ".NaN".toList || text == ".NAN".toList
    || (match text with
      | '.' :: c :: rest =>
        let fraction := rest.takeWhile isDigitOrLine
        c.isDigit && isExponent (rest.drop fraction.length)
      | _ => false)

/-! ## Dates and times -/

structure TimestampParts where
  year : Nat
  month : Nat
  day : Nat
  time : Option (Nat × Nat × Nat)
  fraction : List Char
  offset : Option Int
  deriving DecidableEq, Repr

/-- Between `least` and `most` digits at the start of a text, as many as there are. -/
def takeDigits (least most : Nat) (text : List Char) : Option (Nat × List Char) :=
  let digits := (text.take most).takeWhile Char.isDigit
  if digits.length < least then none
  else some (Nat.ofDigitChars 10 digits 0, text.drop digits.length)

/-- A text after a character that it has to start with. -/
def expect (c : Char) : List Char → Option (List Char)
  | head :: rest => if head = c then some rest else none
  | [] => none

/-- The offset from universal time that ends a timestamp: nothing, a `Z`, or a sign with hours and
perhaps minutes. -/
def offsetOf (text : List Char) : Option (Option Int) :=
  let signed (negative : Bool) (rest : List Char) : Option (Option Int) := do
    let (hours, rest) ← takeDigits 1 2 rest
    let minutes ← match rest with
      | [] => some 0
      | ':' :: rest => do
        let (minutes, rest) ← takeDigits 2 2 rest
        if rest = [] then some minutes else none
      | _ => none
    let total : Int := hours * 60 + minutes
    return some (if negative then -total else total)
  if text = [] then some none
  else match text.dropWhile fun c => c == ' ' || c == '\t' with
    | ['Z'] => some (some 0)
    | '-' :: rest => signed true rest
    | '+' :: rest => signed false rest
    | _ => none

/-- The parts of a timestamp: a date, or a date and a time of day. -/
def timestampParts (text : List Char) : Option TimestampParts := do
  let (year, rest) ← takeDigits 4 4 text
  let (month, rest) ← takeDigits 1 2 (← expect '-' rest)
  let (day, rest) ← takeDigits 1 2 (← expect '-' rest)
  if rest = [] then return ⟨year, month, day, none, [], none⟩
  let rest ← match rest with
    | 't' :: rest | 'T' :: rest => some rest
    | ' ' :: rest | '\t' :: rest => some (rest.dropWhile fun c => c == ' ' || c == '\t')
    | _ => none
  let (hour, rest) ← takeDigits 1 2 rest
  let (minute, rest) ← takeDigits 2 2 (← expect ':' rest)
  let (second, rest) ← takeDigits 2 2 (← expect ':' rest)
  let (fraction, rest) := match rest with
    | '.' :: rest => (rest.takeWhile Char.isDigit, rest.dropWhile Char.isDigit)
    | rest => ([], rest)
  return ⟨year, month, day, some (hour, minute, second), fraction, ← offsetOf rest⟩

/-- Whether a text looks like a timestamp. A date alone has two digits for month and day. -/
def looksTimestamp (text : List Char) : Bool :=
  match timestampParts text with
  | none => false
  | some parts => parts.time.isSome || text.length == 10

/-- The tag that a plain scalar gets by its looks. -/
def resolve (text : String) : Tag :=
  let chars := Text.dropFinalNewline text.toList
  if text = "" then .null
  else if chars = [] then .string
  else if truthWords.any fun (word, _) => isCasingOf word chars then .bool
  else if looksFloat chars then .float
  else if looksInt chars then .int
  else if chars = "<<".toList then .merge
  else if chars = ['~'] ∨ isCasingOf "null" chars then .null
  else if looksTimestamp chars then .timestamp
  else if chars = ['='] then .default
  else if chars = ['!'] ∨ chars = ['&'] ∨ chars = ['*'] then .other (standardLead ++ "yaml")
  else .string

end Tag

end EmulatedDevice.Yaml
