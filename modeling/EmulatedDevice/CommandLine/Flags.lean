import EmulatedDevice.Text.Digit
import EmulatedDevice.Text.Lines
import EmulatedDevice.Text.Quoted

/-!
# Command lines made of flags

A command takes flags with one value each. A value follows its flag as the next
word, or in the same word after an equals sign. A flag may be shortened as long as
no other flag starts in the same way, and of several values the last one counts.

Whether a word is a flag is decided by the word alone, before any value is taken:
a word that starts with a hyphen is one, unless it is a lone hyphen, looks like a
negative number, or holds a blank. So a value that looks like a flag has to be
written after an equals sign. A word of two hyphens ends the flags.
-/

namespace EmulatedDevice.CommandLine

/-- A flag: its name with the hyphens, whether it has to be given, and the values it allows; no
values means any. -/
structure Flag where
  name : String
  required : Bool
  choices : List String
  deriving DecidableEq, Repr

inductive UsageFault where
  | ambiguous (word : String) (candidates : List String)
  | expectedValue (flag : String)
  | badChoice (flag value : String) (choices : List String)
  | unexpectedValue (value : String)
  | missing (flags : List String)
  | unrecognized (words : List String)
  deriving DecidableEq, Repr

def helpNames : List String := ["-h", "--help"]

def UsageFault.message : UsageFault → String
  | .ambiguous word candidates =>
    "ambiguous option: " ++ word ++ " could match " ++ ", ".intercalate candidates
  | .expectedValue flag => "argument " ++ flag ++ ": expected one argument"
  | .badChoice flag value choices =>
    "argument " ++ flag ++ ": invalid choice: " ++ Text.quoted value ++ " (choose from "
      ++ ", ".intercalate (choices.map Text.quoted) ++ ")"
  | .unexpectedValue value =>
    "argument " ++ "/".intercalate helpNames ++ ": ignored explicit argument "
      ++ Text.quoted value
  | .missing flags => "the following arguments are required: " ++ ", ".intercalate flags
  | .unrecognized words => "unrecognized arguments: " ++ " ".intercalate words

inductive Word where
  | plain (text : String)
  | separator
  | flag (flag : Flag) (value : Option String)
  | help (value : Option String)
  | unknown (text : String)
  deriving DecidableEq, Repr

/-- The part of a word before its first equals sign, and the part after it if it has one. -/
def splitValue (word : List Char) : String × Option String :=
  let name := word.takeWhile (· ≠ '=')
  match word.drop name.length with
  | [] => (.ofList name, none)
  | _ :: value => (.ofList name, some (.ofList value))

/-- Whether a word looks like a negative number: a hyphen, digits, and perhaps a point with
digits after it. -/
def looksNegative (word : List Char) : Bool :=
  match Text.dropFinalNewline word with
  | '-' :: rest =>
    let isDigit (c : Char) : Bool := (Text.digitValue? c).isSome
    match rest.dropWhile isDigit with
    | [] => !rest.isEmpty
    | '.' :: fraction => !fraction.isEmpty && fraction.all isDigit
    | _ => false
  | _ => false

def classifyHyphen (flags : List Flag) (word : String) : Except UsageFault Word :=
  let (name, value) := splitValue word.toList
  let long := word.toList.take 2 = ['-', '-']
  match flags.find? (·.name == word), flags.find? (·.name == name) with
  | some flag, _ => .ok (.flag flag none)
  | none, some flag => .ok (.flag flag value)
  | none, none =>
    if name ∈ helpNames then .ok (.help value)
    else if long then
      let shortened (full : String) : Bool := name.toList.isPrefixOf full.toList
      let candidates := ("--help" :: flags.map Flag.name).filter shortened
      match candidates, flags.find? (shortened ·.name) with
      | [], _ => .ok (other word)
      | [_], some flag => .ok (.flag flag value)
      | [_], none => .ok (.help value)
      | _, _ => .error (.ambiguous word candidates)
    else if word.toList.take 2 = ['-', 'h'] then .ok (.help none)
    else .ok (other word)
where
  /-- What a word is that is no flag although it starts with a hyphen. -/
  other (word : String) : Word :=
    if looksNegative word.toList ∨ ' ' ∈ word.toList then .plain word else .unknown word

/-- What a word is that stands before a separator. -/
def classify (flags : List Flag) (word : String) : Except UsageFault Word :=
  match word.toList with
  | '-' :: _ :: _ => classifyHyphen flags word
  | _ => .ok (.plain word)

def classifyAll (flags : List Flag) : List String → Except UsageFault (List Word)
  | [] => .ok []
  | word :: rest =>
    if word = "--" then .ok (.separator :: rest.map .plain)
    else do return (← classify flags word) :: (← classifyAll flags rest)

/-- What a command line gives: values for flags in the order in which they came, or a request for
help. -/
inductive Request where
  | run (values : List (String × String))
  | help
  deriving DecidableEq, Repr

def Flag.accept (flag : Flag) (value : String) : Except UsageFault (String × String) :=
  if flag.choices = [] ∨ value ∈ flag.choices then .ok (flag.name, value)
  else .error (.badChoice flag.name value flag.choices)

/-- Goes through words: values for flags and words left over, or nothing when help is asked for. -/
def gather : List Word → Except UsageFault (Option (List (String × String) × List String))
  | [] => .ok (some ([], []))
  | .flag flag (some value) :: rest => do
    let pair ← flag.accept value
    return (← gather rest).map fun (values, extra) => (pair :: values, extra)
  | .flag flag none :: .plain value :: rest => do
    let pair ← flag.accept value
    return (← gather rest).map fun (values, extra) => (pair :: values, extra)
  | .flag flag none :: _ => .error (.expectedValue flag.name)
  | .help none :: _ => .ok none
  | .help (some value) :: _ => .error (.unexpectedValue value)
  | .plain text :: rest | .unknown text :: rest => do
    return (← gather rest).map fun (values, extra) => (values, text :: extra)
  | .separator :: rest => do
    return (← gather rest).map fun (values, extra) => (values, "--" :: extra)

/-- The value of a flag: the last one given. -/
def valueOf? (name : String) (values : List (String × String)) : Option String :=
  ((values.filter fun pair => pair.1 == name).getLast?).map Prod.snd

/-- Reads a command line. Missing flags are reported before words that are left over. -/
def read (flags : List Flag) (words : List String) : Except UsageFault Request := do
  match ← gather (← classifyAll flags words) with
  | none => return .help
  | some (values, extra) =>
    let missing := flags.filter fun flag => flag.required && (valueOf? flag.name values).isNone
    if missing ≠ [] then throw (.missing (missing.map Flag.name))
    if extra ≠ [] then throw (.unrecognized extra)
    return .run values

end EmulatedDevice.CommandLine
