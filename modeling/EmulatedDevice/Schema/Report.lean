import EmulatedDevice.Schema

/-!
# Reporting violations

Violations are reported in the order of their paths, a path being the list of the
texts of its steps; so the tenth item comes before the second. Violations of one
path keep the order in which they were found. At most twenty are shown, and how
many are not shown is said.

Every violation is put into words when it is found, and not only when it is shown.
So a value is not reported on at all when a violation, were it the last one, shows a
number that has too many digits to be written.
-/

namespace EmulatedDevice.Schema

/-- Whether a path comes before another or is the same. -/
def pathLe : List String → List String → Bool
  | [], _ => true
  | _ :: _, [] => false
  | a :: as, b :: bs => if a = b then pathLe as bs else decide (a < b)

def Violation.texts (v : Violation) : List String :=
  v.path.map Step.text

def sorted (vs : List Violation) : List Violation :=
  vs.mergeSort fun v w => pathLe v.texts w.texts

/-- A document that was refused: what it is called in messages, and all its violations. -/
structure Rejection where
  place : String
  violations : List Violation
  deriving Repr

/-- The greatest number of violations that a report shows. -/
def Rejection.shown : Nat := 20

def Violation.line (place : String) (v : Violation) : String :=
  let path := "/".intercalate v.texts
  "- " ++ place ++ (if path = "" then "" else ":" ++ path) ++ ": " ++ v.complaint.message

namespace Rejection

def lines (r : Rejection) : List String :=
  let ordered := sorted r.violations
  let rest := ordered.length - shown
  (ordered.take shown).map (Violation.line r.place)
    ++ (if rest = 0 then [] else ["... (" ++ toString rest ++ " more)"])

def message (r : Rejection) : String :=
  "\n".intercalate r.lines

end Rejection

/-- Why a value does not pass a check. -/
inductive CheckFault where
  | rejected (rejection : Rejection)
  | tooManyDigits
  deriving Repr

/-- Whether a value is acceptable; if not, everything that is wrong with it, if that can be said. -/
def check (schema : Schema) (place : String) (value : Value) : Except CheckFault Unit :=
  match schema.violations value with
  | [] => .ok ()
  | vs =>
    if vs.all (·.complaint.isWritable) then .error (.rejected ⟨place, vs⟩)
    else .error .tooManyDigits

end EmulatedDevice.Schema
