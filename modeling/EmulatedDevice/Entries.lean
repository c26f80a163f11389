/-!
# Entries with distinct keys

A mapping whose order can be seen is a list of entries. Putting an entry under a
key that is already there keeps the key's place and takes the new value, so after
a series of insertions a key stands where it came first with what it got last.

What counts as the same key is a parameter, because not every kind of key is
compared for plain equality.
-/

namespace EmulatedDevice.Entries

variable {κ β : Type}

/-- Puts a value under a key, in the key's place if it has one and else at the end. -/
def put (same : κ → κ → Bool) (key : κ) (value : β) : List (κ × β) → List (κ × β)
  | [] => [(key, value)]
  | (k, v) :: rest =>
    if same k key then (k, value) :: rest else (k, v) :: put same key value rest

/-- The entries that remain when pairs are put in one after the other. -/
def ofPairs (same : κ → κ → Bool) (pairs : List (κ × β)) : List (κ × β) :=
  pairs.foldl (fun entries pair => put same pair.1 pair.2 entries) []

def get? (same : κ → κ → Bool) (key : κ) : List (κ × β) → Option β
  | [] => none
  | (k, v) :: rest => if same k key then some v else get? same key rest

/-! ## What look-ups see -/

variable [BEq κ] [LawfulBEq κ]

theorem get?_put_self (key : κ) (value : β) (entries : List (κ × β)) :
    get? (· == ·) key (put (· == ·) key value entries) = some value := by
  induction entries with
  | nil => simp [put, get?]
  | cons entry rest ih =>
    by_cases h : entry.1 = key
    · simp [put, get?, h]
    · simp [put, get?, h, ih]

theorem get?_put_of_ne {key other : κ} (hne : other ≠ key) (value : β) (entries : List (κ × β)) :
    get? (· == ·) other (put (· == ·) key value entries) = get? (· == ·) other entries := by
  have hne' : key ≠ other := fun h => hne h.symm
  induction entries with
  | nil => simp [put, get?, hne']
  | cons entry rest ih =>
    by_cases h : entry.1 = key
    · simp [put, get?, h, hne']
    · simp [put, get?, h, ih]

theorem get?_isSome_iff {key : κ} {entries : List (κ × β)} :
    (get? (· == ·) key entries).isSome ↔ key ∈ entries.map Prod.fst := by
  induction entries with
  | nil => simp [get?]
  | cons entry rest ih =>
    by_cases h : entry.1 = key
    · simp [get?, h]
    · have h' : key ≠ entry.1 := fun e => h e.symm
      simp [get?, h, h', ih]

theorem get?_filter_self (key : κ) (entries : List (κ × β)) :
    get? (· == ·) key (entries.filter fun entry => entry.1 != key) = none := by
  induction entries with
  | nil => rfl
  | cons entry rest ih =>
    by_cases h : entry.1 = key
    · simp [h, ih]
    · simp [get?, h, ih]

theorem get?_filter_of_ne {key other : κ} (hne : other ≠ key) (entries : List (κ × β)) :
    get? (· == ·) other (entries.filter fun entry => entry.1 != key)
      = get? (· == ·) other entries := by
  have hne' : key ≠ other := fun h => hne h.symm
  induction entries with
  | nil => rfl
  | cons entry rest ih =>
    by_cases h : entry.1 = key
    · simp [get?, h, hne', ih]
    · simp [get?, h, ih]

/-! ## What leaves the entries as they are -/

/-- Putting in what is there already. -/
theorem put_eq_self {key : κ} {value : β} {entries : List (κ × β)}
    (h : get? (· == ·) key entries = some value) : put (· == ·) key value entries = entries := by
  induction entries with
  | nil => cases h
  | cons entry rest ih =>
    obtain ⟨k, v⟩ := entry
    by_cases hk : k = key
    · simp_all [put, get?]
    · have hrest : get? (· == ·) key rest = some value := by simpa [get?, hk] using h
      simp [put, hk, ih hrest]

/-- Putting in under a new key and taking it out again. -/
theorem filter_put_self {key : κ} {entries : List (κ × β)}
    (h : get? (· == ·) key entries = none) (value : β) :
    (put (· == ·) key value entries).filter (fun entry => entry.1 != key) = entries := by
  induction entries with
  | nil => simp [put]
  | cons entry rest ih =>
    obtain ⟨k, v⟩ := entry
    by_cases hk : k = key
    · simp [get?, hk] at h
    · have hrest : get? (· == ·) key rest = none := by simpa [get?, hk] using h
      simp [put, hk, ih hrest]

/-- Putting in under one key and taking out another, in either order. -/
theorem filter_put_of_ne {key other : κ} (hne : key ≠ other) (value : β)
    (entries : List (κ × β)) :
    (put (· == ·) key value entries).filter (fun entry => entry.1 != other) =
      put (· == ·) key value (entries.filter fun entry => entry.1 != other) := by
  induction entries with
  | nil => simp [put, hne]
  | cons entry rest ih =>
    obtain ⟨k, v⟩ := entry
    by_cases hk : k = key
    · simp [put, hk, hne]
    · by_cases hother : k = other
      · simp [put, hother, hne.symm, ih]
      · simp [put, hk, hother, ih]

end EmulatedDevice.Entries
