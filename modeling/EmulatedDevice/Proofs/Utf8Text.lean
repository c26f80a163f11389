import EmulatedDevice.Text.Utf8
import Mathlib.Data.List.Basic

/-!
# Encoded text is read back

A character is written as a lead octet and the octets that it announces. What the
lead announces depends on the range that the character is in, and the bounds of the
octet behind it are just those that the range leaves; so every character is read
back from its octets, whatever stands behind them.
-/

namespace EmulatedDevice.Text

/-- The code of a character is no surrogate and not beyond the last one there is. -/
theorem toNat_valid (c : Char) :
    c.val.toNat < 0xd800 ∨ 0xdfff < c.val.toNat ∧ c.val.toNat < 0x110000 :=
  c.valid

theorem toNat_octet {n : Nat} (h : n < 256) : (UInt8.ofNat n).toNat = n :=
  UInt8.toNat_ofNat_of_lt h

/-! ## Leads -/

theorem Lead.of?_one {n : Nat} (h : n < 0x80) : Lead.of? n = some ⟨0, 0x80, 0xbf, n⟩ :=
  if_pos h

theorem Lead.of?_two {n : Nat} (hlow : 2 ≤ n) (hhigh : n < 0x20) :
    Lead.of? (n + 0xc0) = some ⟨1, 0x80, 0xbf, n⟩ := by
  rw [Lead.of?, if_neg (by omega), if_neg (by omega), if_pos (by omega), Nat.add_sub_cancel]

theorem Lead.of?_three {n : Nat} (h : n < 0x10) :
    Lead.of? (n + 0xe0) =
      some ⟨2, if n = 0 then 0xa0 else 0x80, if n = 0xd then 0x9f else 0xbf, n⟩ := by
  have hlow : n + 0xe0 = 0xe0 ↔ n = 0 := by omega
  have hhigh : n + 0xe0 = 0xed ↔ n = 0xd := by omega
  rw [Lead.of?, if_neg (by omega), if_neg (by omega), if_neg (by omega), if_pos (by omega),
    Nat.add_sub_cancel]
  simp only [hlow, hhigh]

theorem Lead.of?_four {n : Nat} (h : n < 5) :
    Lead.of? (n + 0xf0) =
      some ⟨3, if n = 0 then 0x90 else 0x80, if n = 4 then 0x8f else 0xbf, n⟩ := by
  have hlow : n + 0xf0 = 0xf0 ↔ n = 0 := by omega
  have hhigh : n + 0xf0 = 0xf4 ↔ n = 4 := by omega
  rw [Lead.of?, if_neg (by omega), if_neg (by omega), if_neg (by omega), if_neg (by omega),
    if_pos (by omega), Nat.add_sub_cancel]
  simp only [hlow, hhigh]

/-! ## What follows a lead -/

/-- An octet of the lower bits of a code fits behind a lead. -/
theorem readFollowing_octet {following low high bits fitted n : Nat} {rest : List UInt8}
    (h : n < 64) (hlow : low ≤ n + 0x80) (hhigh : n + 0x80 ≤ high) :
    readFollowing (following + 1) low high bits fitted (UInt8.ofNat (n + 0x80) :: rest) =
      readFollowing following 0x80 0xbf (bits * 64 + n) (fitted + 1) rest := by
  rw [readFollowing, toNat_octet (by omega), if_pos ⟨hlow, hhigh⟩, Nat.add_sub_cancel]

/-- Any octet of lower bits fits behind one that has fitted. -/
theorem readFollowing_next {following bits fitted n : Nat} {rest : List UInt8} (h : n < 64) :
    readFollowing (following + 1) 0x80 0xbf bits fitted (UInt8.ofNat (n + 0x80) :: rest) =
      readFollowing following 0x80 0xbf (bits * 64 + n) (fitted + 1) rest :=
  readFollowing_octet h (by omega) (by omega)

/-- The octets behind a lead are read as a character if they complete its code. -/
theorem readChar_of_lead {n : Nat} {lead : Lead} {rest : List UInt8} {c : Char} (h : n < 256)
    (hlead : Lead.of? n = some lead)
    (hrest : readFollowing lead.following lead.low lead.high lead.bits 0 rest =
      .ok c.val.toNat) :
    readChar (UInt8.ofNat n) rest = .ok (c, lead.following) := by
  rw [readChar, toNat_octet h, hlead]
  simp only [hrest, bind, Except.bind]
  rw [show Char.ofNat c.val.toNat = c from Char.ofNat_toNat c]
  rfl

/-- The octets of a character are a lead and what it announces. -/
theorem readChar_encode (c : Char) (rest : List UInt8) :
    ∃ octet following, String.utf8EncodeChar c = octet :: following ∧
      readChar octet (following ++ rest) = .ok (c, following.length) := by
  have hvalid := toNat_valid c
  unfold String.utf8EncodeChar
  generalize hv : c.val.toNat = v at hvalid ⊢
  simp only
  split
  · next h1 =>
    refine ⟨_, _, rfl, readChar_of_lead (by omega) (Lead.of?_one (by omega)) ?_⟩
    rw [hv]
    rfl
  split
  · next h1 h2 =>
    have hbits : v / 64 % 0x20 = v / 64 := Nat.mod_eq_of_lt (by omega)
    rw [hbits]
    refine ⟨_, _, rfl, readChar_of_lead (by omega) (Lead.of?_two (by omega) (by omega)) ?_⟩
    have hcode : v / 64 * 64 + v % 64 = v := by omega
    simp only [List.cons_append, List.nil_append]
    rw [readFollowing_next (by omega), hcode, hv]
    rfl
  split
  · next h1 h2 h3 =>
    have hbits : v / 4096 % 0x10 = v / 4096 := Nat.mod_eq_of_lt (by omega)
    rw [hbits]
    refine ⟨_, _, rfl, readChar_of_lead (by omega) (Lead.of?_three (by omega)) ?_⟩
    have hcode : (v / 4096 * 64 + v / 64 % 64) * 64 + v % 64 = v := by omega
    simp only [List.cons_append, List.nil_append]
    -- the first of them is the only one that the lead bounds
    rw [readFollowing_octet (by omega) (by split <;> omega) (by split <;> omega),
      readFollowing_next (by omega), hcode, hv]
    rfl
  · next h1 h2 h3 =>
    have hbits : v / 262144 % 0x08 = v / 262144 := Nat.mod_eq_of_lt (by omega)
    rw [hbits]
    refine ⟨_, _, rfl, readChar_of_lead (by omega) (Lead.of?_four (by omega)) ?_⟩
    have hcode : ((v / 262144 * 64 + v / 4096 % 64) * 64 + v / 64 % 64) * 64 + v % 64 = v := by
      omega
    simp only [List.cons_append, List.nil_append]
    rw [readFollowing_octet (by omega) (by split <;> omega) (by split <;> omega),
      readFollowing_next (by omega), readFollowing_next (by omega), hcode, hv]
    rfl

/-! ## Whole texts -/

/-- Octets that are accounted for are passed over. -/
theorem decodeFrom_append (place : Nat) (passed rest : List UInt8) :
    decodeFrom place passed.length (passed ++ rest) =
      decodeFrom (place + passed.length) 0 rest := by
  induction passed generalizing place with
  | nil => rfl
  | cons octet passed ih =>
      rw [List.length_cons, List.cons_append, decodeFrom, ih, Nat.add_right_comm, Nat.add_assoc]

theorem decodeFrom_encode (place : Nat) (text : List Char) :
    decodeFrom place 0 (encodeUtf8 text) = .ok text := by
  induction text generalizing place with
  | nil => rfl
  | cons c text ih =>
      obtain ⟨octet, following, hencode, hread⟩ := readChar_encode c (encodeUtf8 text)
      rw [encodeUtf8, List.flatMap_cons, ← encodeUtf8, hencode, List.cons_append, decodeFrom, hread]
      simp only
      rw [decodeFrom_append, ih]
      rfl

/-- What is encoded can be decoded. -/
theorem decodeUtf8_encodeUtf8 (text : List Char) : decodeUtf8 (encodeUtf8 text) = .ok text :=
  decodeFrom_encode 0 text

end EmulatedDevice.Text
