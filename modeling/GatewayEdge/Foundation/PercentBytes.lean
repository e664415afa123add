import GatewayEdge.Foundation.Utf8Cut
import GatewayEdge.Foundation.Text

/-!
# PercentBytes — percent-encoding of byte strings

`%` and two hexadecimal digits stand for the byte they denote, every other byte for itself.  `Encodes` says
which byte strings are percent-encodings of another one: any byte may be escaped, and those that are not
ASCII characters other than `%` have to be.
-/

namespace GatewayEdge
namespace Foundation
namespace PercentBytes

def percent : UInt8 := 0x25

/-- The value of a byte as a hexadecimal digit. -/
def digit (b : UInt8) : Option Nat := hexValue (Utf8.asciiChar b)

/-- The byte that two digits denote, `none` if one is no digit. -/
def group (x y : UInt8) : Option UInt8 :=
  match digit x, digit y with
  | some d, some e => some (UInt8.ofNat (d * 16 + e))
  | _, _ => none

/-- From left to right, each `%` with two digits is replaced. -/
def decode : Bytes → Bytes
  | b :: x :: y :: rest =>
    match (if b = percent then group x y else none) with
    | some d => d :: decode rest
    | none => b :: decode (x :: y :: rest)
  | bs => bs

/-- The first byte string is a percent-encoding of the second. -/
inductive Encodes : Bytes → Bytes → Prop
  | nil : Encodes [] []
  | kept {b : UInt8} {e bs : Bytes} (hascii : b.toNat < 0x80) (hb : b ≠ percent) (h : Encodes e bs) :
      Encodes (b :: e) (b :: bs)
  | escaped {x y b : UInt8} {e bs : Bytes} (hb : group x y = some b) (h : Encodes e bs) :
      Encodes (percent :: x :: y :: e) (b :: bs)

variable {b d x y : UInt8} {e bs rest : Bytes}

/-! ## Digits -/

theorem digit_lt {n : Nat} (h : digit b = some n) : n < 16 := by
  rcases hexValue_eq_some h with hdecimal | hlower | hupper
  · omega
  · omega
  · omega

/-- A digit is an ASCII character. -/
theorem toNat_lt_of_digit (h : digit b ≠ none) : b.toNat < 0x80 := by
  rcases Option.ne_none_iff_exists'.1 h with ⟨n, hn⟩
  have hbyte := b.toNat_lt
  have hchar : (Utf8.asciiChar b).toNat = b.toNat := Utf8.toNat_ofNat_of_valid (Or.inl (by omega))
  rcases hexValue_eq_some hn with hdecimal | hlower | hupper
  · omega
  · omega
  · omega

theorem digit_ne_percent (h : digit b ≠ none) : b ≠ percent := by
  rintro rfl
  exact h (by decide)

theorem digits_of_group (h : group x y = some b) : digit x ≠ none ∧ digit y ≠ none := by
  unfold group at h
  cases hx : digit x with
  | none =>
      rw [hx] at h
      cases h
  | some n =>
      cases hy : digit y with
      | none =>
          rw [hx, hy] at h
          cases h
      | some m => exact ⟨Option.some_ne_none n, Option.some_ne_none m⟩

/-! ## One byte at a time -/

theorem decode_escape (h : group x y = some d) (rest : Bytes) :
    decode (percent :: x :: y :: rest) = d :: decode rest := by
  rw [decode, if_pos rfl, h]

/-- A `%` without two digits stays. -/
theorem decode_percent (h : group x y = none) (rest : Bytes) :
    decode (percent :: x :: y :: rest) = percent :: decode (x :: y :: rest) := by
  rw [decode, if_pos rfl, h]

/-- So does every byte that is no `%` or has no two bytes behind it. -/
theorem decode_cons (h : b = percent → bs.length < 2) : decode (b :: bs) = b :: decode bs := by
  rcases bs with _ | ⟨x, _ | ⟨y, rest⟩⟩
  · rfl
  · rfl
  · have hb : b ≠ percent := fun heq => absurd (h heq) (by simp)
    rw [decode, if_neg hb]

/-- A percent-encoding is decoded to what it encodes. -/
theorem decode_of_encodes (h : Encodes e bs) : decode e = bs := by
  induction h with
  | nil => rfl
  | kept _ hb _ ih => rw [decode_cons fun heq => absurd heq hb, ih]
  | escaped hb _ ih => rw [decode_escape hb, ih]

end PercentBytes
end Foundation
end GatewayEdge
