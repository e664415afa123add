import GatewayEdge.Foundation.Utf8Cut

/-!
# Utf8Encode — the bytes of a string

What `strBytes` gives is the concatenation of the characters' own bytes, so it is decoded back to the string,
and holds an ASCII byte only where the string holds its character.
-/

namespace GatewayEdge
namespace Foundation

/-! ## Bytes of characters -/

/-- The bytes of a string are those of its characters. -/
theorem strBytes_eq (s : String) : strBytes s = s.toList.flatMap String.utf8EncodeChar := by
  unfold strBytes
  rw [String.toUTF8_eq_toByteArray, ← String.utf8Encode_toList, List.utf8Encode,
    List.toList_data_toByteArray]

theorem strBytes_injective : Function.Injective strBytes := by
  intro s t h
  rw [← String.toByteArray_inj]
  exact ByteArray.ext (Array.toList_inj.1 h)

/-- A character has at most four bytes. -/
theorem utf8ByteSize_ofList_le (cs : List Char) : (String.ofList cs).utf8ByteSize ≤ 4 * cs.length := by
  induction cs with
  | nil => simp
  | cons c cs ih =>
      have hc := Char.utf8Size_le_four c
      rw [String.ofList_cons, String.utf8ByteSize_append, String.utf8ByteSize_singleton,
        List.length_cons]
      omega

theorem utf8ByteSize_le (s : String) : s.utf8ByteSize ≤ 4 * s.toList.length := by
  have h := utf8ByteSize_ofList_le s.toList
  rwa [String.ofList_toList] at h

theorem toNat_ofNat_byte {n : Nat} (h : n < 256) : (UInt8.ofNat n).toNat = n :=
  UInt8.toNat_ofNat_of_lt' h

/-- An ASCII byte encodes its character and is part of no other one. -/
theorem ascii_mem_utf8EncodeChar {a c : Char} (ha : a.toNat < 0x80)
    (h : UInt8.ofNat a.toNat ∈ String.utf8EncodeChar c) : c = a := by
  have hbyte : (UInt8.ofNat a.toNat).toNat = a.toNat := toNat_ofNat_byte (by omega)
  unfold String.utf8EncodeChar at h
  dsimp only at h
  split at h
  · rename_i hascii
    have hsame : (UInt8.ofNat a.toNat).toNat = (UInt8.ofNat c.val.toNat).toNat :=
      congrArg UInt8.toNat (List.mem_singleton.1 h)
    rw [hbyte, toNat_ofNat_byte (by omega)] at hsame
    exact Char.ext (UInt32.toNat_inj.1 hsame.symm)
  -- Every byte of a longer sequence has its highest bit set.
  · have hhigh : ∀ {x b n : Nat}, b ≤ 64 → 0x80 ≤ n → n + b ≤ 256 → 0 < b →
        UInt8.ofNat a.toNat ≠ UInt8.ofNat (x % b + n) := by
      intro x b n _ hn hle hb hsame
      have hlt := Nat.mod_lt x hb
      have hvalue := congrArg UInt8.toNat hsame
      rw [hbyte, toNat_ofNat_byte (by omega)] at hvalue
      omega
    split at h
    · simp only [List.mem_cons, List.not_mem_nil, or_false] at h
      rcases h with h | h <;>
        exact absurd h (hhigh (by decide) (by decide) (by decide) (by decide))
    · split at h
      · simp only [List.mem_cons, List.not_mem_nil, or_false] at h
        rcases h with h | h | h <;>
          exact absurd h (hhigh (by decide) (by decide) (by decide) (by decide))
      · simp only [List.mem_cons, List.not_mem_nil, or_false] at h
        rcases h with h | h | h | h <;>
          exact absurd h (hhigh (by decide) (by decide) (by decide) (by decide))

/-- A string without an ASCII character has no byte of it. -/
theorem ascii_notMem_strBytes {s : String} {a : Char} (ha : a.toNat < 0x80) (h : a ∉ s.toList) :
    UInt8.ofNat a.toNat ∉ strBytes s := by
  intro hmem
  rw [strBytes_eq] at hmem
  rcases List.mem_flatMap.1 hmem with ⟨c, hc, hbyte⟩
  exact h (ascii_mem_utf8EncodeChar ha hbyte ▸ hc)

theorem zero_notMem_strBytes {s : String} (h : '\x00' ∉ s.toList) : (0 : UInt8) ∉ strBytes s :=
  ascii_notMem_strBytes (by decide) h

theorem strBytes_append (s t : String) : strBytes (s ++ t) = strBytes s ++ strBytes t := by
  rw [strBytes_eq, strBytes_eq, strBytes_eq, String.toList_append, List.flatMap_append]

theorem length_le_strBytes (s : String) : s.toList.length ≤ (strBytes s).length := by
  rw [strBytes_eq]
  induction s.toList with
  | nil => exact le_rfl
  | cons c cs ih =>
      have hc : 1 ≤ (String.utf8EncodeChar c).length :=
        List.length_pos_iff.2 String.utf8EncodeChar_ne_nil
      rw [List.flatMap_cons, List.length_append, List.length_cons]
      omega

/-- A string of ASCII characters has one byte for each. -/
theorem length_strBytes_of_ascii {s : String} (h : ∀ c ∈ s.toList, c.toNat < 0x80) :
    (strBytes s).length = s.toList.length := by
  rw [strBytes_eq]
  generalize s.toList = cs at h ⊢
  induction cs with
  | nil => rfl
  | cons c cs ih =>
      have hval : c.val.toNat < 0x80 := h c List.mem_cons_self
      have hc : (String.utf8EncodeChar c).length = 1 := by
        rw [String.length_utf8EncodeChar, Char.utf8Size_eq_one_iff, UInt32.le_iff_toNat_le]
        exact Nat.le_of_lt_succ hval
      rw [List.flatMap_cons, List.length_append, hc,
        ih fun d hd => h d (List.mem_cons_of_mem _ hd), List.length_cons, Nat.add_comm]

/-! ## Encoding and decoding -/

namespace Utf8

/-- The bytes of a character are decoded to it, whatever follows. -/
theorem pieces_utf8EncodeChar_append (c : Char) (rest : Bytes) :
    pieces (String.utf8EncodeChar c ++ rest) = some c :: pieces rest := by
  have hchar : Char.ofNat c.val.toNat = c := Char.ofNat_toNat c
  have hvalid : c.val.toNat < 0xD800 ∨ 0xDFFF < c.val.toNat ∧ c.val.toNat < 0x110000 := c.valid
  have hcont : ∀ a, isCont (UInt8.ofNat (a % 0x40 + 0x80)) = true := by
    intro a
    rw [isCont_iff, toNat_ofNat_byte (by omega)]
    omega
  unfold String.utf8EncodeChar
  dsimp only
  generalize c.val.toNat = v at hchar hvalid
  split
  · rename_i h1
    have hb : (UInt8.ofNat v).toNat = v := toNat_ofNat_byte (by omega)
    have hascii : v < 0x80 := by omega
    rw [List.cons_append, List.nil_append, pieces.eq_def]
    simp only [hb, hchar, hascii, if_true]
  split
  · have hb0 : (UInt8.ofNat (v / 64 % 0x20 + 0xc0)).toNat = v / 64 % 0x20 + 0xc0 := toNat_ofNat_byte (by omega)
    have hb1 : (UInt8.ofNat (v % 0x40 + 0x80)).toNat = v % 0x40 + 0x80 := toNat_ofNat_byte (by omega)
    refine (pieces_two (by omega) (hcont v) rest).trans ?_
    have hvalue : (v / 64 % 0x20 + 0xc0 - 0xC0) * 64 + (v % 0x40 + 0x80 - 0x80) = v := by omega
    rw [hb0, hb1, hvalue, hchar]
  split
  · have hb0 : (UInt8.ofNat (v / 4096 % 0x10 + 0xe0)).toNat = v / 4096 % 0x10 + 0xe0 :=
      toNat_ofNat_byte (by omega)
    have hb1 : (UInt8.ofNat (v / 64 % 0x40 + 0x80)).toNat = v / 64 % 0x40 + 0x80 := toNat_ofNat_byte (by omega)
    have hb2 : (UInt8.ofNat (v % 0x40 + 0x80)).toNat = v % 0x40 + 0x80 := toNat_ofNat_byte (by omega)
    -- The second byte avoids the overlong forms and the surrogates.
    have hsecond : second3 (UInt8.ofNat (v / 4096 % 0x10 + 0xe0)) (UInt8.ofNat (v / 64 % 0x40 + 0x80)) =
        true := by
      unfold second3 isCont
      rw [hb0, hb1]
      split_ifs <;> simp only [Bool.and_eq_true, decide_eq_true_eq] <;> omega
    refine (pieces_three (by omega) hsecond (hcont v) rest).trans ?_
    have hvalue : (v / 4096 % 0x10 + 0xe0 - 0xE0) * 4096 + (v / 64 % 0x40 + 0x80 - 0x80) * 64 +
        (v % 0x40 + 0x80 - 0x80) = v := by omega
    rw [hb0, hb1, hb2, hvalue, hchar]
  · have hb0 : (UInt8.ofNat (v / 262144 % 0x08 + 0xf0)).toNat = v / 262144 % 0x08 + 0xf0 :=
      toNat_ofNat_byte (by omega)
    have hb1 : (UInt8.ofNat (v / 4096 % 0x40 + 0x80)).toNat = v / 4096 % 0x40 + 0x80 :=
      toNat_ofNat_byte (by omega)
    have hb2 : (UInt8.ofNat (v / 64 % 0x40 + 0x80)).toNat = v / 64 % 0x40 + 0x80 := toNat_ofNat_byte (by omega)
    have hb3 : (UInt8.ofNat (v % 0x40 + 0x80)).toNat = v % 0x40 + 0x80 := toNat_ofNat_byte (by omega)
    have hsecond : second4 (UInt8.ofNat (v / 262144 % 0x08 + 0xf0))
        (UInt8.ofNat (v / 4096 % 0x40 + 0x80)) = true := by
      unfold second4 isCont
      rw [hb0, hb1]
      split_ifs <;> simp only [Bool.and_eq_true, decide_eq_true_eq] <;> omega
    refine (pieces_four (by omega) hsecond (hcont _) (hcont v) rest).trans ?_
    have hvalue : (v / 262144 % 0x08 + 0xf0 - 0xF0) * 262144 + (v / 4096 % 0x40 + 0x80 - 0x80) * 4096 +
        (v / 64 % 0x40 + 0x80 - 0x80) * 64 + (v % 0x40 + 0x80 - 0x80) = v := by omega
    rw [hb0, hb1, hb2, hb3, hvalue, hchar]

/-- A string is cut into its characters. -/
theorem pieces_strBytes (s : String) : pieces (strBytes s) = s.toList.map some := by
  rw [strBytes_eq]
  induction s.toList with
  | nil => rfl
  | cons c cs ih => rw [List.flatMap_cons, pieces_utf8EncodeChar_append, ih, List.map_cons]

end Utf8

theorem mapM_id_map_some {α : Type*} (xs : List α) : (xs.map some).mapM id = some xs := by
  induction xs with
  | nil => rfl
  | cons x xs ih =>
      rw [List.map_cons, List.mapM_cons, ih]
      rfl

/-- Reading the bytes of a string gives the string. -/
theorem fromUtf8_strBytes (s : String) : fromUtf8 (strBytes s) = some s := by
  unfold fromUtf8
  rw [Utf8.pieces_strBytes, mapM_id_map_some, Option.map_some, String.ofList_toList]

end Foundation
end GatewayEdge
