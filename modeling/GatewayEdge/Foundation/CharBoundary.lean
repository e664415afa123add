import GatewayEdge.Foundation.Utf8Encode

/-!
# CharBoundary — slices of a string by byte offsets

A slice `&s[a..b]` stops the program unless both offsets are boundaries of characters.  Whether an offset is
one is seen from a single byte of the string: it is the first of a character, or there is none any more.
So the boundaries are the lengths of what a string can begin with (`isCharBoundary_iff`).
-/

namespace GatewayEdge
namespace Foundation
namespace CharBoundary

/-! ## Offsets and slices -/

/-- `str::is_char_boundary`, on the bytes of the string. -/
def isCharBoundary (bs : Bytes) (i : Nat) : Bool :=
  if i = 0 then true
  else
    match bs[i]? with
    | some b => !Utf8.isCont b
    | none => i == bs.length

/-- `&s[a..b]`, `none` for the panic. -/
def slice (bs : Bytes) (a b : Nat) : Option Bytes :=
  if a ≤ b ∧ isCharBoundary bs a = true ∧ isCharBoundary bs b = true then some ((bs.take b).drop a)
  else none

/-! ## The first byte of a character -/

/-- A character has one byte that begins it, and the others continue it. -/
theorem utf8EncodeChar_eq_cons (c : Char) : ∃ b tail, String.utf8EncodeChar c = b :: tail ∧
    Utf8.isCont b = false ∧ ∀ x ∈ tail, Utf8.isCont x = true := by
  have hcont : ∀ v, Utf8.isCont (UInt8.ofNat (v % 0x40 + 0x80)) = true := by
    intro v
    rw [Utf8.isCont_iff, toNat_ofNat_byte (by omega)]
    omega
  have hfirst : ∀ v, v < 256 → v < 0x80 ∨ 0xC0 ≤ v → Utf8.isCont (UInt8.ofNat v) = false := by
    intro v hbyte hv
    rw [Bool.eq_false_iff, ne_eq, Utf8.isCont_iff, toNat_ofNat_byte hbyte]
    omega
  unfold String.utf8EncodeChar
  dsimp only
  generalize c.val.toNat = v
  split
  · exact ⟨_, [], rfl, hfirst v (by omega) (by omega), fun x hx => by cases hx⟩
  split
  · refine ⟨_, _, rfl, hfirst _ (by omega) (by omega), ?_⟩
    intro x hx
    rw [List.mem_singleton.1 hx]
    exact hcont v
  split
  · refine ⟨_, _, rfl, hfirst _ (by omega) (by omega), ?_⟩
    intro x hx
    simp only [List.mem_cons, List.not_mem_nil, or_false] at hx
    rcases hx with rfl | rfl
    · exact hcont _
    · exact hcont v
  · refine ⟨_, _, rfl, hfirst _ (by omega) (by omega), ?_⟩
    intro x hx
    simp only [List.mem_cons, List.not_mem_nil, or_false] at hx
    rcases hx with rfl | rfl | rfl
    · exact hcont _
    · exact hcont _
    · exact hcont v

/-- In a string the bytes that begin a character are those that continue none. -/
theorem isUTF8FirstByte_iff {s : String} {b : UInt8} (h : b ∈ strBytes s) :
    b.IsUTF8FirstByte ↔ Utf8.isCont b = false := by
  rw [strBytes_eq] at h
  rcases List.mem_flatMap.1 h with ⟨c, -, hb⟩
  rcases List.getElem_of_mem hb with ⟨i, hi, rfl⟩
  rw [UInt8.isUTF8FirstByte_getElem_utf8EncodeChar]
  rcases utf8EncodeChar_eq_cons c with ⟨first, tail, hbytes, hfirst, htail⟩
  simp only [hbytes] at hi ⊢
  cases i with
  | zero => exact ⟨fun _ => hfirst, fun _ => rfl⟩
  | succ i =>
      have hcont := htail _ (List.getElem_mem (Nat.lt_of_succ_lt_succ hi))
      rw [List.getElem_cons_succ, hcont]
      exact ⟨fun h => absurd h (Nat.succ_ne_zero i), fun h => by cases h⟩

/-! ## Boundaries -/

/-- The code's test is the validity of the position. -/
theorem isCharBoundary_eq_isValid {s : String} {i : Nat} :
    isCharBoundary (strBytes s) i = true ↔ String.Pos.Raw.IsValid s ⟨i⟩ := by
  unfold isCharBoundary
  by_cases hzero : i = 0
  · rw [if_pos hzero, hzero]
    exact ⟨fun _ => String.Pos.Raw.isValid_zero, fun _ => rfl⟩
  · rw [if_neg hzero, String.Pos.Raw.isValid_iff_isUTF8FirstByte]
    have hend : (⟨i⟩ : String.Pos.Raw) = s.rawEndPos ↔ i = (strBytes s).length := by
      rw [String.Pos.Raw.ext_iff]
      rfl
    rw [hend]
    cases hbyte : (strBytes s)[i]? with
    | none =>
        have hlen := List.getElem?_eq_none_iff.1 hbyte
        dsimp only
        rw [beq_iff_eq]
        constructor
        · exact Or.inl
        · rintro (heq | ⟨hlt, -⟩)
          · exact heq
          · exact absurd (hlt : i < s.utf8ByteSize) (Nat.not_lt.2 hlen)
    | some b =>
        rcases List.getElem?_eq_some_iff.1 hbyte with ⟨hlt, hget⟩
        have hfirst : b.IsUTF8FirstByte ↔ Utf8.isCont b = false :=
          isUTF8FirstByte_iff (hget ▸ List.getElem_mem hlt)
        dsimp only
        rw [Bool.not_eq_true', ← hfirst]
        constructor
        · intro h
          refine Or.inr ⟨hlt, ?_⟩
          rw [← hget] at h
          exact h
        · rintro (heq | ⟨_, h⟩)
          · exact absurd heq (Nat.ne_of_lt hlt)
          · rw [← hget]
            exact h

/-- An offset is a boundary exactly if the string begins with a string of that length. -/
theorem isCharBoundary_iff {s : String} {i : Nat} :
    isCharBoundary (strBytes s) i = true ↔ ∃ t u : String, s = t ++ u ∧ (strBytes t).length = i := by
  rw [isCharBoundary_eq_isValid, String.Pos.Raw.isValid_iff_exists_append]
  refine exists_congr fun t => exists_congr fun u => and_congr_right fun _ => ?_
  rw [String.Pos.Raw.ext_iff]
  exact eq_comm

/-- A slice from the beginning up to a boundary is what stands in front of it. -/
theorem slice_zero_append (t u : String) :
    slice (strBytes (t ++ u)) 0 (strBytes t).length = some (strBytes t) := by
  have hend : isCharBoundary (strBytes (t ++ u)) (strBytes t).length = true :=
    isCharBoundary_iff.2 ⟨t, u, rfl, rfl⟩
  unfold slice
  rw [if_pos ⟨Nat.zero_le _, rfl, hend⟩, List.drop_zero, strBytes_append, List.take_left]

/-- Behind an ASCII character there is a boundary. -/
theorem isCharBoundary_succ_of_ascii {s : String} {a rest : Bytes} {b : UInt8}
    (h : strBytes s = a ++ b :: rest) (hb : b.toNat < 0x80) :
    isCharBoundary (strBytes s) (a.length + 1) = true := by
  -- The byte itself stands at a boundary.
  have hhere : isCharBoundary (strBytes s) a.length = true := by
    unfold isCharBoundary
    split
    · rfl
    · rw [h, List.getElem?_append_right le_rfl, Nat.sub_self]
      simp only [List.getElem?_cons_zero, Bool.not_eq_true', Bool.eq_false_iff, ne_eq,
        Utf8.isCont_iff]
      omega
  rcases isCharBoundary_iff.1 hhere with ⟨t, u, rfl, hlen⟩
  rw [strBytes_append] at h
  rcases List.append_inj h hlen with ⟨rfl, hu⟩
  -- So a character begins with it, which is ASCII and has no further byte.
  cases hchars : u.toList with
  | nil =>
      rw [strBytes_eq, hchars] at hu
      cases hu
  | cons c cs =>
      have hmem : b ∈ String.utf8EncodeChar c := by
        rw [strBytes_eq, hchars, List.flatMap_cons] at hu
        rcases utf8EncodeChar_eq_cons c with ⟨first, tail, hbytes, -, -⟩
        rw [hbytes] at hu ⊢
        exact (List.cons.inj hu).1 ▸ List.mem_cons_self
      have hnat : (Utf8.asciiChar b).toNat = b.toNat := Utf8.asciiChar_toNat hb
      have hc : c = Utf8.asciiChar b := by
        refine ascii_mem_utf8EncodeChar (hnat ▸ hb) ?_
        rw [hnat, UInt8.ofNat_toNat]
        exact hmem
      have hall : ∀ d ∈ (String.ofList [c]).toList, d.toNat < 0x80 := by
        intro d hd
        rw [String.toList_ofList] at hd
        rw [List.mem_singleton.1 hd, hc, hnat]
        exact hb
      have hone : (strBytes (String.ofList [c])).length = 1 := by
        rw [length_strBytes_of_ascii hall, String.toList_ofList]
        rfl
      refine isCharBoundary_iff.2 ⟨t ++ String.ofList [c], String.ofList cs, ?_, ?_⟩
      · rw [String.append_assoc, ← String.ofList_append, List.singleton_append, ← hchars,
          String.ofList_toList]
      · rw [strBytes_append, List.length_append, hone]

end CharBoundary
end Foundation
end GatewayEdge
