import GatewayEdge.Foundation.Utf8
import Mathlib.Algebra.Ring.Nat

/-!
# Utf8Cut — where a byte string can be cut before it is decoded

A decoder looks ahead only for continuation bytes, so a text that starts with an ASCII character is decoded the
same way whatever stands before it (`pieces_append`).  Conversely an ASCII character that comes out of the
decoder stands in the byte string, and cuts it (`exists_of_pieces_eq_append`).
-/

namespace GatewayEdge
namespace Foundation
namespace Utf8

/-! ## The first piece -/

/-- The next byte, if any, is an ASCII character. -/
def StartsAscii (q : Bytes) : Prop := ∀ x ∈ q.head?, x.toNat < 0x80

/-- The first piece of a text: `head` is what it takes, and nothing that starts with an ASCII character
changes it. -/
structure Cut (text : Bytes) (piece : Option Char) (head tail : Bytes) : Prop where
  split : text = head ++ tail
  nonempty : head ≠ []
  decoded : ∀ q, StartsAscii q → pieces (text ++ q) = piece :: pieces (tail ++ q)
  ascii : ∀ c, piece = some c → c.toNat < 0x80 → ∃ b : UInt8, head = [b] ∧ b.toNat = c.toNat
  /-- A character takes the bytes it is encoded in. -/
  size : ∀ c, piece = some c → c.utf8Size = head.length
  /-- No piece is longer than the character it is decoded to. -/
  length : head.length ≤ (piece.getD '\uFFFD').utf8Size

theorem toNat_ofNat_of_valid {n : Nat} (h : n < 0xD800 ∨ 0xDFFF < n ∧ n < 0x110000) :
    (Char.ofNat n).toNat = n := by
  rw [Char.ofNat, dif_pos h]
  rfl

/-- The number of bytes by the range the code point is in. -/
theorem utf8Size_ofNat {n k : Nat} (hvalid : n < 0xD800 ∨ 0xDFFF < n ∧ n < 0x110000)
    (h : k = 1 ∧ n < 0x80 ∨ k = 2 ∧ 0x80 ≤ n ∧ n < 0x800 ∨ k = 3 ∧ 0x800 ≤ n ∧ n < 0x10000 ∨
      k = 4 ∧ 0x10000 ≤ n) :
    (Char.ofNat n).utf8Size = k := by
  have hval : (Char.ofNat n).val.toNat = n := toNat_ofNat_of_valid hvalid
  unfold Char.utf8Size
  simp only [UInt32.le_iff_toNat_le, hval]
  change (if n ≤ 0x7F then 1 else if n ≤ 0x7FF then 2 else if n ≤ 0xFFFF then 3 else 4) = k
  split_ifs <;> omega

-- The equations of `pieces` are worked out here, once for all the proofs below.
attribute [local simp] pieces in
theorem cut_ascii {b : UInt8} (h : b.toNat < 0x80) (rest : Bytes) :
    Cut (b :: rest) (some (Char.ofNat b.toNat)) [b] rest where
  split := rfl
  nonempty := List.cons_ne_nil _ _
  decoded q _ := by
    rw [List.cons_append, pieces.eq_def]
    simp only [h, if_true]
  ascii c hc _ := by
    cases hc
    exact ⟨b, rfl, (toNat_ofNat_of_valid (by omega)).symm⟩
  size c hc := by
    cases hc
    exact utf8Size_ofNat (by omega) (Or.inl ⟨rfl, h⟩)
  length := Char.utf8Size_pos _

/-- A character of more than one byte is no ASCII character. -/
theorem cut_char {text head tail : Bytes} {n : Nat} (hsplit : text = head ++ tail) (hne : head ≠ [])
    (hvalid : n < 0xD800 ∨ 0xDFFF < n ∧ n < 0x110000)
    (hlen : head.length = 2 ∧ 0x80 ≤ n ∧ n < 0x800 ∨ head.length = 3 ∧ 0x800 ≤ n ∧ n < 0x10000 ∨
      head.length = 4 ∧ 0x10000 ≤ n)
    (hdecoded : ∀ q, pieces (text ++ q) = some (Char.ofNat n) :: pieces (tail ++ q)) :
    Cut text (some (Char.ofNat n)) head tail where
  split := hsplit
  nonempty := hne
  decoded q _ := hdecoded q
  ascii c hc hlt := by
    cases hc
    rw [toNat_ofNat_of_valid hvalid] at hlt
    omega
  size c hc := by
    cases hc
    exact utf8Size_ofNat hvalid (Or.inr hlen)
  length := le_of_eq (utf8Size_ofNat hvalid (Or.inr hlen)).symm

/-- An ill-formed piece. -/
theorem cut_none {text head tail : Bytes} (hsplit : text = head ++ tail) (hne : head ≠ [])
    (hlen : head.length ≤ 3)
    (hdecoded : ∀ q, StartsAscii q → pieces (text ++ q) = none :: pieces (tail ++ q)) :
    Cut text none head tail where
  split := hsplit
  nonempty := hne
  decoded := hdecoded
  ascii c hc _ := by cases hc
  size c hc := by cases hc
  length := hlen

theorem not_cont_of_startsAscii {q : Bytes} (h : StartsAscii q) {x : UInt8} {rest : Bytes}
    (hq : q = x :: rest) : isCont x = false := by
  have hx : x.toNat < 0x80 := h x (by simp [hq])
  simp only [isCont, Bool.and_eq_false_iff, decide_eq_false_iff_not]
  omega

theorem isCont_iff {b : UInt8} : isCont b = true ↔ 0x80 ≤ b.toNat ∧ b.toNat ≤ 0xBF := by
  simp [isCont]

/-! ### Well-formed sequences -/

theorem pieces_two {b0 b1 : UInt8} (h0 : 0xC2 ≤ b0.toNat ∧ b0.toNat ≤ 0xDF) (h1 : isCont b1 = true)
    (rest : Bytes) :
    pieces (b0 :: b1 :: rest) =
      some (Char.ofNat ((b0.toNat - 0xC0) * 64 + (b1.toNat - 0x80))) :: pieces rest := by
  have hascii : ¬ b0.toNat < 0x80 := by omega
  rw [pieces.eq_def]
  simp only [hascii, h0, h1, if_true, if_false, and_self]

theorem pieces_three {b0 b1 b2 : UInt8} (h0 : 0xE0 ≤ b0.toNat ∧ b0.toNat ≤ 0xEF)
    (h1 : second3 b0 b1 = true) (h2 : isCont b2 = true) (rest : Bytes) :
    pieces (b0 :: b1 :: b2 :: rest) =
      some (Char.ofNat ((b0.toNat - 0xE0) * 4096 + (b1.toNat - 0x80) * 64 + (b2.toNat - 0x80))) ::
        pieces rest := by
  have hascii : ¬ b0.toNat < 0x80 := by omega
  have htwo : ¬ (0xC2 ≤ b0.toNat ∧ b0.toNat ≤ 0xDF) := by omega
  rw [pieces.eq_def]
  simp only [hascii, htwo, h0, h1, h2, if_true, if_false, and_self]

theorem pieces_four {b0 b1 b2 b3 : UInt8} (h0 : 0xF0 ≤ b0.toNat ∧ b0.toNat ≤ 0xF4)
    (h1 : second4 b0 b1 = true) (h2 : isCont b2 = true) (h3 : isCont b3 = true) (rest : Bytes) :
    pieces (b0 :: b1 :: b2 :: b3 :: rest) =
      some (Char.ofNat ((b0.toNat - 0xF0) * 262144 + (b1.toNat - 0x80) * 4096 +
        (b2.toNat - 0x80) * 64 + (b3.toNat - 0x80))) :: pieces rest := by
  have hascii : ¬ b0.toNat < 0x80 := by omega
  have htwo : ¬ (0xC2 ≤ b0.toNat ∧ b0.toNat ≤ 0xDF) := by omega
  have hthree : ¬ (0xE0 ≤ b0.toNat ∧ b0.toNat ≤ 0xEF) := by omega
  rw [pieces.eq_def]
  simp only [hascii, htwo, hthree, h0, h1, h2, h3, if_true, if_false, and_self]

/-- The second byte of three: a continuation byte, and no surrogate or overlong form comes of it. -/
theorem second3_range {b0 b1 : UInt8} (h : second3 b0 b1 = true) (hb0 : 0xE0 ≤ b0.toNat) :
    (0x80 ≤ b1.toNat ∧ b1.toNat ≤ 0xBF) ∧
      0x20 ≤ (b0.toNat - 0xE0) * 64 + (b1.toNat - 0x80) ∧
      (b0.toNat = 0xED → b1.toNat ≤ 0x9F) := by
  unfold second3 at h
  split at h
  · simp only [Bool.and_eq_true, decide_eq_true_eq] at h
    omega
  · split at h
    · simp only [Bool.and_eq_true, decide_eq_true_eq] at h
      omega
    · rw [isCont_iff] at h
      omega

/-- The second byte of four: a continuation byte, and the character is neither overlong nor out of range. -/
theorem second4_range {b0 b1 : UInt8} (h : second4 b0 b1 = true) (hb0 : 0xF0 ≤ b0.toNat)
    (hb0' : b0.toNat ≤ 0xF4) :
    (0x80 ≤ b1.toNat ∧ b1.toNat ≤ 0xBF) ∧
      0x10 ≤ (b0.toNat - 0xF0) * 64 + (b1.toNat - 0x80) ∧
      (b0.toNat - 0xF0) * 64 + (b1.toNat - 0x80) < 0x110 := by
  unfold second4 at h
  split at h
  · simp only [Bool.and_eq_true, decide_eq_true_eq] at h
    omega
  · split at h
    · simp only [Bool.and_eq_true, decide_eq_true_eq] at h
      omega
    · rw [isCont_iff] at h
      omega

theorem not_second3_of_startsAscii (b0 : UInt8) {q : Bytes} (h : StartsAscii q) {x : UInt8}
    {rest : Bytes} (hq : q = x :: rest) : second3 b0 x = false := by
  have hx : x.toNat < 0x80 := h x (by simp [hq])
  unfold second3
  split
  · simp only [Bool.and_eq_false_iff, decide_eq_false_iff_not]
    omega
  · split
    · simp only [Bool.and_eq_false_iff, decide_eq_false_iff_not]
      omega
    · exact not_cont_of_startsAscii h hq

theorem exists_cut_two {b0 : UInt8} (h : 0xC2 ≤ b0.toNat ∧ b0.toNat ≤ 0xDF) (r0 : Bytes) :
    ∃ piece head tail, Cut (b0 :: r0) piece head tail := by
  have hascii : ¬ b0.toNat < 0x80 := by omega
  rcases r0 with _ | ⟨b1, r1⟩
  · refine ⟨none, [b0], [], cut_none rfl (List.cons_ne_nil _ _) (by simp) fun q hq => ?_⟩
    rcases hcase : q with _ | ⟨x, rest⟩
    · simp [pieces, hascii, h]
    · have hx := not_cont_of_startsAscii hq hcase
      rw [List.cons_append, pieces.eq_def]
      simp only [hascii, h, hx, if_true, if_false, and_self, List.nil_append, Bool.false_eq_true]
  · cases hcont : isCont b1 with
    | true =>
        rw [isCont_iff] at hcont
        refine ⟨_, [b0, b1], r1, cut_char (n := (b0.toNat - 0xC0) * 64 + (b1.toNat - 0x80)) rfl
          (List.cons_ne_nil _ _) ?_ ?_ fun q => ?_⟩
        · omega
        · exact Or.inl ⟨rfl, by omega, by omega⟩
        · exact pieces_two h (isCont_iff.2 hcont) (r1 ++ q)
    | false =>
        refine ⟨none, [b0], b1 :: r1, cut_none rfl (List.cons_ne_nil _ _) (by simp) fun q _ => ?_⟩
        rw [List.cons_append, List.cons_append, pieces.eq_def]
        simp only [hascii, h, hcont, if_true, if_false, and_self, Bool.false_eq_true]

theorem not_second4_of_startsAscii (b0 : UInt8) {q : Bytes} (h : StartsAscii q) {x : UInt8}
    {rest : Bytes} (hq : q = x :: rest) : second4 b0 x = false := by
  have hx : x.toNat < 0x80 := h x (by simp [hq])
  unfold second4
  split
  · simp only [Bool.and_eq_false_iff, decide_eq_false_iff_not]
    omega
  · split
    · simp only [Bool.and_eq_false_iff, decide_eq_false_iff_not]
      omega
    · exact not_cont_of_startsAscii h hq

theorem exists_cut_three {b0 : UInt8} (h : 0xE0 ≤ b0.toNat ∧ b0.toNat ≤ 0xEF) (r0 : Bytes) :
    ∃ piece head tail, Cut (b0 :: r0) piece head tail := by
  have hascii : ¬ b0.toNat < 0x80 := by omega
  have htwo : ¬ (0xC2 ≤ b0.toNat ∧ b0.toNat ≤ 0xDF) := by omega
  rcases r0 with _ | ⟨b1, r1⟩
  · refine ⟨none, [b0], [], cut_none rfl (List.cons_ne_nil _ _) (by simp) fun q hq => ?_⟩
    rw [List.cons_append, List.nil_append, pieces.eq_def]
    rcases hcase : q with _ | ⟨x, rest⟩
    · simp only [hascii, htwo, h, if_true, if_false, and_self, pieces]
    · have hx := not_second3_of_startsAscii b0 hq hcase
      simp only [hascii, htwo, h, hx, if_true, if_false, and_self, Bool.false_eq_true]
  · cases hsecond : second3 b0 b1 with
    | false =>
        refine ⟨none, [b0], b1 :: r1, cut_none rfl (List.cons_ne_nil _ _) (by simp) fun q _ => ?_⟩
        rw [List.cons_append, List.cons_append, pieces.eq_def]
        simp only [hascii, htwo, h, hsecond, if_true, if_false, and_self, Bool.false_eq_true]
    | true =>
        rcases second3_range hsecond h.1 with ⟨hb1, hlong, hsurrogate⟩
        rcases r1 with _ | ⟨b2, r2⟩
        · refine ⟨none, [b0, b1], [], cut_none rfl (List.cons_ne_nil _ _) (by simp) fun q hq => ?_⟩
          rw [List.cons_append, List.cons_append, List.nil_append, pieces.eq_def]
          rcases hcase : q with _ | ⟨x, rest⟩
          · simp only [hascii, htwo, h, hsecond, if_true, if_false, and_self, pieces]
          · have hx := not_cont_of_startsAscii hq hcase
            simp only [hascii, htwo, h, hsecond, hx, if_true, if_false, and_self, Bool.false_eq_true]
        · cases hcont : isCont b2 with
          | true =>
              have hb2 := isCont_iff.1 hcont
              refine ⟨_, [b0, b1, b2], r2, cut_char
                (n := (b0.toNat - 0xE0) * 4096 + (b1.toNat - 0x80) * 64 + (b2.toNat - 0x80)) rfl
                (List.cons_ne_nil _ _) ?_ ?_ fun q => ?_⟩
              · omega
              · exact Or.inr (Or.inl ⟨rfl, by omega, by omega⟩)
              · exact pieces_three h hsecond hcont (r2 ++ q)
          | false =>
              refine ⟨none, [b0, b1], b2 :: r2, cut_none rfl (List.cons_ne_nil _ _) (by simp) fun q _ => ?_⟩
              rw [List.cons_append, List.cons_append, List.cons_append, pieces.eq_def]
              simp only [hascii, htwo, h, hsecond, hcont, if_true, if_false, and_self,
                Bool.false_eq_true]

theorem exists_cut_four {b0 : UInt8} (h : 0xF0 ≤ b0.toNat ∧ b0.toNat ≤ 0xF4) (r0 : Bytes) :
    ∃ piece head tail, Cut (b0 :: r0) piece head tail := by
  have hascii : ¬ b0.toNat < 0x80 := by omega
  have htwo : ¬ (0xC2 ≤ b0.toNat ∧ b0.toNat ≤ 0xDF) := by omega
  have hthree : ¬ (0xE0 ≤ b0.toNat ∧ b0.toNat ≤ 0xEF) := by omega
  rcases r0 with _ | ⟨b1, r1⟩
  · refine ⟨none, [b0], [], cut_none rfl (List.cons_ne_nil _ _) (by simp) fun q hq => ?_⟩
    rw [List.cons_append, List.nil_append, pieces.eq_def]
    rcases hcase : q with _ | ⟨x, rest⟩
    · simp only [hascii, htwo, hthree, h, if_true, if_false, and_self, pieces]
    · have hx := not_second4_of_startsAscii b0 hq hcase
      simp only [hascii, htwo, hthree, h, hx, if_true, if_false, and_self, Bool.false_eq_true]
  · cases hsecond : second4 b0 b1 with
    | false =>
        refine ⟨none, [b0], b1 :: r1, cut_none rfl (List.cons_ne_nil _ _) (by simp) fun q _ => ?_⟩
        rw [List.cons_append, List.cons_append, pieces.eq_def]
        simp only [hascii, htwo, hthree, h, hsecond, if_true, if_false, and_self, Bool.false_eq_true]
    | true =>
        rcases second4_range hsecond h.1 h.2 with ⟨hb1, hlong, hhigh⟩
        rcases r1 with _ | ⟨b2, r2⟩
        · refine ⟨none, [b0, b1], [], cut_none rfl (List.cons_ne_nil _ _) (by simp) fun q hq => ?_⟩
          rw [List.cons_append, List.cons_append, List.nil_append, pieces.eq_def]
          rcases hcase : q with _ | ⟨x, rest⟩
          · simp only [hascii, htwo, hthree, h, hsecond, if_true, if_false, and_self, pieces]
          · have hx := not_cont_of_startsAscii hq hcase
            simp only [hascii, htwo, hthree, h, hsecond, hx, if_true, if_false, and_self,
              Bool.false_eq_true]
        · cases hcont : isCont b2 with
          | false =>
              refine ⟨none, [b0, b1], b2 :: r2, cut_none rfl (List.cons_ne_nil _ _) (by simp) fun q _ => ?_⟩
              rw [List.cons_append, List.cons_append, List.cons_append, pieces.eq_def]
              simp only [hascii, htwo, hthree, h, hsecond, hcont, if_true, if_false, and_self,
                Bool.false_eq_true]
          | true =>
              have hb2 := isCont_iff.1 hcont
              rcases r2 with _ | ⟨b3, r3⟩
              · refine ⟨none, [b0, b1, b2], [], cut_none rfl (List.cons_ne_nil _ _) (by simp) fun q hq => ?_⟩
                rw [List.cons_append, List.cons_append, List.cons_append, List.nil_append,
                  pieces.eq_def]
                rcases hcase : q with _ | ⟨x, rest⟩
                · simp only [hascii, htwo, hthree, h, hsecond, hcont, if_true, if_false, and_self,
                    pieces]
                · have hx := not_cont_of_startsAscii hq hcase
                  simp only [hascii, htwo, hthree, h, hsecond, hcont, hx, if_true, if_false, and_self,
                    Bool.false_eq_true]
              · cases hlast : isCont b3 with
                | true =>
                    have hb3 := isCont_iff.1 hlast
                    refine ⟨_, [b0, b1, b2, b3], r3, cut_char
                      (n := (b0.toNat - 0xF0) * 262144 + (b1.toNat - 0x80) * 4096
                        + (b2.toNat - 0x80) * 64 + (b3.toNat - 0x80)) rfl
                      (List.cons_ne_nil _ _) ?_ ?_ fun q => ?_⟩
                    · omega
                    · exact Or.inr (Or.inr ⟨rfl, by omega⟩)
                    · exact pieces_four h hsecond hcont hlast (r3 ++ q)
                | false =>
                    refine ⟨none, [b0, b1, b2], b3 :: r3, cut_none rfl (List.cons_ne_nil _ _) (by simp)
                      fun q _ => ?_⟩
                    rw [List.cons_append, List.cons_append, List.cons_append, List.cons_append,
                      pieces.eq_def]
                    simp only [hascii, htwo, hthree, h, hsecond, hcont, hlast, if_true, if_false,
                      and_self, Bool.false_eq_true]

/-- Every text that is not empty has a first piece. -/
theorem exists_cut (b0 : UInt8) (r0 : Bytes) : ∃ piece head tail, Cut (b0 :: r0) piece head tail := by
  by_cases hascii : b0.toNat < 0x80
  · exact ⟨_, _, _, cut_ascii hascii r0⟩
  by_cases htwo : 0xC2 ≤ b0.toNat ∧ b0.toNat ≤ 0xDF
  · exact exists_cut_two htwo r0
  by_cases hthree : 0xE0 ≤ b0.toNat ∧ b0.toNat ≤ 0xEF
  · exact exists_cut_three hthree r0
  by_cases hfour : 0xF0 ≤ b0.toNat ∧ b0.toNat ≤ 0xF4
  · exact exists_cut_four hfour r0
  -- A byte that starts no character.
  refine ⟨none, [b0], r0, cut_none rfl (List.cons_ne_nil _ _) (by simp) fun q _ => ?_⟩
  rw [List.cons_append, pieces.eq_def]
  simp only [hascii, htwo, hthree, hfour, if_false]

theorem Cut.here {text head tail : Bytes} {piece : Option Char} (h : Cut text piece head tail) :
    pieces text = piece :: pieces tail := by
  have hnil := h.decoded [] (fun x hx => by cases hx)
  rwa [List.append_nil, List.append_nil] at hnil

/-- Induction along the pieces of a text. -/
theorem cut_induction {motive : Bytes → Prop} (nil : motive [])
    (cut : ∀ text piece head tail, Cut text piece head tail → motive tail → motive text)
    (bs : Bytes) : motive bs := by
  induction hn : bs.length using Nat.strongRecOn generalizing bs with
  | ind n ih =>
      subst hn
      rcases bs with _ | ⟨b, bs⟩
      · exact nil
      · rcases exists_cut b bs with ⟨piece, head, tail, hcut⟩
        have hpos := List.length_pos_iff.2 hcut.nonempty
        have hlen := congrArg List.length hcut.split
        rw [List.length_append] at hlen
        exact cut _ piece head tail hcut (ih tail.length (by omega) tail rfl)

/-- Lossy decoding makes no text shorter. -/
theorem length_le_decoded (bs : Bytes) :
    bs.length ≤ ((pieces bs).map fun piece => (piece.getD '\uFFFD').utf8Size).sum := by
  induction bs using cut_induction with
  | nil => exact Nat.zero_le _
  | cut text piece head tail hcut ih =>
      have hlen := hcut.length
      rw [hcut.here, hcut.split, List.length_append, List.map_cons, List.sum_cons]
      omega

/-- Valid text keeps its length. -/
theorem length_eq_decoded {bs : Bytes} (hvalid : none ∉ pieces bs) :
    ((pieces bs).map fun piece => (piece.getD '\uFFFD').utf8Size).sum = bs.length := by
  induction bs using cut_induction with
  | nil => rfl
  | cut text piece head tail hcut ih =>
      rw [hcut.here, List.mem_cons, not_or] at hvalid
      rcases Option.ne_none_iff_exists'.1 (Ne.symm hvalid.1) with ⟨c, hc⟩
      rw [hcut.here, List.map_cons, List.sum_cons, ih hvalid.2, hcut.split, List.length_append,
        ← hcut.size c hc, hc]
      rfl

/-! ## Cutting anywhere before an ASCII character -/

theorem pieces_append (a : Bytes) {q : Bytes} (hq : StartsAscii q) :
    pieces (a ++ q) = pieces a ++ pieces q := by
  induction a using cut_induction with
  | nil => rw [List.nil_append, pieces, List.nil_append]
  | cut text piece head tail hcut ih => rw [hcut.decoded q hq, hcut.here, ih, List.cons_append]

/-- An ASCII character of the decoded text is a byte of its own, and what stands before and behind it is
decoded apart. -/
theorem exists_of_pieces_eq_append {text : Bytes} {before after : List (Option Char)} {c : Char}
    (h : pieces text = before ++ some c :: after) (hc : c.toNat < 0x80) :
    ∃ a b rest, text = a ++ b :: rest ∧ pieces a = before ∧ b.toNat = c.toNat ∧
      pieces rest = after := by
  induction text using cut_induction generalizing before with
  | nil => cases before <;> cases h
  | cut text piece head tail hcut ih =>
      have hhere := hcut.here
      rw [h] at hhere
      rcases before with _ | ⟨first, before⟩
      · rcases List.cons.inj hhere with ⟨hpiece, hafter⟩
        rcases hcut.ascii c hpiece.symm hc with ⟨b, hhead, hb⟩
        refine ⟨[], b, tail, ?_, rfl, hb, hafter.symm⟩
        rw [hcut.split, hhead]
        rfl
      · rcases List.cons.inj hhere with ⟨hpiece, hrest⟩
        rcases ih hrest.symm with ⟨a, b, rest, rfl, ha, hb, hafter⟩
        refine ⟨head ++ a, b, rest, ?_, ?_, hb, hafter⟩
        · rw [hcut.split, List.append_assoc]
        · -- The byte is ASCII, so it cuts the text behind `head` as well as in front of it.
          have hq : StartsAscii (b :: rest) := by
            intro x hx
            cases hx
            omega
          have hwhole := hcut.here
          rw [hcut.split, ← List.append_assoc, pieces_append _ hq, pieces_append _ hq,
            ← List.cons_append] at hwhole
          rw [List.append_cancel_right hwhole, ha, hpiece]

/-! ## Runs of ASCII characters -/

/-- Every byte is an ASCII character. -/
def Ascii (bs : Bytes) : Prop := ∀ b ∈ bs, b.toNat < 0x80

def asciiChar (b : UInt8) : Char := Char.ofNat b.toNat

theorem asciiChar_toNat {b : UInt8} (h : b.toNat < 0x80) : (asciiChar b).toNat = b.toNat :=
  toNat_ofNat_of_valid (by omega)

theorem Ascii.startsAscii {bs : Bytes} (h : Ascii bs) (hne : bs ≠ []) (rest : Bytes) :
    StartsAscii (bs ++ rest) := by
  rcases bs with _ | ⟨b, bs⟩
  · exact absurd rfl hne
  · intro x hx
    cases hx
    exact h b List.mem_cons_self

theorem pieces_ascii_append {bs : Bytes} (h : Ascii bs) (rest : Bytes) :
    pieces (bs ++ rest) = (bs.map asciiChar).map some ++ pieces rest := by
  induction bs with
  | nil => rfl
  | cons b bs ih =>
      have hb : b.toNat < 0x80 := h b List.mem_cons_self
      rw [List.cons_append, (cut_ascii hb (bs ++ rest)).here, ih fun x hx => h x (List.mem_cons_of_mem _ hx)]
      rfl

/-- A run of ASCII characters at the beginning of the decoded text stands there in the byte string. -/
theorem exists_of_pieces_eq_run {text : Bytes} {run : List Char} {after : List (Option Char)}
    (h : pieces text = run.map some ++ after) (hrun : ∀ c ∈ run, c.toNat < 0x80) :
    ∃ bs rest, text = bs ++ rest ∧ Ascii bs ∧ bs.map asciiChar = run ∧ pieces rest = after := by
  induction run generalizing text with
  | nil => exact ⟨[], text, rfl, (fun b hb => by cases hb), rfl, h⟩
  | cons c run ih =>
      have hc := hrun c List.mem_cons_self
      rcases exists_of_pieces_eq_append (show pieces text = [] ++ some c :: _ from h) hc with ⟨a, b, rest, rfl, ha, hb, hafter⟩
      have hnil : a = [] := by
        rcases a with _ | ⟨x, xs⟩
        · rfl
        · rcases exists_cut x xs with ⟨piece, head, tail, hcut⟩
          cases ha.symm.trans hcut.here
      subst hnil
      rcases ih hafter fun d hd => hrun d (List.mem_cons_of_mem _ hd) with
        ⟨bs, rest', rfl, hascii, hmap, hafter'⟩
      refine ⟨b :: bs, rest', rfl, ?_, ?_, hafter'⟩
      · intro x hx
        rcases List.mem_cons.1 hx with rfl | hx
        · omega
        · exact hascii x hx
      · have hchar : asciiChar b = c := by
          unfold asciiChar
          rw [hb, Char.ofNat_toNat]
        rw [List.map_cons, hmap, hchar]

/-- The same in the middle of the text. -/
theorem exists_of_pieces_eq_run_append {text : Bytes} {before after : List (Option Char)}
    {run : List Char} (h : pieces text = before ++ run.map some ++ after) (hne : run ≠ [])
    (hrun : ∀ c ∈ run, c.toNat < 0x80) :
    ∃ a bs rest, text = a ++ bs ++ rest ∧ pieces a = before ∧ Ascii bs ∧ bs.map asciiChar = run ∧
      pieces rest = after := by
  rcases run with _ | ⟨c, run⟩
  · exact absurd rfl hne
  · have hc := hrun c List.mem_cons_self
    rw [List.append_assoc] at h
    rcases exists_of_pieces_eq_append h hc with ⟨a, b, rest, rfl, ha, hb, hafter⟩
    have hb' : Ascii [b] := by
      intro x hx
      rw [List.mem_singleton] at hx
      subst hx
      omega
    have hchar : asciiChar b = c := by
      unfold asciiChar
      rw [hb, Char.ofNat_toNat]
    have hhere : pieces (b :: rest) = (c :: run).map some ++ after := by
      rw [show b :: rest = [b] ++ rest from rfl, pieces_ascii_append hb', hafter]
      simp [hchar]
    rcases exists_of_pieces_eq_run hhere hrun with ⟨bs, rest', hsplit, hascii, hmap, hafter'⟩
    exact ⟨a, bs, rest', by rw [hsplit, List.append_assoc], ha, hascii, hmap, hafter'⟩

end Utf8
end Foundation
end GatewayEdge
