import GatewayEdge.Foundation.Text
import Mathlib.Data.List.Basic

/-!
# Numeral — positional numerals of a fixed width

The last digits of a number in some base, written in some alphabet, most significant digit first.
Numbers below `base ^ width` have different numerals; where the alphabet is in order, the numerals are
in lexicographic order.
-/

namespace GatewayEdge
namespace Foundation

/-! ## Lists of one length -/

/-- Among lists of one length the order of two beginnings decides. -/
theorem append_lt_append_of_lt {α : Type*} [LT α] {xs ys : List α} (h : xs < ys)
    (hlen : xs.length = ys.length) (us vs : List α) : xs ++ us < ys ++ vs := by
  induction h with
  | nil => cases hlen
  | cons _ ih => exact List.Lex.cons (ih (Nat.succ.inj hlen))
  | rel hlt => exact List.Lex.rel hlt

/-! ## Numerals -/

section Numeral

variable {α : Type*} {digit : ℕ → α} {base width m n : ℕ}

/-- The last `width` digits of `n`. -/
def numeral (digit : ℕ → α) (base : ℕ) : ℕ → ℕ → List α
  | 0, _ => []
  | width + 1, n => numeral digit base width (n / base) ++ [digit (n % base)]

@[simp] theorem length_numeral (width n : ℕ) : (numeral digit base width n).length = width := by
  induction width generalizing n with
  | zero => rfl
  | succ width ih => simp [numeral, ih]

theorem numeral_zero (width : ℕ) : numeral digit base width 0 = List.replicate width (digit 0) := by
  induction width with
  | zero => rfl
  | succ width ih => rw [numeral, Nat.zero_div, Nat.zero_mod, ih, List.replicate_succ']

/-- What is left of a number without its last digit. -/
theorem div_lt_pow (h : n < base ^ (width + 1)) : n / base < base ^ width :=
  Nat.div_lt_of_lt_mul (by rwa [Nat.mul_comm, ← Nat.pow_succ])

theorem base_pos (h : n < base ^ (width + 1)) : 0 < base := by
  by_contra hzero
  rw [Nat.eq_zero_of_not_pos hzero, Nat.pow_succ, Nat.mul_zero] at h
  exact Nat.not_lt_zero n h

/-- A numeral is written in the digits of its base. -/
theorem exists_digit_of_mem_numeral {a : α} (hbase : 0 < base) (h : a ∈ numeral digit base width n) :
    ∃ d < base, a = digit d := by
  induction width generalizing n with
  | zero => cases h
  | succ width ih =>
      rcases List.mem_append.1 h with hfront | hlast
      · exact ih hfront
      · exact ⟨n % base, Nat.mod_lt n hbase, List.mem_singleton.1 hlast⟩

/-- A number below the base is its own last digit. -/
theorem numeral_one (h : n < base) : numeral digit base 1 n = [digit n] := by
  rw [numeral, numeral, List.nil_append, Nat.mod_eq_of_lt h]

/-- Numerals in a proper alphabet tell numbers of their width apart. -/
theorem numeral_inj (hdigit : ∀ a b, a < base → b < base → digit a = digit b → a = b)
    (hm : m < base ^ width) (hn : n < base ^ width)
    (h : numeral digit base width m = numeral digit base width n) : m = n := by
  induction width generalizing m n with
  | zero =>
      have hm0 : m = 0 := Nat.lt_one_iff.1 hm
      have hn0 : n = 0 := Nat.lt_one_iff.1 hn
      rw [hm0, hn0]
  | succ width ih =>
      have hpos : 0 < base := base_pos hm
      rcases List.append_inj' h rfl with ⟨hfront, hlast⟩
      have hdiv : m / base = n / base := ih (div_lt_pow hm) (div_lt_pow hn) hfront
      have hmod : m % base = n % base :=
        hdigit _ _ (Nat.mod_lt m hpos) (Nat.mod_lt n hpos) (List.singleton_inj.1 hlast)
      calc
        m = base * (m / base) + m % base := (Nat.div_add_mod m base).symm
        _ = base * (n / base) + n % base := by rw [hdiv, hmod]
        _ = n := Nat.div_add_mod n base

/-- Numerals in an alphabet in order are in lexicographic order. -/
theorem numeral_lt [LT α] (hdigit : ∀ a b, a < b → b < base → digit a < digit b)
    (hn : n < base ^ width) (h : m < n) :
    numeral digit base width m < numeral digit base width n := by
  induction width generalizing m n with
  | zero =>
      have hn0 : n = 0 := Nat.lt_one_iff.1 hn
      omega
  | succ width ih =>
      have hpos : 0 < base := base_pos hn
      rcases Nat.lt_or_ge (m / base) (n / base) with hfront | hfront
      · exact append_lt_append_of_lt (ih (div_lt_pow hn) hfront) (by simp) _ _
      · -- The same digits in front, so the last one decides.
        have hdiv : m / base = n / base :=
          le_antisymm (Nat.div_le_div_right (Nat.le_of_lt h)) hfront
        have hlast : m % base < n % base := by
          have hm' := Nat.div_add_mod m base
          have hn' := Nat.div_add_mod n base
          rw [hdiv] at hm'
          omega
        rw [numeral, numeral, hdiv]
        exact List.append_left_lt (List.Lex.rel (hdigit _ _ hlast (Nat.mod_lt n hpos)))

end Numeral

/-! ## Hexadecimal and decimal -/

theorem toHex_eq_numeral (width n : ℕ) : toHex width n = numeral hexDigit 16 width n := by
  induction width generalizing n with
  | zero => rfl
  | succ width ih => rw [toHex, numeral, ih]

theorem hexDigit_inj : ∀ a < 16, ∀ b < 16, hexDigit a = hexDigit b → a = b := by
  decide

theorem toHex_inj {width m n : ℕ} (hm : m < 16 ^ width) (hn : n < 16 ^ width)
    (h : toHex width m = toHex width n) : m = n := by
  rw [toHex_eq_numeral, toHex_eq_numeral] at h
  exact numeral_inj (fun a b ha hb => hexDigit_inj a ha b hb) hm hn h

theorem hexDigit_ascii : ∀ d < 16, (hexDigit d).toNat ≠ 0 ∧ (hexDigit d).toNat < 0x80 := by
  decide

/-- A hexadecimal numeral is plain ASCII, with no NUL in it. -/
theorem ascii_of_mem_toHex {width n : ℕ} {c : Char} (h : c ∈ toHex width n) :
    c.toNat ≠ 0 ∧ c.toNat < 0x80 := by
  rw [toHex_eq_numeral] at h
  rcases exists_digit_of_mem_numeral (by decide) h with ⟨d, hd, rfl⟩
  exact hexDigit_ascii d hd

@[simp] theorem length_toHex (width n : ℕ) : (toHex width n).length = width := by
  rw [toHex_eq_numeral, length_numeral]

theorem digitChar_lt : ∀ b < 10, ∀ a < b, Nat.digitChar a < Nat.digitChar b := by
  decide

end Foundation
end GatewayEdge
