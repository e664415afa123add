import GatewayEdge.Foundation.Text

/-!
# PercentDecode — the standard percent-decoder

`%` and two hexadecimal digits stand for the byte they denote, taken as the character of that
number; `+` stands for a blank; any other `%` stays and decoding goes on with the very next
character.  Decoding distributes over a concatenation unless an escape crosses the seam.
-/

namespace GatewayEdge
namespace Foundation
namespace PercentDecode

/-- The character an escape with these two digits denotes, `none` if one is no digit. -/
def escaped (h1 h2 : Char) : Option Char :=
  match hexValue h1, hexValue h2 with
  | some d1, some d2 => some (Char.ofNat (d1 * 16 + d2))
  | _, _ => none

def decode : List Char → List Char
  | [] => []
  | '%' :: h1 :: h2 :: rest =>
    match escaped h1 h2 with
    | some c => c :: decode rest
    | none => '%' :: decode (h1 :: h2 :: rest)
  | c :: rest => (if c = '+' then ' ' else c) :: decode rest

/-- An escape starts at the head of `'%' :: z`. -/
def StartsEscape (z : List Char) : Prop := ∃ h1 h2 rest, z = h1 :: h2 :: rest ∧ escaped h1 h2 ≠ none

/-! ## One character at a time -/

theorem decode_escape {h1 h2 c : Char} (h : escaped h1 h2 = some c) (rest : List Char) :
    decode ('%' :: h1 :: h2 :: rest) = c :: decode rest := by
  rw [decode, h]

/-- Outside of escapes characters are decoded one by one. -/
theorem decode_cons {c : Char} {z : List Char} (h : c = '%' → ¬ StartsEscape z) :
    decode (c :: z) = (if c = '+' then ' ' else c) :: decode z := by
  by_cases hc : c = '%'
  · subst hc
    rcases z with _ | ⟨h1, _ | ⟨h2, rest⟩⟩
    · rfl
    · rfl
    · have hnone : escaped h1 h2 = none := by
        by_contra hsome
        exact h rfl ⟨h1, h2, rest, rfl, hsome⟩
      rw [decode, hnone]
      rfl
  · rw [decode]
    intro _ _ _ hsame
    exact absurd hsame hc

/-- Text without `%` and `+` is decoded to itself. -/
theorem decode_plain_append {q : List Char} (hpercent : '%' ∉ q) (hplus : '+' ∉ q)
    (b : List Char) : decode (q ++ b) = q ++ decode b := by
  induction q with
  | nil => rfl
  | cons c q ih =>
      have hc : c ≠ '%' := fun h => hpercent (by simp [h])
      have hp : c ≠ '+' := fun h => hplus (by simp [h])
      have hrest := ih (fun h => hpercent (by simp [h])) (fun h => hplus (by simp [h]))
      rw [List.cons_append, decode_cons (fun h => absurd h hc), if_neg hp, hrest, List.cons_append]

/-! ## Concatenation -/

/-- No escape begins in `a` and ends in `y`. -/
structure Seam (a y : List Char) : Prop where
  one : ∀ before, a = before ++ ['%'] → ¬ StartsEscape y
  two : ∀ before h1, a = before ++ ['%', h1] → ¬ StartsEscape (h1 :: y)

theorem Seam.of_append {a b y : List Char} (h : Seam (a ++ b) y) : Seam b y where
  one := fun before hb => h.one (a ++ before) (by rw [hb, List.append_assoc])
  two := fun before h1 hb => h.two (a ++ before) h1 (by rw [hb, List.append_assoc])

theorem decode_append {a y : List Char} (h : Seam a y) : decode (a ++ y) = decode a ++ decode y := by
  -- An escape shortens the list by three, so the induction is on its length.
  induction hn : a.length using Nat.strong_induction_on generalizing a with
  | _ n ih =>
      subst hn
      cases a with
      | nil => rfl
      | cons c a =>
          by_cases hescape : c = '%' ∧ StartsEscape a
          · rcases hescape with ⟨rfl, h1, h2, rest, rfl, hsome⟩
            rcases Option.ne_none_iff_exists'.1 hsome with ⟨d, hd⟩
            -- The escape lies in `a` as a whole, so both sides decode it.
            have hrest := ih rest.length (by simp; omega) (h.of_append (a := ['%', h1, h2])) rfl
            rw [List.cons_append, List.cons_append, List.cons_append, decode_escape hd, hrest,
              decode_escape hd, List.cons_append]
          · have hone : c = '%' → ¬ StartsEscape a := fun hc hs => hescape ⟨hc, hs⟩
            -- What is no escape in `a` must not become one through the beginning of `y`.
            have hboth : c = '%' → ¬ StartsEscape (a ++ y) := by
              rintro rfl hs
              rcases a with _ | ⟨h1, _ | ⟨h2, rest⟩⟩
              · exact h.one [] rfl hs
              · exact h.two [] h1 rfl hs
              · rcases hs with ⟨g1, g2, tail, hsplit, hsome⟩
                rcases List.cons.inj hsplit with ⟨rfl, htail⟩
                rcases List.cons.inj htail with ⟨rfl, _⟩
                exact hone rfl ⟨_, _, rest, rfl, hsome⟩
            have hrest := ih a.length (by simp) (h.of_append (a := [c])) rfl
            rw [List.cons_append, decode_cons hboth, hrest, decode_cons hone, List.cons_append]

/-- Text without `%` and `+` that no escape runs into is found again after decoding. -/
theorem decode_infix {a q b : List Char} (hpercent : '%' ∉ q) (hplus : '+' ∉ q)
    (h : Seam a (q ++ b)) : q <:+: decode (a ++ (q ++ b)) := by
  rw [decode_append h, decode_plain_append hpercent hplus]
  exact ⟨decode a, decode b, by simp⟩

example : decode "%%3Cscript+%4".toList = "%<script %4".toList := by decide

end PercentDecode
end Foundation
end GatewayEdge
