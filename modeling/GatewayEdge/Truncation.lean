import GatewayEdge.BodyInspection
import GatewayEdge.Foundation.CharBoundary

/-!
# Truncation — cutting a text at a byte limit

The code walks back over bytes and then slices, and a slice off a character boundary would abort the worker.
It is shown to do what truncation does on characters: no slice panics, and what is left is the longest
beginning of the text that fits.
-/

namespace GatewayEdge
namespace Truncation

open Foundation
open Foundation.CharBoundary
open Waf (byteLen)

/-! ## The code, on bytes -/

/-- The loop: `end` goes down to a boundary. -/
def walkBack (s : Bytes) : Nat → Nat
  | 0 => 0
  | e + 1 => if isCharBoundary s (e + 1) = true then e + 1 else walkBack s e

/-- `truncate_on_char_boundary`, `none` if the slice panics. -/
def truncateOnCharBoundary (s : String) (max : Nat) : Option Bytes :=
  if (strBytes s).length ≤ max then some (strBytes s)
  else slice (strBytes s) 0 (walkBack (strBytes s) max)

/-! ## Bytes and characters -/

theorem length_strBytes_ofList (cs : List Char) : (strBytes (String.ofList cs)).length = byteLen cs := by
  rw [strBytes_eq, String.toList_ofList]
  induction cs with
  | nil => rfl
  | cons c cs ih =>
      rw [List.flatMap_cons, List.length_append, String.length_utf8EncodeChar, ih,
        BodyInspection.byteLen_cons]

theorem length_strBytes_eq (s : String) : (strBytes s).length = byteLen s.toList := by
  rw [← length_strBytes_ofList, String.ofList_toList]

/-- A boundary in the bytes is one between the characters. -/
theorem isCharBoundary_eq (s : String) (n : Nat) :
    isCharBoundary (strBytes s) n = Waf.isCharBoundary s.toList n := by
  rw [Bool.eq_iff_iff, isCharBoundary_iff, BodyInspection.isCharBoundary_iff]
  constructor
  · rintro ⟨t, u, rfl, hlen⟩
    refine ⟨t.toList, ?_, (length_strBytes_eq t).symm.trans hlen⟩
    rw [String.toList_append]
    exact List.prefix_append _ _
  · rintro ⟨l, ⟨rest, hsplit⟩, hlen⟩
    refine ⟨String.ofList l, String.ofList rest, ?_, (length_strBytes_ofList l).trans hlen⟩
    rw [← String.ofList_append, hsplit, String.ofList_toList]

theorem walkBack_eq (s : String) (max : Nat) : walkBack (strBytes s) max = Waf.walkBack s.toList max := by
  induction max with
  | zero => rfl
  | succ max ih => rw [walkBack, Waf.walkBack, isCharBoundary_eq, ih]

/-- The code truncates as if it saw characters, and never panics. -/
theorem truncate_eq (s : String) (max : Nat) :
    truncateOnCharBoundary s max =
      some (strBytes (String.ofList (Waf.truncateOnCharBoundary s.toList max))) := by
  unfold truncateOnCharBoundary Waf.truncateOnCharBoundary
  rw [length_strBytes_eq]
  by_cases hfits : byteLen s.toList ≤ max
  · rw [if_pos hfits, if_pos hfits, String.ofList_toList]
  · rw [if_neg hfits, if_neg hfits, walkBack_eq]
    -- The loop has stopped at a boundary, so the slice is a beginning of the characters.
    rcases BodyInspection.walkBack_spec s.toList max with ⟨-, hwalk, -⟩
    rcases BodyInspection.isCharBoundary_iff.1 hwalk with ⟨l, ⟨rest, hsplit⟩, hlen⟩
    have hs : s = String.ofList l ++ String.ofList rest := by
      rw [← String.ofList_append, hsplit, String.ofList_toList]
    have hslice := slice_zero_append (String.ofList l) (String.ofList rest)
    rw [← hs, length_strBytes_ofList] at hslice
    rw [← hlen, hslice, BodyInspection.sliceTo_byteLen ⟨rest, hsplit⟩]

/-! ## What is left of the text -/

/-- The character that is cut off first does not fit any more, and it has at most four bytes. -/
theorem le_truncate_add_three {s : List Char} {max : Nat} (h : max < byteLen s) :
    max ≤ byteLen (Waf.truncateOnCharBoundary s max) + 3 := by
  rcases BodyInspection.truncate_spec s max with ⟨⟨rest, hsplit⟩, hle, hlongest⟩
  cases rest with
  | nil =>
      rw [List.append_nil] at hsplit
      rw [hsplit] at hle
      exact absurd h (Nat.not_lt.2 hle)
  | cons c rest =>
      have hnext : max < byteLen (Waf.truncateOnCharBoundary s max ++ [c]) := by
        by_contra hfits
        have hlonger := hlongest (Waf.truncateOnCharBoundary s max ++ [c])
          ⟨rest, by rw [List.append_assoc, List.singleton_append, hsplit]⟩ (Nat.le_of_not_lt hfits)
        have hlen := hlonger.length_le
        rw [List.length_append, List.length_singleton] at hlen
        exact absurd hlen (Nat.not_succ_le_self _)
      have hfour := c.utf8Size_le_four
      rw [BodyInspection.byteLen_append, BodyInspection.byteLen_cons, BodyInspection.byteLen_nil] at hnext
      omega

/-- For every text and limit the truncation goes through without a panic.  It leaves whole characters, at
most as many bytes as the limit, and every other beginning of the text that fits is a beginning of it; so a
text that fits stays as it is, and of any other at most three bytes of the limit are left unused. -/
theorem truncation_is_longest_prefix (s : String) (max : Nat) : ∃ t : String,
    truncateOnCharBoundary s max = some (strBytes t) ∧ t.toList <+: s.toList ∧
      (strBytes t).length ≤ max ∧
      (∀ u : String, u.toList <+: s.toList → (strBytes u).length ≤ max → u.toList <+: t.toList) ∧
      ((strBytes s).length ≤ max → t = s) ∧
      (max < (strBytes s).length → max ≤ (strBytes t).length + 3) := by
  rcases BodyInspection.truncate_spec s.toList max with ⟨hbegins, hle, hlongest⟩
  refine ⟨String.ofList (Waf.truncateOnCharBoundary s.toList max), truncate_eq s max, ?_, ?_, ?_, ?_, ?_⟩
  · rw [String.toList_ofList]
    exact hbegins
  · rw [length_strBytes_ofList]
    exact hle
  · intro u hu hfits
    rw [String.toList_ofList]
    exact hlongest u.toList hu (length_strBytes_eq u ▸ hfits)
  · intro hfits
    unfold Waf.truncateOnCharBoundary
    rw [if_pos (length_strBytes_eq s ▸ hfits), String.ofList_toList]
  · intro hlong
    rw [length_strBytes_ofList]
    exact le_truncate_add_three (length_strBytes_eq s ▸ hlong)

/-- The middle one of three characters of three bytes each straddles the limit. -/
example : truncateOnCharBoundary "€€€" 4 = some (strBytes "€") := by decide

end Truncation
end GatewayEdge
