import GatewayEdge.Foundation.PercentDecode
import GatewayEdge.Waf
import Mathlib.Tactic.IntervalCases

/-!
# UriInspection — which encoded attacks the URI scan sees

The scan looks at the third pass of a decoder of its own.  It is compared with the standard
decoder applied zero to three times: on which texts the two agree (`urlDecode_eq_decode_iff`), and which
entries are still there after three passes.
-/

namespace GatewayEdge
namespace UriInspection

open Foundation
open Foundation.PercentDecode (decode escaped StartsEscape Seam decode_cons decode_escape)
open Waf

/-! ## The decoder of the source -/

/-- The loop with its early exit is three plain passes. -/
theorem urlDecodeLoop_eq (n : Nat) (text : List Char) : urlDecodeLoop n text = urlDecode^[n] text := by
  induction n generalizing text with
  | zero => rfl
  | succ n ih =>
      rw [urlDecodeLoop, Function.iterate_succ_apply]
      split
      · rename_i hfixed
        rw [hfixed, Function.iterate_fixed hfixed]
      · exact ih _

theorem urlDecodeRecursive_eq (text : List Char) :
    urlDecodeRecursive text = urlDecode^[maxDecodePasses] text := by
  rw [urlDecodeRecursive, urlDecodeLoop_eq, ← Function.iterate_succ_apply]
  rfl

/-- Two hexadecimal digits stand at the head. -/
def digitsAhead : List Char → Bool
  | h1 :: h2 :: _ => (escaped h1 h2).isSome
  | _ => false

/-- The standard decoder leaves this character as it is, given what follows it. -/
def keeps (c : Char) (rest : List Char) : Bool := c != '+' && !(c == '%' && digitsAhead rest)

/-- Every `%` that starts no escape is the last character, or the two characters the source consumes with it
are kept by the standard decoder as well. -/
def escapesPlain : List Char → Bool
  | [] => true
  | c :: rest =>
    if c = '%' then
      match rest with
      | [] => true
      | [_] => false
      | h1 :: h2 :: rest =>
        ((escaped h1 h2).isSome || keeps h1 (h2 :: rest) && keeps h2 rest) && escapesPlain rest
    else escapesPlain rest

/-- Two digits after `%` are an escape for the source too. -/
theorem urlDecode_escape {h1 h2 c : Char} (h : escaped h1 h2 = some c) (rest : List Char) :
    urlDecode ('%' :: h1 :: h2 :: rest) = c :: urlDecode rest := by
  unfold escaped at h
  rw [urlDecode, if_pos rfl]
  cases hd1 : hexValue h1 with
  | none => simp [hd1] at h
  | some d1 =>
      cases hd2 : hexValue h2 with
      | none => simp [hd1, hd2] at h
      | some d2 =>
          have hc : Char.ofNat (d1 * 16 + d2) = c := by simpa [hd1, hd2] using h
          simp [hc]

/-- What follows a stray `%` is copied by the source without being looked at. -/
theorem urlDecode_stray {h1 h2 : Char} (h : escaped h1 h2 = none) (rest : List Char) :
    urlDecode ('%' :: h1 :: h2 :: rest) = '%' :: h1 :: h2 :: urlDecode rest := by
  unfold escaped at h
  rw [urlDecode, if_pos rfl]
  cases hd1 : hexValue h1 with
  | none => simp
  | some d1 =>
      cases hd2 : hexValue h2 with
      | none => simp
      | some d2 => simp [hd1, hd2] at h

theorem urlDecode_cons {c : Char} (hc : c ≠ '%') (rest : List Char) :
    urlDecode (c :: rest) = (if c = '+' then ' ' else c) :: urlDecode rest := by
  rw [urlDecode.eq_def]
  simp only [if_neg hc]
  split <;> rfl

theorem digitsAhead_iff {z : List Char} : digitsAhead z = true ↔ StartsEscape z := by
  rcases z with _ | ⟨h1, _ | ⟨h2, rest⟩⟩
  · exact iff_of_false Bool.false_ne_true fun ⟨_, _, _, hsplit, _⟩ => by cases hsplit
  · exact iff_of_false Bool.false_ne_true fun ⟨_, _, _, hsplit, _⟩ => by cases hsplit
  · unfold digitsAhead
    rw [Option.isSome_iff_ne_none]
    constructor
    · exact fun hsome => ⟨h1, h2, rest, rfl, hsome⟩
    · rintro ⟨g1, g2, tail, hsplit, hsome⟩
      cases hsplit
      exact hsome

theorem keeps_eq_true_iff {c : Char} {rest : List Char} :
    keeps c rest = true ↔ c ≠ '+' ∧ (c = '%' → ¬ StartsEscape rest) := by
  rw [← digitsAhead_iff]
  by_cases hc : c = '%'
  · simp [keeps, hc]
  · simp [keeps, hc]

/-- What is kept is copied. -/
theorem decode_of_keeps {c : Char} {rest : List Char} (h : keeps c rest = true) :
    decode (c :: rest) = c :: decode rest := by
  rcases keeps_eq_true_iff.1 h with ⟨hplus, hescape⟩
  rw [decode_cons hescape, if_neg hplus]

theorem digits_of_escaped {h1 h2 : Char} (h : escaped h1 h2 ≠ none) : h1 ≠ '%' ∧ h2 ≠ '%' := by
  have hpercent : hexValue '%' = none := by decide
  constructor
  · rintro rfl
    exact h (by simp [escaped, hpercent])
  · rintro rfl
    exact h (by cases hexValue h1 <;> simp [escaped, hpercent])

theorem length_urlDecode_digits {h1 h2 : Char} (h : escaped h1 h2 ≠ none) (rest : List Char) :
    (urlDecode (h1 :: h2 :: rest)).length = (urlDecode rest).length + 2 := by
  rw [urlDecode_cons (digits_of_escaped h).1, urlDecode_cons (digits_of_escaped h).2, List.length_cons,
    List.length_cons]

/-- One character adds at most one. -/
theorem length_decode_cons_le (c : Char) (rest : List Char) :
    (decode (c :: rest)).length ≤ (decode rest).length + 1 := by
  by_cases hescape : c = '%' ∧ StartsEscape rest
  · rcases hescape with ⟨rfl, h1, h2, tail, rfl, hsome⟩
    rcases Option.ne_none_iff_exists'.1 hsome with ⟨d, hd⟩
    have hdigits := digits_of_escaped hsome
    rw [decode_escape hd, decode_cons fun h => absurd h hdigits.1, decode_cons fun h => absurd h hdigits.2]
    simp only [List.length_cons]
    omega
  · rw [decode_cons fun hc hs => hescape ⟨hc, hs⟩, List.length_cons]

/-- The source may drop a last character, and is never shorter by more. -/
theorem length_decode_le (text : List Char) : (decode text).length ≤ (urlDecode text).length + 1 := by
  induction hn : text.length using Nat.strong_induction_on generalizing text with
  | _ n ih =>
      subst hn
      rcases text with _ | ⟨c, rest⟩
      · exact Nat.zero_le _
      by_cases hc : c = '%'
      · subst hc
        rcases rest with _ | ⟨h1, _ | ⟨h2, rest⟩⟩
        · exact Nat.le_succ 1
        · have htwo := length_decode_cons_le '%' [h1]
          have hone := length_decode_cons_le h1 []
          exact htwo.trans (Nat.succ_le_succ hone)
        have hrest := ih rest.length (by simp; omega) rest rfl
        cases hescaped : escaped h1 h2 with
        | some c =>
            rw [urlDecode_escape hescaped, decode_escape hescaped]
            exact Nat.succ_le_succ hrest
        | none =>
            rw [urlDecode_stray hescaped]
            have hthree := length_decode_cons_le '%' (h1 :: h2 :: rest)
            have htwo := length_decode_cons_le h1 (h2 :: rest)
            have hone := length_decode_cons_le h2 rest
            simp only [List.length_cons]
            omega
      · rw [urlDecode_cons hc, decode_cons fun h => absurd h hc]
        exact Nat.succ_le_succ (ih rest.length (by simp) rest rfl)

/-- A character that comes out of the standard decoder was kept, or an escape has taken two more with it. -/
theorem keeps_or_escape {c : Char} {z tail : List Char} (h : decode (c :: z) = c :: tail) :
    (keeps c z = true ∧ decode z = tail) ∨
      ∃ g1 g2 z', z = g1 :: g2 :: z' ∧ escaped g1 g2 ≠ none ∧ decode z' = tail := by
  by_cases hescape : c = '%' ∧ StartsEscape z
  · rcases hescape with ⟨rfl, g1, g2, z', rfl, hsome⟩
    rcases Option.ne_none_iff_exists'.1 hsome with ⟨d, hd⟩
    rw [decode_escape hd] at h
    exact Or.inr ⟨g1, g2, z', rfl, hsome, (List.cons.inj h).2⟩
  · have hno : c = '%' → ¬ StartsEscape z := fun hc hs => hescape ⟨hc, hs⟩
    rw [decode_cons hno] at h
    rcases List.cons.inj h with ⟨hc, htail⟩
    refine Or.inl ⟨keeps_eq_true_iff.2 ⟨?_, hno⟩, htail⟩
    rintro rfl
    exact absurd hc (by decide)

/-- Behind a stray `%` the decoders agree exactly if both characters are kept and the rest is read alike: an
escape among the two would make the standard text too short. -/
theorem decode_stray_eq_iff {h1 h2 : Char} (hescaped : escaped h1 h2 = none) (rest : List Char) :
    decode ('%' :: h1 :: h2 :: rest) = '%' :: h1 :: h2 :: urlDecode rest ↔
      keeps h1 (h2 :: rest) = true ∧ keeps h2 rest = true ∧ decode rest = urlDecode rest := by
  have hno : ¬ StartsEscape (h1 :: h2 :: rest) := by
    rintro ⟨g1, g2, tail, hsplit, hsome⟩
    cases hsplit
    exact hsome hescaped
  rw [decode_cons fun _ => hno, if_neg (by decide)]
  constructor
  · intro h
    rcases keeps_or_escape (List.cons.inj h).2 with ⟨hfirst, hrest⟩ | ⟨g1, g2, z', hz, hsome, hrest⟩
    · rcases keeps_or_escape hrest with ⟨hsecond, hsame⟩ | ⟨g1, g2, z', rfl, hsome, hshort⟩
      · exact ⟨hfirst, hsecond, hsame⟩
      · have hlength := congrArg List.length hshort
        have hle := length_decode_le z'
        rw [length_urlDecode_digits hsome] at hlength
        omega
    · rcases List.cons.inj hz with ⟨rfl, rfl⟩
      have hlength := congrArg List.length hrest
      have hle := length_decode_le z'
      rw [List.length_cons, urlDecode_cons (digits_of_escaped hsome).2, List.length_cons] at hlength
      omega
  · rintro ⟨hfirst, hsecond, hrest⟩
    rw [decode_of_keeps hfirst, decode_of_keeps hsecond, hrest]

/-- The source's decoder is the standard one on such text, and on no other. -/
theorem urlDecode_eq_decode_iff (text : List Char) :
    urlDecode text = decode text ↔ escapesPlain text = true := by
  -- An escape shortens the text by three, so the induction is on its length.
  induction hn : text.length using Nat.strong_induction_on generalizing text with
  | _ n ih =>
      subst hn
      rcases text with _ | ⟨c, rest⟩
      · exact iff_of_true rfl rfl
      by_cases hc : c = '%'
      · subst hc
        rcases rest with _ | ⟨h1, _ | ⟨h2, rest⟩⟩
        · exact iff_of_true rfl rfl
        · -- The source drops the one character that is left.
          refine iff_of_false (fun h => ?_) Bool.false_ne_true
          have hno : ¬ StartsEscape [h1] := fun ⟨_, _, _, hsplit, _⟩ => by cases hsplit
          rw [decode_cons fun _ => hno, decode_cons (z := []) fun _ ⟨_, _, _, hsplit, _⟩ => by cases hsplit] at h
          cases (List.cons.inj h).2
        have hrest := ih rest.length (by simp; omega) rest rfl
        rw [escapesPlain, if_pos rfl, Bool.and_eq_true, ← hrest]
        cases hescaped : escaped h1 h2 with
        | some c =>
            rw [urlDecode_escape hescaped, decode_escape hescaped, List.cons_inj_right]
            simp
        | none =>
            rw [urlDecode_stray hescaped, eq_comm, decode_stray_eq_iff hescaped, eq_comm (a := decode rest)]
            simp [and_assoc]
      · rw [escapesPlain.eq_def]
        simp only [if_neg hc]
        rw [← ih rest.length (by simp) rest rfl, urlDecode_cons hc, decode_cons fun h => absurd h hc,
          List.cons_inj_right]

/-! ## Entries of the list -/

def hexDigits : List Char := "0123456789abcdef".toList

/-- The entries that start with a hexadecimal digit, behind `%` and another one: the digits of an
escape that runs into the entry. -/
def cutEntries : List String :=
  (injectionPatterns.filter fun p => p.toList.head?.any fun c => (hexValue c).isSome).flatMap fun p =>
    hexDigits.map fun h => String.ofList ('%' :: h :: p.toList)

/-- No escape runs into an entry. -/
def EntriesIntact (text : List Char) : Prop := matchesAny cutEntries text = false

instance (text : List Char) : Decidable (EntriesIntact text) := inferInstanceAs (Decidable (_ = _))

/-- No `%`, no `+`, and at least two characters, the first two of which are no escape. -/
def entryPlain : List Char → Bool
  | c₁ :: c₂ :: rest =>
    !(c₁ :: c₂ :: rest).contains '%' && !(c₁ :: c₂ :: rest).contains '+' && (escaped c₁ c₂).isNone
  | _ => false

theorem entries_plain : ∀ p ∈ injectionPatterns, entryPlain (p.toList.map Char.toLower) = true := by
  decide

theorem entryPlain_eq_true {q : List Char} (h : entryPlain q = true) :
    '%' ∉ q ∧ '+' ∉ q ∧ ∃ c₁ c₂ rest, q = c₁ :: c₂ :: rest ∧ escaped c₁ c₂ = none := by
  unfold entryPlain at h
  split at h
  · rename_i c₁ c₂ rest
    simp only [Bool.and_eq_true, Bool.not_eq_true', List.contains_eq_mem, decide_eq_false_iff_not,
      Option.isNone_iff_eq_none] at h
    exact ⟨h.1.1, h.1.2, c₁, c₂, rest, rfl, h.2⟩
  · cases h

/-- Where no entry that starts with a digit occurs at all, no escape runs into one. -/
theorem entriesIntact_of_absent {text : List Char}
    (h : matchesAny
      (injectionPatterns.filter fun p => p.toList.head?.any fun c => (hexValue c).isSome) text = false) :
    EntriesIntact text := by
  refine List.any_eq_false.2 fun e he => ?_
  rcases List.mem_flatMap.1 he with ⟨p, hp, hcut⟩
  rcases List.mem_map.1 hcut with ⟨digit, -, rfl⟩
  have habsent := List.any_eq_false.1 h p hp
  simp only [decide_eq_true_eq, String.toList_ofList] at habsent ⊢
  -- A cut entry ends with the entry.
  have hentry : p.toList.map Char.toLower <:+: ('%' :: digit :: p.toList).map Char.toLower :=
    ⟨['%', digit].map Char.toLower, [], by simp⟩
  exact fun hoccurs => habsent (hentry.trans hoccurs)

/-! ## Folding the case -/

theorem le_iff_toNat_le {c d : Char} : c ≤ d ↔ c.toNat ≤ d.toNat := UInt32.le_iff_toNat_le

/-- A digit keeps its value in lower case, and anything else stays no digit. -/
theorem hexValue_toLower (c : Char) : hexValue c.toLower = hexValue c := by
  -- Only the upper-case letters change; they are finitely many.
  by_cases hupper : 'A' ≤ c ∧ c ≤ 'Z'
  · have hrange : 65 ≤ c.toNat ∧ c.toNat ≤ 90 :=
      ⟨le_iff_toNat_le.1 hupper.1, le_iff_toNat_le.1 hupper.2⟩
    have hc : c = Char.ofNat c.toNat := (Char.ofNat_toNat c).symm
    generalize c.toNat = n at hrange hc
    subst hc
    rcases hrange with ⟨hlo, hhi⟩
    interval_cases n <;> decide
  · have hsame : c.toLower = c := by
      unfold Char.toLower
      exact dif_neg hupper
    rw [hsame]

theorem escaped_toLower (c d : Char) : escaped c.toLower d.toLower = escaped c d := by
  unfold escaped
  rw [hexValue_toLower, hexValue_toLower]

theorem toLower_mem_hexDigits {c : Char} (h : hexValue c ≠ none) : c.toLower ∈ hexDigits := by
  rcases Option.ne_none_iff_exists'.1 h with ⟨n, hn⟩
  have hrange : (48 ≤ c.toNat ∧ c.toNat ≤ 57) ∨ (97 ≤ c.toNat ∧ c.toNat ≤ 102) ∨
      (65 ≤ c.toNat ∧ c.toNat ≤ 70) := by
    rcases hexValue_eq_some hn with hdecimal | hlower | hupper
    · exact Or.inl ⟨hdecimal.1, hdecimal.2.1⟩
    · exact Or.inr (Or.inl ⟨hlower.1, hlower.2.1⟩)
    · exact Or.inr (Or.inr ⟨hupper.1, hupper.2.1⟩)
  have hc : c = Char.ofNat c.toNat := (Char.ofNat_toNat c).symm
  generalize c.toNat = n at hrange hc
  subst hc
  rcases hrange with ⟨hlo, hhi⟩ | ⟨hlo, hhi⟩ | ⟨hlo, hhi⟩
  all_goals interval_cases n <;> decide

/-! ## What a pass of the standard decoder does to an entry -/

/-- Some entry occurs, up to ASCII case. -/
def Malicious (text : List Char) : Prop := matchesAny injectionPatterns text = true

instance (text : List Char) : Decidable (Malicious text) := inferInstanceAs (Decidable (_ = _))

theorem malicious_iff {text : List Char} :
    Malicious text ↔ ∃ p ∈ injectionPatterns,
      p.toList.map Char.toLower <:+: text.map Char.toLower := by
  simp [Malicious, matchesAny]

/-- An escape that ran into an entry would leave a cut entry behind. -/
theorem not_startsEscape_of_intact {p : String} (hp : p ∈ injectionPatterns)
    {before q b : List Char} {h1 : Char}
    (hq : q.map Char.toLower = p.toList.map Char.toLower)
    (hintact : EntriesIntact (before ++ ['%', h1] ++ (q ++ b))) : ¬ StartsEscape (h1 :: (q ++ b)) := by
  rintro ⟨g1, g2, rest, hsplit, hsome⟩
  rcases List.cons.inj hsplit with ⟨rfl, hrest⟩
  rcases entryPlain_eq_true (entries_plain p hp) with ⟨-, -, c₁, c₂, tail, hshape, -⟩
  rcases q with _ | ⟨d, q⟩
  · rw [← hq] at hshape
    cases hshape
  · have hd : d = g2 := (List.cons.inj hrest).1
    subst hd
    -- Both digits of the escape are hexadecimal, so the entry starts with one.
    have hdigits : hexValue h1 ≠ none ∧ hexValue d ≠ none := by
      constructor
      · intro hnone
        exact hsome (by simp [escaped, hnone])
      · intro hnone
        exact hsome (by cases hexValue h1 <;> simp [escaped, hnone])
    have hcut : String.ofList ('%' :: h1.toLower :: p.toList) ∈ cutEntries := by
      refine List.mem_flatMap.2 ⟨p, List.mem_filter.2 ⟨hp, ?_⟩,
        List.mem_map.2 ⟨h1.toLower, toLower_mem_hexDigits hdigits.1, rfl⟩⟩
      rcases hlist : p.toList with _ | ⟨e, es⟩
      · rw [hlist] at hshape
        cases hshape
      · have he : d.toLower = e.toLower := by
          rw [hlist] at hq
          exact (List.cons.inj hq).1
        have hvalue : hexValue e = hexValue d := by
          rw [← hexValue_toLower e, ← he, hexValue_toLower]
        simpa [hvalue, Option.isSome_iff_ne_none] using hdigits.2
    have hfold : hexDigits.map Char.toLower = hexDigits := by decide
    have hlower : h1.toLower.toLower = h1.toLower :=
      List.map_eq_map_iff.1 (hfold.trans (List.map_id _).symm) _ (toLower_mem_hexDigits hdigits.1)
    -- The escape and the entry behind it, in lower case, are one of the cut entries.
    have hoccurs : matchesAny cutEntries (before ++ ['%', h1] ++ (d :: q ++ b)) = true := by
      refine List.any_eq_true.2 ⟨_, hcut, decide_eq_true ?_⟩
      refine ⟨before.map Char.toLower, b.map Char.toLower, ?_⟩
      have hpercent : Char.toLower '%' = '%' := by decide
      simp only [String.toList_ofList, List.map_append, List.map_cons, List.map_nil, ← hq,
        hlower, hpercent]
      simp
    unfold EntriesIntact at hintact
    rw [hoccurs] at hintact
    cases hintact

/-- An entry that no escape runs into survives the pass. -/
theorem malicious_decode {text : List Char} (h : Malicious text) (hintact : EntriesIntact text) :
    Malicious (decode text) := by
  rcases malicious_iff.1 h with ⟨p, hp, start, rest, hsplit⟩
  -- Cut the text itself where its lower-case image is cut: `a`, the entry `q`, `b`.
  rcases List.map_eq_append_iff.1 hsplit.symm with ⟨aq, b, rfl, haq, -⟩
  rcases List.map_eq_append_iff.1 haq with ⟨a, q, rfl, -, hq⟩
  rw [List.append_assoc] at hintact ⊢
  rcases entryPlain_eq_true (entries_plain p hp) with ⟨hpercent, hplus, c₁, c₂, tail, hshape, hnone⟩
  rw [← hq] at hpercent hplus hshape
  -- No escape crosses from `a` into `q`: not with both its digits in `q`, not with one.
  have hseam : Seam a (q ++ b) :=
    { one := by
        rintro before - ⟨h1, h2, rest', hstart, hsome⟩
        rcases q with _ | ⟨d₁, _ | ⟨d₂, q⟩⟩
        · cases hshape
        · cases hshape
        · have hh1 : d₁ = h1 := (List.cons.inj hstart).1
          have hh2 : d₂ = h2 := (List.cons.inj (List.cons.inj hstart).2).1
          have hc₁ : d₁.toLower = c₁ := (List.cons.inj hshape).1
          have hc₂ : d₂.toLower = c₂ := (List.cons.inj (List.cons.inj hshape).2).1
          rw [← hc₁, ← hc₂, escaped_toLower, hh1, hh2] at hnone
          exact hsome hnone
      two := fun before h1 ha => by
        rw [ha] at hintact
        exact not_startsEscape_of_intact hp hq hintact }
  have hpercentQ : '%' ∉ q := fun hmem => hpercent (by
    have := List.mem_map_of_mem (f := Char.toLower) hmem
    exact this)
  have hplusQ : '+' ∉ q := fun hmem => hplus (by
    have := List.mem_map_of_mem (f := Char.toLower) hmem
    exact this)
  refine malicious_iff.2 ⟨p, hp, ?_⟩
  rw [← hq]
  exact (PercentDecode.decode_infix hpercentQ hplusQ hseam).map Char.toLower

/-! ## The URI scan -/

/-- The inspection answers with a block. -/
def Blocks (ctx : Waf.Context) (uri authHeader userAgent body clientIp : String) (shm : Shm) : Prop :=
  ∃ status reason, (inspect ctx uri authHeader userAgent body clientIp shm).2 = .block status reason

/-- Something other than the URI scan blocks the request. -/
def GuardBlocks (ctx : Waf.Context) (uri authHeader userAgent body clientIp : String) (shm : Shm) : Prop :=
  maxUriLen < uri.utf8ByteSize ∨ maxAuthHeaderLen < authHeader.utf8ByteSize ∨
    (body ≠ "" ∧ matchesAny injectionPatterns (truncateOnCharBoundary body.toList maxBodyScanLen) = true) ∨
    matchesAny botPatterns (truncateOnCharBoundary userAgent.toList maxUaLen) = true ∨
    authHeader = "" ∧ clientIp ≠ "" ∧ (ipRateExceeded ctx clientIp shm).2 = true

/-- A request is blocked exactly when the last pass over its URI shows an entry, or for something else. -/
theorem blocks_iff (ctx : Waf.Context) (uri authHeader userAgent body clientIp : String) (shm : Shm) :
    Blocks ctx uri authHeader userAgent body clientIp shm ↔
      Malicious (urlDecodeRecursive uri.toList) ∨
        GuardBlocks ctx uri authHeader userAgent body clientIp shm := by
  unfold Malicious Blocks GuardBlocks inspect blocked
  by_cases huri : maxUriLen < uri.utf8ByteSize
  · simp [huri]
  rw [if_neg huri]
  by_cases hauth : maxAuthHeaderLen < authHeader.utf8ByteSize
  · simp [hauth]
  rw [if_neg hauth]
  by_cases hscan : matchesAny injectionPatterns (urlDecodeRecursive uri.toList) = true
  · simp [hscan]
  rw [if_neg hscan]
  by_cases hbody : body ≠ "" ∧
      matchesAny injectionPatterns (truncateOnCharBoundary body.toList maxBodyScanLen) = true
  · simp [hbody]
  rw [if_neg hbody]
  by_cases hbot : matchesAny botPatterns (truncateOnCharBoundary userAgent.toList maxUaLen) = true
  · simp [hbot]
  rw [if_neg hbot]
  by_cases hanon : authHeader = "" ∧ clientIp ≠ ""
  · rw [if_pos hanon]
    rcases hip : ipRateExceeded ctx clientIp shm with ⟨shm', answer⟩
    cases answer with
    | true => simp [hanon]
    | false => simp [huri, hauth, hscan, hbody, hbot]
  · rw [if_neg hanon]
    have hlimited : ¬ (authHeader = "" ∧ clientIp ≠ "" ∧ (ipRateExceeded ctx clientIp shm).2 = true) :=
      fun h => hanon ⟨h.1, h.2.1⟩
    simp [huri, hauth, hscan, hbody, hbot, hlimited]

/-! ## Three passes -/

/-- At every depth that is decoded further both decoders read the text alike. -/
def DecodedAlike (uri : String) : Prop :=
  ∀ depth < maxDecodePasses, escapesPlain (decode^[depth] uri.toList) = true

/-- An entry occurs in the URI or in one of its three standard decodings. -/
def Encodes (uri : String) : Prop := ∃ depth ≤ maxDecodePasses, Malicious (decode^[depth] uri.toList)

theorem iterate_eq_of_alike {n : Nat} {text : List Char}
    (h : ∀ depth < n, escapesPlain (decode^[depth] text) = true) : urlDecode^[n] text = decode^[n] text := by
  induction n with
  | zero => rfl
  | succ n ih =>
      rw [Function.iterate_succ_apply', Function.iterate_succ_apply', ih fun depth hd => h depth (by omega)]
      exact (urlDecode_eq_decode_iff _).2 (h n n.lt_succ_self)

/-- On these URIs, and on no others, the passes of the source are those of the standard decoder. -/
theorem decodedAlike_iff (uri : String) :
    DecodedAlike uri ↔ ∀ n ≤ maxDecodePasses, urlDecode^[n] uri.toList = decode^[n] uri.toList := by
  constructor
  · intro h n hn
    exact iterate_eq_of_alike fun depth hd => h depth (Nat.lt_of_lt_of_le hd hn)
  · intro h depth hd
    have hnext := h (depth + 1) hd
    rw [Function.iterate_succ_apply', Function.iterate_succ_apply', h depth hd.le] at hnext
    exact (urlDecode_eq_decode_iff _).1 hnext

/-- From the depth it occurs at an entry is carried to the last one, if no escape runs into an entry. -/
theorem malicious_last {uri : String}
    (hintact : ∀ depth < maxDecodePasses, EntriesIntact (decode^[depth] uri.toList)) {depth : Nat}
    (hentry : Malicious (decode^[depth] uri.toList)) {n : Nat} (hle : depth ≤ n)
    (hn : n ≤ maxDecodePasses) : Malicious (decode^[n] uri.toList) := by
  induction n, hle using Nat.le_induction with
  | base => exact hentry
  | succ n hle ih =>
      rw [Function.iterate_succ_apply']
      exact malicious_decode (ih (by omega)) (hintact n (by omega))

/-- What the scan is to see of a URI that encodes an entry: the passes read it as the standard decoder does,
and the last one still shows an entry. -/
def Shown (uri : String) : Prop := DecodedAlike uri ∧ Malicious (decode^[maxDecodePasses] uri.toList)

/-- Where the decoders agree, an entry is shown unless an escape runs into one. -/
theorem shown_of_intact {uri : String} (halike : DecodedAlike uri)
    (hintact : ∀ depth < maxDecodePasses, EntriesIntact (decode^[depth] uri.toList)) (hentry : Encodes uri) :
    Shown uri := by
  rcases hentry with ⟨depth, hdepth, hmalicious⟩
  exact ⟨halike, malicious_last hintact hmalicious hdepth le_rfl⟩

/-- An entry in the URI or in one of its three standard decodings is blocked if the URI shows it to the scan,
or something else blocks the request; and of the URIs that both decoders read alike no other one is. -/
theorem encoded_entry_blocked (ctx : Waf.Context) (uri authHeader userAgent body clientIp : String)
    (shm : Shm) :
    ((Encodes uri → Shown uri ∨ GuardBlocks ctx uri authHeader userAgent body clientIp shm) →
        Encodes uri → Blocks ctx uri authHeader userAgent body clientIp shm) ∧
      (DecodedAlike uri →
        ((Encodes uri → Blocks ctx uri authHeader userAgent body clientIp shm) ↔
          (Encodes uri → Shown uri ∨ GuardBlocks ctx uri authHeader userAgent body clientIp shm))) := by
  have hscan : DecodedAlike uri →
      urlDecodeRecursive uri.toList = decode^[maxDecodePasses] uri.toList := by
    intro halike
    rw [urlDecodeRecursive_eq]
    exact iterate_eq_of_alike halike
  constructor
  · intro hshown hentry
    rw [blocks_iff]
    refine (hshown hentry).imp_left fun h => ?_
    rw [hscan h.1]
    exact h.2
  · intro halike
    refine forall_congr' fun _ => ?_
    rw [blocks_iff, hscan halike]
    exact or_congr_left ⟨fun h => ⟨halike, h⟩, fun h => h.2⟩

def sampleContext : Waf.Context where
  fxHash := fun _ => 0
  env := fun _ => none
  now := 1700000000
  posture := Sentinel.l0Normal

def sampleShm : Shm := { blocks := 0, ip := fun _ => 0 }

/-- An entry that was encoded twice is found, and so is one behind two stray `%`. -/
theorem double_encoding_blocked :
    Blocks sampleContext "/%253Cscript" "" "" "" "" sampleShm ∧
      Blocks sampleContext "/%%/etc/passwd" "" "" "" "" sampleShm := by
  have hblocked : ∀ uri : String, Encodes uri → DecodedAlike uri →
      (∀ depth < maxDecodePasses, EntriesIntact (decode^[depth] uri.toList)) →
      Blocks sampleContext uri "" "" "" "" sampleShm := fun uri hentry halike hintact =>
    (encoded_entry_blocked _ _ _ _ _ _ _).1 (fun h => Or.inl (shown_of_intact halike hintact h)) hentry
  constructor
  · refine hblocked _ ⟨2, by decide, by decide⟩ (fun depth hdepth => ?_) (fun depth hdepth => ?_)
    all_goals unfold maxDecodePasses at hdepth
    · interval_cases depth <;> decide +kernel
    · interval_cases depth <;> exact entriesIntact_of_absent (by decide +kernel)
  · refine hblocked _ ⟨0, by decide, by decide⟩ (fun depth hdepth => ?_) (fun depth hdepth => ?_)
    all_goals unfold maxDecodePasses at hdepth
    · interval_cases depth <;> decide +kernel
    · interval_cases depth <;> exact entriesIntact_of_absent (by decide +kernel)

/-- A stray `%` hides the escape behind it from the source's decoder, and an escape that runs into
an entry destroys it before the scan: both URIs are let through. -/
theorem stray_percent_and_cut_entry_pass :
    (Malicious (decode "/%%3cscript".toList) ∧
      ¬ Blocks sampleContext "/%%3cscript" "" "" "" "" sampleShm) ∧
    (Malicious "/%4exec(".toList ∧ ¬ Blocks sampleContext "/%4exec(" "" "" "" "" sampleShm) := by
  have hstray : (inspect sampleContext "/%%3cscript" "" "" "" "" sampleShm).2 = .allow := by
    decide +kernel
  have hcut : (inspect sampleContext "/%4exec(" "" "" "" "" sampleShm).2 = .allow := by
    decide +kernel
  refine ⟨⟨by decide, ?_⟩, by decide, ?_⟩
  · rintro ⟨status, reason, hblock⟩
    rw [hstray] at hblock
    cases hblock
  · rintro ⟨status, reason, hblock⟩
    rw [hcut] at hblock
    cases hblock

end UriInspection
end GatewayEdge
