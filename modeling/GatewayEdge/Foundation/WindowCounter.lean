import Mathlib.Data.List.Forall2
import Mathlib.Data.List.Count
import Mathlib.Data.Nat.Bitwise

/-!
# WindowCounter — a fixed-window counter packed in one 64-bit word

The high half of the word is the window the counter belongs to (a 32-bit time stamp), the low
half how often it was hit in that window.  A hit in another window starts the count again at one;
a hit in the same window is refused once the count has reached the limit.

Nothing here knows where the word is stored or who hits it.  The module gives the packing laws,
one inversion lemma for a hit, the two comparisons of runs that overwriting such a word calls for,
`Tighter` (the overwritten counter admits no more) and `Looser` (it admits no less), the
invariant `WithinBudget` of hits whose times never go back, and the log a word `Vouches` for.
-/

namespace GatewayEdge
namespace Foundation
namespace WindowCounter

/-! ## Packing -/

/-- `((window as u64) << 32) | count as u64`. -/
def pack (window count : Nat) : Nat := (window <<< 32) ||| count

/-- `(word >> 32) as u32`. -/
def window (word : Nat) : Nat := (word >>> 32) % 2 ^ 32

/-- `(word & 0xFFFF_FFFF) as u32`. -/
def count (word : Nat) : Nat := word &&& 0xFFFFFFFF

theorem pack_eq {w c : Nat} (hc : c < 2 ^ 32) : pack w c = w * 2 ^ 32 + c := by
  rw [pack, ← Nat.shiftLeft_add_eq_or_of_lt hc, Nat.shiftLeft_eq]

theorem count_eq (word : Nat) : count word = word % 2 ^ 32 :=
  Nat.and_two_pow_sub_one_eq_mod word 32

theorem window_eq (word : Nat) : window word = word / 2 ^ 32 % 2 ^ 32 := by
  rw [window, Nat.shiftRight_eq_div_pow]

@[simp] theorem window_pack {w c : Nat} (hw : w < 2 ^ 32) (hc : c < 2 ^ 32) :
    window (pack w c) = w := by
  rw [window_eq, pack_eq hc]
  omega

@[simp] theorem count_pack {w c : Nat} (hc : c < 2 ^ 32) : count (pack w c) = c := by
  rw [count_eq, pack_eq hc]
  omega

theorem window_lt (word : Nat) : window word < 2 ^ 32 := Nat.mod_lt _ (by decide)

/-! ## One hit -/

/-- The word a hit in window `now` leaves behind, `none` when the limit refuses it. -/
def bump (limit now word : Nat) : Option Nat :=
  if window word ≠ now then some (pack now 1)
  else if limit ≤ count word then none
  else some (pack now (count word + 1))

/-- Everything a hit can do. -/
theorem bump_cases (limit now word : Nat) :
    (window word ≠ now ∧ bump limit now word = some (pack now 1)) ∨
      (window word = now ∧ limit ≤ count word ∧ bump limit now word = none) ∨
      (window word = now ∧ count word < limit ∧
        bump limit now word = some (pack now (count word + 1))) := by
  unfold bump
  by_cases hw : window word = now
  · by_cases hc : limit ≤ count word
    · exact Or.inr (Or.inl ⟨hw, hc, by simp [hw, hc]⟩)
    · exact Or.inr (Or.inr ⟨hw, by omega, by simp [hw, hc]⟩)
  · exact Or.inl ⟨hw, by simp [hw]⟩

/-- A hit that is let through leaves a word of its own window, which has counted it and is within
the limit unless it opened the window. -/
theorem bump_eq_some {limit now word word' : Nat} (hnow : now < 2 ^ 32) (hlimit : limit < 2 ^ 32)
    (h : bump limit now word = some word') :
    window word' = now ∧
      ((window word ≠ now ∧ count word' = 1) ∨
        (window word = now ∧ count word < limit ∧ count word' = count word + 1)) := by
  rcases bump_cases limit now word with ⟨hw, hb⟩ | ⟨_, _, hb⟩ | ⟨hw, hc, hb⟩
  · have hword : word' = pack now 1 := by simpa [hb] using h.symm
    subst hword
    exact ⟨window_pack hnow (by decide), Or.inl ⟨hw, count_pack (by decide)⟩⟩
  · simp [hb] at h
  · have hword : word' = pack now (count word + 1) := by simpa [hb] using h.symm
    have hlt : count word + 1 < 2 ^ 32 := by omega
    subst hword
    exact ⟨window_pack hnow hlt, Or.inr ⟨hw, hc, count_pack hlt⟩⟩

/-- One hit taken as an atomic step: the word afterwards and whether it was let through. -/
def hit (limit now word : Nat) : Nat × Bool :=
  match bump limit now word with
  | some word' => (word', true)
  | none => (word, false)

/-- The answers to a sequence of hits at the given times. -/
def hits (limit : Nat) : Nat → List Nat → List Bool
  | _, [] => []
  | word, t :: ts => (hit limit t word).2 :: hits limit (hit limit t word).1 ts

/-- `hit`, case by case. -/
theorem hit_cases (limit now word : Nat) :
    (window word ≠ now ∧ hit limit now word = (pack now 1, true)) ∨
      (window word = now ∧ limit ≤ count word ∧ hit limit now word = (word, false)) ∨
      (window word = now ∧ count word < limit ∧
        hit limit now word = (pack now (count word + 1), true)) := by
  rcases bump_cases limit now word with ⟨hw, hb⟩ | ⟨hw, hc, hb⟩ | ⟨hw, hc, hb⟩
  · exact Or.inl ⟨hw, by simp [hit, hb]⟩
  · exact Or.inr (Or.inl ⟨hw, hc, by simp [hit, hb]⟩)
  · exact Or.inr (Or.inr ⟨hw, hc, by simp [hit, hb]⟩)

/-! ## Comparing two counters -/

/-- From `now` on the counter `tight` lets through at most what `loose` does: the two agree, or
`tight` is spent and `loose` is of the same window, of one that is over, or has counted nothing. -/
def Tighter (limit now tight loose : Nat) : Prop :=
  tight = loose ∨
    (limit ≤ count tight ∧
      (window tight = window loose ∨ window loose < now ∨ (count loose = 0 ∧ 0 < limit)))

theorem Tighter.later {limit now now' tight loose : Nat} (h : Tighter limit now tight loose)
    (hle : now ≤ now') : Tighter limit now' tight loose := by
  rcases h with h | ⟨hspent, h | h | h⟩
  · exact Or.inl h
  · exact Or.inr ⟨hspent, Or.inl h⟩
  · exact Or.inr ⟨hspent, Or.inr (Or.inl (by omega))⟩
  · exact Or.inr ⟨hspent, Or.inr (Or.inr h)⟩

/-- One hit on both counters: the tighter one is let through only if the other is. -/
theorem Tighter.hit {limit now tight loose : Nat} (hnow : now < 2 ^ 32) (hlimit : limit < 2 ^ 32)
    (h : Tighter limit now tight loose) :
    ((hit limit now tight).2 = true → (hit limit now loose).2 = true) ∧
      Tighter limit now (hit limit now tight).1 (hit limit now loose).1 := by
  rcases h with rfl | ⟨hspent, hrel⟩
  · exact ⟨id, Or.inl rfl⟩
  rcases hit_cases limit now tight with ⟨hw, ht⟩ | ⟨hw, -, ht⟩ | ⟨hw, hc, ht⟩
  · -- `tight` opens the window `now`; `loose` must open it too, or have counted nothing in it.
    rcases hit_cases limit now loose with ⟨_, hl⟩ | ⟨hwl, hcl, hl⟩ | ⟨hwl, hcl, hl⟩
    · rw [ht, hl]
      exact ⟨fun _ => rfl, Or.inl rfl⟩
    · omega
    · have hzero : count loose = 0 := by omega
      rw [ht, hl, hzero]
      exact ⟨fun _ => rfl, Or.inl rfl⟩
  · -- `tight` refuses and stays as it is; whatever `loose` does, it is of window `now` afterwards
    -- or `tight` was spent in the very same window.
    rw [ht]
    refine ⟨fun hfalse => by simp at hfalse, ?_⟩
    rcases hit_cases limit now loose with ⟨_, hl⟩ | ⟨_, _, hl⟩ | ⟨_, hcl, hl⟩
    · rw [hl]
      exact Or.inr ⟨hspent, Or.inl (by simp [hw, window_pack hnow])⟩
    · rw [hl]
      exact Or.inr ⟨hspent, hrel⟩
    · rw [hl]
      have hlt : count loose + 1 < 2 ^ 32 := by omega
      exact Or.inr ⟨hspent, Or.inl (by simp [hw, window_pack hnow hlt])⟩
  · omega

/-- The whole-run form: every hit the tighter counter lets through, the other lets through. -/
theorem Tighter.hits {limit : Nat} (hlimit : limit < 2 ^ 32) {times : List Nat} :
    ∀ {now tight loose : Nat}, Tighter limit now tight loose →
      (∀ t ∈ times, now ≤ t ∧ t < 2 ^ 32) → times.Pairwise (· ≤ ·) →
      List.Forall₂ (fun a b => a = true → b = true)
        (hits limit tight times) (hits limit loose times) := by
  induction times with
  | nil =>
      intro now tight loose _ _ _
      exact List.Forall₂.nil
  | cons t ts ih =>
      intro now tight loose h hbound hsorted
      have ht := hbound t (by simp)
      have hstep := (h.later ht.1).hit ht.2 hlimit
      have hsorted' := List.pairwise_cons.1 hsorted
      refine List.Forall₂.cons hstep.1 (ih hstep.2 ?_ hsorted'.2)
      intro u hu
      exact ⟨hsorted'.1 u hu, (hbound u (by simp [hu])).2⟩

/-- At `now` and in later windows the counter `loose` lets through at least what `strict` does: if
`loose` is of such a window then `strict` is too, and has counted no less there or is spent. -/
def Looser (limit now loose strict : Nat) : Prop :=
  now ≤ window loose →
    window strict = window loose ∧ (count loose ≤ count strict ∨ limit ≤ count strict)

theorem Looser.later {limit now now' loose strict : Nat} (h : Looser limit now loose strict)
    (hle : now ≤ now') : Looser limit now' loose strict :=
  fun hw => h (le_trans hle hw)

/-- One hit on both counters: the looser one is let through whenever the other is. -/
theorem Looser.hit {limit now loose strict : Nat} (hnow : now < 2 ^ 32) (hlimit : limit < 2 ^ 32)
    (h : Looser limit now loose strict) :
    ((hit limit now strict).2 = true → (hit limit now loose).2 = true) ∧
      Looser limit now (hit limit now loose).1 (hit limit now strict).1 := by
  rcases hit_cases limit now loose with ⟨hw, hl⟩ | ⟨hw, hc, hl⟩ | ⟨hw, hc, hl⟩
  · rw [hl]
    refine ⟨fun _ => rfl, fun _ => ?_⟩
    rcases hit_cases limit now strict with ⟨_, hs⟩ | ⟨hws, hcs, hs⟩ | ⟨_, hcs, hs⟩
    · simp [hs, window_pack hnow]
    · simp [hs, hws, hcs, window_pack hnow]
    · have hlt : count strict + 1 < 2 ^ 32 := by omega
      simp [hs, window_pack hnow, window_pack hnow hlt, count_pack hlt]
  · -- `loose` is spent in the window `now`, so `strict` is too.
    have hstrict := h hw.ge
    have hspent : limit ≤ count strict := by omega
    have hs : WindowCounter.hit limit now strict = (strict, false) := by
      rcases hit_cases limit now strict with ⟨hws, _⟩ | ⟨_, _, hs⟩ | ⟨_, hcs, _⟩
      · omega
      · exact hs
      · omega
    rw [hl, hs]
    exact ⟨fun hfalse => by simp at hfalse, fun _ => ⟨hstrict.1, Or.inr hspent⟩⟩
  · -- Both count on in the window `now`; `strict` stays ahead or is spent.
    have hstrict := h hw.ge
    rw [hl]
    refine ⟨fun _ => rfl, fun _ => ?_⟩
    have hlt : count loose + 1 < 2 ^ 32 := by omega
    rcases hit_cases limit now strict with ⟨hws, _⟩ | ⟨_, hcs, hs⟩ | ⟨_, hcs, hs⟩
    · omega
    · simp [hs, hstrict.1, hw, hcs, window_pack hnow hlt]
    · have hlt' : count strict + 1 < 2 ^ 32 := by omega
      simp [hs, window_pack hnow hlt, window_pack hnow hlt', count_pack hlt, count_pack hlt']
      omega

/-! ## How many hits one window lets through -/

/-- In its own window a counter lets through what the limit leaves; in another one, the limit. -/
theorem count_hits_replicate {limit now : Nat} (hnow : now < 2 ^ 32) (hlimit : limit < 2 ^ 32)
    (hpos : 0 < limit) (n word : Nat) :
    (hits limit word (List.replicate n now)).count true =
      min n (if window word = now then limit - count word else limit) := by
  induction n generalizing word with
  | zero => simp [hits]
  | succ n ih =>
      rw [List.replicate_succ, hits, List.count_cons]
      rcases hit_cases limit now word with ⟨hw, hb⟩ | ⟨hw, hc, hb⟩ | ⟨hw, hc, hb⟩
      -- The first hit of the window, a refused one, one within the limit.
      · rw [hb, ih]
        simp [hw, window_pack hnow]
        omega
      · rw [hb, ih]
        simp [hw]
        omega
      · have hlt : count word + 1 < 2 ^ 32 := by omega
        rw [hb, ih]
        simp [hw, window_pack hnow hlt, count_pack hlt]
        omega

/-- Pointwise fewer admissions means fewer admissions altogether. -/
theorem count_true_le_of_forall₂ {as bs : List Bool}
    (h : List.Forall₂ (fun a b => a = true → b = true) as bs) :
    as.count true ≤ bs.count true := by
  induction h with
  | nil => exact le_rfl
  | @cons a b as bs hab _ ih =>
      cases a with
      | false =>
          have hb : bs.count true ≤ (b :: bs).count true := List.count_le_count_cons
          simpa using le_trans ih hb
      | true =>
          have hb : b = true := hab rfl
          subst hb
          simpa using ih

/-! ## Hits at times that never go back -/

/-- `n` of the hits let through so far belong to `second`, and they are within `budget`; `last` is
the time of the last hit or any later one.  In its own second the word itself vouches for them. -/
structure WithinBudget (second budget last n word : Nat) : Prop where
  future : last < second → n = 0
  bounded : n ≤ budget
  counted : last = second → 0 < n → window word = second % 2 ^ 32 ∧ n ≤ count word

namespace WithinBudget

variable {second budget last n word : Nat}

theorem zero (second budget last word : Nat) : WithinBudget second budget last 0 word where
  future := fun _ => rfl
  bounded := Nat.zero_le _
  counted := fun _ h => absurd h (Nat.lt_irrefl 0)

/-- Time may pass. -/
theorem later {now : Nat} (h : WithinBudget second budget last n word) (hle : last ≤ now) :
    WithinBudget second budget now n word where
  future := fun hlt => h.future (by omega)
  bounded := h.bounded
  counted := fun hnow hpos => by
    rcases Nat.lt_or_ge last second with hlt | hge
    · have := h.future hlt
      omega
    · exact h.counted (by omega) hpos

/-- A hit at the current time that is let through, whether or not it is one of those counted. -/
theorem bump {limit word' : Nat} (h : WithinBudget second budget last n word)
    (hlimit : limit < 2 ^ 32)
    (hbump : WindowCounter.bump limit (last % 2 ^ 32) word = some word') :
    WithinBudget second budget last n word' ∧
      (last = second → 1 ≤ budget → limit ≤ budget →
        WithinBudget second budget last (n + 1) word') := by
  rcases bump_eq_some (Nat.mod_lt _ (by decide)) hlimit hbump with ⟨hwindow, hcount⟩
  -- Opening the window means that nothing of this second has been counted yet.
  have hcase : last = second → (n = 0 ∧ count word' = 1) ∨
      (count word < limit ∧ (0 < n → n ≤ count word) ∧ count word' = count word + 1) := by
    intro hlast
    rcases hcount with ⟨hopen, hone⟩ | ⟨hsame, hlt, hsucc⟩
    · refine Or.inl ⟨?_, hone⟩
      by_contra hne
      exact hopen (hlast ▸ (h.counted hlast (by omega)).1)
    · exact Or.inr ⟨hlt, fun hpos => (h.counted hlast hpos).2, hsucc⟩
  constructor
  · exact
      { future := h.future
        bounded := h.bounded
        counted := fun hlast hpos => by
          refine ⟨hlast ▸ hwindow, ?_⟩
          rcases hcase hlast with ⟨hzero, _⟩ | ⟨_, hle, hsucc⟩
          · omega
          · have := hle hpos
            omega }
  · intro hlast hone hle
    exact
      { future := fun hlt => by omega
        bounded := by
          rcases hcase hlast with ⟨hzero, _⟩ | ⟨hlt, hcounted, _⟩
          · omega
          · rcases Nat.eq_zero_or_pos n with hn | hn
            · omega
            · have := hcounted hn
              omega
        counted := fun _ _ => by
          refine ⟨hlast ▸ hwindow, ?_⟩
          rcases hcase hlast with ⟨hzero, hfirst⟩ | ⟨_, hcounted, hsucc⟩
          · omega
          · rcases Nat.eq_zero_or_pos n with hn | hn
            · omega
            · have := hcounted hn
              omega }

end WithinBudget

/-! ## A counter and the log of its hits -/

/-- How many of the latest hits, without a break, belong to the window `now`. -/
def spent (now : Nat) (log : List Nat) : Nat := (log.takeWhile (· = now)).length

/-- The word is what the hits of the log, the latest first, have made of a zero word. -/
structure Vouches (log : List Nat) (word : Nat) : Prop where
  blank : log = [] → word = 0
  counted : ∀ last rest, log = last :: rest → window word = last ∧ count word = spent last log

namespace Vouches

variable {log : List Nat} {limit now word : Nat}

theorem zero : Vouches [] 0 where
  blank := fun _ => rfl
  counted := fun last rest h => by cases h

theorem spent_of_window (h : Vouches log word) (hw : window word = now) :
    spent now log = count word := by
  cases log with
  | nil =>
      rw [h.blank rfl]
      rfl
  | cons last rest =>
      rcases h.counted last rest rfl with ⟨hlast, hcount⟩
      rw [hcount, ← hlast, hw]

theorem spent_of_other_window (h : Vouches log word) (hw : window word ≠ now) :
    spent now log = 0 := by
  cases log with
  | nil => rfl
  | cons last rest =>
      have hlast : last ≠ now := (h.counted last rest rfl).1 ▸ hw
      simp [spent, hlast]

/-- A hit is let through if there is room in its window, and always if it opens the window.  A word that
was never hit is of window zero already. -/
theorem hit_iff (h : Vouches log word) :
    (hit limit now word).2 = true ↔
      spent now log < limit ∨ (spent now log = 0 ∧ (now ≠ 0 ∨ log ≠ [])) := by
  rcases hit_cases limit now word with ⟨hw, hb⟩ | ⟨hw, hc, hb⟩ | ⟨hw, hc, hb⟩
  · rw [hb, h.spent_of_other_window hw]
    refine ⟨fun _ => Or.inr ⟨rfl, ?_⟩, fun _ => rfl⟩
    by_contra hnone
    have hnow : now = 0 := by
      by_contra hne
      exact hnone (Or.inl hne)
    have hlog : log = [] := by
      by_contra hne
      exact hnone (Or.inr hne)
    exact hw (by rw [h.blank hlog, hnow]; rfl)
  · rw [hb, h.spent_of_window hw]
    refine ⟨fun hfalse => (by cases hfalse), ?_⟩
    rintro (hlt | ⟨hzero, hused⟩)
    · omega
    · cases log with
      | nil =>
          have hnow : now = 0 := by rw [← hw, h.blank rfl]; rfl
          rcases hused with hne | hne
          · exact absurd hnow hne
          · exact absurd rfl hne
      | cons last rest =>
          have hlast : last = now := (h.counted last rest rfl).1.symm.trans hw
          have hspent := h.spent_of_window hw
          simp [spent, hlast, hzero] at hspent
  · rw [hb, h.spent_of_window hw]
    exact ⟨fun _ => Or.inl hc, fun _ => rfl⟩

/-- A hit that is let through is logged. -/
theorem hit (hnow : now < 2 ^ 32) (hlimit : limit < 2 ^ 32) (h : Vouches log word) :
    Vouches (if (hit limit now word).2 = true then now :: log else log) (hit limit now word).1 := by
  rcases hit_cases limit now word with ⟨hw, hb⟩ | ⟨hw, hc, hb⟩ | ⟨hw, hc, hb⟩
  · rw [hb, if_pos rfl]
    refine ⟨fun hnil => (by cases hnil), fun last rest hlog => ?_⟩
    have hlast : now = last := (List.cons.inj hlog).1
    have hspent := h.spent_of_other_window hw
    unfold spent at hspent ⊢
    rw [← hlast]
    refine ⟨window_pack hnow (by decide), ?_⟩
    rw [count_pack (by decide), List.takeWhile_cons_of_pos (by simp), List.length_cons, hspent]
  · rw [hb, if_neg Bool.false_ne_true]
    exact h
  · rw [hb, if_pos rfl]
    have hlt : count word + 1 < 2 ^ 32 := by omega
    refine ⟨fun hnil => (by cases hnil), fun last rest hlog => ?_⟩
    have hlast : now = last := (List.cons.inj hlog).1
    have hspent := h.spent_of_window hw
    unfold spent at hspent ⊢
    rw [← hlast]
    refine ⟨window_pack hnow hlt, ?_⟩
    rw [count_pack hlt, List.takeWhile_cons_of_pos (by simp), List.length_cons, hspent]

end Vouches

end WindowCounter
end Foundation
end GatewayEdge
