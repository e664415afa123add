import Mathlib.Algebra.BigOperators.Fin
import Mathlib.Data.List.Induction

/-!
# TimeRing — a ring of buckets indexed by time

An entry of time `t` goes into slot `t % n` of a ring of `n` buckets.  A bucket bears the time of its
entries; one that bears another time is cleared by the first entry that comes to it, and until then it
keeps what it has.

Nothing here knows what a bucket holds.  A `Scheme` says how a bucket takes an entry, a `Reading` is a
number read off a bucket to which each entry adds its weight.  Where the times of the entries do not go
back, `Reading.sum_fill` says which entries a sum over the buckets of some times consists of: those of the
newest time of their slot.
-/

namespace GatewayEdge
namespace Foundation
namespace TimeRing

variable {β ρ : Type*}

structure Scheme (β ρ : Type*) where
  time : ρ → ℕ
  stamp : β → ℕ
  put : ρ → β → β
  /-- What every bucket of a ring satisfies. -/
  Valid : β → Prop
  valid_put : ∀ r b, Valid b → Valid (put r b)
  stamp_put : ∀ r b, stamp (put r b) = time r

structure Reading (S : Scheme β ρ) where
  value : β → ℕ
  weight : ρ → ℕ
  value_fresh : ∀ r b, S.stamp b ≠ S.time r → value (S.put r b) = weight r
  value_again : ∀ r b, S.Valid b → S.stamp b = S.time r → value (S.put r b) = value b + weight r

namespace Scheme

def insert (S : Scheme β ρ) (ring : List β) (r : ρ) : List β :=
  ring.modify (S.time r % ring.length) (S.put r)

/-- A ring of `n` blank buckets after these entries. -/
def fill (S : Scheme β ρ) (n : ℕ) (blank : β) (rs : List ρ) : List β :=
  rs.foldl S.insert (List.replicate n blank)

/-- No entry of the same slot is newer. -/
def Newest (S : Scheme β ρ) (n : ℕ) (rs : List ρ) (r : ρ) : Prop :=
  ∀ r' ∈ rs, S.time r' % n = S.time r % n → S.time r' ≤ S.time r

instance (S : Scheme β ρ) (n : ℕ) (rs : List ρ) (r : ρ) : Decidable (S.Newest n rs r) :=
  inferInstanceAs (Decidable (∀ r' ∈ rs, _ → _))

end Scheme

/-- The weight of a list of entries. -/
def Reading.weigh {S : Scheme β ρ} (R : Reading S) (rs : List ρ) : ℕ := (rs.map R.weight).sum

variable {S : Scheme β ρ} {R : Reading S} {n : ℕ} {blank b : β} {r : ρ} {rs : List ρ}

/-! ## Weights -/

@[simp] theorem Reading.weigh_nil (R : Reading S) : R.weigh [] = 0 := rfl

@[simp] theorem Reading.weigh_cons (R : Reading S) (r : ρ) (rs : List ρ) :
    R.weigh (r :: rs) = R.weight r + R.weigh rs := by simp [Reading.weigh]

@[simp] theorem Reading.weigh_append (R : Reading S) (rs rs' : List ρ) :
    R.weigh (rs ++ rs') = R.weigh rs + R.weigh rs' := by simp [Reading.weigh]

/-- Where each entry weighs one or nothing, the weight is a count. -/
theorem Reading.weigh_eq_countP {p : ρ → Bool} (h : ∀ r, R.weight r = if p r then 1 else 0)
    (rs : List ρ) : R.weigh rs = rs.countP p := by
  induction rs with
  | nil => rfl
  | cons r rs ih => rw [Reading.weigh_cons, List.countP_cons, ih, h, Nat.add_comm]

/-- The entries of a list, slot by slot. -/
theorem Reading.weigh_slots (R : Reading S) (hn : 0 < n) (rs : List ρ) :
    ∑ i : Fin n, R.weigh (rs.filter fun r => S.time r % n = i) = R.weigh rs := by
  induction rs with
  | nil => simp
  | cons r rs ih =>
      -- A further entry weighs in the slot it falls into and in no other.
      have hslot : ∀ i : Fin n, R.weigh ((r :: rs).filter fun r => S.time r % n = i) =
          (if i = ⟨S.time r % n, Nat.mod_lt _ hn⟩ then R.weight r else 0) +
            R.weigh (rs.filter fun r => S.time r % n = i) := by
        intro i
        by_cases hi : S.time r % n = i
        · have heq : i = ⟨S.time r % n, Nat.mod_lt _ hn⟩ := Fin.ext hi.symm
          rw [List.filter_cons_of_pos (by simpa using hi), if_pos heq, Reading.weigh_cons]
        · have hne : i ≠ ⟨S.time r % n, Nat.mod_lt _ hn⟩ := fun heq => hi (congrArg Fin.val heq).symm
          rw [List.filter_cons_of_neg (by simpa using hi), if_neg hne, Nat.zero_add]
      calc
        ∑ i : Fin n, R.weigh ((r :: rs).filter fun r => S.time r % n = i)
            = ∑ i : Fin n, ((if i = ⟨S.time r % n, Nat.mod_lt _ hn⟩ then R.weight r else 0) +
                R.weigh (rs.filter fun r => S.time r % n = i)) :=
              Finset.sum_congr rfl fun i _ => hslot i
        _ = R.weight r + R.weigh rs := by simp [Finset.sum_add_distrib, ih]
        _ = R.weigh (r :: rs) := (Reading.weigh_cons R r rs).symm

/-! ## What a slot keeps -/

/-- Slot `i` holds the entries of its newest time, and nothing else. -/
structure Keeps (R : Reading S) (n i : ℕ) (rs : List ρ) (b : β) : Prop where
  valid : S.Valid b
  value : R.value b = R.weigh (rs.filter fun r => S.time r % n = i ∧ S.time r = S.stamp b)
  newest : ∀ r ∈ rs, S.time r % n = i → S.time r ≤ S.stamp b
  stamped : (∃ r ∈ rs, S.time r % n = i) → ∃ r ∈ rs, S.time r % n = i ∧ S.time r = S.stamp b

theorem keeps_blank (hvalid : S.Valid blank) (hzero : R.value blank = 0) (n i : ℕ) :
    Keeps R n i [] blank := by
  refine ⟨hvalid, hzero, ?_, ?_⟩
  · intro r hr
    cases hr
  · rintro ⟨r, hr, -⟩
    cases hr

/-- An entry of another slot changes nothing. -/
theorem Keeps.skip {i : ℕ} (h : Keeps R n i rs b) (hslot : S.time r % n ≠ i) :
    Keeps R n i (rs ++ [r]) b := by
  refine ⟨h.valid, ?_, ?_, ?_⟩
  · have hnone : [r].filter (fun r => S.time r % n = i ∧ S.time r = S.stamp b) = [] := by
      simp [hslot]
    rw [List.filter_append, hnone, List.append_nil]
    exact h.value
  · intro r' hr' hi
    rcases List.mem_append.1 hr' with hr' | hr'
    · exact h.newest r' hr' hi
    · exact absurd (List.mem_singleton.1 hr' ▸ hi) hslot
  · rintro ⟨r', hr', hi⟩
    rcases List.mem_append.1 hr' with hr' | hr'
    · rcases h.stamped ⟨r', hr', hi⟩ with ⟨r'', hr'', hstamp⟩
      exact ⟨r'', List.mem_append_left _ hr'', hstamp⟩
    · exact absurd (List.mem_singleton.1 hr' ▸ hi) hslot

/-- An entry of this slot joins the others of its time, or replaces what is older. -/
theorem Keeps.put {i : ℕ} (h : Keeps R n i rs b) (hslot : S.time r % n = i)
    (hlast : ∀ r' ∈ rs, S.time r' ≤ S.time r) : Keeps R n i (rs ++ [r]) (S.put r b) := by
  have hstamp := S.stamp_put r b
  have hself : [r].filter (fun r' => S.time r' % n = i ∧ S.time r' = S.stamp (S.put r b)) = [r] := by
    simp [hslot, hstamp]
  refine ⟨S.valid_put r b h.valid, ?_, ?_, ?_⟩
  · rw [List.filter_append, hself, Reading.weigh_append, Reading.weigh_cons, Reading.weigh_nil,
      Nat.add_zero]
    by_cases hsame : S.stamp b = S.time r
    · rw [R.value_again r b h.valid hsame, h.value, hstamp, hsame]
    · have hnone : rs.filter (fun r' => S.time r' % n = i ∧ S.time r' = S.stamp (S.put r b)) = [] := by
        rw [hstamp]
        apply List.filter_eq_nil_iff.2
        intro r' hr' hmem
        rcases of_decide_eq_true hmem with ⟨hi, htime⟩
        -- Such an entry would have stamped the bucket with this very time.
        rcases h.stamped ⟨r', hr', hi⟩ with ⟨r'', hr'', -, hstamp''⟩
        exact hsame (Nat.le_antisymm (hstamp'' ▸ hlast r'' hr'') (htime ▸ h.newest r' hr' hi))
      rw [R.value_fresh r b hsame, hnone, Reading.weigh_nil, Nat.zero_add]
  · intro r' hr' _
    rw [hstamp]
    rcases List.mem_append.1 hr' with hr' | hr'
    · exact hlast r' hr'
    · exact le_of_eq (congrArg S.time (List.mem_singleton.1 hr'))
  · intro _
    exact ⟨r, List.mem_append_right _ List.mem_cons_self, hslot, hstamp.symm⟩

/-- The entries that a slot keeps are the newest ones of the slot. -/
theorem Keeps.newest_iff {i : ℕ} (h : Keeps R n i rs b) (hr : r ∈ rs) (hslot : S.time r % n = i) :
    S.time r = S.stamp b ↔ S.Newest n rs r := by
  constructor
  · intro hstamp r' hr' hsame
    rw [hstamp]
    exact h.newest r' hr' (hsame.trans hslot)
  · intro hnewest
    rcases h.stamped ⟨r, hr, hslot⟩ with ⟨r', hr', hi, hstamp⟩
    have hle := hnewest r' hr' (hi.trans hslot.symm)
    exact Nat.le_antisymm (h.newest r hr hslot) (hstamp ▸ hle)

/-! ## The ring -/

theorem Scheme.fill_append (S : Scheme β ρ) (n : ℕ) (blank : β) (rs : List ρ) (r : ρ) :
    S.fill n blank (rs ++ [r]) = S.insert (S.fill n blank rs) r := by
  simp [Scheme.fill]

theorem Scheme.length_fill (S : Scheme β ρ) (n : ℕ) (blank : β) (rs : List ρ) :
    (S.fill n blank rs).length = n := by
  induction rs using List.reverseRecOn with
  | nil => simp [Scheme.fill]
  | append_singleton rs r ih => simpa [Scheme.fill_append, Scheme.insert] using ih

theorem keeps_fill (hvalid : S.Valid blank) (hzero : R.value blank = 0)
    (hsorted : rs.Pairwise fun r r' => S.time r ≤ S.time r') (i : ℕ)
    (hi : i < (S.fill n blank rs).length) : Keeps R n i rs (S.fill n blank rs)[i] := by
  -- From the end of the list: the last entry is as new as any before it.
  induction rs using List.reverseRecOn with
  | nil =>
      have hblank : (S.fill n blank [])[i] = blank := by simp [Scheme.fill]
      rw [hblank]
      exact keeps_blank hvalid hzero n i
  | append_singleton rs r ih =>
      rcases List.pairwise_append.1 hsorted with ⟨hrest, -, hlast⟩
      have hlength := S.length_fill n blank rs
      have hi' : i < (S.fill n blank rs).length := by
        rw [hlength]
        rwa [S.length_fill] at hi
      have hold := ih hrest hi'
      have hslot : (S.fill n blank (rs ++ [r]))[i] =
          if S.time r % n = i then S.put r (S.fill n blank rs)[i] else (S.fill n blank rs)[i] := by
        simp only [S.fill_append, Scheme.insert, hlength, List.getElem_modify]
      rw [hslot]
      by_cases htime : S.time r % n = i
      · rw [if_pos htime]
        exact hold.put htime fun r' hr' => hlast r' hr' r List.mem_cons_self
      · rw [if_neg htime]
        exact hold.skip htime

theorem valid_of_mem_fill (hvalid : S.Valid blank) (hb : b ∈ S.fill n blank rs) : S.Valid b := by
  induction rs using List.reverseRecOn generalizing b with
  | nil => exact List.eq_of_mem_replicate hb ▸ hvalid
  | append_singleton rs r ih =>
      rw [S.fill_append] at hb
      rcases List.getElem_of_mem hb with ⟨i, hi, rfl⟩
      simp only [Scheme.insert, List.getElem_modify]
      split
      · exact S.valid_put r _ (ih (List.getElem_mem _))
      · exact ih (List.getElem_mem _)

/-- A sum over the buckets of some times weighs the entries of these times, as far as each is among the
newest of its slot. -/
theorem Reading.sum_fill (R : Reading S) (hn : 0 < n) (hvalid : S.Valid blank)
    (hzero : R.value blank = 0) (hsorted : rs.Pairwise fun r r' => S.time r ≤ S.time r')
    (live : ℕ → Prop) [DecidablePred live] :
    ((S.fill n blank rs).map fun b => if live (S.stamp b) then R.value b else 0).sum =
      R.weigh (rs.filter fun r => live (S.time r) ∧ S.Newest n rs r) := by
  have hlength := S.length_fill n blank rs
  -- A live bucket holds the newest entries of its slot, and they are live; a stale one holds none.
  have hslot : ∀ (i : ℕ) (hi : i < (S.fill n blank rs).length),
      (if live (S.stamp (S.fill n blank rs)[i]) then R.value (S.fill n blank rs)[i] else 0) =
        R.weigh ((rs.filter fun r => live (S.time r) ∧ S.Newest n rs r).filter
          fun r => S.time r % n = i) := by
    intro i hi
    have hkeeps := keeps_fill (R := R) hvalid hzero hsorted i hi
    rw [List.filter_filter]
    by_cases hlive : live (S.stamp (S.fill n blank rs)[i])
    · rw [if_pos hlive, hkeeps.value]
      apply congrArg R.weigh
      apply List.filter_congr
      intro r hr
      rw [← Bool.decide_and, decide_eq_decide]
      constructor
      · rintro ⟨htime, hstamp⟩
        exact ⟨htime, hstamp ▸ hlive, (hkeeps.newest_iff hr htime).1 hstamp⟩
      · rintro ⟨htime, -, hnewest⟩
        exact ⟨htime, (hkeeps.newest_iff hr htime).2 hnewest⟩
    · have hnone : rs.filter (fun r => decide (S.time r % n = i) &&
          decide (live (S.time r) ∧ S.Newest n rs r)) = [] := by
        apply List.filter_eq_nil_iff.2
        intro r hr hmem
        rw [← Bool.decide_and] at hmem
        rcases of_decide_eq_true hmem with ⟨htime, hlive', hnewest⟩
        exact hlive ((hkeeps.newest_iff hr htime).2 hnewest ▸ hlive')
      rw [if_neg hlive, hnone, Reading.weigh_nil]
  calc
    ((S.fill n blank rs).map fun b => if live (S.stamp b) then R.value b else 0).sum
        = ∑ i : Fin (S.fill n blank rs).length,
            (if live (S.stamp (S.fill n blank rs)[i]) then R.value (S.fill n blank rs)[i] else 0) :=
          (Fin.sum_univ_fun_getElem _ _).symm
    _ = ∑ i : Fin (S.fill n blank rs).length,
          R.weigh ((rs.filter fun r => live (S.time r) ∧ S.Newest n rs r).filter
            fun r => S.time r % n = i) :=
          Finset.sum_congr rfl fun i _ => hslot i i.isLt
    _ = ∑ i : Fin n,
          R.weigh ((rs.filter fun r => live (S.time r) ∧ S.Newest n rs r).filter
            fun r => S.time r % n = i) := by rw [hlength]
    _ = R.weigh (rs.filter fun r => live (S.time r) ∧ S.Newest n rs r) := R.weigh_slots hn _

end TimeRing
end Foundation
end GatewayEdge
