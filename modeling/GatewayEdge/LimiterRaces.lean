import GatewayEdge.Foundation.Run
import GatewayEdge.RateLimit
import GatewayEdge.Waf

/-!
# LimiterRaces — calls that interleave inside their retry loops

Both local limiters read the clock, load the bucket, and retry a compare-exchange until it succeeds
or the budget is found spent.  Here each of these is a step of its own, of arbitrarily many calls
on one bucket.
-/

namespace GatewayEdge
namespace LimiterRaces

open Foundation
open Foundation.WindowCounter (WithinBudget)

/-! ## The loop, one access at a time -/

/-- Which limiter the calls are of, with its limit or budget. -/
inductive Limiter
  | user (maxRps : Nat)
  | ip (budget : Nat)
  deriving DecidableEq, Repr

namespace Limiter

/-- One pass of the loop of `check_rate_limit` or `ip_rate_exceeded`. -/
def body : Limiter → Nat → Nat → Option Nat
  | user maxRps => RateLimit.checkRateBody maxRps
  | ip budget => Waf.ipRateBody budget

def limit : Limiter → Nat
  | user maxRps => maxRps
  | ip budget => budget

/-- With a limit that fits in 32 bits both loops are hits on a window counter. -/
theorem body_eq_bump {lim : Limiter} (h : lim.limit < 2 ^ 32) (now word : Nat) :
    lim.body now word = WindowCounter.bump lim.limit now word := by
  cases lim with
  | user maxRps =>
      have hmod : maxRps % 2 ^ 32 = maxRps := Nat.mod_eq_of_lt h
      rw [body, limit, RateLimit.checkRateBody_eq, hmod]
  | ip budget => rw [body, limit, Waf.ipRateBody_eq]

end Limiter

/-- A call under way: its clock reading in seconds, and the word it last saw once it has loaded. -/
structure Call where
  reading : Nat
  current : Option Nat
  deriving DecidableEq, Repr

/-- The clock, the bucket, the calls under way, and the readings of the calls admitted so far. -/
structure State where
  clock : Nat
  word : Nat
  calls : List Call
  admitted : List Nat
  deriving DecidableEq, Repr

/-- `begin` reads the clock; an attempt may fail although the word is the expected one. -/
inductive Event
  | tick (clock : Nat)
  | begin
  | load (index : Nat)
  | attempt (index : Nat) (spurious : Bool)
  deriving DecidableEq, Repr

def step (lim : Limiter) (s : State) : Event → Option State
  | .tick clock => if s.clock ≤ clock then some { s with clock := clock } else none
  | .begin => some { s with calls := s.calls ++ [{ reading := s.clock, current := none }] }
  | .load index =>
    match s.calls[index]? with
    | some { reading, current := none } =>
      some { s with calls := s.calls.set index { reading := reading, current := some s.word } }
    | _ => none
  | .attempt index spurious =>
    match s.calls[index]? with
    | some { reading, current := some current } =>
      match lim.body (reading % 2 ^ 32) current with
      -- `return false`: the call is over and the word stays.
      | none => some { s with calls := s.calls.eraseIdx index }
      | some word =>
        if s.word = current ∧ spurious = false then
          some { s with
            word := word
            calls := s.calls.eraseIdx index
            admitted := reading :: s.admitted }
        else
          -- A failed exchange hands the call the word as it is now.
          some { s with calls := s.calls.set index { reading := reading, current := some s.word } }
    | _ => none

def start (clock word : Nat) : State :=
  { clock := clock, word := word, calls := [], admitted := [] }

/-- The calls that read this second and were admitted. -/
def admissions (second : Nat) (s : State) : Nat := s.admitted.count second

/-- A compare-exchange that succeeds is not overtaken: no call with a later reading has been
admitted before. -/
def InOrder (lim : Limiter) (s : State) : Event → Prop
  | .attempt index false => ∀ reading, s.calls[index]? = some ⟨reading, some s.word⟩ →
      (lim.body (reading % 2 ^ 32) s.word).isSome = true → ∀ r ∈ s.admitted, r ≤ reading
  | _ => True

/-! ## What a step does to the bucket -/

/-- A step admits one call with one hit on the word, or leaves word and admissions alone. -/
theorem step_cases {lim : Limiter} {s s' : State} {e : Event} (hs : step lim s e = some s') :
    (s'.word = s.word ∧ s'.admitted = s.admitted) ∨
      ∃ index reading word, e = .attempt index false ∧
        s.calls[index]? = some ⟨reading, some s.word⟩ ∧
        lim.body (reading % 2 ^ 32) s.word = some word ∧ s'.word = word ∧
        s'.admitted = reading :: s.admitted := by
  cases e with
  | tick clock =>
      unfold step at hs
      dsimp only at hs
      split at hs
      · cases hs
        exact Or.inl ⟨rfl, rfl⟩
      · cases hs
  | begin =>
      cases hs
      exact Or.inl ⟨rfl, rfl⟩
  | load index =>
      unfold step at hs
      dsimp only at hs
      split at hs
      · cases hs
        exact Or.inl ⟨rfl, rfl⟩
      · cases hs
  | attempt index spurious =>
      unfold step at hs
      dsimp only at hs
      split at hs
      · rename_i reading current hcall
        split at hs
        · cases hs
          exact Or.inl ⟨rfl, rfl⟩
        · rename_i word hbody
          split at hs
          · rename_i hsucceeds
            -- The word the call saw is the word of the state, so the pass is a hit on the latter.
            rcases hsucceeds with ⟨rfl, rfl⟩
            cases hs
            exact Or.inr ⟨index, reading, word, rfl, hcall, hbody, rfl, rfl⟩
          · cases hs
            exact Or.inl ⟨rfl, rfl⟩
      · cases hs

/-- The admissions of `second` are within the budget, as of the last admission. -/
def Inv (lim : Limiter) (second : Nat) (s : State) : Prop :=
  ∃ last, (last = 0 ∨ last ∈ s.admitted) ∧
    WithinBudget second lim.limit last (admissions second s) s.word

theorem inv_step {lim : Limiter} (hpos : 1 ≤ lim.limit) (hlimit : lim.limit < 2 ^ 32) {second : Nat}
    (s : State) (e : Event) (s' : State) (h : Inv lim second s) (horder : InOrder lim s e)
    (hs : step lim s e = some s') : Inv lim second s' := by
  rcases h with ⟨last, hlast, hbudget⟩
  rcases step_cases hs with ⟨hword, hadmitted⟩ | ⟨index, reading, word, rfl, hcall, hbody, hword, hadmitted⟩
  · refine ⟨last, hadmitted ▸ hlast, ?_⟩
    unfold admissions
    rw [hword, hadmitted]
    exact hbudget
  · -- The condition makes the readings of admitted calls non-decreasing, as for atomic hits.
    have hle : last ≤ reading := by
      rcases hlast with rfl | hmem
      · exact Nat.zero_le _
      · exact horder reading hcall (by rw [hbody]; rfl) last hmem
    have hbump := hbody
    rw [Limiter.body_eq_bump hlimit] at hbump
    rcases (hbudget.later hle).bump hlimit hbump with ⟨hother, hown⟩
    refine ⟨reading, Or.inr (by simp [hadmitted]), ?_⟩
    unfold admissions at hother hown ⊢
    rw [hword, hadmitted]
    by_cases hsecond : reading = second
    · rw [hsecond, List.count_cons_self]
      rw [hsecond] at hown
      exact hown rfl hpos le_rfl
    · rw [List.count_cons_of_ne hsecond]
      exact hother

/-- In every interleaving in which no successful compare-exchange is overtaken, at most as many
calls of one second are admitted as the limit says. -/
theorem admissions_le_limit (lim : Limiter) (hpos : 1 ≤ lim.limit) (hlimit : lim.limit < 2 ^ 32)
    (clock word : Nat) (es : List Event) (t : State) (second : Nat)
    (hrun : run (step lim) (start clock word) es = some t)
    (horder : Along (step lim) (InOrder lim) (start clock word) es) :
    admissions second t ≤ lim.limit := by
  have hstart : Inv lim second (start clock word) := ⟨0, Or.inl rfl, WithinBudget.zero ..⟩
  rcases invariant_run_along (inv_step hpos hlimit) hstart horder hrun with ⟨last, -, hbudget⟩
  exact hbudget.bounded

/-- Two calls of one second race for a limit of one. -/
def race : List Event :=
  [.begin, .begin, .load 0, .load 1, .attempt 0 false, .attempt 0 false, .attempt 0 false]

/-- Only one of them is admitted. -/
theorem race_within_limit :
    ∃ t, run (step (.user 1)) (start 100 0) race = some t ∧ admissions 100 t ≤ 1 := by
  refine ⟨_, rfl, admissions_le_limit (.user 1) (by decide) (by decide) 100 0 race _ 100 rfl ?_⟩
  refine ⟨trivial, ?_⟩
  rintro _ ⟨⟩
  refine ⟨trivial, ?_⟩
  rintro _ ⟨⟩
  refine ⟨trivial, ?_⟩
  rintro _ ⟨⟩
  refine ⟨trivial, ?_⟩
  rintro _ ⟨⟩
  refine ⟨fun _ _ _ r hr => absurd hr List.not_mem_nil, ?_⟩
  rintro _ ⟨⟩
  -- The other call has seen the bucket empty: its first attempt fails, its second one refuses.
  refine ⟨fun reading hcall => by simp [start] at hcall, ?_⟩
  rintro _ ⟨⟩
  refine ⟨fun reading hcall _ r hr => ?_, fun _ _ => trivial⟩
  have hreading : 100 = reading := congrArg Call.reading (Option.some.inj hcall)
  have hr100 : r = 100 := List.mem_singleton.1 hr
  omega

/-- A call that read second 100 commits after one that read 101, and a third call finds the bucket
of second 101 reset. -/
def overtaken : List Event :=
  [.begin, .tick 101, .begin, .load 1, .attempt 1 false, .load 0, .attempt 0 false,
    .begin, .load 0, .attempt 0 false]

/-- Two admissions of second 101 under a limit of one, for either limiter. -/
theorem late_commit_resets_bucket :
    (∃ t, run (step (.user 1)) (start 100 0) overtaken = some t ∧ ¬ admissions 101 t ≤ 1) ∧
      ∃ t, run (step (.ip 1)) (start 100 0) overtaken = some t ∧ ¬ admissions 101 t ≤ 1 :=
  ⟨⟨_, rfl, by decide⟩, ⟨_, rfl, by decide⟩⟩

end LimiterRaces
end GatewayEdge
