import GatewayEdge.Foundation.Run
import Mathlib.Algebra.Order.Group.Nat
import Mathlib.Data.List.Basic

/-!
# LossyQueue — a bounded queue that drops what does not fit

Producers offer items, which are dropped while the queue is full.  One consumer takes them out in rounds: at
most `limit` items a round, and a round is over only when it has taken that many or found the queue empty.
The consumer numbers the items as it takes them.

Nothing is reordered, and what is taken is numbered without gaps (`Ordered`).  What has been accepted is sent
after enough rounds (`sent_after`).  Nothing is dropped as long as a bucket that leaks `limit` a round does
not fill (`nothing_dropped`).
-/

namespace GatewayEdge
namespace Foundation
namespace LossyQueue

variable {α β : Type*}

/-! ## Items and rounds -/

/-- `accepted` and `offered` are the whole past. -/
structure State (α β : Type*) where
  queue : List α
  batch : List β
  sent : List (List β)
  taken : ℕ
  rounds : ℕ
  accepted : List α
  offered : List α

inductive Event (α : Type*)
  | offer (a : α)
  | take
  | finish
  deriving DecidableEq, Repr

def start : State α β where
  queue := []
  batch := []
  sent := []
  taken := 0
  rounds := 0
  accepted := []
  offered := []

variable (capacity limit : ℕ) (wrap : ℕ → α → β)

def step (s : State α β) : Event α → Option (State α β)
  | .offer a =>
    if s.queue.length < capacity then
      some { s with
        queue := s.queue ++ [a]
        accepted := s.accepted ++ [a]
        offered := s.offered ++ [a] }
    else some { s with offered := s.offered ++ [a] }
  | .take =>
    match s.queue with
    | [] => none
    | a :: rest =>
      if s.batch.length < limit then
        some { s with queue := rest, batch := s.batch ++ [wrap s.taken a], taken := s.taken + 1 }
      else none
  | .finish =>
    if s.batch.length = limit ∨ s.queue = [] then
      some { s with
        batch := []
        sent := if s.batch = [] then s.sent else s.sent ++ [s.batch]
        rounds := s.rounds + 1 }
    else none

variable {capacity limit wrap}

/-- Everything a step can do. -/
theorem step_cases {s t : State α β} {e : Event α} (h : step capacity limit wrap s e = some t) :
    (∃ a, e = .offer a ∧ s.queue.length < capacity ∧ t = { s with
      queue := s.queue ++ [a]
      accepted := s.accepted ++ [a]
      offered := s.offered ++ [a] }) ∨
    (∃ a, e = .offer a ∧ capacity ≤ s.queue.length ∧ t = { s with offered := s.offered ++ [a] }) ∨
    (∃ a rest, e = .take ∧ s.queue = a :: rest ∧ s.batch.length < limit ∧
      t = { s with queue := rest, batch := s.batch ++ [wrap s.taken a], taken := s.taken + 1 }) ∨
    (e = .finish ∧ (s.batch.length = limit ∨ s.queue = []) ∧ t = { s with
      batch := []
      sent := if s.batch = [] then s.sent else s.sent ++ [s.batch]
      rounds := s.rounds + 1 }) := by
  cases e with
  | offer a =>
      unfold step at h
      dsimp only at h
      split at h
      · rename_i hroom
        exact Or.inl ⟨a, rfl, hroom, (Option.some.inj h).symm⟩
      · rename_i hfull
        exact Or.inr (Or.inl ⟨a, rfl, Nat.le_of_not_lt hfull, (Option.some.inj h).symm⟩)
  | take =>
      unfold step at h
      dsimp only at h
      split at h
      · cases h
      · rename_i a rest hqueue
        split at h
        · rename_i hbatch
          exact Or.inr (Or.inr (Or.inl ⟨a, rest, rfl, hqueue, hbatch, (Option.some.inj h).symm⟩))
        · cases h
  | finish =>
      unfold step at h
      dsimp only at h
      split at h
      · rename_i hover
        exact Or.inr (Or.inr (Or.inr ⟨rfl, hover, (Option.some.inj h).symm⟩))
      · cases h

/-- A round that took nothing sends nothing. -/
theorem flatten_sent (sent : List (List β)) (batch : List β) :
    (if batch = [] then sent else sent ++ [batch]).flatten = sent.flatten ++ batch := by
  split
  · rename_i hempty
    rw [hempty, List.append_nil]
  · simp

/-! ## Nothing is reordered -/

/-- The items accepted are those taken, in their order and with consecutive numbers, and then those that
wait. -/
structure Ordered (capacity limit : ℕ) (wrap : ℕ → α → β) (s : State α β) : Prop where
  accepted : s.accepted.Sublist s.offered
  taken : s.sent.flatten ++ s.batch = (s.accepted.take s.taken).mapIdx wrap
  waiting : s.queue = s.accepted.drop s.taken
  inRange : s.taken ≤ s.accepted.length
  queue : s.queue.length ≤ capacity
  batch : s.batch.length ≤ limit
  sent : ∀ batch ∈ s.sent, batch ≠ [] ∧ batch.length ≤ limit
  rounds : s.sent.length ≤ s.rounds

theorem Ordered.start : Ordered capacity limit wrap (start : State α β) where
  accepted := List.Sublist.refl _
  taken := rfl
  waiting := rfl
  inRange := Nat.le_refl _
  queue := Nat.zero_le _
  batch := Nat.zero_le _
  sent := by
    intro batch hbatch
    cases hbatch
  rounds := Nat.le_refl _

/-- An item that is accepted goes to the end. -/
theorem Ordered.offer {s : State α β} (hs : Ordered capacity limit wrap s) (a : α)
    (hroom : s.queue.length < capacity) :
    Ordered capacity limit wrap { s with
      queue := s.queue ++ [a]
      accepted := s.accepted ++ [a]
      offered := s.offered ++ [a] } where
  accepted := hs.accepted.append (List.Sublist.refl [a])
  taken := by
    dsimp only
    rw [List.take_append_of_le_length hs.inRange]
    exact hs.taken
  waiting := by
    dsimp only
    rw [List.drop_append_of_le_length hs.inRange, ← hs.waiting]
  inRange := by
    rw [List.length_append]
    exact hs.inRange.trans (Nat.le_add_right _ _)
  queue := by
    rw [List.length_append]
    exact hroom
  batch := hs.batch
  sent := hs.sent
  rounds := hs.rounds

/-- The first of those that wait is the next of those accepted. -/
theorem Ordered.next {s : State α β} (hs : Ordered capacity limit wrap s) {a : α} {rest : List α}
    (hqueue : s.queue = a :: rest) :
    s.accepted.drop s.taken = a :: rest ∧ s.taken < s.accepted.length ∧
      s.accepted.take (s.taken + 1) = s.accepted.take s.taken ++ [a] := by
  have hdrop : s.accepted.drop s.taken = a :: rest := hs.waiting.symm.trans hqueue
  have hget : s.accepted[s.taken]? = some a := by
    rw [← Nat.add_zero s.taken, ← List.getElem?_drop, hdrop]
    rfl
  refine ⟨hdrop, (List.getElem?_eq_some_iff.1 hget).1, ?_⟩
  rw [List.take_add_one, hget]
  rfl

theorem Ordered.take {s : State α β} (hs : Ordered capacity limit wrap s) {a : α} {rest : List α}
    (hqueue : s.queue = a :: rest) (hbatch : s.batch.length < limit) :
    Ordered capacity limit wrap
      { s with queue := rest, batch := s.batch ++ [wrap s.taken a], taken := s.taken + 1 } := by
  rcases hs.next hqueue with ⟨hdrop, hlt, htake⟩
  exact
    { accepted := hs.accepted
      taken := by
        dsimp only
        rw [← List.append_assoc, hs.taken, htake, List.mapIdx_append]
        simp [Nat.min_eq_left hs.inRange]
      waiting := by
        dsimp only
        rw [← List.drop_drop, hdrop]
        rfl
      inRange := hlt
      queue := by
        have hold := hs.queue
        rw [hqueue, List.length_cons] at hold
        exact (Nat.le_succ _).trans hold
      batch := by
        rw [List.length_append]
        exact hbatch
      sent := hs.sent
      rounds := hs.rounds }

theorem Ordered.finish {s : State α β} (hs : Ordered capacity limit wrap s) :
    Ordered capacity limit wrap { s with
      batch := []
      sent := if s.batch = [] then s.sent else s.sent ++ [s.batch]
      rounds := s.rounds + 1 } where
  accepted := hs.accepted
  taken := by
    dsimp only
    rw [flatten_sent, List.append_nil]
    exact hs.taken
  waiting := hs.waiting
  inRange := hs.inRange
  queue := hs.queue
  batch := Nat.zero_le _
  sent := by
    intro batch hbatch
    dsimp only at hbatch
    split at hbatch
    · exact hs.sent batch hbatch
    · rename_i hne
      rcases List.mem_append.1 hbatch with hold | hnew
      · exact hs.sent batch hold
      · rw [List.mem_singleton.1 hnew]
        exact ⟨hne, hs.batch⟩
  rounds := by
    dsimp only
    split
    · exact hs.rounds.trans (Nat.le_succ _)
    · rw [List.length_append]
      exact Nat.succ_le_succ hs.rounds

theorem Ordered.step {s t : State α β} {e : Event α} (hs : Ordered capacity limit wrap s)
    (h : step capacity limit wrap s e = some t) : Ordered capacity limit wrap t := by
  rcases step_cases h with ⟨a, -, hroom, rfl⟩ | ⟨a, -, -, rfl⟩ | ⟨a, rest, -, hqueue, hbatch, rfl⟩ |
    ⟨-, -, rfl⟩
  · exact hs.offer a hroom
  · -- an item that finds no room is offered and no more
    exact { hs with accepted := hs.accepted.trans (List.sublist_append_left _ _) }
  · exact hs.take hqueue hbatch
  · exact hs.finish

theorem ordered_run {s : State α β} {es : List (Event α)}
    (hrun : run (step capacity limit wrap) start es = some s) : Ordered capacity limit wrap s :=
  invariant_run (fun _ _ _ hs h => hs.step h) Ordered.start hrun

/-- How many items have been accepted: those sent, those in the round and those that wait. -/
theorem Ordered.length {s : State α β} (hs : Ordered capacity limit wrap s) :
    s.accepted.length = s.sent.flatten.length + s.batch.length + s.queue.length := by
  have htaken := congrArg List.length hs.taken
  have hwaiting := congrArg List.length hs.waiting
  have hin := hs.inRange
  rw [List.length_append, List.length_mapIdx, List.length_take] at htaken
  rw [List.length_drop] at hwaiting
  omega

/-- What has been accepted stays accepted. -/
theorem accepted_mono {s t : State α β} {es : List (Event α)}
    (hrun : run (step capacity limit wrap) s es = some t) : s.accepted <+: t.accepted := by
  refine invariant_run (I := fun t : State α β => s.accepted <+: t.accepted) ?_ (List.prefix_refl _) hrun
  intro m e t hm h
  rcases step_cases h with ⟨a, -, -, rfl⟩ | ⟨a, -, -, rfl⟩ | ⟨a, rest, -, -, -, rfl⟩ | ⟨-, -, rfl⟩
  · exact hm.trans (List.prefix_append _ _)
  · exact hm
  · exact hm
  · exact hm

/-! ## What has been accepted is sent -/

/-- Every round since has sent `limit` items, or else everything. -/
structure Progress (limit : ℕ) (s₀ s : State α β) : Prop where
  rounds : s₀.rounds ≤ s.rounds
  accepted : s₀.accepted.length ≤ s.accepted.length
  sent : s₀.accepted.length ≤ s.sent.flatten.length ∨
    s₀.sent.flatten.length + limit * (s.rounds - s₀.rounds) ≤ s.sent.flatten.length

theorem Progress.step {s₀ s t : State α β} {e : Event α} (hs : Ordered capacity limit wrap s)
    (hp : Progress limit s₀ s) (h : step capacity limit wrap s e = some t) : Progress limit s₀ t := by
  have hlength := hs.length
  rcases step_cases h with ⟨a, -, -, rfl⟩ | ⟨a, -, -, rfl⟩ | ⟨a, rest, -, -, -, rfl⟩ | ⟨-, hover, rfl⟩
  · refine { hp with accepted := ?_ }
    rw [List.length_append]
    exact hp.accepted.trans (Nat.le_add_right _ _)
  · exact { hp with }
  · exact { hp with }
  · refine ⟨hp.rounds.trans (Nat.le_succ _), hp.accepted, ?_⟩
    dsimp only
    rw [flatten_sent, List.length_append]
    rcases hp.sent with hall | hsome
    · exact Or.inl (hall.trans (Nat.le_add_right _ _))
    · rcases hover with hfull | hempty
      · refine Or.inr ?_
        rw [Nat.succ_sub hp.rounds, Nat.mul_succ, hfull]
        omega
      · refine Or.inl ?_
        have hold := hp.accepted
        rw [hempty, List.length_nil] at hlength
        omega

theorem mapIdx_mono {as bs : List α} (h : as <+: bs) (f : ℕ → α → β) : as.mapIdx f <+: bs.mapIdx f := by
  rcases h with ⟨more, rfl⟩
  rw [List.mapIdx_append]
  exact List.prefix_append _ _

/-- What has been sent and what the round has taken so far are a beginning of what has been accepted. -/
theorem Ordered.taken_begins {s : State α β} (hs : Ordered capacity limit wrap s) :
    s.sent.flatten ++ s.batch <+: s.accepted.mapIdx wrap := by
  rw [hs.taken]
  exact mapIdx_mono (List.take_prefix _ _) wrap

/-- What has been accepted by some moment is sent after as many rounds as it takes to carry what was waiting
then. -/
theorem sent_after {s₀ s : State α β} {es fs : List (Event α)}
    (hrun₀ : run (step capacity limit wrap) start es = some s₀)
    (hrun : run (step capacity limit wrap) s₀ fs = some s)
    (hrounds : s₀.batch.length + s₀.queue.length ≤ limit * (s.rounds - s₀.rounds)) :
    s₀.accepted.mapIdx wrap <+: s.sent.flatten := by
  have hs₀ := ordered_run hrun₀
  have hp : Ordered capacity limit wrap s ∧ Progress limit s₀ s := by
    refine invariant_run (I := fun s => Ordered capacity limit wrap s ∧ Progress limit s₀ s)
      (fun _ _ _ hs h => ⟨hs.1.step h, hs.2.step hs.1 h⟩) ⟨hs₀, Nat.le_refl _, Nat.le_refl _, ?_⟩ hrun
    exact Or.inr (by simp)
  have hlength := hs₀.length
  have hsent : s₀.accepted.length ≤ s.sent.flatten.length := by
    rcases hp.2.sent with hall | hsome
    · exact hall
    · omega
  refine List.prefix_of_prefix_length_le (mapIdx_mono (accepted_mono hrun) wrap)
    ((List.prefix_append _ _).trans hp.1.taken_begins) ?_
  rw [List.length_mapIdx]
  exact hsent

/-! ## When nothing is dropped -/

/-- The level of a bucket that each offer fills by one and each round drains by `limit`. -/
def level (limit : ℕ) (es : List (Event α)) : ℕ :=
  es.foldl (fun n e => match e with
    | .offer _ => n + 1
    | .take => n
    | .finish => n - limit) 0

theorem level_append_offer (limit : ℕ) (es : List (Event α)) (a : α) :
    level limit (es ++ [.offer a]) = level limit es + 1 := by
  simp [level]

theorem level_append_take (limit : ℕ) (es : List (Event α)) :
    level limit (es ++ [.take]) = level limit es := by
  simp [level]

theorem level_append_finish (limit : ℕ) (es : List (Event α)) :
    level limit (es ++ [.finish]) = level limit es - limit := by
  simp [level]

/-- No more waits, the unfinished round included, than is in the bucket. -/
theorem waiting_le_level {s : State α β} {es : List (Event α)}
    (hrun : run (step capacity limit wrap) start es = some s) :
    s.batch.length + s.queue.length ≤ level limit es := by
  refine run_induction (Q := fun es s => s.batch.length + s.queue.length ≤ level limit es)
    (Nat.le_refl _) ?_ hrun
  intro es m e t _ hm h
  rcases step_cases h with ⟨a, rfl, -, rfl⟩ | ⟨a, rfl, -, rfl⟩ | ⟨a, rest, rfl, hqueue, -, rfl⟩ |
    ⟨rfl, hover, rfl⟩
  · rw [level_append_offer]
    simp only [List.length_append, List.length_singleton]
    omega
  · rw [level_append_offer]
    exact hm.trans (Nat.le_succ _)
  · rw [level_append_take]
    rw [hqueue, List.length_cons] at hm
    simp only [List.length_append, List.length_singleton]
    omega
  · rw [level_append_finish]
    simp only [List.length_nil, Nat.zero_add]
    rcases hover with hfull | hempty
    · omega
    · rw [hempty]
      exact Nat.zero_le _

/-- As long as the bucket never holds more than the queue has room for, every item is accepted. -/
theorem nothing_dropped {s : State α β} {es : List (Event α)}
    (hrun : run (step capacity limit wrap) start es = some s)
    (hlevel : ∀ fs, fs <+: es → level limit fs ≤ capacity) : s.accepted = s.offered := by
  refine run_induction
    (Q := fun es s => (∀ fs, fs <+: es → level limit fs ≤ capacity) → s.accepted = s.offered)
    (fun _ => rfl) ?_ hrun hlevel
  intro es m e t hm hold h hes
  have hkept := hold fun fs hfs => hes fs (hfs.trans (List.prefix_append _ _))
  rcases step_cases h with ⟨a, rfl, -, rfl⟩ | ⟨a, rfl, hfull, rfl⟩ | ⟨a, rest, rfl, -, -, rfl⟩ |
    ⟨rfl, -, rfl⟩
  · exact congrArg (· ++ [a]) hkept
  · -- a full queue would be more than the bucket holds
    have hwaiting := waiting_le_level hm
    have hnext := hes _ (List.prefix_refl _)
    rw [level_append_offer] at hnext
    omega
  · exact hkept
  · exact hkept

end LossyQueue
end Foundation
end GatewayEdge
