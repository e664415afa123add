import GatewayEdge.RedisCb.Interleaving

/-!
# RedisCb.CooldownRaces — is the cooldown kept when calls interleave?

A caller moves the state word to OPEN first and stores the opening time and the cooldown afterwards.  An acquire
that reads them in between finds those of an earlier period, or none.  `cooldown_held_undisturbed` says which
schedules are harmless: nobody reads the timer while it is being armed, no exchange of OPEN for HALF_OPEN is
decided in one OPEN period and carried out in another, and a re-arm stores the time of its exchange.
-/

namespace GatewayEdge
namespace RedisCb
namespace Interleaving

open Foundation

/-! ## Callers on one breaker -/

structure Caller where
  pc : Pc
  /-- The openings there had been when the call under way began. -/
  began : List Nat
  deriving Repr

/-- The openings only watch: they are the times at which an exchange has moved the state to OPEN, newest
first. -/
structure Races where
  clock : Nat
  breaker : CircuitBreaker
  callers : List Caller
  openings : List Nat
  deriving Repr

structure Event where
  caller : Nat
  now : Nat
  move : Move
  deriving DecidableEq, Repr

/-- Breaker and caller as the access of an event leaves them. -/
def after (s : Races) (e : Event) (c : Caller) (r : CircuitBreaker × Next) : Races where
  clock := e.now
  breaker := r.1
  callers := s.callers.set e.caller {
    pc := r.2.pc
    began := match e.move with
      | .next _ => c.began
      | _ => s.openings }
  openings :=
    if s.breaker.state ≠ .opened ∧ r.1.state = .opened then e.now :: s.openings else s.openings

variable (cfg : CbConfig) (pid : Nat)

/-- The caller whose turn it is, and what its access does. -/
def turn (s : Races) (e : Event) : Option (Caller × CircuitBreaker × Next) :=
  if e.now < s.clock then none
  else (s.callers[e.caller]?).bind fun c =>
    (access cfg pid e.now s.breaker c.pc e.move).map fun r => (c, r)

def step (s : Races) (e : Event) : Option Races :=
  (turn cfg pid s e).map fun x => after s e x.1 x.2

/-- Any number of callers, all idle, on a new breaker. -/
def start (callers : Nat) : Races where
  clock := 0
  breaker := CircuitBreaker.new cfg
  callers := List.replicate callers { pc := .idle, began := [] }
  openings := []

/-! ## The property, and what disturbs it -/

/-- The acquire returns `Ok`. -/
def Next.admits : Next → Bool
  | .answer r => r.isOk
  | _ => false

/-- An acquire that returns `Ok` has seen off the cooldown of every opening before it began. -/
def CooldownHeld (s : Races) (e : Event) : Prop :=
  ∀ x ∈ turn cfg pid s e, x.2.2.admits = true → ∀ opening ∈ x.1.began, opening + cfg.openCooldownMs ≤ e.now

instance (s : Races) (e : Event) : Decidable (CooldownHeld cfg pid s e) :=
  inferInstanceAs (Decidable (∀ x ∈ turn cfg pid s e, _))

/-- Between the exchange that opens the circuit and the store of the cooldown. -/
def Pc.arming : Pc → Bool
  | .rearmJitter _ | .rearmOpened _ _ | .rearmCooldown _ => true
  | .tripJitter | .tripClock _ | .tripOpened _ _ | .tripCooldown _ => true
  | _ => false

/-- Nobody is arming the timer. -/
def Quiet (s : Races) : Prop := ∀ c ∈ s.callers, c.pc.arming = false

instance (s : Races) : Decidable (Quiet s) := inferInstanceAs (Decidable (∀ c ∈ s.callers, _))

def Caller.Undisturbed (s : Races) (now : Nat) (c : Caller) : Prop :=
  match c.pc with
  | .openOpened _ | .openCooldown _ _ => Quiet s
  -- Carried out in the OPEN period the call has found.
  | .openExchange _ => s.breaker.state = .opened → c.began = s.openings
  | .rearmExchange n => s.breaker.state = .halfOpen → n = now
  | _ => True

instance (s : Races) (now : Nat) (c : Caller) : Decidable (c.Undisturbed s now) := by
  unfold Caller.Undisturbed
  split <;> infer_instance

/-- The caller whose turn it is does not run into another one. -/
def Undisturbed (s : Races) (e : Event) : Prop := ∀ c ∈ s.callers[e.caller]?, c.Undisturbed s e.now

instance (s : Races) (e : Event) : Decidable (Undisturbed s e) :=
  inferInstanceAs (Decidable (∀ c ∈ s.callers[e.caller]?, _))

variable {cfg pid}

/-! ## What callers know -/

/-- No opening is later than `bound`. -/
def Since (openings : List Nat) (bound : Nat) : Prop := ∀ opening ∈ openings, opening ≤ bound

/-- The base cooldown of every opening is over at `now`. -/
def Expired (cfg : CbConfig) (openings : List Nat) (now : Nat) : Prop :=
  ∀ opening ∈ openings, opening + cfg.openCooldownMs ≤ now

theorem Since.mono {openings : List Nat} {m n : Nat} (h : Since openings m) (hle : m ≤ n) :
    Since openings n :=
  fun opening hmem => le_trans (h opening hmem) hle

theorem Expired.mono {openings : List Nat} {m n : Nat} (h : Expired cfg openings m) (hle : m ≤ n) :
    Expired cfg openings n :=
  fun opening hmem => le_trans (h opening hmem) hle

/-- On the way to an `Ok`: the circuit was seen not to be OPEN. -/
def Pc.cleared : Pc → Bool
  | .closedAdd | .enterProbes _ | .enterSuccesses _ | .enterStarted _ | .enterTotal => true
  | .halfClock | .halfStarted _ | .probeAdd | .slotAdd => true
  | _ => false

/-- The program points whose caller holds a time, read or to be stored. -/
def Pc.timed : Pc → Bool
  | .openOpened _ | .openCooldown _ _ | .openExchange _ => true
  | .rearmJitter _ | .rearmOpened _ _ | .rearmCooldown _ => true
  | .tripClock _ | .tripOpened _ _ | .tripCooldown _ => true
  | _ => false

/-- What a caller's program point says about the openings. -/
def Knows (cfg : CbConfig) (s : Races) (c : Caller) : Prop :=
  match c.pc with
  | .openOpened n => n ≤ s.clock
  -- As long as the circuit is in the OPEN period the call has found.
  | .openCooldown n opened => n ≤ s.clock ∧ (c.began = s.openings → Quiet s ∧ Since s.openings opened)
  | .openExchange n => n ≤ s.clock ∧ (c.began = s.openings → Quiet s ∧ Expired cfg s.openings n)
  | .rearmJitter n => Since s.openings n
  | .rearmOpened n cooldown => cfg.openCooldownMs ≤ cooldown ∧ Since s.openings n
  | .rearmCooldown cooldown => cfg.openCooldownMs ≤ cooldown ∧ Since s.openings s.breaker.openedAtMs
  | .tripClock cooldown => cfg.openCooldownMs ≤ cooldown
  | .tripOpened cooldown n => cfg.openCooldownMs ≤ cooldown ∧ Since s.openings n
  | .tripCooldown cooldown => cfg.openCooldownMs ≤ cooldown ∧ Since s.openings s.breaker.openedAtMs
  | pc => pc.cleared = true → Expired cfg c.began s.clock

theorem knows_iff {s : Races} {c : Caller} (h : c.pc.timed = false) :
    Knows cfg s c ↔ (c.pc.cleared = true → Expired cfg c.began s.clock) := by
  rcases c with ⟨pc, began⟩
  cases pc <;> first | rfl | cases h

/-- Openings, timer and callers fit together. -/
structure Inv (cfg : CbConfig) (s : Races) : Prop where
  past : Since s.openings s.clock
  /-- A circuit that is not OPEN has sat out every cooldown. -/
  expired : s.breaker.state ≠ .opened → Expired cfg s.openings s.clock
  quiet : s.breaker.state ≠ .opened → Quiet s
  /-- Once armed, the timer covers the last opening and with it all of them. -/
  armed : Quiet s → ∀ opening ∈ s.openings,
    opening ≤ s.breaker.openedAtMs ∧ cfg.openCooldownMs ≤ s.breaker.cooldownMs
  began : ∀ c ∈ s.callers, c.began <:+ s.openings
  knows : ∀ c ∈ s.callers, Knows cfg s c

theorem inv_start (callers : Nat) : Inv cfg (start cfg callers) := by
  have hidle : ∀ c ∈ (start cfg callers).callers, c = { pc := .idle, began := [] } :=
    fun c hc => List.eq_of_mem_replicate hc
  refine ⟨?_, ?_, ?_, ?_, ?_, ?_⟩
  · intro opening hmem
    cases hmem
  · intro _ opening hmem
    cases hmem
  · intro _ c hc
    rw [hidle c hc]
    rfl
  · intro _ opening hmem
    cases hmem
  · intro c hc
    rw [hidle c hc]
    exact List.nil_suffix
  · intro c hc
    rw [hidle c hc]
    exact fun h => by cases h

/-! ## Steps that do not open the circuit -/

section
variable {s : Races} {c c' : Caller} {i now : Nat} {b' : CircuitBreaker}

/-- What the other callers know survives a step that adds no opening. -/
theorem Knows.mono {t : Races} (h : Knows cfg s c) (hclock : s.clock ≤ t.clock)
    (hopenings : t.openings = s.openings) (hquiet : Quiet s → Quiet t)
    (hsince : Since s.openings s.breaker.openedAtMs → Since s.openings t.breaker.openedAtMs) :
    Knows cfg t c := by
  rcases c with ⟨pc, began⟩
  cases pc with
  | openOpened n => exact le_trans h hclock
  | openCooldown n opened =>
      refine ⟨le_trans h.1 hclock, fun hsame => ?_⟩
      rw [hopenings] at hsame ⊢
      exact ⟨hquiet (h.2 hsame).1, (h.2 hsame).2⟩
  | openExchange n =>
      refine ⟨le_trans h.1 hclock, fun hsame => ?_⟩
      rw [hopenings] at hsame ⊢
      exact ⟨hquiet (h.2 hsame).1, (h.2 hsame).2⟩
  | rearmJitter n =>
      change Since t.openings n
      exact hopenings ▸ h
  | rearmOpened n cooldown => exact ⟨h.1, hopenings ▸ h.2⟩
  | rearmCooldown cooldown => exact ⟨h.1, hopenings ▸ hsince h.2⟩
  | tripClock cooldown => exact h
  | tripOpened cooldown n => exact ⟨h.1, hopenings ▸ h.2⟩
  | tripCooldown cooldown => exact ⟨h.1, hopenings ▸ hsince h.2⟩
  | _ =>
      rw [knows_iff rfl] at h ⊢
      exact fun hcleared => (h hcleared).mono hclock

/-- The state after an access that adds no opening. -/
def moved (s : Races) (i now : Nat) (b' : CircuitBreaker) (c' : Caller) : Races where
  clock := now
  breaker := b'
  callers := s.callers.set i c'
  openings := s.openings

theorem quiet_moved (hs : Quiet s) (h : c'.pc.arming = false) : Quiet (moved s i now b' c') := by
  intro d hd
  rcases List.mem_or_eq_of_mem_set hd with hd | rfl
  · exact hs d hd
  · exact h

/-- A caller that is arming exactly if it was before makes no difference. -/
theorem quiet_moved_iff (hc : s.callers[i]? = some c) (h : c'.pc.arming = c.pc.arming) :
    Quiet (moved s i now b' c') ↔ Quiet s := by
  constructor
  · intro ht d hd
    have hi : i < s.callers.length := (List.getElem?_eq_some_iff.1 hc).1
    rcases List.mem_iff_getElem?.1 hd with ⟨j, hj⟩
    by_cases hij : i = j
    · have hcd : c = d := Option.some.inj (hc.symm.trans (hij ▸ hj))
      rw [← hcd, ← h]
      exact ht c' (List.mem_set hi c')
    · refine ht d (List.mem_iff_getElem?.2 ⟨j, ?_⟩)
      rw [← hj]
      exact List.getElem?_set_ne hij
  · intro hs
    have hmem : c ∈ s.callers := List.mem_of_getElem? hc
    exact quiet_moved hs (h.trans (hs c hmem))

/-- A step that adds no opening keeps the invariant when the timer it leaves behind is right and the caller
knows what its new program point says. -/
theorem Inv.moved (hs : Inv cfg s) (hnow : s.clock ≤ now)
    (hstate : b'.state ≠ .opened → Expired cfg s.openings now ∧ Quiet (moved s i now b' c'))
    (harmed : Quiet (Interleaving.moved s i now b' c') → ∀ opening ∈ s.openings,
      opening ≤ b'.openedAtMs ∧ cfg.openCooldownMs ≤ b'.cooldownMs)
    (hquiet : Quiet s → Quiet (Interleaving.moved s i now b' c'))
    (hsince : Since s.openings s.breaker.openedAtMs → Since s.openings b'.openedAtMs)
    (hbegan : c'.began <:+ s.openings) (hknows : Knows cfg (Interleaving.moved s i now b' c') c') :
    Inv cfg (Interleaving.moved s i now b' c') where
  past := hs.past.mono hnow
  expired h := (hstate h).1
  quiet h := (hstate h).2
  armed := harmed
  began d hd := by
    rcases List.mem_or_eq_of_mem_set hd with hd | rfl
    · exact hs.began d hd
    · exact hbegan
  knows d hd := by
    rcases List.mem_or_eq_of_mem_set hd with hd | rfl
    · exact (hs.knows d hd).mono hnow rfl hquiet hsince
    · exact hknows

/-- An access that leaves the state and the timer as they are. -/
theorem Inv.silent (hs : Inv cfg s) (hc : s.callers[i]? = some c) (hnow : s.clock ≤ now)
    (hstate : b'.state = s.breaker.state) (hopened : b'.openedAtMs = s.breaker.openedAtMs)
    (hcooldown : b'.cooldownMs = s.breaker.cooldownMs) (harming : c'.pc.arming = c.pc.arming)
    (hbegan : c'.began <:+ s.openings) (hknows : Knows cfg (Interleaving.moved s i now b' c') c') :
    Inv cfg (Interleaving.moved s i now b' c') := by
  have hquiet : Quiet (Interleaving.moved s i now b' c') ↔ Quiet s := quiet_moved_iff hc harming
  refine hs.moved hnow ?_ ?_ hquiet.2 (hopened ▸ id) hbegan hknows
  · intro hne
    rw [hstate] at hne
    exact ⟨(hs.expired hne).mono hnow, hquiet.2 (hs.quiet hne)⟩
  · intro hq
    rw [hopened, hcooldown]
    exact hs.armed (hquiet.1 hq)

/-- Storing the opening time, with the cooldown still to come. -/
theorem Inv.storeOpened {n : Nat} (hs : Inv cfg s) (hc : c ∈ s.callers) (hi : i < s.callers.length)
    (hnow : s.clock ≤ now) (harming : c.pc.arming = true) (hsince : Since s.openings n)
    (hb : b' = { s.breaker with openedAtMs := n }) (harming' : c'.pc.arming = true)
    (hbegan : c'.began <:+ s.openings) (hknows : Knows cfg (Interleaving.moved s i now b' c') c') :
    Inv cfg (Interleaving.moved s i now b' c') := by
  subst hb
  have hbusy : ¬ Quiet s := fun hq => by simp [hq c hc] at harming
  refine hs.moved hnow ?_ ?_ (fun hq => absurd hq hbusy) (fun _ => hsince) hbegan hknows
  · intro hne
    exact absurd (hs.quiet hne) hbusy
  · intro hq
    have hidle := hq c' (List.mem_set hi c')
    rw [harming'] at hidle
    cases hidle

/-- Storing the cooldown: the timer is armed. -/
theorem Inv.storeCooldown {cooldown : Nat} (hs : Inv cfg s) (hc : c ∈ s.callers) (hnow : s.clock ≤ now)
    (harming : c.pc.arming = true) (hcooldown : cfg.openCooldownMs ≤ cooldown)
    (hsince : Since s.openings s.breaker.openedAtMs)
    (hb : b' = { s.breaker with cooldownMs := cooldown })
    (hbegan : c'.began <:+ s.openings) (hknows : Knows cfg (Interleaving.moved s i now b' c') c') :
    Inv cfg (Interleaving.moved s i now b' c') := by
  subst hb
  have hbusy : ¬ Quiet s := fun hq => by simp [hq c hc] at harming
  refine hs.moved hnow ?_ ?_ (fun hq => absurd hq hbusy) id hbegan hknows
  · intro hne
    exact absurd (hs.quiet hne) hbusy
  · intro _ opening hmem
    exact ⟨hsince opening hmem, hcooldown⟩

end

/-! ## Steps that open the circuit -/

/-- A call that was under way when the circuit opens learns nothing about the new period. -/
theorem Knows.opened {s t : Races} {c : Caller} {now : Nat} (h : Knows cfg s c)
    (harming : c.pc.arming = false) (hbegan : c.began <:+ s.openings) (hclock : s.clock ≤ t.clock)
    (hopenings : t.openings = now :: s.openings) : Knows cfg t c := by
  have hother : c.began ≠ t.openings := by
    intro hsame
    have hlen := hbegan.length_le
    rw [hsame, hopenings, List.length_cons] at hlen
    omega
  rcases c with ⟨pc, began⟩
  cases pc with
  | openOpened n => exact le_trans h hclock
  | openCooldown n opened => exact ⟨le_trans h.1 hclock, fun hsame => absurd hsame hother⟩
  | openExchange n => exact ⟨le_trans h.1 hclock, fun hsame => absurd hsame hother⟩
  | rearmJitter n => cases harming
  | rearmOpened n cooldown => cases harming
  | rearmCooldown cooldown => cases harming
  | tripClock cooldown => cases harming
  | tripOpened cooldown n => cases harming
  | tripCooldown cooldown => cases harming
  | _ =>
      rw [knows_iff rfl] at h ⊢
      exact fun hcleared => (h hcleared).mono hclock

theorem Inv.opened {s t : Races} {c' : Caller} {i : Nat} (hs : Inv cfg s)
    (hi : i < s.callers.length) (hne : s.breaker.state ≠ .opened) (hclock : s.clock ≤ t.clock)
    (hstate : t.breaker.state = .opened) (hcallers : t.callers = s.callers.set i c')
    (hopenings : t.openings = t.clock :: s.openings) (harming : c'.pc.arming = true)
    (hbegan : c'.began <:+ s.openings) (hknows : Knows cfg t c') : Inv cfg t where
  past := by
    rw [hopenings]
    intro opening hmem
    rcases List.mem_cons.1 hmem with rfl | hmem
    · exact le_rfl
    · exact le_trans (hs.past opening hmem) hclock
  expired h := absurd hstate h
  quiet h := absurd hstate h
  armed hq := by
    have hidle := hq c' (hcallers ▸ List.mem_set hi c')
    rw [harming] at hidle
    cases hidle
  began d hd := by
    rw [hopenings]
    rw [hcallers] at hd
    rcases List.mem_or_eq_of_mem_set hd with hd | rfl
    · exact (hs.began d hd).trans (List.suffix_cons _ _)
    · exact hbegan.trans (List.suffix_cons _ _)
  knows d hd := by
    rw [hcallers] at hd
    rcases List.mem_or_eq_of_mem_set hd with hd | rfl
    · exact (hs.knows d hd).opened (hs.quiet hne d hd) (hs.began d hd) hclock hopenings
    · exact hknows

/-! ## Routine accesses -/

/-- The accesses that have to do neither with the state nor with the timer. -/
def Pc.routine : Pc → Bool
  | .openClock | .openOpened _ | .openCooldown _ _ | .openExchange _ | .openRecheck => false
  | .rearmExchange _ | .rearmJitter _ | .rearmOpened _ _ | .rearmCooldown _ => false
  | .closeExchange | .tripExchange _ | .tripJitter | .tripClock _ | .tripOpened _ _ => false
  | .tripCooldown _ => false
  | _ => true

/-- Where a routine access leads: to no time in hand, and to an `Ok` or towards it only from a point on the
way there. -/
structure Leads (pc : Pc) (next : Next) : Prop where
  arming : next.pc.arming = pc.arming
  timed : next.pc.timed = false
  cleared : next.pc.cleared = true → pc.cleared = true
  admits : next.admits = true → pc.cleared = true

theorem Leads.ite {pc : Pc} {x y : Next} {p : Prop} [Decidable p] (hx : Leads pc x) (hy : Leads pc y) :
    Leads pc (if p then x else y) := by
  split
  · exact hx
  · exact hy

theorem leads_outcomeNext (state : CircuitState) (outcome : RedisCallOutcome) :
    Leads (.loadState outcome) (outcomeNext state outcome) := by
  cases outcome <;> exact ⟨rfl, rfl, id, id⟩

/-- State and timer are left alone. -/
def SameTimer (b b' : CircuitBreaker) : Prop :=
  b'.state = b.state ∧ b'.openedAtMs = b.openedAtMs ∧ b'.cooldownMs = b.cooldownMs

theorem advance_routine {now : Nat} {spurious : Bool} {b b' : CircuitBreaker} {pc : Pc} {next : Next}
    (hpc : pc.routine = true) (h : advance cfg pid now spurious b pc = some (b', next)) :
    SameTimer b b' ∧ Leads pc next := by
  cases pc with
  -- The way to an `Ok`.
  | enterProbes n | enterSuccesses n | enterStarted n | enterTotal | halfClock =>
      cases h
      exact ⟨⟨rfl, rfl, rfl⟩, rfl, rfl, fun _ => rfl, fun _ => rfl⟩
  | closedAdd | halfStarted n | probeAdd | slotAdd =>
      cases h
      exact ⟨⟨rfl, rfl, rfl⟩, .ite ⟨rfl, rfl, fun _ => rfl, fun _ => rfl⟩ ⟨rfl, rfl, fun _ => rfl, fun _ => rfl⟩⟩
  -- The branches of `release`.
  | loadState outcome =>
      cases h
      exact ⟨⟨rfl, rfl, rfl⟩, leads_outcomeNext b.state outcome⟩
  | resetTimeout state =>
      cases h
      exact ⟨⟨rfl, rfl, rfl⟩, .ite ⟨rfl, rfl, id, id⟩ ⟨rfl, rfl, id, id⟩⟩
  | timeoutConsecutive state cf | errorFail state =>
      cases h
      exact ⟨⟨rfl, rfl, rfl⟩, .ite ⟨rfl, rfl, id, id⟩ (.ite ⟨rfl, rfl, id, id⟩ ⟨rfl, rfl, id, id⟩)⟩
  -- A loop over the buckets goes on or ends.
  | recoverRead successes ts i acc =>
      simp only [advance] at h
      split at h
      · cases h
        exact ⟨⟨rfl, rfl, rfl⟩, rfl, rfl, id, id⟩
      · cases h
        exact ⟨⟨rfl, rfl, rfl⟩, .ite ⟨rfl, rfl, id, id⟩ ⟨rfl, rfl, id, id⟩⟩
  | checkRead ts i acc =>
      simp only [advance] at h
      split at h
      · cases h
        exact ⟨⟨rfl, rfl, rfl⟩, rfl, rfl, id, id⟩
      · cases h
        exact ⟨⟨rfl, rfl, rfl⟩, .ite ⟨rfl, rfl, id, id⟩ (.ite ⟨rfl, rfl, id, id⟩ ⟨rfl, rfl, id, id⟩)⟩
  | closedUndo | slotUndo | probeUndo e | reject e | rearmTotal | tripLoad | tripTotal | checkClock
  | recordClock outcome latencyUs | recordBucket outcome latencyUs ts | countRequest outcome
  | countSuccess state | resetFail state | recoverClock successes | countTimeout state
  | timeoutFail state | countError state | countProbe =>
      cases h
      exact ⟨⟨rfl, rfl, rfl⟩, rfl, rfl, id, id⟩
  | idle => cases h
  | _ => cases hpc

theorem routine_timed {pc : Pc} (h : pc.routine = true) : pc.timed = false := by
  cases pc <;> first | rfl | cases h

/-! ## Every step -/

section
variable {s t : Races} {c : Caller} {i now : Nat} {spurious : Bool} {b' : CircuitBreaker} {next : Next}

theorem after_eq_moved (h : s.breaker.state = .opened ∨ b'.state ≠ .opened) :
    after s ⟨i, now, .next spurious⟩ c (b', next) = moved s i now b' ⟨next.pc, c.began⟩ := by
  have hno : ¬ (s.breaker.state ≠ .opened ∧ b'.state = .opened) := by
    rcases h with h | h <;> simp [h]
  unfold after moved
  dsimp only
  rw [if_neg hno]

theorem after_eq_moved_of_same {b : CircuitBreaker} (h : b.state = s.breaker.state) :
    after s ⟨i, now, .next spurious⟩ c (b, next) = moved s i now b ⟨next.pc, c.began⟩ := by
  refine after_eq_moved ?_
  by_cases hopen : s.breaker.state = .opened
  · exact Or.inl hopen
  · exact Or.inr (h ▸ hopen)

/-- An access that only reads, and leads off the way to an `Ok`. -/
theorem inv_turnedAway (hs : Inv cfg s) (hc : s.callers[i]? = some c) (hnow : s.clock ≤ now)
    (harming : next.pc.arming = c.pc.arming) (htimed : next.pc.timed = false)
    (hcleared : next.pc.cleared = false) :
    Inv cfg (after s ⟨i, now, .next spurious⟩ c (s.breaker, next)) := by
  have hbegan := hs.began c (List.mem_of_getElem? hc)
  rw [after_eq_moved_of_same rfl]
  refine hs.silent hc hnow rfl rfl rfl harming hbegan ?_
  rw [knows_iff htimed]
  intro h
  cases hcleared.symm.trans h

theorem inv_routine (hs : Inv cfg s) (hc : s.callers[i]? = some c) (hnow : s.clock ≤ now)
    (hroutine : c.pc.routine = true)
    (h : advance cfg pid now spurious s.breaker c.pc = some (b', next)) :
    Inv cfg (after s ⟨i, now, .next spurious⟩ c (b', next)) := by
  have hmem : c ∈ s.callers := List.mem_of_getElem? hc
  rcases advance_routine hroutine h with ⟨⟨hstate, hopened, hcooldown⟩, hleads⟩
  rw [after_eq_moved_of_same hstate]
  refine hs.silent hc hnow hstate hopened hcooldown hleads.arming (hs.began c hmem) ?_
  rw [knows_iff hleads.timed]
  intro hcleared
  exact ((knows_iff (routine_timed hroutine)).1 (hs.knows c hmem) (hleads.cleared hcleared)).mono hnow

/-- The accesses of `acquire` that decide whether the cooldown is over. -/
theorem inv_deciding (hcfg : cfg.Valid) (hs : Inv cfg s) (hc : s.callers[i]? = some c)
    (hnow : s.clock ≤ now) (hund : c.Undisturbed s now)
    (hpc : c.pc = .openClock ∨ (∃ n, c.pc = .openOpened n) ∨ (∃ n o, c.pc = .openCooldown n o) ∨
      (∃ n, c.pc = .openExchange n) ∨ c.pc = .openRecheck)
    (h : advance cfg pid now spurious s.breaker c.pc = some (b', next)) :
    Inv cfg (after s ⟨i, now, .next spurious⟩ c (b', next)) := by
  have hmem : c ∈ s.callers := List.mem_of_getElem? hc
  have hbegan := hs.began c hmem
  have hknows := hs.knows c hmem
  rcases c with ⟨pc, began⟩
  rcases hpc with rfl | ⟨n, rfl⟩ | ⟨n, opened, rfl⟩ | ⟨n, rfl⟩ | rfl
  · cases h
    rw [after_eq_moved_of_same rfl]
    exact hs.silent hc hnow rfl rfl rfl rfl hbegan le_rfl
  · cases h
    rw [after_eq_moved_of_same rfl]
    refine hs.silent hc hnow rfl rfl rfl rfl hbegan ⟨le_trans hknows hnow, fun _ => ?_⟩
    -- Nobody is arming the timer, so the time just read covers the last opening.
    exact ⟨quiet_moved hund rfl, fun opening ho => (hs.armed hund opening ho).1⟩
  · change Quiet s at hund
    rcases hknows with ⟨hn, hread⟩
    unfold advance at h
    dsimp only at h
    by_cases hcool : s.breaker.cooldownMs ≤ n - opened
    · rw [if_pos hcool] at h
      cases h
      rw [after_eq_moved_of_same rfl]
      refine hs.silent hc hnow rfl rfl rfl rfl hbegan ⟨le_trans hn hnow, fun hsame => ?_⟩
      refine ⟨quiet_moved hund rfl, fun opening ho => ?_⟩
      have hsince := (hread hsame).2 opening ho
      have hbase := (hs.armed hund opening ho).2
      have hpos := hcfg.openCooldownMs
      change opening + cfg.openCooldownMs ≤ n
      omega
    · rw [if_neg hcool] at h
      cases h
      exact inv_turnedAway hs hc hnow rfl rfl rfl
  · rcases hknows with ⟨hn, hread⟩
    unfold advance at h
    dsimp only at h
    by_cases hopen : s.breaker.state = .opened
    · rw [if_pos hopen] at h
      cases h
      rw [after_eq_moved (Or.inl hopen)]
      -- The exchange succeeds in the OPEN period the call has found: its reading counts.
      have hsame : began = s.openings := hund hopen
      rcases hread hsame with ⟨hq, hexpired⟩
      have hexpired' := hexpired.mono (le_trans hn hnow)
      refine hs.moved hnow (fun _ => ⟨hexpired', quiet_moved hq rfl⟩) (fun _ => hs.armed hq)
        (fun hq => quiet_moved hq rfl) id hbegan fun _ => ?_
      change Expired cfg began now
      rw [hsame]
      exact hexpired'
    · rw [if_neg hopen] at h
      cases h
      exact inv_turnedAway hs hc hnow rfl rfl rfl
  · unfold advance at h
    dsimp only at h
    by_cases hopen : s.breaker.state = .opened
    · rw [if_pos hopen] at h
      cases h
      exact inv_turnedAway hs hc hnow rfl rfl rfl
    · rw [if_neg hopen] at h
      cases h
      rw [after_eq_moved_of_same rfl]
      refine hs.silent hc hnow rfl rfl rfl rfl hbegan fun _ opening ho => ?_
      exact le_trans (hs.expired hopen opening (hbegan.subset ho)) hnow

/-- The exchange that opens the circuit: its caller has the timer to arm. -/
theorem inv_opening (hs : Inv cfg s) (hc : s.callers[i]? = some c) (hnow : s.clock ≤ now)
    (hne : s.breaker.state ≠ .opened) (harming : next.pc.arming = true)
    (hknows : ∀ t : Races, t.openings = now :: s.openings → Knows cfg t ⟨next.pc, c.began⟩) :
    Inv cfg (after s ⟨i, now, .next spurious⟩ c ({ s.breaker with state := .opened }, next)) := by
  have hopenings : (after s ⟨i, now, .next spurious⟩ c
      ({ s.breaker with state := .opened }, next)).openings = now :: s.openings := by
    simp [after, hne]
  exact hs.opened (List.getElem?_eq_some_iff.1 hc).1 hne hnow rfl rfl hopenings harming
    (hs.began c (List.mem_of_getElem? hc)) (hknows _ hopenings)

/-- The accesses of the deadline re-arm. -/
theorem inv_rearming (hs : Inv cfg s) (hc : s.callers[i]? = some c) (hnow : s.clock ≤ now)
    (hund : c.Undisturbed s now)
    (hpc : (∃ n, c.pc = .rearmExchange n) ∨ (∃ n, c.pc = .rearmJitter n) ∨
      (∃ n k, c.pc = .rearmOpened n k) ∨ ∃ k, c.pc = .rearmCooldown k)
    (h : advance cfg pid now spurious s.breaker c.pc = some (b', next)) :
    Inv cfg (after s ⟨i, now, .next spurious⟩ c (b', next)) := by
  have hmem : c ∈ s.callers := List.mem_of_getElem? hc
  have hlt : i < s.callers.length := (List.getElem?_eq_some_iff.1 hc).1
  have hbegan := hs.began c hmem
  have hknows := hs.knows c hmem
  rcases c with ⟨pc, began⟩
  rcases hpc with ⟨n, rfl⟩ | ⟨n, rfl⟩ | ⟨n, cooldown, rfl⟩ | ⟨cooldown, rfl⟩
  · unfold advance at h
    dsimp only at h
    by_cases hhalf : s.breaker.state = .halfOpen
    · rw [if_pos hhalf] at h
      cases h
      have hn : n = now := hund hhalf
      refine inv_opening hs hc hnow (by simp [hhalf]) rfl fun t ht => ?_
      -- The time it goes on to store is that of the exchange.
      change Since t.openings n
      rw [ht, hn]
      intro opening ho
      rcases List.mem_cons.1 ho with rfl | ho
      · exact le_rfl
      · exact le_trans (hs.past opening ho) hnow
    · rw [if_neg hhalf] at h
      cases h
      exact inv_turnedAway hs hc hnow rfl rfl rfl
  · cases h
    rw [after_eq_moved_of_same rfl]
    exact hs.silent hc hnow rfl rfl rfl rfl hbegan
      ⟨(CircuitBreaker.jitteredCooldown_mem cfg pid now).1, hknows⟩
  · cases h
    rw [after_eq_moved_of_same (b := { s.breaker with openedAtMs := n }) rfl]
    exact hs.storeOpened hmem hlt hnow rfl hknows.2 rfl rfl hbegan ⟨hknows.1, hknows.2⟩
  · cases h
    rw [after_eq_moved_of_same (b := { s.breaker with cooldownMs := cooldown }) rfl]
    exact hs.storeCooldown hmem hnow rfl hknows.1 hknows.2 rfl hbegan fun h => by cases h

/-- The accesses of `trip_open` from its exchange on. -/
theorem inv_tripping (hs : Inv cfg s) (hc : s.callers[i]? = some c) (hnow : s.clock ≤ now)
    (hpc : (∃ expected, c.pc = .tripExchange expected) ∨ c.pc = .tripJitter ∨
      (∃ k, c.pc = .tripClock k) ∨ (∃ k n, c.pc = .tripOpened k n) ∨ ∃ k, c.pc = .tripCooldown k)
    (h : advance cfg pid now spurious s.breaker c.pc = some (b', next)) :
    Inv cfg (after s ⟨i, now, .next spurious⟩ c (b', next)) := by
  have hmem : c ∈ s.callers := List.mem_of_getElem? hc
  have hlt : i < s.callers.length := (List.getElem?_eq_some_iff.1 hc).1
  have hbegan := hs.began c hmem
  have hknows := hs.knows c hmem
  rcases c with ⟨pc, began⟩
  rcases hpc with ⟨expected, rfl⟩ | rfl | ⟨cooldown, rfl⟩ | ⟨cooldown, n, rfl⟩ | ⟨cooldown, rfl⟩
  · unfold advance at h
    dsimp only at h
    split at h
    · cases h
      exact inv_turnedAway hs hc hnow rfl rfl rfl
    · rename_i hexpected
      split at h
      · rename_i hsucceeds
        cases h
        have hne : s.breaker.state ≠ .opened := fun hopen => hexpected (hsucceeds.1.symm.trans hopen)
        exact inv_opening hs hc hnow hne rfl fun t _ h => by cases h
      · cases h
        exact inv_turnedAway hs hc hnow rfl rfl rfl
  · cases h
    rw [after_eq_moved_of_same rfl]
    exact hs.silent hc hnow rfl rfl rfl rfl hbegan (CircuitBreaker.jitteredCooldown_mem cfg pid now).1
  · cases h
    rw [after_eq_moved_of_same rfl]
    exact hs.silent hc hnow rfl rfl rfl rfl hbegan ⟨hknows, hs.past.mono hnow⟩
  · cases h
    rw [after_eq_moved_of_same (b := { s.breaker with openedAtMs := n }) rfl]
    exact hs.storeOpened hmem hlt hnow rfl hknows.2 rfl rfl hbegan ⟨hknows.1, hknows.2⟩
  · cases h
    rw [after_eq_moved_of_same (b := { s.breaker with cooldownMs := cooldown }) rfl]
    exact hs.storeCooldown hmem hnow rfl hknows.1 hknows.2 rfl hbegan fun h => by cases h

theorem inv_closing (hs : Inv cfg s) (hc : s.callers[i]? = some c) (hnow : s.clock ≤ now)
    (hpc : c.pc = .closeExchange) (h : advance cfg pid now spurious s.breaker c.pc = some (b', next)) :
    Inv cfg (after s ⟨i, now, .next spurious⟩ c (b', next)) := by
  have hbegan := hs.began c (List.mem_of_getElem? hc)
  rcases c with ⟨pc, began⟩
  subst hpc
  cases h
  by_cases hhalf : s.breaker.state = .halfOpen
  · have hne : s.breaker.state ≠ .opened := by simp [hhalf]
    have hq := hs.quiet hne
    rw [if_pos hhalf, after_eq_moved (Or.inr (by simp))]
    refine hs.moved hnow (fun _ => ⟨(hs.expired hne).mono hnow, quiet_moved hq rfl⟩)
      (fun _ => hs.armed hq) (fun hq => quiet_moved hq rfl) id hbegan fun h => by cases h
  · rw [if_neg hhalf, after_eq_moved_of_same rfl]
    exact hs.silent hc hnow rfl rfl rfl rfl hbegan fun h => by cases h

theorem inv_advance (hcfg : cfg.Valid) (hs : Inv cfg s) (hc : s.callers[i]? = some c)
    (hnow : s.clock ≤ now) (hund : c.Undisturbed s now)
    (h : advance cfg pid now spurious s.breaker c.pc = some (b', next)) :
    Inv cfg (after s ⟨i, now, .next spurious⟩ c (b', next)) := by
  cases hpc : c.pc with
  | openClock => exact inv_deciding hcfg hs hc hnow hund (by simp [hpc]) h
  | openOpened n => exact inv_deciding hcfg hs hc hnow hund (by simp [hpc]) h
  | openCooldown n opened => exact inv_deciding hcfg hs hc hnow hund (by simp [hpc]) h
  | openExchange n => exact inv_deciding hcfg hs hc hnow hund (by simp [hpc]) h
  | openRecheck => exact inv_deciding hcfg hs hc hnow hund (by simp [hpc]) h
  | rearmExchange n => exact inv_rearming hs hc hnow hund (by simp [hpc]) h
  | rearmJitter n => exact inv_rearming hs hc hnow hund (by simp [hpc]) h
  | rearmOpened n cooldown => exact inv_rearming hs hc hnow hund (by simp [hpc]) h
  | rearmCooldown cooldown => exact inv_rearming hs hc hnow hund (by simp [hpc]) h
  | tripExchange expected => exact inv_tripping hs hc hnow (by simp [hpc]) h
  | tripJitter => exact inv_tripping hs hc hnow (by simp [hpc]) h
  | tripClock cooldown => exact inv_tripping hs hc hnow (by simp [hpc]) h
  | tripOpened cooldown n => exact inv_tripping hs hc hnow (by simp [hpc]) h
  | tripCooldown cooldown => exact inv_tripping hs hc hnow (by simp [hpc]) h
  | closeExchange => exact inv_closing hs hc hnow hpc h
  | _ => exact inv_routine hs hc hnow (by rw [hpc]; rfl) h

/-- A call begins: an acquire that finds the circuit not OPEN has every cooldown behind it. -/
theorem inv_begin_acquire (hs : Inv cfg s) (hc : s.callers[i]? = some c) (hnow : s.clock ≤ now)
    (hpc : c.pc = .idle) :
    Inv cfg (moved s i now s.breaker ⟨acquirePc s.breaker.state, s.openings⟩) := by
  refine hs.silent hc hnow rfl rfl rfl ?_ (List.suffix_refl _) ?_
  · rw [hpc]
    cases s.breaker.state <;> rfl
  · cases hstate : s.breaker.state with
    | opened => exact fun h => by cases h
    | closed => exact fun _ => (hs.expired (by simp [hstate])).mono hnow
    | halfOpen => exact fun _ => (hs.expired (by simp [hstate])).mono hnow

theorem turn_cases {e : Event} {c : Caller} {r : CircuitBreaker × Next}
    (h : turn cfg pid s e = some (c, r)) :
    s.clock ≤ e.now ∧ s.callers[e.caller]? = some c ∧
      access cfg pid e.now s.breaker c.pc e.move = some r := by
  unfold turn at h
  split at h
  · cases h
  · rename_i hclock
    rcases Option.bind_eq_some_iff.1 h with ⟨c', hc, hmap⟩
    rcases Option.map_eq_some_iff.1 hmap with ⟨r', haccess, heq⟩
    cases heq
    exact ⟨not_lt.1 hclock, hc, haccess⟩

theorem inv_step (hcfg : cfg.Valid) (s : Races) (e : Event) (t : Races) (hs : Inv cfg s)
    (hund : Undisturbed s e) (h : step cfg pid s e = some t) : Inv cfg t := by
  rcases Option.map_eq_some_iff.1 h with ⟨⟨c, b', next⟩, hturn, rfl⟩
  rcases turn_cases hturn with ⟨hnow, hc, haccess⟩
  rcases e with ⟨i, now, move⟩
  cases move with
  | next spurious => exact inv_advance hcfg hs hc hnow (hund c hc) haccess
  | acquire =>
      cases hpc : c.pc with
      | idle =>
          simp only [access, hpc] at haccess
          cases haccess
          have hsame : after s ⟨i, now, .acquire⟩ c (s.breaker, .goto (acquirePc s.breaker.state)) =
              moved s i now s.breaker ⟨acquirePc s.breaker.state, s.openings⟩ := by
            simp [after, moved, Next.pc]
          rw [hsame]
          exact inv_begin_acquire hs hc hnow hpc
      | _ => simp [access, hpc] at haccess
  | release outcome latencyUs =>
      cases hpc : c.pc with
      | idle =>
          simp only [access, hpc] at haccess
          cases haccess
          have hsame : after s ⟨i, now, .release outcome latencyUs⟩ c
              ({ s.breaker with inflight := s.breaker.inflight - 1 },
                .goto (.recordClock outcome latencyUs)) =
              moved s i now { s.breaker with inflight := s.breaker.inflight - 1 }
                ⟨.recordClock outcome latencyUs, s.openings⟩ := by
            simp [after, moved, Next.pc]
          rw [hsame]
          exact hs.silent hc hnow rfl rfl rfl (by rw [hpc]; rfl) (List.suffix_refl _) fun h => by cases h
      | _ => simp [access, hpc] at haccess

/-- Only a routine access returns `Ok`, and only from a point on the way to it. -/
theorem routine_of_admits {pc : Pc} {b : CircuitBreaker}
    (h : advance cfg pid now spurious b pc = some (b', next)) (hadmits : next.admits = true) :
    pc.routine = true := by
  cases pc with
  | openClock | openOpened n | rearmJitter n | rearmOpened n cooldown | rearmCooldown cooldown
  | closeExchange | tripJitter | tripClock cooldown | tripOpened cooldown n | tripCooldown cooldown =>
      cases h
      cases hadmits
  | openCooldown n opened | openRecheck =>
      cases h
      split at hadmits <;> cases hadmits
  | openExchange n | rearmExchange n =>
      simp only [advance] at h
      split at h <;> (cases h; cases hadmits)
  | tripExchange expected =>
      simp only [advance] at h
      split at h
      · cases h
        cases hadmits
      · split at h <;> (cases h; cases hadmits)
  | _ => rfl

theorem cooldownHeld_of_inv (s : Races) (e : Event) (hs : Inv cfg s) : CooldownHeld cfg pid s e := by
  rintro ⟨c, b', next⟩ hturn hadmits
  rcases turn_cases hturn with ⟨hnow, hc, haccess⟩
  have hknows := hs.knows c (List.mem_of_getElem? hc)
  rcases e with ⟨i, now, move⟩
  cases move with
  | next spurious =>
      have hroutine := routine_of_admits haccess hadmits
      have hcleared := (advance_routine hroutine haccess).2.admits hadmits
      exact ((knows_iff (routine_timed hroutine)).1 hknows hcleared).mono hnow
  | acquire =>
      cases hpc : c.pc with
      | idle =>
          simp only [access, hpc] at haccess
          cases haccess
          cases hadmits
      | _ => simp [access, hpc] at haccess
  | release outcome latencyUs =>
      cases hpc : c.pc with
      | idle =>
          simp only [access, hpc] at haccess
          cases haccess
          cases hadmits
      | _ => simp [access, hpc] at haccess

end

/-! ## The cooldown under interleaving -/

/-- In every interleaving in which no call runs into the gap between the exchange that opens the circuit and
the stores of its timer, an `Ok` is never given before the cooldown of each earlier opening is over. -/
theorem cooldown_held_undisturbed (env : EnvVars) (pid callers : Nat) (es : List Event)
    (hund : Along (step (CbConfig.fromEnv env) pid) Undisturbed (start (CbConfig.fromEnv env) callers) es) :
    Along (step (CbConfig.fromEnv env) pid) (CooldownHeld (CbConfig.fromEnv env) pid)
      (start (CbConfig.fromEnv env) callers) es :=
  along_mono (inv_step (CbConfig.fromEnv_valid env)) (fun s e hs _ => cooldownHeld_of_inv s e hs)
    (inv_start callers) hund

/-- A caller takes so many turns in a row. -/
def turns (caller now count : Nat) : List Event :=
  List.replicate count { caller := caller, now := now, move := .next false }

def acquires (caller now count : Nat) : List Event :=
  { caller := caller, now := now, move := .acquire } :: turns caller now count

def releases (caller now count : Nat) (outcome : RedisCallOutcome) : List Event :=
  { caller := caller, now := now, move := .release outcome 100 } :: turns caller now count

/-- The first caller fails, opens the circuit and arms the timer; the second one comes twenty seconds
later. -/
def armedInTime : List Event :=
  acquires 0 1700000000000 1 ++ releases 0 1700000000000 13 .redisError ++ acquires 1 1700000020000 12

theorem armedInTime_held :
    (∃ t, run (step (CbConfig.fromEnv impatientEnv) 1) (start (CbConfig.fromEnv impatientEnv) 2) armedInTime =
        some t ∧ t.openings = [1700000000000] ∧ t.breaker.inflight = 1) ∧
      Along (step (CbConfig.fromEnv impatientEnv) 1) (CooldownHeld (CbConfig.fromEnv impatientEnv) 1)
        (start (CbConfig.fromEnv impatientEnv) 2) armedInTime := by
  have hund : Along (step (CbConfig.fromEnv impatientEnv) 1) Undisturbed
      (start (CbConfig.fromEnv impatientEnv) 2) armedInTime := by
    decide
  have hend : (run (step (CbConfig.fromEnv impatientEnv) 1) (start (CbConfig.fromEnv impatientEnv) 2)
      armedInTime).map (fun t => (t.openings, t.breaker.inflight)) = some ([1700000000000], 1) := by
    decide
  rcases Option.map_eq_some_iff.1 hend with ⟨t, hrun, ht⟩
  rcases Prod.mk.inj ht with ⟨hopenings, hinflight⟩
  exact ⟨⟨t, hrun, hopenings, hinflight⟩, cooldown_held_undisturbed impatientEnv 1 2 armedInTime hund⟩

/-- The second caller comes when the first one has opened the circuit and not yet stored a time. -/
def unarmed : List Event :=
  acquires 0 1700000000000 1 ++ releases 0 1700000000000 9 .redisError ++ acquires 1 1700000000000 12

/-- It is let through in the millisecond in which the circuit has opened. -/
theorem unarmed_admits :
    (run (step (CbConfig.fromEnv impatientEnv) 1) (start (CbConfig.fromEnv impatientEnv) 2) unarmed).isSome =
        true ∧
      ¬ Along (step (CbConfig.fromEnv impatientEnv) 1) (CooldownHeld (CbConfig.fromEnv impatientEnv) 1)
        (start (CbConfig.fromEnv impatientEnv) 2) unarmed := by
  decide

/-- The second caller finds the cooldown over but exchanges the state in the next OPEN period. -/
def overslept : List Event :=
  acquires 0 1700000000000 1 ++ releases 0 1700000000000 13 .redisError ++
    acquires 1 1700000020000 3 ++
    acquires 0 1700000020000 12 ++ releases 0 1700000020000 13 .redisError ++
    turns 1 1700000020000 1 ++ acquires 2 1700000020000 4

/-- The second caller re-arms a circuit that probes for too long, with a time twenty seconds old. -/
def backdated : List Event :=
  acquires 0 1700000000000 1 ++ releases 0 1700000000000 13 .redisError ++
    acquires 0 1700000020000 12 ++
    acquires 1 1700000030000 2 ++ turns 1 1700000050000 4 ++
    acquires 2 1700000050000 12

/-- The other two ways to disturb a call let one through as well. -/
example :
    let cfg := CbConfig.fromEnv impatientEnv
    ((run (step cfg 1) (start cfg 3) overslept).isSome = true ∧
      ¬ Along (step cfg 1) (CooldownHeld cfg 1) (start cfg 3) overslept) ∧
    (run (step cfg 1) (start cfg 3) backdated).isSome = true ∧
      ¬ Along (step cfg 1) (CooldownHeld cfg 1) (start cfg 3) backdated := by
  decide

end Interleaving
end RedisCb
end GatewayEdge
