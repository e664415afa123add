import GatewayEdge.Foundation.Run
import GatewayEdge.RateLimit

/-!
# UserBudget — whose requests spend a user's budget

The limit belongs to a service and the bucket to a hash of the user, so a bucket counts together the
requests of one user to all services and those of every user who shares its slot.  Each call is one
step, and the sync thread is not running.
-/

namespace GatewayEdge
namespace UserBudget

open Foundation
open Foundation.WindowCounter (Vouches spent hit)
open RateLimit (checkRateLimit checkRateBody_eq bucketSlot)

/-! ## Runs of calls -/

/-- The parameters of a run: hash, environment, and `rate_limit_max` of each service. -/
structure Setting where
  fxHash : String → Nat
  env : EnvVars
  rateLimitMax : String → Nat

/-- A request with a user, and the second it came in. -/
structure Request where
  user : String
  service : String
  second : Nat
  deriving DecidableEq, Repr

/-- The clock and the buckets; then, latest first, the requests with a user that were sent and those of
them that a bucket has counted. -/
structure State where
  now : Nat
  limiter : RateLimit.State
  sent : List Request
  counted : List Request

inductive Event
  | tick (second : Nat)
  | call (user : Option String) (service : String)
  deriving DecidableEq, Repr

variable (p : Setting)

namespace Setting

def slot (user : String) : Nat := bucketSlot p.fxHash user

/-- The answer `check_rate_limit` gives now. -/
def check (s : State) (user : Option String) (service : String) : RateLimit.State × Bool :=
  checkRateLimit p.fxHash p.env s.now (p.rateLimitMax service) user s.limiter

end Setting

def step (s : State) : Event → Option State
  | .tick second => if s.now ≤ second then some { s with now := second } else none
  | .call user service =>
    let r := p.check s user service
    match user.filter (· ≠ "") with
    | none => some { s with limiter := r.1 }
    | some key =>
      let request : Request := { user := key, service := service, second := s.now }
      some { s with
        limiter := r.1
        sent := request :: s.sent
        counted := if p.rateLimitMax service ≠ 0 ∧ r.2 = true then request :: s.counted else s.counted }

/-- Buckets no process has written to. -/
def start : State where
  now := 0
  limiter := { shm := fun _ => 0, tx := none }
  sent := []
  counted := []

/-- What the bucket of a slot counts at present: its latest requests, as far back as the time stamp of
the current second goes. -/
def inWindow (slot : Nat) (s : State) : List Request :=
  (s.counted.filter fun r => p.slot r.user = slot).takeWhile fun r =>
    r.second % 2 ^ 32 = s.now % 2 ^ 32

/-- How many requests of the user to the service were sent in the current second. -/
def sentNow (user service : String) (s : State) : Nat :=
  s.sent.count { user := user, service := service, second := s.now }

/-- How many of the requests in the user's bucket are not his requests to this service in this second. -/
def foreign (user service : String) (s : State) : Nat :=
  (inWindow p (p.slot user) s).countP fun r =>
    r ≠ { user := user, service := service, second := s.now }

/-- The law asked for: up to the limit of the service, a user's requests of one second are let
through. -/
def NoFalseRejection (user service : String) (s : State) : Event → Prop
  | .call caller target => caller = some user → target = service →
      sentNow user service s < p.rateLimitMax service → (p.check s caller target).2 = true
  | .tick _ => True

/-- Requests of others leave room in the bucket, whose limit is the service's modulo `2 ^ 32`; or nobody
has been counted in this second, and then the word, if it has never been written, is not already of
the window zero. -/
def RoomLeft (user service : String) (s : State) : Event → Prop
  | .call caller target => caller = some user → target = service →
      sentNow user service s < p.rateLimitMax service →
        foreign p user service s + sentNow user service s < p.rateLimitMax service % 2 ^ 32 ∨
        (foreign p user service s + sentNow user service s = 0 ∧
          (s.now % 2 ^ 32 ≠ 0 ∨ ∃ r ∈ s.counted, p.slot r.user = p.slot user))
  | .tick _ => True

instance (user service : String) (s : State) (e : Event) :
    Decidable (NoFalseRejection p user service s e) := by
  cases e <;> unfold NoFalseRejection <;> infer_instance

instance (user service : String) (s : State) (e : Event) :
    Decidable (RoomLeft p user service s e) := by
  cases e <;> unfold RoomLeft <;> infer_instance

/-! ## One call -/

variable {p}

theorem check_of_unlimited {s : State} {user : Option String} {service : String}
    (h : p.rateLimitMax service = 0) : p.check s user service = (s.limiter, true) := by
  simp [Setting.check, checkRateLimit, h]

/-- A limited call of a user is one hit on his bucket. -/
theorem check_of_limited {s : State} {key service : String} (hlimit : p.rateLimitMax service ≠ 0)
    (hkey : key ≠ "") :
    let word := hit (p.rateLimitMax service % 2 ^ 32) (s.now % 2 ^ 32) (s.limiter.shm (p.slot key))
    (p.check s (some key) service).2 = word.2 ∧
      (p.check s (some key) service).1.shm = Function.update s.limiter.shm (p.slot key) word.1 := by
  have hfilter : (some key).filter (fun k => decide (k ≠ "")) = some key := by simp [hkey]
  dsimp only
  unfold Setting.check checkRateLimit hit Setting.slot
  rw [if_neg hlimit, hfilter]
  dsimp only
  rw [checkRateBody_eq]
  cases WindowCounter.bump (p.rateLimitMax service % 2 ^ 32) (s.now % 2 ^ 32)
      (s.limiter.shm (bucketSlot p.fxHash key)) with
  | none => exact ⟨rfl, (Function.update_eq_self _ _).symm⟩
  | some word => exact ⟨rfl, rfl⟩

/-! ## What the bucket vouches for -/

variable (p)

/-- The time stamps counted in a slot, the latest first. -/
def logOf (slot : Nat) (s : State) : List Nat :=
  (s.counted.filter fun r => p.slot r.user = slot).map fun r => r.second % 2 ^ 32

/-- The user's word is the work of the requests counted in it, they came in order, and up to the limit
of the service all his requests to it are among them. -/
structure Inv (user service : String) (s : State) : Prop where
  vouches : Vouches (logOf p (p.slot user) s) (s.limiter.shm (p.slot user))
  past : ∀ r ∈ s.counted, r.second ≤ s.now
  ordered : s.counted.Pairwise fun r r' => r'.second ≤ r.second
  complete : ∀ second,
    s.sent.count { user := user, service := service, second := second } ≤ p.rateLimitMax service →
      s.counted.count { user := user, service := service, second := second } =
        s.sent.count { user := user, service := service, second := second }

variable {p}

theorem inv_start (user service : String) : Inv p user service start where
  vouches := Vouches.zero
  past := fun r hr => by cases hr
  ordered := List.Pairwise.nil
  complete := fun _ _ => rfl

theorem spent_eq_length (slot : Nat) (s : State) :
    spent (s.now % 2 ^ 32) (logOf p slot s) = (inWindow p slot s).length := by
  unfold spent logOf inWindow
  rw [List.takeWhile_map, List.length_map]
  rfl

/-- Requests of the current second stand in front, so cutting the list at another time stamp does not
lose any of them. -/
theorem count_takeWhile {now : Nat} {r : Request} (hr : r.second = now) {l : List Request}
    (hpast : ∀ d ∈ l, d.second ≤ now) (hordered : l.Pairwise fun d d' => d'.second ≤ d.second) :
    (l.takeWhile fun d => d.second % 2 ^ 32 = now % 2 ^ 32).count r = l.count r := by
  induction l with
  | nil => rfl
  | cons d l ih =>
      rcases List.pairwise_cons.1 hordered with ⟨hlater, hrest⟩
      by_cases hd : d.second % 2 ^ 32 = now % 2 ^ 32
      · rw [List.takeWhile_cons_of_pos (by simpa using hd), List.count_cons, List.count_cons,
          ih (fun e he => hpast e (List.mem_cons_of_mem _ he)) hrest]
      · rw [List.takeWhile_cons_of_neg (by simpa using hd)]
        have hne : d.second ≠ now := fun h => hd (by rw [h])
        have hlt : d.second < now := Nat.lt_of_le_of_ne (hpast d List.mem_cons_self) hne
        have hnone : r ∉ d :: l := by
          intro hmem
          rcases List.mem_cons.1 hmem with heq | hmem
          · exact hne (heq ▸ hr)
          · have := hlater r hmem
            omega
        rw [List.count_eq_zero.2 hnone]
        rfl

/-- The bucket's requests of the present are the foreign ones and the user's own. -/
theorem spent_eq {user service : String} {s : State} (h : Inv p user service s)
    (hwithin : sentNow user service s ≤ p.rateLimitMax service) :
    spent (s.now % 2 ^ 32) (logOf p (p.slot user) s) =
      foreign p user service s + sentNow user service s := by
  have hown : (inWindow p (p.slot user) s).count
      { user := user, service := service, second := s.now } = sentNow user service s := by
    unfold inWindow sentNow
    rw [count_takeWhile rfl (fun r hr => h.past r (List.mem_filter.1 hr).1)
        (h.ordered.filter _), List.count_filter (by simp)]
    exact h.complete s.now hwithin
  rw [spent_eq_length, ← hown, List.count,
    List.length_eq_countP_add_countP fun r : Request =>
      r == { user := user, service := service, second := s.now }, Nat.add_comm]
  unfold foreign
  congr 1
  apply List.countP_congr
  intro r _
  simp

/-- In a state that vouches, the law and the condition say the same. -/
theorem law_iff_room {user service : String} (huser : user ≠ "") {s : State}
    (h : Inv p user service s) (e : Event) :
    NoFalseRejection p user service s e ↔ RoomLeft p user service s e := by
  cases e with
  | tick second => exact Iff.rfl
  | call caller target =>
      unfold NoFalseRejection RoomLeft
      refine forall_congr' fun hcaller => forall_congr' fun htarget => forall_congr' fun hwithin => ?_
      subst hcaller
      subst htarget
      have hlimit : p.rateLimitMax target ≠ 0 := by omega
      have hused : logOf p (p.slot user) s ≠ [] ↔ ∃ r ∈ s.counted, p.slot r.user = p.slot user := by
        unfold logOf
        rw [Ne, List.map_eq_nil_iff, List.filter_eq_nil_iff]
        simp
      rw [(check_of_limited hlimit huser).1, h.vouches.hit_iff,
        spent_eq h (Nat.le_of_lt hwithin), hused]

/-- A bucket that has counted nothing else in this second leaves room under every limit that fits the
word. -/
theorem roomLeft_of_alone {user service : String} {s : State} (halone : foreign p user service s = 0)
    (hlimit : p.rateLimitMax service < 2 ^ 32) (e : Event) : RoomLeft p user service s e := by
  cases e with
  | tick second => trivial
  | call caller target =>
      intro _ _ hwithin
      refine Or.inl ?_
      rw [halone, Nat.mod_eq_of_lt hlimit, Nat.zero_add]
      exact hwithin

theorem vouches_call {user key target : String} (hkey : key ≠ "") {s s' : State}
    (h : Vouches (logOf p (p.slot user) s) (s.limiter.shm (p.slot user)))
    (hs : step p s (.call (some key) target) = some s') :
    Vouches (logOf p (p.slot user) s') (s'.limiter.shm (p.slot user)) := by
  have hfilter : (some key).filter (fun k => decide (k ≠ "")) = some key := by simp [hkey]
  unfold step at hs
  dsimp only at hs
  rw [hfilter] at hs
  cases hs
  by_cases hlimit : p.rateLimitMax target = 0
  · simpa [logOf, check_of_unlimited hlimit, hlimit] using h
  · rcases check_of_limited (s := s) hlimit hkey with ⟨hanswer, hword⟩
    unfold logOf at h ⊢
    dsimp only
    rw [hanswer, hword]
    by_cases hslot : p.slot key = p.slot user
    · rw [hslot, Function.update_self]
      have hlimit32 : p.rateLimitMax target % 2 ^ 32 < 2 ^ 32 := Nat.mod_lt _ (by decide)
      have hhit := h.hit (Nat.mod_lt s.now (by decide)) hlimit32
      split at hhit
      · rename_i hadmitted
        rw [if_pos ⟨hlimit, hadmitted⟩]
        simpa [hslot] using hhit
      · rename_i hrefused
        rw [if_neg fun hboth => hrefused hboth.2]
        exact hhit
    · rw [Function.update_of_ne (Ne.symm hslot)]
      split
      · simpa [hslot] using h
      · exact h

theorem inv_step {user service : String} (s : State) (e : Event) (s' : State)
    (h : Inv p user service s) (hlaw : NoFalseRejection p user service s e)
    (hs : step p s e = some s') : Inv p user service s' := by
  cases e with
  | tick second =>
      unfold step at hs
      dsimp only at hs
      split at hs
      · rename_i hle
        cases hs
        exact
          { vouches := h.vouches
            past := fun r hr => le_trans (h.past r hr) hle
            ordered := h.ordered
            complete := h.complete }
      · cases hs
  | call caller target =>
      cases hkey : caller.filter (fun key => decide (key ≠ "")) with
      | none =>
          -- Without a user there is nothing to count.
          have hcheck : p.check s caller target = (s.limiter, true) := by
            unfold Setting.check checkRateLimit
            rw [hkey]
            split
            · rfl
            · rfl
          unfold step at hs
          dsimp only at hs
          rw [hkey, hcheck] at hs
          cases hs
          exact h
      | some key =>
          have hcaller : caller = some key := (Option.filter_eq_some_iff.1 hkey).1
          have hne : key ≠ "" := by simpa using (Option.filter_eq_some_iff.1 hkey).2
          subst hcaller
          have hvouches := vouches_call hne h.vouches hs
          unfold step at hs
          dsimp only at hs
          rw [hkey] at hs
          cases hs
          refine { vouches := hvouches, past := ?_, ordered := ?_, complete := ?_ }
          · intro r hr
            dsimp only at hr ⊢
            split at hr
            · rcases List.mem_cons.1 hr with rfl | hr
              · exact Nat.le_refl _
              · exact h.past r hr
            · exact h.past r hr
          · dsimp only
            split
            · exact List.pairwise_cons.2 ⟨h.past, h.ordered⟩
            · exact h.ordered
          · intro second hwithin
            dsimp only at hwithin ⊢
            by_cases hown : ({ user := key, service := target, second := s.now } : Request) =
                { user := user, service := service, second := second }
            · -- One of the requests in question: by the law it was let through, so it is counted.
              have huser : key = user := congrArg Request.user hown
              have hservice : target = service := congrArg Request.service hown
              have hsecond : s.now = second := congrArg Request.second hown
              subst huser
              subst hservice
              subst hsecond
              rw [List.count_cons_self] at hwithin
              have hadmitted := hlaw rfl rfl (by unfold sentNow; omega)
              rw [if_pos ⟨by omega, hadmitted⟩, List.count_cons_self, List.count_cons_self,
                h.complete s.now (by omega)]
            · rw [List.count_cons_of_ne hown] at hwithin ⊢
              split
              · rw [List.count_cons_of_ne hown]
                exact h.complete second hwithin
              · exact h.complete second hwithin

/-! ## Every run -/

/-- A user is never falsely rejected by a service exactly as long as the requests of others leave room for
his own. -/
theorem no_false_rejection_iff (p : Setting) (user service : String) (huser : user ≠ "")
    (es : List Event) :
    Along (step p) (NoFalseRejection p user service) start es ↔
      Along (step p) (RoomLeft p user service) start es := by
  constructor
  · exact along_mono inv_step (fun s e h => (law_iff_room huser h e).1) (inv_start user service)
  · exact along_mono (fun s e s' h hroom => inv_step s e s' h ((law_iff_room huser h e).2 hroom))
      (fun s e h => (law_iff_room huser h e).2) (inv_start user service)

/-- Two users of one slot and three services: one request a second, ten, and `2 ^ 32`. -/
def sampleSetting : Setting where
  fxHash key :=
    if key = "user-525" then 2043004177104631564
    else if key = "user-1484" then 15701428023630631564
    else 0
  env name := if name = "RATE_LIMIT_REDIS_ENABLED" then some "0" else none
  rateLimitMax service := if service = "login" then 1 else if service = "search" then 10 else 2 ^ 32

/-- The request of a user who shares his slot with nobody that second. -/
theorem lone_request_passes :
    Along (step sampleSetting) (NoFalseRejection sampleSetting "user-525" "login") start
      [.tick 1700000000, .call (some "user-525") "login", .tick 1700000001,
        .call (some "user-1484") "login"] :=
  (no_false_rejection_iff sampleSetting "user-525" "login" (by decide) _).2 (by decide)

/-- His first request of the second to `login` is rejected because of his own request to another service,
or because of another user's; and a limit of `2 ^ 32` rejects his second request. -/
theorem innocent_user_rejected :
    ¬ Along (step sampleSetting) (NoFalseRejection sampleSetting "user-525" "login") start
        [.tick 1700000000, .call (some "user-525") "search", .call (some "user-525") "login"] ∧
      ¬ Along (step sampleSetting) (NoFalseRejection sampleSetting "user-525" "login") start
        [.tick 1700000000, .call (some "user-1484") "login", .call (some "user-525") "login"] ∧
      ¬ Along (step sampleSetting) (NoFalseRejection sampleSetting "user-525" "bulk") start
        [.tick 1700000000, .call (some "user-525") "bulk", .call (some "user-525") "bulk"] := by
  decide

end UserBudget
end GatewayEdge
