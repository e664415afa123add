import GatewayEdge.Foundation.Run
import GatewayEdge.Lua.Gateway

/-!
# Lua.Identity — which identity an admitted request forwards

The identity buffers are shared by all requests of a worker and `process_request` writes each of
them only when the request has the respective value.  Whether a request forwards what it should
is therefore a matter of what the buffers hold before it.
-/

namespace GatewayEdge
namespace Lua
namespace Identity

open Foundation
open Auth (UserIdentity)
open Gateway (Platform World Args cStr processRequest requestIdentity CallSettled userIdWritten
  homeRegionWritten processRequest_settled)

/-! ## The worker's requests, one after the other -/

/-- A worker between two requests. -/
structure WorkerState where
  world : World
  bufs : ScratchBuffers

/-- A request, or anything else that happens to the world in between: a reload, another worker
of the node, the clock. -/
inductive Event
  | access (req : ClientRequest) (headers : Headers)
  | environment (w : World)

def step (p : Platform) (s : WorkerState) : Event → Option WorkerState
  | .access req headers =>
    let r := access p req headers s.world s.bufs
    some { world := r.world, bufs := r.bufs }
  | .environment w => some { s with world := w }

/-- A worker that has served nothing. -/
def start (w : World) : WorkerState := { world := w, bufs := ScratchBuffers.fresh }

/-! ## The law and its condition -/

/-- What a buffer of the given size carries of a value, nothing when there is none. -/
def carried (len : Nat) (value : Option String) : Bytes :=
  cStr ((strBytes (value.getD "")).take (len - 1))

/-- The two values a request with this identity is to forward. -/
def ownIdentity (identity : Option UserIdentity) : Bytes × Bytes :=
  (carried userIdLen (identity.map UserIdentity.userId),
    carried homeRegionLen (identity.bind UserIdentity.homeRegion))

/-- An admitted request forwards the values of its own validated identity. -/
def ForwardsOwnIdentity (p : Platform) (s : WorkerState) : Event → Prop
  | .access req headers =>
    let r := access p req headers s.world s.bufs
    r.Admitted → r.vars.forwarded = ownIdentity (requestIdentity p s.world (args req))
  | .environment _ => True

/-- Each identity buffer is either overwritten by this request or still empty. -/
def BuffersClean (p : Platform) (s : WorkerState) : Event → Prop
  | .access req _ =>
    let identity := requestIdentity p s.world (args req)
    (identity = none → cStr s.bufs.userId = []) ∧
      (identity.bind UserIdentity.homeRegion = none → cStr s.bufs.homeRegion = [])
  | .environment _ => True

@[simp] theorem carried_none (len : Nat) : carried len none = [] := by
  have hempty : strBytes "" = [] := by decide
  simp [carried, hempty, cStr]

/-! ## The buffers keep their sizes -/

def SizesKept (s : WorkerState) : Prop :=
  s.bufs.userId.length = userIdLen ∧ s.bufs.homeRegion.length = homeRegionLen

theorem sizesKept_start (w : World) : SizesKept (start w) := ⟨rfl, rfl⟩

theorem length_userIdWritten {identity : Option UserIdentity} {buf : Bytes} (h : 0 < buf.length) :
    ((userIdWritten identity (some buf)).getD buf).length = buf.length := by
  cases identity with
  | none => rfl
  | some id =>
      have hwritten := Gateway.writeCString_of_pos (s := id.userId) h
      simpa [userIdWritten, hwritten] using Gateway.length_of_writeCString h hwritten

theorem length_homeRegionWritten {identity : Option UserIdentity} {buf : Bytes}
    (h : 0 < buf.length) :
    ((homeRegionWritten identity (some buf)).getD buf).length = buf.length := by
  unfold homeRegionWritten
  cases identity.bind UserIdentity.homeRegion with
  | none => rfl
  | some home =>
      have hwritten := Gateway.writeCString_of_pos (s := home) h
      simpa [hwritten] using Gateway.length_of_writeCString h hwritten

/-- The buffers after a call of the data plane. -/
theorem buffers_after (p : Platform) (w : World) (a : Args) (bufs : ScratchBuffers) :
    let outcome := processRequest p w a bufs.out
    outcome.out.userId.getD bufs.userId =
      (if outcome.status = 200 then
        (userIdWritten (requestIdentity p w a) (some bufs.userId)).getD bufs.userId
      else bufs.userId) ∧
    outcome.out.homeRegion.getD bufs.homeRegion =
      (if outcome.status = 200 then
        (homeRegionWritten (requestIdentity p w a) (some bufs.homeRegion)).getD bufs.homeRegion
      else bufs.homeRegion) := by
  dsimp only
  have hsettled := processRequest_settled p w a bufs.out
  rw [hsettled.userId, hsettled.homeRegion]
  constructor
  · split <;> rfl
  · split <;> rfl

theorem sizesKept_step (p : Platform) (s : WorkerState) (e : Event) (s' : WorkerState)
    (h : SizesKept s) (hs : step p s e = some s') : SizesKept s' := by
  rcases h with ⟨huser, hhome⟩
  cases e with
  | environment w =>
      cases hs
      exact ⟨huser, hhome⟩
  | access req headers =>
      have hs' : s' = _ := (Option.some.inj hs).symm
      rcases buffers_after p s.world (args req) s.bufs with ⟨hafterUser, hafterHome⟩
      have huserPos : 0 < s.bufs.userId.length := by
        rw [huser]
        decide
      have hhomePos : 0 < s.bufs.homeRegion.length := by
        rw [hhome]
        decide
      have hlenUser : ((processRequest p s.world (args req) s.bufs.out).out.userId.getD
          s.bufs.userId).length = userIdLen := by
        rw [hafterUser]
        split
        · rw [length_userIdWritten huserPos, huser]
        · exact huser
      have hlenHome : ((processRequest p s.world (args req) s.bufs.out).out.homeRegion.getD
          s.bufs.homeRegion).length = homeRegionLen := by
        rw [hafterHome]
        split
        · rw [length_homeRegionWritten hhomePos, hhome]
        · exact hhome
      rcases access_cases p req headers s.world s.bufs with
        ⟨-, -, -, hu, hh⟩ | ⟨-, -, -, -, hu, hh⟩ | ⟨-, -, -, hu, hh, -⟩
      · exact ⟨by rw [hs', hu, huser], by rw [hs', hh, hhome]⟩
      · exact ⟨by rw [hs', hu, hlenUser], by rw [hs', hh, hlenHome]⟩
      · exact ⟨by rw [hs', hu, hlenUser], by rw [hs', hh, hlenHome]⟩

/-! ## One admitted request -/

/-- A written buffer reads back as the value it carries. -/
theorem cStr_userIdWritten (id : UserIdentity) {buf : Bytes} (h : buf.length = userIdLen) :
    cStr ((userIdWritten (some id) (some buf)).getD buf) = carried userIdLen (some id.userId) := by
  have hpos : 0 < buf.length := by
    rw [h]
    decide
  have hwritten := Gateway.writeCString_of_pos (s := id.userId) hpos
  have hread := Gateway.cStr_of_writeCString hpos hwritten
  rw [h] at hread
  simpa [userIdWritten, hwritten, carried, h] using hread

theorem cStr_homeRegionWritten {identity : Option UserIdentity} {home : String}
    (hidentity : identity.bind UserIdentity.homeRegion = some home) {buf : Bytes}
    (h : buf.length = homeRegionLen) :
    cStr ((homeRegionWritten identity (some buf)).getD buf) = carried homeRegionLen (some home) := by
  have hpos : 0 < buf.length := by
    rw [h]
    decide
  have hwritten := Gateway.writeCString_of_pos (s := home) hpos
  have hread := Gateway.cStr_of_writeCString hpos hwritten
  rw [h] at hread
  simpa [homeRegionWritten, hidentity, hwritten, carried, h] using hread

/-- What the buffers of an admitted request read back as: its own values, where it has them. -/
theorem buffers_of_admitted {p : Platform} {s : WorkerState} {req : ClientRequest} {headers : Headers}
    (hsizes : SizesKept s) (hadmitted : (access p req headers s.world s.bufs).Admitted) :
    (∀ id, requestIdentity p s.world (args req) = some id →
      cStr (access p req headers s.world s.bufs).bufs.userId = carried userIdLen (some id.userId)) ∧
    (∀ home, (requestIdentity p s.world (args req)).bind UserIdentity.homeRegion = some home →
      cStr (access p req headers s.world s.bufs).bufs.homeRegion = carried homeRegionLen (some home)) := by
  rcases access_cases p req headers s.world s.bufs with
    ⟨hrefused, -⟩ | ⟨-, hrefused, -⟩ | ⟨hstatus, -, -, hu, hh, -⟩
  · exact absurd hadmitted hrefused
  · exact absurd hadmitted hrefused
  · rcases buffers_after p s.world (args req) s.bufs with ⟨hafterUser, hafterHome⟩
    rw [if_pos hstatus] at hafterUser hafterHome
    constructor
    · intro id hid
      rw [hu, hafterUser, hid]
      exact cStr_userIdWritten id hsizes.1
    · intro home hregion
      rw [hh, hafterHome]
      exact cStr_homeRegionWritten hregion hsizes.2

/-- What an admitted request leaves to the next one: the world behind its call, and its user id in the
buffer. -/
theorem after_admitted {p : Platform} {s s' : WorkerState} {req : ClientRequest} {headers : Headers}
    (hsizes : SizesKept s) (hadmitted : (access p req headers s.world s.bufs).Admitted)
    (hstep : step p s (.access req headers) = some s') :
    s'.world = (processRequest p s.world (args req) s.bufs.out).world ∧
      ∀ id, requestIdentity p s.world (args req) = some id →
        cStr s'.bufs.userId = carried userIdLen (some id.userId) := by
  have hs' : s' = _ := (Option.some.inj hstep).symm
  rw [hs']
  refine ⟨?_, (buffers_of_admitted hsizes hadmitted).1⟩
  rcases access_cases p req headers s.world s.bufs with
    ⟨hrefused, -⟩ | ⟨-, hrefused, -⟩ | ⟨-, -, hworld, -⟩
  · exact absurd hadmitted hrefused
  · exact absurd hadmitted hrefused
  · exact hworld

/-- An admitted request forwards what is its own exactly when it found the buffers clean. -/
theorem forwards_iff_clean (p : Platform) (s : WorkerState) (req : ClientRequest)
    (headers : Headers) (hsizes : SizesKept s)
    (hadmitted : (access p req headers s.world s.bufs).Admitted) :
    ForwardsOwnIdentity p s (.access req headers) ↔ BuffersClean p s (.access req headers) := by
  rcases access_cases p req headers s.world s.bufs with
    ⟨hrefused, -⟩ | ⟨-, hrefused, -⟩ | ⟨hstatus, -, -, hu, hh, hforwarded⟩
  · exact absurd hadmitted hrefused
  · exact absurd hadmitted hrefused
  · rcases buffers_after p s.world (args req) s.bufs with ⟨hafterUser, hafterHome⟩
    rw [if_pos hstatus] at hafterUser hafterHome
    rcases buffers_of_admitted hsizes hadmitted with ⟨hownUser, hownHome⟩
    have hlaw : ForwardsOwnIdentity p s (.access req headers) ↔
        (access p req headers s.world s.bufs).vars.forwarded =
          ownIdentity (requestIdentity p s.world (args req)) :=
      ⟨fun h => h hadmitted, fun h _ => h⟩
    rw [hlaw, hforwarded]
    unfold ownIdentity BuffersClean
    rw [Prod.mk.injEq]
    -- Either value is written and then reads back as its own, or is what the buffer held before.
    refine and_congr ?_ ?_
    · cases hid : requestIdentity p s.world (args req) with
      | none => simp [hu, hafterUser, hid, userIdWritten]
      | some id => simp [hownUser id hid]
    · cases hregion : (requestIdentity p s.world (args req)).bind UserIdentity.homeRegion with
      | none => simp [hh, hafterHome, hregion, homeRegionWritten]
      | some home => simp [hownHome home hregion]

/-! ## Every run -/

/-- In every run whose requests all find clean buffers each admitted request forwards its own
identity and nothing else, and a request that is admitted on a buffer left dirty by an earlier one
forwards what is not its own. -/
theorem own_identity_along_run (p : Platform) (w : World) (es : List Event) :
    (Along (step p) (BuffersClean p) (start w) es →
      Along (step p) (ForwardsOwnIdentity p) (start w) es) ∧
    (∀ s req headers, run (step p) (start w) es = some s →
      (access p req headers s.world s.bufs).Admitted →
      (ForwardsOwnIdentity p s (.access req headers) ↔ BuffersClean p s (.access req headers))) := by
  constructor
  · refine along_mono (fun s e s' h _ => sizesKept_step p s e s' h) ?_ (sizesKept_start w)
    intro s e hsizes hclean
    cases e with
    | environment w => trivial
    | access req headers =>
        exact fun hadmitted => (forwards_iff_clean p s req headers hsizes hadmitted).2 hclean hadmitted
  · intro s req headers hrun hadmitted
    exact forwards_iff_clean p s req headers
      (invariant_run (sizesKept_step p) (sizesKept_start w) hrun) hadmitted

/-- A fresh worker of the sample node knows Alice. -/
theorem requestIdentity_alice :
    requestIdentity Gateway.samplePlatform Gateway.sampleWorld (args aliceRequest) =
      some { userId := "alice", homeRegion := some "US" } :=
  Gateway.requestIdentity_sampleToken rfl rfl rfl rfl rfl rfl (by decide)

/-- An anonymous request on a fresh worker. -/
def anonymousFirst : List Event :=
  [.access (sampleRequest none) fun _ => none, .environment Gateway.sampleWorld]

/-- The anonymous request finds fresh buffers, and Alice's overwrites both: she is admitted under her name. -/
theorem alice_behind_anonymous : ∃ s,
    run (step Gateway.samplePlatform) (start Gateway.sampleWorld) anonymousFirst = some s ∧
      Along (step Gateway.samplePlatform) (BuffersClean Gateway.samplePlatform) (start Gateway.sampleWorld)
        (anonymousFirst ++ [.access aliceRequest fun _ => none]) ∧
      (access Gateway.samplePlatform aliceRequest (fun _ => none) s.world s.bufs).Admitted ∧
      (access Gateway.samplePlatform aliceRequest (fun _ => none) s.world s.bufs).vars.forwarded =
        ownIdentity (some { userId := "alice", homeRegion := some "US" }) := by
  have hclean : Along (step Gateway.samplePlatform) (BuffersClean Gateway.samplePlatform)
      (start Gateway.sampleWorld) (anonymousFirst ++ [.access aliceRequest fun _ => none]) := by
    refine ⟨?_, fun s hs => ⟨trivial, fun s' hs' => ⟨?_, fun _ _ => trivial⟩⟩⟩
    · exact ⟨fun _ => by decide, fun _ => by decide⟩
    · cases hs'
      unfold BuffersClean
      dsimp only
      rw [requestIdentity_alice]
      exact ⟨fun h => (by cases h), fun h => (by cases h)⟩
  have hforwards := (own_identity_along_run _ _ _).1 hclean
  refine ⟨_, rfl, hclean, ?_⟩
  have hadmitted : (access Gateway.samplePlatform aliceRequest (fun _ => none) Gateway.sampleWorld
      (access Gateway.samplePlatform (sampleRequest none) (fun _ => none) Gateway.sampleWorld
        ScratchBuffers.fresh).bufs).Admitted :=
    admitted_sample rfl rfl Gateway.nul_notMem_sampleBearer (by simp) (by decide +kernel)
      requestIdentity_alice _
  have hown := Along.at hforwards rfl hadmitted
  rw [show requestIdentity _ _ _ = _ from requestIdentity_alice] at hown
  exact ⟨hadmitted, hown⟩

/-- The call for Alice's request goes on to the router under her name. -/
theorem processRequest_alice :
    processRequest Gateway.samplePlatform Gateway.sampleWorld (args aliceRequest)
        ScratchBuffers.fresh.out =
      Gateway.routeStage Gateway.samplePlatform (bearerRequest ("Bearer " ++ Auth.sampleToken))
        (some { userId := "alice", homeRegion := some "US" })
        { Gateway.authedWorld Gateway.samplePlatform Gateway.sampleWorld (args aliceRequest)
            (Gateway.requestInspection Gateway.samplePlatform Gateway.sampleWorld (args aliceRequest)).1 with
          worker :=
            { (Gateway.authedWorld Gateway.samplePlatform Gateway.sampleWorld (args aliceRequest)
                (Gateway.requestInspection Gateway.samplePlatform Gateway.sampleWorld
                  (args aliceRequest)).1).worker with
              inFlight := 1 } }
        (Gateway.numberedOut Gateway.sampleWorld ScratchBuffers.fresh.out) := by
  have hslot : Backpressure.acquire Gateway.sampleWorld.worker.config
      (Gateway.sampleWorld.globalState Gateway.samplePlatform) Gateway.sampleWorld.worker.inFlight =
        (1, true) := rfl
  have hargs : ¬((args aliceRequest).authHeader = none ∨ (args aliceRequest).path = none ∨
      ScratchBuffers.fresh.out.region = none) := by
    simp [aliceRequest, sampleRequest, args, ScratchBuffers.out]
  have hallow : (Gateway.requestInspection Gateway.samplePlatform Gateway.sampleWorld
      (args aliceRequest)).2 = .allow :=
    inspection_sampleRequest Gateway.nul_notMem_sampleBearer (by simp) (by decide +kernel)
  have hrequest : (args aliceRequest).request = bearerRequest ("Bearer " ++ Auth.sampleToken) :=
    request_sampleRequest Gateway.nul_notMem_sampleBearer
  rw [Gateway.processRequest_of_inspected (by rw [hslot]) hargs hallow, requestIdentity_alice, hslot,
    hrequest]

/-- What a fresh worker is left with by the request of Alice. -/
def afterAlice : WorkerState :=
  let r := access Gateway.samplePlatform aliceRequest (fun _ => none) Gateway.sampleWorld
    ScratchBuffers.fresh
  { world := r.world, bufs := r.bufs }

/-- Alice's request followed by an anonymous one: the second is sent on under her name. -/
theorem anonymous_forwards_alice :
    ¬ Along (step Gateway.samplePlatform) (ForwardsOwnIdentity Gateway.samplePlatform)
      (start Gateway.sampleWorld)
      [.access aliceRequest (fun _ => none), .access (sampleRequest none) (fun _ => none)] := by
  rintro ⟨-, hnext⟩
  -- Alice is admitted and leaves her values in the buffers.
  have hstep : step Gateway.samplePlatform (start Gateway.sampleWorld)
      (.access aliceRequest (fun _ => none)) = some afterAlice := by
    unfold step afterAlice start
    rfl
  have hlaw : ForwardsOwnIdentity Gateway.samplePlatform afterAlice
      (.access (sampleRequest none) (fun _ => none)) := (hnext afterAlice hstep).1
  have hsizes : SizesKept afterAlice :=
    sizesKept_step Gateway.samplePlatform _ _ _ (sizesKept_start Gateway.sampleWorld) hstep
  have halice : (access Gateway.samplePlatform aliceRequest (fun _ => none) Gateway.sampleWorld
      ScratchBuffers.fresh).Admitted :=
    admitted_sample rfl rfl Gateway.nul_notMem_sampleBearer (by simp) (by decide +kernel)
      requestIdentity_alice _
  rcases after_admitted (sizesKept_start Gateway.sampleWorld) halice hstep with ⟨hworld, hread⟩
  have hname : cStr afterAlice.bufs.userId = carried userIdLen (some "alice") :=
    hread _ requestIdentity_alice
  -- The second request is admitted too and finds them there.
  have hadmitted : (access Gateway.samplePlatform (sampleRequest none) (fun _ => none)
      afterAlice.world afterAlice.bufs).Admitted := by
    refine admitted_of_ok rfl ?_
    rw [hworld]
    unfold start
    rw [processRequest_alice]
    decide +kernel
  have hclean := (forwards_iff_clean Gateway.samplePlatform afterAlice (sampleRequest none)
    (fun _ => none) hsizes hadmitted).1 hlaw
  have hempty : carried userIdLen (some "alice") = [] := hname.symm.trans (hclean.1 rfl)
  exact absurd hempty (by decide)

end Identity
end Lua
end GatewayEdge
