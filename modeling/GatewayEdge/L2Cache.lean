import GatewayEdge.Lua.Dispatch

/-!
# L2Cache — for whom the responses of the shared cache were made

The location of the `normal` tier keeps responses in a cache that all workers share and that knows nothing of
users.  A request with an `Authorization` header is kept away from it in both directions, so what is stored was
asked for by nobody in particular.  Whether it was made for nobody is another matter: an upstream goes by the
identity headers, and these come from the buffers of the worker.
-/

namespace GatewayEdge
namespace L2Cache

open Foundation
open Auth (UserIdentity)
open Gateway (Platform World cStr requestIdentity strArg)
open Lua (ClientRequest Headers ScratchBuffers Access bytes userIdLen homeRegionLen)
open Lua.Dispatch (Node Process)
open Lua.Identity (WorkerState SizesKept carried)

/-! ## The cache and the requests in front of it -/

/-- `$gateway_skip_cache`. -/
def skipCache (req : ClientRequest) : Bool := req.httpAuthorization.getD [] != []

/-- `$uri$is_args$args`: the address as NGINX has normalised it.  Routes and upstreams go by the raw
`$request_uri`. -/
def cacheTarget (req : ClientRequest) (args : Bytes) : Bytes :=
  req.uri.getD [] ++ (if args = [] then [] else bytes "?") ++ args

/-- The only location with a cache. -/
def cachingLocation : Bytes := bytes "@up_normal"

/-- A request that has been handed to a location. -/
structure Exchange where
  method : Bytes
  host : Bytes
  target : Bytes
  location : Bytes
  skip : Bool
  /-- What the upstream is sent as `X-User-Id` and `X-Home-Region`. -/
  told : Bytes × Bytes
  /-- The identity its token gave it, and those of the users its worker had admitted before. -/
  identity : Option UserIdentity
  before : List UserIdentity

/-- `proxy_cache_key`. -/
def Exchange.key (x : Exchange) : Bytes := x.method ++ x.host ++ x.target

/-- The response may be stored, or a stored one be served.  NGINX caches for two methods. -/
def Exchange.cacheable (x : Exchange) : Bool :=
  x.location == cachingLocation && (x.method == bytes "GET" || x.method == bytes "HEAD") && !x.skip

/-- The host holds no slash, and the target begins with one. -/
def Exchange.Plain (x : Exchange) : Prop := 47 ∉ x.host ∧ x.target.head? = some 47

theorem takeWhile_of_plain {x : Exchange} (h : x.Plain) :
    (x.host ++ x.target).takeWhile (fun b => b != 47) = x.host := by
  have hhost : ∀ b ∈ x.host, (b != 47) = true := fun b hb => bne_iff_ne.2 fun heq => h.1 (heq ▸ hb)
  rcases List.head?_eq_some_iff.1 h.2 with ⟨rest, htarget⟩
  rw [htarget, List.takeWhile_append_of_pos hhost, List.takeWhile_cons_of_neg (by decide), List.append_nil]

theorem method_of_cacheable {x : Exchange} (h : x.cacheable = true) :
    x.method = bytes "GET" ∨ x.method = bytes "HEAD" := by
  unfold Exchange.cacheable at h
  have hmethod := (Bool.and_eq_true_iff.1 (Bool.and_eq_true_iff.1 h).1).2
  rcases Bool.or_eq_true_iff.1 hmethod with hget | hhead
  · exact Or.inl (eq_of_beq hget)
  · exact Or.inr (eq_of_beq hhead)

/-- Equal keys come from equal methods, hosts and targets, although nothing separates the three. -/
theorem eq_of_key_eq {x y : Exchange} (hx : x.Plain) (hy : y.Plain) (hcx : x.cacheable = true)
    (hcy : y.cacheable = true) (h : x.key = y.key) :
    x.method = y.method ∧ x.host = y.host ∧ x.target = y.target := by
  unfold Exchange.key at h
  rw [List.append_assoc, List.append_assoc] at h
  have hmethod : x.method = y.method := by
    have hget : bytes "GET" = [71, 69, 84] := by decide
    have hhead : bytes "HEAD" = [72, 69, 65, 68] := by decide
    have hfirst := congrArg List.head? h
    rcases method_of_cacheable hcx with hmx | hmx
    · rcases method_of_cacheable hcy with hmy | hmy
      · rw [hmx, hmy]
      · rw [hmx, hmy, hget, hhead] at hfirst
        exact absurd (Option.some.inj hfirst) (by decide)
    · rcases method_of_cacheable hcy with hmy | hmy
      · rw [hmx, hmy, hget, hhead] at hfirst
        exact absurd (Option.some.inj hfirst) (by decide)
      · rw [hmx, hmy]
  rw [hmethod] at h
  have hrest : x.host ++ x.target = y.host ++ y.target := List.append_cancel_left h
  have hhost : x.host = y.host := by
    rw [← takeWhile_of_plain hx, hrest, takeWhile_of_plain hy]
  rw [hhost] at hrest
  exact ⟨hmethod, hhost, List.append_cancel_left hrest⟩

/-- A stored response, with the exchange it was made in. -/
structure Stored (β : Type*) where
  response : β
  made : Exchange

/-- A node, the users each process has admitted, the requests with an upstream or waiting for the cache, the
cache, and what has been served from it. -/
structure Edge (β : Type*) where
  node : Node
  users : ℕ → List UserIdentity
  forwarded : List Exchange
  cache : Bytes → Option (Stored β)
  served : List (Exchange × Stored β)

/-- A request arrives and is perhaps handed on; a stored response is served to one that was; its upstream
answers, and the response is perhaps stored; an entry goes; and whatever else happens on the node. -/
inductive Event (β : Type*)
  | arrive (v : ℕ) (req : ClientRequest) (headers : Headers) (host args : Bytes)
  | hit (index : ℕ)
  | answer (index : ℕ) (response : β) (store : Bool)
  | expire (key : Bytes)
  | log (v index : ℕ) (status : Int) (latencyUs : ℕ)
  | spawn (v : ℕ) (worker : Gateway.Worker) (config : GatewayConfig)
  | elsewhere (clockMs : ℕ) (shm : Gateway.Shm) (quotaCounters : String → Int) (workers : ℕ → Gateway.Worker)
      (configs : ℕ → GatewayConfig)

/-- The exchange of a request that was handed to `location`. -/
def exchangeOf (req : ClientRequest) (host args location : Bytes) (r : Access)
    (identity : Option UserIdentity) (before : List UserIdentity) : Exchange where
  method := req.method
  host := host
  target := cacheTarget req args
  location := location
  skip := skipCache req
  told := r.vars.forwarded
  identity := identity
  before := before

variable {β : Type*}

/-- When an entry is fresh enough, when it may be used stale and when it is evicted is left open. -/
def step (p : Platform) (s : Edge β) : Event β → Option (Edge β)
  | .arrive v req headers host args =>
    let w := s.node.world v
    let r := Lua.access p req headers w (s.node.processes v).bufs
    let identity := requestIdentity p w (Lua.args req)
    (Lua.Dispatch.step p s.node (.access v req headers)).map fun node =>
      match r.handoff with
      | .exit _ => { s with node := node }
      | .exec location =>
        { s with
          node := node
          users := Function.update s.users v (s.users v ++ identity.toList)
          forwarded := s.forwarded ++ [exchangeOf req host args location r identity (s.users v)] }
  | .hit index =>
    match s.forwarded[index]? with
    | none => none
    | some x =>
      -- `proxy_cache_bypass`
      if x.cacheable then
        (s.cache x.key).map fun stored =>
          { s with forwarded := s.forwarded.eraseIdx index, served := (x, stored) :: s.served }
      else none
  | .answer index response store =>
    match s.forwarded[index]? with
    | none => none
    | some x =>
      if store then
        -- `proxy_no_cache`
        if x.cacheable then
          some
            { s with
              forwarded := s.forwarded.eraseIdx index
              cache := Function.update s.cache x.key (some { response := response, made := x }) }
        else none
      else some { s with forwarded := s.forwarded.eraseIdx index }
  | .expire key => some { s with cache := Function.update s.cache key none }
  | .log v index status latencyUs =>
    (Lua.Dispatch.step p s.node (.log v index status latencyUs)).map fun node => { s with node := node }
  | .spawn v worker config =>
    (Lua.Dispatch.step p s.node (.spawn v worker config)).map fun node =>
      { s with node := node, users := Function.update s.users v [] }
  | .elsewhere clockMs shm quotaCounters workers configs =>
    (Lua.Dispatch.step p s.node (.elsewhere clockMs shm quotaCounters workers configs)).map fun node =>
      { s with node := node }

/-- Nothing is stored. -/
def start (node : Node) : Edge β where
  node := node
  users _ := []
  forwarded := []
  cache _ := none
  served := []

/-! ## Whose values the headers can hold -/

/-- Each of two values is empty or was a user's of the list. -/
structure Leftover (users : List UserIdentity) (told : Bytes × Bytes) : Prop where
  userId : told.1 = [] ∨ ∃ id ∈ users, told.1 = carried userIdLen (some id.userId)
  homeRegion : told.2 = [] ∨ ∃ id ∈ users, ∃ home, id.homeRegion = some home ∧
    told.2 = carried homeRegionLen (some home)

theorem Leftover.mono {users later : List UserIdentity} {told : Bytes × Bytes} (h : Leftover users told)
    (hsub : users ⊆ later) : Leftover later told := by
  constructor
  · rcases h.userId with hempty | ⟨id, hid, heq⟩
    · exact Or.inl hempty
    · exact Or.inr ⟨id, hsub hid, heq⟩
  · rcases h.homeRegion with hempty | ⟨id, hid, home, hhome, heq⟩
    · exact Or.inl hempty
    · exact Or.inr ⟨id, hsub hid, home, hhome, heq⟩

/-- Without earlier users the headers are empty. -/
theorem Leftover.nobody {told : Bytes × Bytes} (h : Leftover [] told) : told = ([], []) := by
  rcases h.userId with huser | ⟨id, hid, -⟩
  · rcases h.homeRegion with hhome | ⟨id, hid, -⟩
    · exact Prod.ext huser hhome
    · exact absurd hid List.not_mem_nil
  · exact absurd hid List.not_mem_nil

/-- What the identity buffers of a process read back as. -/
def held (bufs : ScratchBuffers) : Bytes × Bytes := (cStr bufs.userId, cStr bufs.homeRegion)

/-- The identity buffers have their sizes, and hold what a user of the list has left there. -/
structure Kept (users : List UserIdentity) (bufs : ScratchBuffers) : Prop where
  sizes : bufs.userId.length = userIdLen ∧ bufs.homeRegion.length = homeRegionLen
  held : Leftover users (held bufs)

theorem kept_fresh : Kept [] ScratchBuffers.fresh := by
  refine ⟨⟨List.length_replicate, List.length_replicate⟩, Or.inl ?_, Or.inl ?_⟩
  · decide
  · decide

section Access

variable {p : Platform} {req : ClientRequest} {headers : Headers} {w : World} {bufs : ScratchBuffers}
  {users : List UserIdentity}

/-- A refused request leaves the identity buffers alone. -/
theorem held_of_refused (h : ¬ (Lua.access p req headers w bufs).Admitted) :
    held (Lua.access p req headers w bufs).bufs = held bufs := by
  unfold held
  rcases Lua.access_cases p req headers w bufs with
    ⟨-, -, -, huser, hhome⟩ | ⟨hstatus, -, -, -, huser, hhome⟩ | ⟨-, hadmitted, -⟩
  · rw [huser, hhome]
  · rcases Lua.Identity.buffers_after p w (Lua.args req) bufs with ⟨hafterUser, hafterHome⟩
    rw [if_neg hstatus] at hafterUser hafterHome
    rw [huser, hhome, hafterUser, hafterHome]
  · exact absurd hadmitted h

/-- An admitted request without an identity is sent on with what the buffers hold. -/
theorem told_of_anonymous (h : (Lua.access p req headers w bufs).Admitted)
    (hid : requestIdentity p w (Lua.args req) = none) :
    held (Lua.access p req headers w bufs).bufs = held bufs := by
  unfold held
  rcases Lua.access_cases p req headers w bufs with
    ⟨hrefused, -⟩ | ⟨-, hrefused, -⟩ | ⟨hstatus, -, -, huser, hhome, -⟩
  · exact absurd h hrefused
  · exact absurd h hrefused
  · -- Without an identity neither buffer is written.
    rcases Lua.Identity.buffers_after p w (Lua.args req) bufs with ⟨hafterUser, hafterHome⟩
    rw [if_pos hstatus, hid] at hafterUser hafterHome
    rw [huser, hhome, hafterUser, hafterHome]
    rfl

theorem forwarded_of_admitted (h : (Lua.access p req headers w bufs).Admitted) :
    (Lua.access p req headers w bufs).vars.forwarded = held (Lua.access p req headers w bufs).bufs := by
  rcases Lua.access_cases p req headers w bufs with
    ⟨hrefused, -⟩ | ⟨-, hrefused, -⟩ | ⟨-, -, -, -, -, hforwarded⟩
  · exact absurd h hrefused
  · exact absurd h hrefused
  · exact hforwarded

/-- The home region of a user without one is what the buffer held before. -/
theorem homeRegion_of_admitted (h : (Lua.access p req headers w bufs).Admitted)
    (hhome : (requestIdentity p w (Lua.args req)).bind UserIdentity.homeRegion = none) :
    cStr (Lua.access p req headers w bufs).bufs.homeRegion = cStr bufs.homeRegion := by
  rcases Lua.access_cases p req headers w bufs with
    ⟨hrefused, -⟩ | ⟨-, hrefused, -⟩ | ⟨hstatus, -, -, -, hread, -⟩
  · exact absurd h hrefused
  · exact absurd h hrefused
  · have hafter := (Lua.Identity.buffers_after p w (Lua.args req) bufs).2
    rw [if_pos hstatus] at hafter
    rw [hread, hafter]
    unfold Gateway.homeRegionWritten
    rw [hhome]
    rfl

/-- An admitted request leaves its own values, or those of the users before it. -/
theorem held_of_admitted (hkept : Kept users bufs) (h : (Lua.access p req headers w bufs).Admitted) :
    Leftover (users ++ (requestIdentity p w (Lua.args req)).toList)
      (held (Lua.access p req headers w bufs).bufs) := by
  have hown := @Lua.Identity.buffers_of_admitted p { world := w, bufs := bufs } req headers hkept.sizes h
  have hearlier := hkept.held.mono (List.subset_append_left users (requestIdentity p w (Lua.args req)).toList)
  cases hid : requestIdentity p w (Lua.args req) with
  | none =>
      rw [told_of_anonymous h hid]
      rw [hid] at hearlier
      exact hearlier
  | some id =>
      have hmem : id ∈ users ++ (some id).toList := List.mem_append_right users (Option.mem_toList.2 rfl)
      refine ⟨Or.inr ⟨id, hmem, hown.1 id hid⟩, ?_⟩
      cases hhome : id.homeRegion with
      | some home => exact Or.inr ⟨id, hmem, home, hhome, hown.2 home (by rw [hid]; exact hhome)⟩
      | none =>
          -- The home region of an earlier user stays behind the new name.
          have hread := homeRegion_of_admitted h (by rw [hid]; exact hhome)
          have hheld : (held (Lua.access p req headers w bufs).bufs).2 = (held bufs).2 := hread
          rw [hheld]
          rw [hid] at hearlier
          exact hearlier.homeRegion

theorem kept_access (hkept : Kept users bufs) :
    Kept (if (Lua.access p req headers w bufs).handoff.isExec then
        users ++ (requestIdentity p w (Lua.args req)).toList else users)
      (Lua.access p req headers w bufs).bufs := by
  have hsizes :=
    Lua.Identity.sizesKept_step p { world := w, bufs := bufs } (.access req headers) _ hkept.sizes rfl
  by_cases h : (Lua.access p req headers w bufs).Admitted
  · have hexec : (Lua.access p req headers w bufs).handoff.isExec = true := h
    rw [if_pos hexec]
    exact ⟨hsizes, held_of_admitted hkept h⟩
  · have hexit : ¬ (Lua.access p req headers w bufs).handoff.isExec = true := h
    rw [if_neg hexit]
    refine ⟨hsizes, ?_⟩
    rw [held_of_refused h]
    exact hkept.held

/-- Without an `Authorization` header there is no identity. -/
theorem identity_of_unskipped (h : skipCache req = false) : requestIdentity p w (Lua.args req) = none := by
  have hempty : req.httpAuthorization.getD [] = [] := by simpa [skipCache] using h
  have hauth : strArg (Lua.args req).authHeader = "" := by
    change strArg (some (req.httpAuthorization.getD [])) = ""
    rw [hempty]
    decide
  unfold requestIdentity
  rw [hauth]
  rfl

end Access

/-! ## What each exchange was made for -/

/-- An exchange that may use the cache has no user, and its upstream is told only what the worker has left. -/
def Exchange.Sound (x : Exchange) : Prop := x.skip = false → x.identity = none ∧ Leftover x.before x.told

theorem Exchange.Sound.of_cacheable {x : Exchange} (h : x.Sound) (hcacheable : x.cacheable = true) :
    x.identity = none ∧ Leftover x.before x.told := by
  unfold Exchange.cacheable at hcacheable
  have hskip := (Bool.and_eq_true_iff.1 hcacheable).2
  exact h (Eq.mp (Bool.not_eq_true' x.skip) hskip)

theorem sound_exchangeOf {p : Platform} {req : ClientRequest} {headers : Headers} {w : World}
    {bufs : ScratchBuffers} {users : List UserIdentity} (hkept : Kept users bufs)
    (h : (Lua.access p req headers w bufs).Admitted) (host args location : Bytes) :
    (exchangeOf req host args location (Lua.access p req headers w bufs)
      (requestIdentity p w (Lua.args req)) users).Sound := by
  intro hskip
  have hid : requestIdentity p w (Lua.args req) = none := identity_of_unskipped hskip
  refine ⟨hid, ?_⟩
  have htold : (Lua.access p req headers w bufs).vars.forwarded = held bufs := by
    rw [forwarded_of_admitted h, told_of_anonymous h hid]
  change Leftover users (Lua.access p req headers w bufs).vars.forwarded
  rw [htold]
  exact hkept.held

/-- The entry of a key was made for it, in an exchange that may use the cache. -/
structure Stored.Sound (key : Bytes) (stored : Stored β) : Prop where
  key : stored.made.key = key
  cacheable : stored.made.cacheable = true
  sound : stored.made.Sound

/-- All that is known of the buffers, the requests under way, the entries and what has been served. -/
structure Invariant (s : Edge β) : Prop where
  kept : ∀ v, Kept (s.users v) (s.node.processes v).bufs
  forwarded : ∀ x ∈ s.forwarded, x.Sound
  cache : ∀ key stored, s.cache key = some stored → stored.Sound key
  served : ∀ entry ∈ s.served, entry.1.cacheable = true ∧ entry.1.Sound ∧ entry.2.Sound entry.1.key

theorem kept_update {s : Edge β} (h : ∀ u, Kept (s.users u) (s.node.processes u).bufs) (v : ℕ)
    {users : List UserIdentity} {process : Process} (hv : Kept users process.bufs) :
    ∀ u, Kept (Function.update s.users v users u) (Function.update s.node.processes v process u).bufs := by
  intro u
  by_cases hu : u = v
  · subst hu
    rw [Function.update_self, Function.update_self]
    exact hv
  · rw [Function.update_of_ne hu, Function.update_of_ne hu]
    exact h u

/-- A process that changes while its users stay. -/
theorem kept_process {s : Edge β} (h : ∀ u, Kept (s.users u) (s.node.processes u).bufs) (v : ℕ)
    {process : Process} (hv : Kept (s.users v) process.bufs) :
    ∀ u, Kept (s.users u) (Function.update s.node.processes v process u).bufs := by
  have hupdated := kept_update h v hv
  rw [Function.update_eq_self] at hupdated
  exact hupdated

/-- What a cache holds after one of its entries has been set or dropped. -/
theorem eq_or_of_update {cache : Bytes → Option (Stored β)} {key other : Bytes} {entry : Option (Stored β)}
    {stored : Stored β} (h : Function.update cache key entry other = some stored) :
    (other = key ∧ entry = some stored) ∨ cache other = some stored := by
  by_cases hkey : other = key
  · subst hkey
    rw [Function.update_self] at h
    exact Or.inl ⟨rfl, h⟩
  · rw [Function.update_of_ne hkey] at h
    exact Or.inr h

theorem sound_eraseIdx {xs : List Exchange} (h : ∀ x ∈ xs, x.Sound) (index : ℕ) :
    ∀ x ∈ xs.eraseIdx index, x.Sound := fun x hx => h x (List.mem_of_mem_eraseIdx hx)

theorem invariant_start (clockMs : ℕ) (shm : Gateway.Shm) (quotaCounters : String → Int)
    (workers : ℕ → Gateway.Worker) (configs : ℕ → GatewayConfig) :
    Invariant (start (Lua.Dispatch.start clockMs shm quotaCounters workers configs) : Edge β) where
  kept _ := kept_fresh
  forwarded x hx := absurd hx List.not_mem_nil
  cache key stored h := by cases h
  served entry h := absurd h List.not_mem_nil

section Steps

variable {p : Platform} {s s' : Edge β}

theorem invariant_arrive {v : ℕ} {req : ClientRequest} {headers : Headers} {host args : Bytes}
    (h : Invariant s) (hs : step p s (.arrive v req headers host args) = some s') : Invariant s' := by
  have hkept := @kept_access p req headers (s.node.world v) _ _ (h.kept v)
  cases hhandoff : (Lua.access p req headers (s.node.world v) (s.node.processes v).bufs).handoff with
  | exit status =>
      have hexit : ¬ (Lua.access p req headers (s.node.world v) (s.node.processes v).bufs).handoff.isExec := by
        rw [hhandoff]
        exact Bool.false_ne_true
      rw [if_neg hexit] at hkept
      unfold step at hs
      dsimp only at hs
      rw [hhandoff] at hs
      cases hs
      exact
        { kept := kept_process h.kept v hkept
          forwarded := h.forwarded
          cache := h.cache
          served := h.served }
  | exec location =>
      have hexec : (Lua.access p req headers (s.node.world v) (s.node.processes v).bufs).handoff.isExec := by
        rw [hhandoff]
        rfl
      rw [if_pos hexec] at hkept
      unfold step at hs
      dsimp only at hs
      rw [hhandoff] at hs
      cases hs
      refine
        { kept := kept_update h.kept v hkept
          forwarded := ?_
          cache := h.cache
          served := h.served }
      intro x hx
      rcases List.mem_append.1 hx with hx | hx
      · exact h.forwarded x hx
      · rw [List.mem_singleton.1 hx]
        exact sound_exchangeOf (h.kept v) hexec host args location

theorem invariant_hit {index : ℕ} (h : Invariant s) (hs : step p s (.hit index) = some s') : Invariant s' := by
  unfold step at hs
  dsimp only at hs
  split at hs
  · cases hs
  · rename_i x hx
    split at hs
    · rename_i hcacheable
      rcases Option.map_eq_some_iff.1 hs with ⟨stored, hstored, rfl⟩
      refine
        { kept := h.kept
          forwarded := sound_eraseIdx h.forwarded index
          cache := h.cache
          served := ?_ }
      intro entry hentry
      rcases List.mem_cons.1 hentry with rfl | hentry
      · exact ⟨hcacheable, h.forwarded x (List.mem_of_getElem? hx), h.cache x.key stored hstored⟩
      · exact h.served entry hentry
    · cases hs

theorem invariant_answer {index : ℕ} {response : β} {store : Bool} (h : Invariant s)
    (hs : step p s (.answer index response store) = some s') : Invariant s' := by
  unfold step at hs
  dsimp only at hs
  split at hs
  · cases hs
  · rename_i x hx
    split at hs
    · split at hs
      · rename_i hcacheable
        cases hs
        refine
          { kept := h.kept
            forwarded := sound_eraseIdx h.forwarded index
            cache := ?_
            served := h.served }
        intro key stored hstored
        rcases eq_or_of_update hstored with ⟨rfl, hnew⟩ | hold
        · cases hnew
          exact ⟨rfl, hcacheable, h.forwarded x (List.mem_of_getElem? hx)⟩
        · exact h.cache key stored hold
      · cases hs
    · cases hs
      exact
        { kept := h.kept
          forwarded := sound_eraseIdx h.forwarded index
          cache := h.cache
          served := h.served }

end Steps

theorem invariant_step (p : Platform) (s : Edge β) (e : Event β) (s' : Edge β) (h : Invariant s)
    (hs : step p s e = some s') : Invariant s' := by
  cases e with
  | arrive v req headers host args =>
      exact invariant_arrive h hs
  | hit index =>
      exact invariant_hit h hs
  | answer index response store =>
      exact invariant_answer h hs
  | expire key =>
      cases hs
      refine
        { kept := h.kept
          forwarded := h.forwarded
          cache := ?_
          served := h.served }
      intro other stored hstored
      rcases eq_or_of_update hstored with ⟨-, hnone⟩ | hold
      · cases hnone
      · exact h.cache other stored hold
  | log v index status latencyUs =>
      rcases Option.map_eq_some_iff.1 hs with ⟨node, hnode, rfl⟩
      unfold Lua.Dispatch.step at hnode
      dsimp only at hnode
      split at hnode
      · cases hnode
      · cases hnode
        exact
          { kept := kept_process h.kept v (h.kept v)
            forwarded := h.forwarded
            cache := h.cache
            served := h.served }
  | spawn v worker config =>
      cases hs
      exact
        { kept := kept_update h.kept v kept_fresh
          forwarded := h.forwarded
          cache := h.cache
          served := h.served }
  | elsewhere clockMs shm quotaCounters workers configs =>
      cases hs
      exact
        { kept := h.kept
          forwarded := h.forwarded
          cache := h.cache
          served := h.served }

/-! ## Where a stored response comes from -/

/-- The response is in the cache or has been served from it. -/
def Holds (stored : Stored β) (s : Edge β) : Prop :=
  (∃ key, s.cache key = some stored) ∨ ∃ x, (x, stored) ∈ s.served

/-- Only the answer of an upstream brings a response in. -/
theorem answered_of_becomes {p : Platform} {stored : Stored β} {s s' : Edge β} {e : Event β}
    (hs : step p s e = some s') (hbefore : ¬ Holds stored s) (hafter : Holds stored s') :
    ∃ index, e = .answer index stored.response true ∧ s.forwarded[index]? = some stored.made := by
  have hsame : s'.cache = s.cache → s'.served = s.served → False := by
    intro hcache hserved
    unfold Holds at hafter
    rw [hcache, hserved] at hafter
    exact hbefore hafter
  cases e with
  | arrive v req headers host args =>
      unfold step at hs
      dsimp only at hs
      cases hhandoff : (Lua.access p req headers (s.node.world v) (s.node.processes v).bufs).handoff with
      | exit status =>
          rw [hhandoff] at hs
          cases hs
          exact (hsame rfl rfl).elim
      | exec location =>
          rw [hhandoff] at hs
          cases hs
          exact (hsame rfl rfl).elim
  | hit index =>
      unfold step at hs
      dsimp only at hs
      split at hs
      · cases hs
      · split at hs
        · rename_i x hx hcacheable
          -- What is served has been in the cache before.
          rcases Option.map_eq_some_iff.1 hs with ⟨held, hheld, rfl⟩
          rcases hafter with ⟨key, hkey⟩ | ⟨y, hy⟩
          · exact absurd (Or.inl ⟨key, hkey⟩) hbefore
          · rcases List.mem_cons.1 hy with heq | hy
            · cases heq
              exact absurd (Or.inl ⟨x.key, hheld⟩) hbefore
            · exact absurd (Or.inr ⟨y, hy⟩) hbefore
        · cases hs
  | answer index response store =>
      unfold step at hs
      dsimp only at hs
      split at hs
      · cases hs
      · rename_i x hx
        split at hs
        · rename_i hstore
          split at hs
          · cases hs
            rcases hafter with ⟨key, hkey⟩ | ⟨y, hy⟩
            · rcases eq_or_of_update hkey with ⟨-, hnew⟩ | hold
              · cases hnew
                exact ⟨index, by rw [hstore], hx⟩
              · exact absurd (Or.inl ⟨key, hold⟩) hbefore
            · exact absurd (Or.inr ⟨y, hy⟩) hbefore
          · cases hs
        · cases hs
          exact (hsame rfl rfl).elim
  | expire key =>
      cases hs
      rcases hafter with ⟨other, hother⟩ | ⟨y, hy⟩
      · rcases eq_or_of_update hother with ⟨-, hnone⟩ | hold
        · cases hnone
        · exact absurd (Or.inl ⟨other, hold⟩) hbefore
      · exact absurd (Or.inr ⟨y, hy⟩) hbefore
  | log v index status latencyUs =>
      rcases Option.map_eq_some_iff.1 hs with ⟨node, -, rfl⟩
      exact (hsame rfl rfl).elim
  | spawn v worker config =>
      cases hs
      exact (hsame rfl rfl).elim
  | elsewhere clockMs shm quotaCounters workers configs =>
      cases hs
      exact (hsame rfl rfl).elim

/-- An upstream has given the response in this run, to the exchange it is stored with. -/
def Answered (p : Platform) (initial : Edge β) (es : List (Event β)) (stored : Stored β) : Prop :=
  ∃ before index after s, es = before ++ .answer index stored.response true :: after ∧
    run (step p) initial before = some s ∧ s.forwarded[index]? = some stored.made

theorem answered_of_holds {p : Platform} {node : Node} {es : List (Event β)} {s : Edge β}
    (hrun : run (step p) (start node) es = some s) {stored : Stored β} (h : Holds stored s) :
    Answered p (start node) es stored := by
  have hempty : ¬ Holds stored (start node) := by
    rintro (⟨key, hkey⟩ | ⟨x, hx⟩)
    · cases hkey
    · exact absurd hx List.not_mem_nil
  rcases exists_step_of_becomes hrun hempty h with
    ⟨before, e, after, m, m', hsplit, hreached, hstep, hbefore, hafter⟩
  rcases answered_of_becomes hstep hbefore hafter with ⟨index, rfl, hforwarded⟩
  exact ⟨before, index, after, m, hsplit, hreached, hforwarded⟩

/-! ## Every response served from the cache -/

/-- A response that is served to `x` is the answer to an earlier exchange with the same method, host and
normalised target, whatever the raw request lines were; neither has a user, and the upstream was told of nobody
but of users its worker had admitted before. -/
structure MadeForNobody (p : Platform) (initial : Edge β) (es : List (Event β)) (x : Exchange)
    (stored : Stored β) : Prop where
  answered : Answered p initial es stored
  line : x.Plain → stored.made.Plain →
    stored.made.method = x.method ∧ stored.made.host = x.host ∧ stored.made.target = x.target
  cacheable : x.cacheable = true ∧ stored.made.cacheable = true
  anonymous : x.identity = none ∧ stored.made.identity = none
  leftover : Leftover stored.made.before stored.made.told
  nobody : stored.made.before = [] → stored.made.told = ([], [])

/-- In every run of a node, whatever the upstreams answer and however long the entries are kept, a response
from the cache was asked for without a token, and with the method, the host and the normalised target it is
served for.  Its upstream was told of nobody, or of users that the worker in front of it had admitted before. -/
theorem served_as_made {p : Platform} {clockMs : ℕ} {shm : Gateway.Shm} {quotaCounters : String → Int}
    {workers : ℕ → Gateway.Worker} {configs : ℕ → GatewayConfig} {es : List (Event β)} {s : Edge β}
    (hrun : run (step p) (start (Lua.Dispatch.start clockMs shm quotaCounters workers configs)) es = some s)
    (entry : Exchange × Stored β) (hserved : entry ∈ s.served) :
    MadeForNobody p (start (Lua.Dispatch.start clockMs shm quotaCounters workers configs)) es entry.1
      entry.2 := by
  have hinv := invariant_run (invariant_step p) (invariant_start clockMs shm quotaCounters workers configs) hrun
  rcases hinv.served entry hserved with ⟨hcacheable, hsound, hstored⟩
  have hown := hsound.of_cacheable hcacheable
  have hmade := hstored.sound.of_cacheable hstored.cacheable
  refine
    { answered := answered_of_holds hrun (Or.inr ⟨entry.1, hserved⟩)
      line := fun hx hy => eq_of_key_eq hy hx hstored.cacheable hcacheable hstored.key
      cacheable := ⟨hcacheable, hstored.cacheable⟩
      anonymous := ⟨hown.1, hmade.1⟩
      leftover := hmade.2
      nobody := ?_ }
  intro hbefore
  have hleft := hmade.2
  rw [hbefore] at hleft
  exact hleft.nobody

/-- A request on one worker, its answer, and the same request on another worker. -/
def twoVisitors : List (Event String) := [
  .arrive 0 (Lua.sampleRequest none) (fun _ => none) (bytes "h") [],
  .answer 0 "r" true,
  .arrive 1 (Lua.sampleRequest none) (fun _ => none) (bytes "h") [],
  .hit 0]

/-- The second visitor is served what was made for the first. -/
theorem second_visitor_served : ∃ s, run (step Gateway.samplePlatform) (start Lua.Dispatch.tieredNode)
      twoVisitors = some s ∧
    ∃ x stored, (x, stored) ∈ s.served ∧ stored.response = "r" ∧
      MadeForNobody Gateway.samplePlatform (start Lua.Dispatch.tieredNode) twoVisitors x stored := by
  have hserved : (run (step Gateway.samplePlatform) (start Lua.Dispatch.tieredNode) twoVisitors).map
      (fun s => s.served.map fun entry => entry.2.response) = some ["r"] := by
    decide +kernel
  rcases Option.map_eq_some_iff.1 hserved with ⟨s, hrun, hresponses⟩
  rcases List.map_eq_singleton_iff.1 hresponses with ⟨entry, hentry, hresponse⟩
  have hmem : entry ∈ s.served := by
    rw [hentry]
    exact List.mem_singleton.2 rfl
  exact ⟨s, hrun, entry.1, entry.2, hmem, hresponse, served_as_made hrun entry hmem⟩

end L2Cache
end GatewayEdge
