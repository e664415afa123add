import GatewayEdge.Foundation.Run
import GatewayEdge.Router
import Mathlib.Logic.Function.Basic

/-!
# ConfigReload — the config on its way from the control plane to the requests

One sidecar polls the control plane and replaces the target file by renaming; the watcher thread of a
worker stats the file, reads it, parses it and stores router and config one after the other; a request
loads the config and then the router.  Each of these is one step, so that any two of the three may meet
between any two steps.
-/

namespace GatewayEdge
namespace ConfigReload

open Foundation
open Router (RouterTree Matchit updateRouter findService)

/-- The library functions of a reload, and the environment of the process. -/
structure Loader where
  /-- `serde_json::from_str::<GatewayConfig>`. -/
  parseConfig : String → Option GatewayConfig
  /-- `serde_json::from_str::<HashMap<String, String>>`. -/
  parseKeys : String → Option (List (String × String))
  /-- `serde_json::to_string`. -/
  renderJson : Json → String
  toUppercase : String → String
  matchit : Matchit
  env : EnvVars

/-! ## Overrides from the environment -/

/-- `parse_jwt_keys`: blank, malformed and empty values change nothing. -/
def parseJwtKeys (l : Loader) (raw : String) : Option (List (String × String)) :=
  if trim raw = "" then none
  else
    match l.parseKeys raw with
    | some keys => if keys = [] then none else some keys
    | none => none

/-- The origins of `CORS_ALLOWED_ORIGINS`. -/
def envOrigins (csv : String) : List String :=
  ((csv.toList.splitOn ',').map fun part => trim (String.ofList part)).filter fun origin => origin ≠ ""

/-- Origins that are not there yet, in any case, are added at the end. -/
def mergeOrigins (allowed origins : List String) : List String :=
  origins.foldl
    (fun allowed origin =>
      if allowed.any fun o => eqIgnoreAsciiCase o origin then allowed else allowed ++ [origin])
    allowed

def overrideCors (origins : List String) (cors : Option CorsConfig) : Option CorsConfig :=
  if origins = [] then cors
  else
    match cors with
    | some cors => some { cors with allowedOrigins := mergeOrigins cors.allowedOrigins origins }
    | none => some { allowedOrigins := origins }

/-- `UPSTREAM_<SERVICE>`. -/
def upstreamKey (l : Loader) (serviceName : String) : String :=
  "UPSTREAM_" ++
    String.ofList ((l.toUppercase serviceName).toList.map fun c => if c = '-' then '_' else c)

/-- One address for every upstream of the service, in every region. -/
def overrideUpstreams (url : String) (service : ServiceConfig) : ServiceConfig :=
  { service with
    regionalUpstreams := service.regionalUpstreams.map fun pool =>
      (pool.1, pool.2.map fun upstream => { upstream with address := url }) }

/-- `apply_secret_overrides`. -/
def applySecretOverrides (l : Loader) (cfg : GatewayConfig) : GatewayConfig :=
  let cfg := match l.env "JWT_SECRET" with
    | some secret => if secret ≠ "" then { cfg with jwtSecret := secret } else cfg
    | none => cfg
  let cfg := match (l.env "JWT_KEYS").bind (parseJwtKeys l) with
    | some keys => { cfg with jwtKeys := keys }
    | none => cfg
  let cfg := match l.env "CORS_ALLOWED_ORIGINS" with
    | some csv => { cfg with cors := overrideCors (envOrigins csv) cfg.cors }
    | none => cfg
  { cfg with
    services := cfg.services.map fun entry =>
      match l.env (upstreamKey l entry.1) with
      | some url => if url ≠ "" then (entry.1, overrideUpstreams url entry.2) else entry
      | none => entry }

/-- The config a file stands for, if it parses. -/
def Loader.load (l : Loader) (contents : String) : Option GatewayConfig :=
  (l.parseConfig contents).map (applySecretOverrides l)

/-! ## The sidecar -/

/-- A file with the time it was last written. -/
structure File where
  contents : String
  mtime : Nat
  deriving DecidableEq, Repr

structure Files where
  temp : Option String
  target : Option File

/-- What becomes of a write followed by a rename. -/
inductive WriteOutcome
  | written (mtime : Nat)
  /-- The write fails with this much in the temporary file. -/
  | writeFailed (leftover : Option String)
  | renameFailed

/-- `write_config_atomically`. -/
def writeConfigAtomically (data : String) (outcome : WriteOutcome) (files : Files) : Files × Bool :=
  match outcome with
  | .written mtime => ({ temp := none, target := some { contents := data, mtime := mtime } }, true)
  | .writeFailed leftover => ({ files with temp := leftover }, false)
  | .renameFailed => ({ files with temp := some data }, false)

/-- `should_update_config`. -/
def shouldUpdateConfig (currentVersion newVersion : String) : Bool :=
  newVersion != "" && newVersion != currentVersion

/-- `json["version"].as_str().unwrap_or("")`. -/
def documentVersion (json : Json) : String :=
  match json.get "version" with
  | some (.string version) => version
  | _ => ""

/-- The answer of the control plane to one poll. -/
inductive Reply
  | unreachable
  | malformed
  | document (json : Json)

structure Sidecar where
  files : Files
  currentVersion : String

/-- One round of the sidecar's loop. -/
def poll (l : Loader) (reply : Reply) (outcome : WriteOutcome) (s : Sidecar) : Sidecar :=
  match reply with
  | .document json =>
    let newVersion := documentVersion json
    if shouldUpdateConfig s.currentVersion newVersion then
      match writeConfigAtomically (l.renderJson json) outcome s.files with
      | (files, true) => { files := files, currentVersion := newVersion }
      | (files, false) => { s with files := files }
    else s
  | .unreachable => s
  | .malformed => s

/-- The target after a poll is the same file, or one that was written later. -/
def MtimeGrows (before after : Option File) : Prop :=
  after = before ∨ ∃ file, after = some file ∧ (before.elim 0 File.mtime) < file.mtime

instance (before after : Option File) : Decidable (MtimeGrows before after) :=
  decidable_of_iff (after = before ∨ after.any fun file => before.elim 0 File.mtime < file.mtime) <| by
    unfold MtimeGrows
    cases after with
    | none => simp
    | some file => simp

/-! ## The watcher and the requests -/

/-- How far a call of `try_reload_config` has come. -/
inductive Phase
  | idle
  | stated (modified : Nat)
  | loaded (modified : Nat) (data : String)
  | parsed (modified : Nat) (cfg : GatewayConfig)
  | routed (modified : Nat) (cfg : GatewayConfig)
  deriving DecidableEq, Repr

/-- The sidecar, one worker's watcher, the two globals, and the requests between their two loads. -/
structure State where
  sidecar : Sidecar
  /-- The file the last rename has put in place. -/
  lastRenamed : Option File
  lastModified : Nat
  phase : Phase
  config : GatewayConfig
  router : RouterTree
  requests : ℕ → Option GatewayConfig

namespace State

def target (s : State) : Option File := s.sidecar.files.target

/-- The time of the target, the epoch when there is none. -/
def targetTime (s : State) : Nat := s.target.elim 0 File.mtime

end State

/-- A fresh sidecar and a fresh worker on whatever file there is. -/
def start (files : Files) : State where
  sidecar := { files := files, currentVersion := "" }
  lastRenamed := none
  lastModified := 0
  phase := .idle
  config := {}
  router := []
  requests := fun _ => none

inductive Event
  | poll (reply : Reply) (outcome : WriteOutcome)
  /-- `metadata` and `modified`; they may fail. -/
  | stat (ok : Bool)
  /-- `read_to_string`; it may fail. -/
  | read (ok : Bool)
  | parse
  | storeRouter
  | storeConfig
  /-- `route_request` loads the config. -/
  | loadConfig (i : ℕ)
  /-- `find_service` loads the router and answers. -/
  | findService (i : ℕ) (path : String)

/-- Each step of the sidecar, of the watcher and of the requests. -/
def step (l : Loader) (s : State) : Event → Option State
  | .poll reply outcome =>
    let sidecar := poll l reply outcome s.sidecar
    -- A rename leaves a strictly later file behind.
    if MtimeGrows s.target sidecar.files.target then
      some { s with
        sidecar := sidecar
        lastRenamed :=
          if sidecar.files.target = s.target then s.lastRenamed else sidecar.files.target }
    else none
  | .stat ok =>
    match s.phase with
    | .idle =>
      match s.target with
      | some file =>
        if ok ∧ s.lastModified < file.mtime then some { s with phase := .stated file.mtime } else some s
      | none => some s
    | _ => none
  | .read ok =>
    match s.phase with
    | .stated modified =>
      match s.target with
      | some file =>
        if ok then some { s with phase := .loaded modified file.contents }
        else some { s with phase := .idle }
      | none => some { s with phase := .idle }
    | _ => none
  | .parse =>
    match s.phase with
    | .loaded modified data =>
      match l.load data with
      | some cfg => some { s with phase := .parsed modified cfg }
      | none => some { s with phase := .idle }
    | _ => none
  | .storeRouter =>
    match s.phase with
    | .parsed modified cfg => some { s with router := updateRouter cfg, phase := .routed modified cfg }
    | _ => none
  | .storeConfig =>
    match s.phase with
    | .routed modified cfg =>
      some { s with config := cfg, lastModified := modified, phase := .idle }
    | _ => none
  | .loadConfig i => some { s with requests := Function.update s.requests i (some s.config) }
  | .findService i _ =>
    match s.requests i with
    | some _ => some { s with requests := Function.update s.requests i none }
    | none => none

/-! ## What each step can do -/

section Steps

variable {l : Loader} {s s' : State}

/-- A poll that renames puts a later file in place, any other leaves what the watcher sees as it is. -/
theorem step_poll {reply : Reply} {outcome : WriteOutcome}
    (h : step l s (.poll reply outcome) = some s') :
    s' = { s with sidecar := s'.sidecar, lastRenamed := s'.lastRenamed } ∧
      s'.sidecar = poll l reply outcome s.sidecar ∧
      ((s'.target = s.target ∧ s'.lastRenamed = s.lastRenamed) ∨
        ∃ file, s'.target = some file ∧ s'.lastRenamed = some file ∧ s.targetTime < file.mtime) := by
  unfold step at h
  dsimp only at h
  split at h
  · rename_i hgrows
    cases h
    refine ⟨rfl, rfl, ?_⟩
    rcases hgrows with hsame | ⟨file, htarget, hlater⟩
    · exact Or.inl ⟨hsame, if_pos hsame⟩
    · refine Or.inr ⟨file, htarget, ?_, hlater⟩
      have hne : (poll l reply outcome s.sidecar).files.target ≠ s.target := by
        intro hsame
        rw [← hsame, htarget] at hlater
        exact lt_irrefl _ hlater
      exact (if_neg hne).trans htarget
  · cases h

/-- A call begins between two calls, and is over at once unless the file is newer. -/
theorem step_stat {ok : Bool} (h : step l s (.stat ok) = some s') :
    s.phase = .idle ∧
      ((s' = s ∧ ∀ file, s.target = some file → ok = true → file.mtime ≤ s.lastModified) ∨
        ∃ file, s.target = some file ∧ s.lastModified < file.mtime ∧
          s' = { s with phase := .stated file.mtime }) := by
  unfold step at h
  dsimp only at h
  split at h
  · rename_i hphase
    refine ⟨hphase, ?_⟩
    split at h
    · rename_i file htarget
      split at h
      · rename_i hnewer
        exact Or.inr ⟨file, htarget, hnewer.2, (Option.some.inj h).symm⟩
      · rename_i hnot
        refine Or.inl ⟨(Option.some.inj h).symm, fun file' hfile' hok => ?_⟩
        rw [Option.some.inj (hfile'.symm.trans htarget)]
        exact Nat.le_of_not_lt fun hlt => hnot ⟨hok, hlt⟩
    · rename_i htarget
      refine Or.inl ⟨(Option.some.inj h).symm, fun file hfile _ => ?_⟩
      rw [htarget] at hfile
      cases hfile
  · cases h

theorem step_read {ok : Bool} (h : step l s (.read ok) = some s') :
    ∃ modified, s.phase = .stated modified ∧
      (((ok = false ∨ s.target = none) ∧ s' = { s with phase := .idle }) ∨
        ∃ file, s.target = some file ∧ s' = { s with phase := .loaded modified file.contents }) := by
  unfold step at h
  dsimp only at h
  split at h
  · rename_i modified hphase
    refine ⟨modified, hphase, ?_⟩
    split at h
    · rename_i file htarget
      split at h
      · exact Or.inr ⟨file, htarget, (Option.some.inj h).symm⟩
      · rename_i hok
        exact Or.inl ⟨Or.inl (Bool.eq_false_iff.2 hok), (Option.some.inj h).symm⟩
    · rename_i htarget
      exact Or.inl ⟨Or.inr htarget, (Option.some.inj h).symm⟩
  · cases h

theorem step_parse (h : step l s .parse = some s') :
    ∃ modified data, s.phase = .loaded modified data ∧
      ((l.load data = none ∧ s' = { s with phase := .idle }) ∨
        ∃ cfg, l.load data = some cfg ∧ s' = { s with phase := .parsed modified cfg }) := by
  unfold step at h
  dsimp only at h
  split at h
  · rename_i modified data hphase
    refine ⟨modified, data, hphase, ?_⟩
    split at h
    · rename_i cfg hload
      exact Or.inr ⟨cfg, hload, (Option.some.inj h).symm⟩
    · rename_i hload
      exact Or.inl ⟨hload, (Option.some.inj h).symm⟩
  · cases h

theorem step_storeRouter (h : step l s .storeRouter = some s') :
    ∃ modified cfg, s.phase = .parsed modified cfg ∧
      s' = { s with router := updateRouter cfg, phase := .routed modified cfg } := by
  unfold step at h
  dsimp only at h
  split at h
  · rename_i modified cfg hphase
    exact ⟨modified, cfg, hphase, (Option.some.inj h).symm⟩
  · cases h

theorem step_storeConfig (h : step l s .storeConfig = some s') :
    ∃ modified cfg, s.phase = .routed modified cfg ∧
      s' = { s with config := cfg, lastModified := modified, phase := .idle } := by
  unfold step at h
  dsimp only at h
  split at h
  · rename_i modified cfg hphase
    exact ⟨modified, cfg, hphase, (Option.some.inj h).symm⟩
  · cases h

/-- The two steps of a request change nothing but its slot. -/
theorem step_findService {i : ℕ} {path : String} (h : step l s (.findService i path) = some s') :
    ∃ held, s.requests i = some held ∧
      s' = { s with requests := Function.update s.requests i none } := by
  unfold step at h
  dsimp only at h
  split at h
  · rename_i held hheld
    exact ⟨held, hheld, (Option.some.inj h).symm⟩
  · cases h

end Steps

/-- The service `find_service` answers a request with that holds this config. -/
def answer (l : Loader) (s : State) (path : String) (held : GatewayConfig) : Option ServiceConfig :=
  (findService l.matchit s.router path held).1

/-- The path has a service under this config and the router built from it. -/
def Resolves (l : Loader) (cfg : GatewayConfig) (path : String) : Prop :=
  (findService l.matchit (updateRouter cfg) path cfg).1 ≠ none

/-! ## Two concrete configs -/

/-- One service behind `/a`. -/
def sampleService (name : String) : String × ServiceConfig :=
  (name, { name := name, rateLimitMax := 0, regionalUpstreams := [], requireAuth := false })

def sampleJson (version service : String) : Json :=
  .object
    [("global_max_concurrency", .number "10"),
      ("routes", .array [.object [("path_prefix", .string "/a"), ("service_name", .string service)]]),
      ("services", .object
        [(service, .object
          [("name", .string service), ("rate_limit_max", .number "0"), ("regional_upstreams", .object []),
            ("require_auth", .bool false)])]),
      ("version", .string version)]

def sampleText (version service : String) : String :=
  "\x7b\"global_max_concurrency\":10,\"routes\":[\x7b\"path_prefix\":\"/a\",\"service_name\":\"" ++ service ++
    "\"\x7d],\"services\":\x7b\"" ++ service ++ "\":\x7b\"name\":\"" ++ service ++
    "\",\"rate_limit_max\":0,\"regional_upstreams\":\x7b\x7d,\"require_auth\":false\x7d\x7d,\"version\":\"" ++
    version ++ "\"\x7d"

def sampleConfig (version service : String) : GatewayConfig where
  version := version
  globalMaxConcurrency := 10
  services := [sampleService service]
  routes := [{ pathPrefix := "/a", serviceName := service }]

/-- The library functions on the documents `v1` and `v2`, in an empty environment. -/
def sampleLoader : Loader where
  parseConfig := fun text =>
    if text = sampleText "v1" "s" then some (sampleConfig "v1" "s")
    else if text = sampleText "v2" "t" then some (sampleConfig "v2" "t")
    else none
  parseKeys := fun _ => none
  renderJson := fun json =>
    if documentVersion json = "v1" then sampleText "v1" "s" else sampleText "v2" "t"
  toUppercase := fun s => String.ofList (s.toList.map Char.toUpper)
  matchit := fun tree path => tree.lookup path
  env := fun _ => none

end ConfigReload
end GatewayEdge
