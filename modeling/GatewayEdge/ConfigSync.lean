import GatewayEdge.ConfigReload

/-!
# ConfigSync — no config update is lost between sidecar and gateway

The watcher remembers the time of the file it has *stated*, but the contents of the file it has *read*,
which may be a later one.  The remembered time is therefore never ahead of the contents, and a time that
has caught up with the target belongs to the target's own contents.
-/

namespace GatewayEdge
namespace ConfigReload

open Foundation
open Router (updateRouter)

/-! ## The sidecar's version -/

/-- The file is a document of this version, as the sidecar renders it. -/
def HoldsVersion (l : Loader) (file : File) (version : String) : Prop :=
  ∃ json, file.contents = l.renderJson json ∧ documentVersion json = version

/-- What the sidecar takes for current is what it has put in place. -/
def SidecarSynced (l : Loader) (s : Sidecar) : Prop :=
  s.currentVersion ≠ "" → ∃ file, s.files.target = some file ∧ HoldsVersion l file s.currentVersion

/-- A poll leaves target and version alone, or renames a document and remembers its version. -/
theorem poll_cases (l : Loader) (reply : Reply) (outcome : WriteOutcome) (s : Sidecar) :
    ((poll l reply outcome s).files.target = s.files.target ∧
      (poll l reply outcome s).currentVersion = s.currentVersion) ∨
    ∃ json mtime,
      (poll l reply outcome s).files.target = some { contents := l.renderJson json, mtime := mtime } ∧
        (poll l reply outcome s).currentVersion = documentVersion json := by
  cases reply with
  | unreachable => exact Or.inl ⟨rfl, rfl⟩
  | malformed => exact Or.inl ⟨rfl, rfl⟩
  | document json =>
      unfold poll
      dsimp only
      split
      · cases outcome with
        | written mtime => exact Or.inr ⟨json, mtime, rfl, rfl⟩
        | writeFailed leftover => exact Or.inl ⟨rfl, rfl⟩
        | renameFailed => exact Or.inl ⟨rfl, rfl⟩
      · exact Or.inl ⟨rfl, rfl⟩

theorem sidecarSynced_poll {l : Loader} {reply : Reply} {outcome : WriteOutcome} {s : Sidecar}
    (h : SidecarSynced l s) : SidecarSynced l (poll l reply outcome s) := by
  intro hversion
  rcases poll_cases l reply outcome s with ⟨htarget, hcurrent⟩ | ⟨json, mtime, htarget, hcurrent⟩
  · rw [hcurrent] at hversion ⊢
    rw [htarget]
    exact h hversion
  · exact ⟨_, htarget, json, rfl, hcurrent.symm⟩

/-! ## The watcher is never ahead of what it has read -/

/-- Router and config are built from the file. -/
def Serving (l : Loader) (file : File) (s : State) : Prop :=
  ∃ cfg, l.load file.contents = some cfg ∧ s.config = cfg ∧ s.router = updateRouter cfg

/-- The time of the file a call works on. -/
def Phase.modified : Phase → Option Nat
  | .idle => none
  | .stated modified => some modified
  | .loaded modified _ => some modified
  | .parsed modified _ => some modified
  | .routed modified _ => some modified

/-- The watcher remembers no later time than this, and works on a later file than it remembers. -/
structure Behind (time : Nat) (s : State) : Prop where
  lastModified : s.lastModified ≤ time
  working : ∀ modified, s.phase.modified = some modified → s.lastModified < modified ∧ modified ≤ time

/-- What the watcher holds of the file's own time is the file's own contents. -/
def FromFile (l : Loader) (file : File) (s : State) : Prop :=
  match s.phase with
  | .idle => file.mtime ≤ s.lastModified → Serving l file s
  | .stated _ => True
  | .loaded modified data => modified = file.mtime → data = file.contents
  | .parsed modified cfg => modified = file.mtime → l.load file.contents = some cfg
  | .routed modified cfg => modified = file.mtime → l.load file.contents = some cfg

structure SyncInvariant (l : Loader) (s : State) : Prop where
  synced : SidecarSynced l s.sidecar
  behind : Behind s.targetTime s
  routed : ∀ modified cfg, s.phase = .routed modified cfg → s.router = updateRouter cfg
  renamed : ∀ file, s.lastRenamed = some file → s.target = some file ∧ FromFile l file s

theorem syncInvariant_start (l : Loader) (files : Files) : SyncInvariant l (start files) where
  synced := fun h => absurd rfl h
  behind :=
    { lastModified := Nat.zero_le _
      working := fun modified h => (by cases h) }
  routed := fun modified cfg h => by cases h
  renamed := fun file h => by cases h

theorem syncInvariant_poll {l : Loader} {s s' : State} {reply : Reply} {outcome : WriteOutcome}
    (hI : SyncInvariant l s) (h : step l s (.poll reply outcome) = some s') : SyncInvariant l s' := by
  rcases step_poll h with ⟨hrest, hsidecar, hfiles⟩
  have hphase : s'.phase = s.phase := by rw [hrest]
  have hlast : s'.lastModified = s.lastModified := by rw [hrest]
  have hconfig : s'.config = s.config := by rw [hrest]
  have hrouter : s'.router = s.router := by rw [hrest]
  have hsynced : SidecarSynced l s'.sidecar := hsidecar ▸ sidecarSynced_poll hI.synced
  have hrouted : ∀ modified cfg, s'.phase = .routed modified cfg → s'.router = updateRouter cfg := by
    intro modified cfg hr
    rw [hrouter]
    exact hI.routed modified cfg (hphase ▸ hr)
  rcases hfiles with ⟨htarget, hrenamed⟩ | ⟨file, htarget, hrenamed, hlater⟩
  · have htime : s'.targetTime = s.targetTime := by rw [State.targetTime, htarget, State.targetTime]
    refine { synced := hsynced, behind := ?_, routed := hrouted, renamed := ?_ }
    · rw [htime]
      exact
        { lastModified := hlast ▸ hI.behind.lastModified
          working := fun modified hm => hlast ▸ hI.behind.working modified (hphase ▸ hm) }
    · intro file hfile
      rcases hI.renamed file (hrenamed ▸ hfile) with ⟨hold, hfrom⟩
      refine ⟨htarget.trans hold, ?_⟩
      unfold FromFile Serving at hfrom ⊢
      rw [hphase, hlast, hconfig, hrouter]
      exact hfrom
  · have htime : s'.targetTime = file.mtime := by rw [State.targetTime, htarget, Option.elim_some]
    have hearlier : ∀ modified, s'.phase.modified = some modified → modified < file.mtime :=
      fun modified hm => lt_of_le_of_lt (hI.behind.working modified (hphase ▸ hm)).2 hlater
    refine { synced := hsynced, behind := ?_, routed := hrouted, renamed := ?_ }
    · rw [htime]
      exact
        { lastModified := hlast ▸ le_trans hI.behind.lastModified hlater.le
          working := fun modified hm =>
            ⟨hlast ▸ (hI.behind.working modified (hphase ▸ hm)).1, (hearlier modified hm).le⟩ }
    · intro file' hfile
      have hsame : file = file' := Option.some.inj (hrenamed.symm.trans hfile)
      subst hsame
      refine ⟨htarget, ?_⟩
      -- All the watcher holds is older than the new file.
      have hbehind := lt_of_le_of_lt hI.behind.lastModified hlater
      unfold FromFile
      cases hp : s'.phase with
      | idle =>
          intro hle
          rw [hlast] at hle
          omega
      | stated modified => trivial
      | loaded modified data =>
          intro hm
          exact absurd hm (hearlier modified (by rw [hp]; rfl)).ne
      | parsed modified cfg =>
          intro hm
          exact absurd hm (hearlier modified (by rw [hp]; rfl)).ne
      | routed modified cfg =>
          intro hm
          exact absurd hm (hearlier modified (by rw [hp]; rfl)).ne

/-- Where neither files nor sidecar move, the invariant is a matter of the watcher. -/
theorem SyncInvariant.of_watcher {l : Loader} {s s' : State} (hI : SyncInvariant l s)
    (hsidecar : s'.sidecar = s.sidecar) (hrenamed : s'.lastRenamed = s.lastRenamed)
    (hbehind : Behind s.targetTime s')
    (hrouted : ∀ modified cfg, s'.phase = .routed modified cfg → s'.router = updateRouter cfg)
    (hfrom : ∀ file, s.target = some file → FromFile l file s → FromFile l file s') :
    SyncInvariant l s' := by
  have htarget : s'.target = s.target := by rw [State.target, hsidecar, State.target]
  have htime : s'.targetTime = s.targetTime := by rw [State.targetTime, htarget, State.targetTime]
  refine { synced := hsidecar ▸ hI.synced, behind := htime ▸ hbehind, routed := hrouted, renamed := ?_ }
  intro file hfile
  rcases hI.renamed file (hrenamed ▸ hfile) with ⟨hold, hf⟩
  exact ⟨htarget.trans hold, hfrom file hold hf⟩

/-- A call that gives up leaves the watcher as it was before. -/
theorem fromFile_giveUp {l : Loader} {file : File} {s : State} {modified : Nat}
    (hwork : s.lastModified < modified ∧ modified ≤ file.mtime) :
    FromFile l file { s with phase := .idle } := by
  intro hle
  have hlast : file.mtime ≤ s.lastModified := hle
  omega

theorem Behind.idle {time lastModified : Nat} {s : State} (hlast : lastModified ≤ time) :
    Behind time { s with lastModified := lastModified, phase := .idle } where
  lastModified := hlast
  working := fun modified h => by cases h

/-- A call that goes on works on the same file time. -/
theorem Behind.of_phase {time : Nat} {s : State} (h : Behind time s) {phase : Phase}
    (hphase : phase.modified = s.phase.modified) : Behind time { s with phase := phase } where
  lastModified := h.lastModified
  working := fun modified hm => h.working modified (hphase ▸ hm)

theorem syncInvariant_step {l : Loader} (s : State) (e : Event) (s' : State) (hI : SyncInvariant l s)
    (h : step l s e = some s') : SyncInvariant l s' := by
  have htime : ∀ file, s.target = some file → s.targetTime = file.mtime := by
    intro file hfile
    rw [State.targetTime, hfile, Option.elim_some]
  have hlast := hI.behind.lastModified
  cases e with
  | poll reply outcome => exact syncInvariant_poll hI h
  | stat ok =>
      rcases step_stat h with ⟨-, ⟨rfl, -⟩ | ⟨file, htarget, hnewer, rfl⟩⟩
      · exact hI
      · refine hI.of_watcher rfl rfl ?_ (fun _ _ hr => by cases hr) fun _ _ _ => trivial
        refine { lastModified := hlast, working := fun modified hm => ?_ }
        cases hm
        exact ⟨hnewer, (htime file htarget).ge⟩
  | read ok =>
      rcases step_read h with ⟨modified, hphase, ⟨-, rfl⟩ | ⟨file, htarget, rfl⟩⟩
      · have hwork := hI.behind.working modified (by rw [hphase]; rfl)
        refine hI.of_watcher rfl rfl (Behind.idle hlast) (fun _ _ hr => by cases hr) ?_
        intro file hfile _
        exact fromFile_giveUp (htime file hfile ▸ hwork)
      · refine hI.of_watcher rfl rfl (hI.behind.of_phase (by rw [hphase]; rfl)) (fun _ _ hr => by cases hr) ?_
        intro file' hfile' _ _
        rw [Option.some.inj (htarget.symm.trans hfile')]
  | parse =>
      rcases step_parse h with ⟨modified, data, hphase, ⟨-, rfl⟩ | ⟨cfg, hload, rfl⟩⟩
      · have hwork := hI.behind.working modified (by rw [hphase]; rfl)
        refine hI.of_watcher rfl rfl (Behind.idle hlast) (fun _ _ hr => by cases hr) ?_
        intro file hfile _
        exact fromFile_giveUp (htime file hfile ▸ hwork)
      · refine hI.of_watcher rfl rfl (hI.behind.of_phase (by rw [hphase]; rfl)) (fun _ _ hr => by cases hr) ?_
        intro file _ hfrom hsame
        unfold FromFile at hfrom
        rw [hphase] at hfrom
        exact hfrom hsame ▸ hload
  | storeRouter =>
      rcases step_storeRouter h with ⟨modified, cfg, hphase, rfl⟩
      have hmodified : (Phase.routed modified cfg).modified = s.phase.modified := by
        rw [hphase]
        rfl
      have hbehind := hI.behind.of_phase hmodified
      refine hI.of_watcher rfl rfl ⟨hbehind.lastModified, hbehind.working⟩ ?_ ?_
      · intro modified' cfg' hr
        cases hr
        rfl
      · intro file _ hfrom
        unfold FromFile at hfrom
        rw [hphase] at hfrom
        exact hfrom
  | storeConfig =>
      rcases step_storeConfig h with ⟨modified, cfg, hphase, rfl⟩
      have hwork := hI.behind.working modified (by rw [hphase]; rfl)
      have hidle := Behind.idle (s := { s with config := cfg }) hwork.2
      refine hI.of_watcher rfl rfl hidle (fun _ _ hr => by cases hr) ?_
      intro file hfile hfrom hle
      unfold FromFile at hfrom
      rw [hphase] at hfrom
      -- The time has caught up with the file, so it is the file's own.
      have hsame : modified = file.mtime := le_antisymm (htime file hfile ▸ hwork.2) hle
      exact ⟨cfg, hfrom hsame, rfl, hI.routed modified cfg hphase⟩
  | loadConfig i =>
      cases h
      exact hI.of_watcher rfl rfl ⟨hlast, hI.behind.working⟩ hI.routed fun _ _ hfrom => hfrom
  | findService i path =>
      rcases step_findService h with ⟨held, -, rfl⟩
      exact hI.of_watcher rfl rfl ⟨hlast, hI.behind.working⟩ hI.routed fun _ _ hfrom => hfrom

/-! ## One call after the last rename -/

/-- Neither config, nor router, nor the remembered time has moved. -/
def Unchanged (before after : State) : Prop :=
  after.config = before.config ∧ after.router = before.router ∧ after.lastModified = before.lastModified

/-- Where a call is that began in `s₀`, this file having been in place all the time. -/
def Since (l : Loader) (file : File) (s₀ s : State) : Prop :=
  match s.phase with
  | .idle =>
    (file.mtime ≤ s.lastModified ∧ Serving l file s) ∨ (l.load file.contents = none ∧ Unchanged s₀ s)
  | .stated modified => modified = file.mtime ∧ Unchanged s₀ s
  | .loaded modified data => modified = file.mtime ∧ data = file.contents ∧ Unchanged s₀ s
  | .parsed modified cfg => modified = file.mtime ∧ l.load file.contents = some cfg
  | .routed modified cfg =>
    modified = file.mtime ∧ l.load file.contents = some cfg ∧ s.router = updateRouter cfg

theorem Since.frame {l : Loader} {file : File} {s₀ s s' : State} (h : Since l file s₀ s)
    (hphase : s'.phase = s.phase) (hlast : s'.lastModified = s.lastModified)
    (hconfig : s'.config = s.config) (hrouter : s'.router = s.router) : Since l file s₀ s' := by
  unfold Since Serving Unchanged at h ⊢
  rw [hphase, hlast, hconfig, hrouter]
  exact h

/-- The first step of a call finds the file newer, or its config is served already. -/
theorem since_stat {l : Loader} {file : File} {s s' : State} (hI : SyncInvariant l s)
    (hrenamed : s.lastRenamed = some file) (h : step l s (.stat true) = some s') : Since l file s s' := by
  rcases hI.renamed file hrenamed with ⟨htarget, hfrom⟩
  rcases step_stat h with ⟨hphase, ⟨rfl, hold⟩ | ⟨file', htarget', -, rfl⟩⟩
  · have hle := hold file htarget rfl
    unfold FromFile at hfrom
    unfold Since
    rw [hphase] at hfrom ⊢
    exact Or.inl ⟨hle, hfrom hle⟩
  · rw [Option.some.inj (htarget'.symm.trans htarget)]
    exact ⟨rfl, rfl, rfl, rfl⟩

/-- The rest of the call, and calls after it, whatever sidecar and requests do in between. -/
theorem since_step {l : Loader} {file : File} {s₀ s s' : State} {e : Event} (hI : SyncInvariant l s)
    (hrenamed : s.lastRenamed = some file) (hsince : Since l file s₀ s) (hread : e ≠ .read false)
    (h : step l s e = some s') : Since l file s₀ s' := by
  have htarget := (hI.renamed file hrenamed).1
  cases e with
  | poll reply outcome =>
      rcases step_poll h with ⟨hrest, -, -⟩
      exact hsince.frame (by rw [hrest]) (by rw [hrest]) (by rw [hrest]) (by rw [hrest])
  | loadConfig i =>
      cases h
      exact hsince.frame rfl rfl rfl rfl
  | findService i path =>
      rcases step_findService h with ⟨held, -, rfl⟩
      exact hsince.frame rfl rfl rfl rfl
  | stat ok =>
      rcases step_stat h with ⟨hphase, ⟨rfl, -⟩ | ⟨file', htarget', hnewer, rfl⟩⟩
      · exact hsince
      · unfold Since at hsince
        rw [hphase] at hsince
        have hfile : file' = file := Option.some.inj (htarget'.symm.trans htarget)
        subst hfile
        rcases hsince with ⟨hle, -⟩ | ⟨-, hsame⟩
        · omega
        · exact ⟨rfl, hsame⟩
  | read ok =>
      rcases step_read h with ⟨modified, hphase, ⟨hfailed, -⟩ | ⟨file', htarget', rfl⟩⟩
      · rcases hfailed with rfl | hnone
        · exact absurd rfl hread
        · rw [htarget] at hnone
          cases hnone
      · unfold Since at hsince
        rw [hphase] at hsince
        rw [Option.some.inj (htarget'.symm.trans htarget)]
        exact ⟨hsince.1, rfl, hsince.2⟩
  | parse =>
      unfold Since at hsince
      rcases step_parse h with ⟨modified, data, hphase, ⟨hload, rfl⟩ | ⟨cfg, hload, rfl⟩⟩
      · rw [hphase] at hsince
        rcases hsince with ⟨-, rfl, hsame⟩
        exact Or.inr ⟨hload, hsame⟩
      · rw [hphase] at hsince
        rcases hsince with ⟨hmodified, rfl, -⟩
        exact ⟨hmodified, hload⟩
  | storeRouter =>
      rcases step_storeRouter h with ⟨modified, cfg, hphase, rfl⟩
      unfold Since at hsince
      rw [hphase] at hsince
      exact ⟨hsince.1, hsince.2, rfl⟩
  | storeConfig =>
      rcases step_storeConfig h with ⟨modified, cfg, hphase, rfl⟩
      unfold Since at hsince
      rw [hphase] at hsince
      exact Or.inl ⟨hsince.1.ge, cfg, hsince.2.1, rfl, hsince.2.2⟩

/-- A step leaves the renamed file alone, or there is a later one. -/
theorem lastRenamed_step {l : Loader} {s s' : State} {e : Event} (h : step l s e = some s') :
    (s'.target = s.target ∧ s'.lastRenamed = s.lastRenamed) ∨ s.targetTime < s'.targetTime := by
  cases e with
  | poll reply outcome =>
      rcases step_poll h with ⟨-, -, hsame | ⟨file, htarget, -, hlater⟩⟩
      · exact Or.inl hsame
      · have htime : s'.targetTime = file.mtime := by
          rw [State.targetTime, htarget, Option.elim_some]
        exact Or.inr (htime ▸ hlater)
  | stat ok =>
      rcases step_stat h with ⟨-, ⟨rfl, -⟩ | ⟨file, -, -, rfl⟩⟩
      · exact Or.inl ⟨rfl, rfl⟩
      · exact Or.inl ⟨rfl, rfl⟩
  | read ok =>
      rcases step_read h with ⟨modified, -, ⟨-, rfl⟩ | ⟨file, -, rfl⟩⟩
      · exact Or.inl ⟨rfl, rfl⟩
      · exact Or.inl ⟨rfl, rfl⟩
  | parse =>
      rcases step_parse h with ⟨modified, data, -, ⟨-, rfl⟩ | ⟨cfg, -, rfl⟩⟩
      · exact Or.inl ⟨rfl, rfl⟩
      · exact Or.inl ⟨rfl, rfl⟩
  | storeRouter =>
      rcases step_storeRouter h with ⟨modified, cfg, -, rfl⟩
      exact Or.inl ⟨rfl, rfl⟩
  | storeConfig =>
      rcases step_storeConfig h with ⟨modified, cfg, -, rfl⟩
      exact Or.inl ⟨rfl, rfl⟩
  | loadConfig i =>
      cases h
      exact Or.inl ⟨rfl, rfl⟩
  | findService i path =>
      rcases step_findService h with ⟨held, -, rfl⟩
      exact Or.inl ⟨rfl, rfl⟩

theorem targetTime_mono {l : Loader} {s t : State} {es : List Event} (hrun : run (step l) s es = some t) :
    s.targetTime ≤ t.targetTime := by
  refine invariant_run (I := fun m => s.targetTime ≤ m.targetTime) ?_ le_rfl hrun
  intro m e m' hle hs
  rcases lastRenamed_step hs with ⟨htarget, -⟩ | hlater
  · rw [State.targetTime] at hle ⊢
    rwa [State.targetTime, htarget]
  · exact le_trans hle hlater.le

/-- As long as no other file is renamed into place. -/
theorem since_run {l : Loader} {file : File} {s₀ s t : State} {es : List Event} (hI : SyncInvariant l s)
    (hrenamed : s.lastRenamed = some file) (hsince : Since l file s₀ s) (hread : .read false ∉ es)
    (hrun : run (step l) s es = some t) (hkept : t.lastRenamed = some file) : Since l file s₀ t := by
  induction es generalizing s with
  | nil =>
      have hst : s = t := by simpa using hrun
      exact hst ▸ hsince
  | cons e es ih =>
      rcases run_cons_eq_some.1 hrun with ⟨s', hs', hrest⟩
      have hI' := syncInvariant_step s e s' hI hs'
      have hread' : e ≠ .read false := fun he => hread (he ▸ List.mem_cons_self)
      have hreads : .read false ∉ es := fun hmem => hread (List.mem_cons_of_mem e hmem)
      have hnext := since_step hI hrenamed hsince hread' hs'
      rcases lastRenamed_step hs' with ⟨-, hsame⟩ | hlater
      · exact ih hI' (hsame.trans hrenamed) hnext hreads hrest
      · -- A later file is never replaced by an earlier one.
        have htarget := (hI.renamed file hrenamed).1
        have htarget' := ((invariant_run syncInvariant_step hI' hrest).renamed file hkept).1
        have hmono := targetTime_mono hrest
        rw [State.targetTime, htarget] at hlater
        rw [State.targetTime, State.targetTime, htarget'] at hmono
        exact absurd (lt_of_lt_of_le hlater hmono) (lt_irrefl _)

/-! ## No update is lost -/

/-- After a call that began with this file in place: its config is served, or nothing has changed. -/
def CaughtUp (l : Loader) (file : File) (before after : State) : Prop :=
  (∀ parsed, l.parseConfig file.contents = some parsed →
    after.config = applySecretOverrides l parsed ∧
      after.router = updateRouter (applySecretOverrides l parsed)) ∧
  (l.parseConfig file.contents = none → Unchanged before after)

theorem caughtUp_of_since {l : Loader} {file : File} {s₀ s : State} (h : Since l file s₀ s)
    (hidle : s.phase = .idle) : CaughtUp l file s₀ s := by
  unfold Since at h
  rw [hidle] at h
  unfold CaughtUp
  unfold Serving Loader.load at h
  constructor
  · intro parsed hparsed
    rw [hparsed] at h
    rcases h with ⟨-, cfg, hcfg, hconfig, hrouter⟩ | ⟨hnone, -⟩
    · cases hcfg
      exact ⟨hconfig, hrouter⟩
    · cases hnone
  · intro hnone
    rw [hnone] at h
    rcases h with ⟨-, cfg, hcfg, -⟩ | ⟨-, hsame⟩
    · cases hcfg
    · exact hsame

/-- In every interleaving of polls, reload steps and requests the sidecar's version is the version in the
target, and a call of `try_reload_config` that begins after the last rename and can read ends with that
file's config and router, or changes nothing when the file does not parse. -/
theorem no_update_lost {l : Loader} {files : Files} {es : List Event} {s : State}
    (hrun : run (step l) (start files) es = some s) :
    (s.sidecar.currentVersion ≠ "" →
      ∃ file, s.target = some file ∧ HoldsVersion l file s.sidecar.currentVersion) ∧
    ∀ file call t, s.lastRenamed = some file → run (step l) s (.stat true :: call) = some t →
      .read false ∉ call → t.lastRenamed = some file → t.phase = .idle → CaughtUp l file s t := by
  have hI := invariant_run syncInvariant_step (syncInvariant_start l files) hrun
  refine ⟨hI.synced, ?_⟩
  intro file call t hrenamed hcall hread hkept hidle
  rcases run_cons_eq_some.1 hcall with ⟨s', hs', hrest⟩
  have hsince := since_stat hI hrenamed hs'
  have hrenamed' : s'.lastRenamed = some file := by
    rcases step_stat hs' with ⟨-, ⟨rfl, -⟩ | ⟨_, -, -, rfl⟩⟩
    · exact hrenamed
    · exact hrenamed
  have hend := since_run (syncInvariant_step s _ s' hI hs') hrenamed' hsince hread hrest hkept
  exact caughtUp_of_since hend hidle

/-- The second config is renamed between `stat` and `read` of a call: it is read, but with the time of the
first. -/
def renamedWhileRead : List Event :=
  [.poll (.document (sampleJson "v1" "s")) (.written 1), .stat true,
    .poll (.document (sampleJson "v2" "t")) (.written 2), .read true, .parse, .storeRouter, .storeConfig]

/-- The next call finds a later file, reads it again and serves it. -/
theorem first_config_served : ∃ s t,
    run (step sampleLoader) (start { temp := none, target := none }) renamedWhileRead = some s ∧
      s.lastModified = 1 ∧ s.target = some { contents := sampleText "v2" "t", mtime := 2 } ∧
      run (step sampleLoader) s [.stat true, .read true, .parse, .storeRouter, .storeConfig] = some t ∧
      t.lastModified = 2 ∧ CaughtUp sampleLoader { contents := sampleText "v2" "t", mtime := 2 } s t := by
  have hrun : ((run (step sampleLoader) (start { temp := none, target := none }) renamedWhileRead).bind
      fun s => (run (step sampleLoader) s [.stat true, .read true, .parse, .storeRouter, .storeConfig]).map
        fun t => ((s.lastRenamed, s.lastModified, s.target), (t.lastRenamed, t.lastModified, t.phase))) =
        some ((some { contents := sampleText "v2" "t", mtime := 2 }, 1,
            some { contents := sampleText "v2" "t", mtime := 2 }),
          (some { contents := sampleText "v2" "t", mtime := 2 }, 2, .idle)) := by
    decide +kernel
  rcases Option.bind_eq_some_iff.1 hrun with ⟨s, hs, hcall⟩
  rcases Option.map_eq_some_iff.1 hcall with ⟨t, ht, hends⟩
  simp only [Prod.mk.injEq] at hends
  rcases hends with ⟨⟨hbefore, hread, htarget⟩, hafter, hreread, hidle⟩
  exact ⟨s, t, hs, hread, htarget, ht, hreread,
    (no_update_lost hs).2 _ _ t hbefore ht (by simp) hafter hidle⟩

end ConfigReload
end GatewayEdge
