import GatewayEdge.Foundation.Run
import Mathlib.Algebra.Group.Nat.Defs
import Mathlib.Data.List.Perm.Basic
import Mathlib.Data.List.Infix

/-!
# ResponseCache — the L1 cache of a worker

A hash map from cache keys to responses with an expiry.  A full map is thinned out before an insertion:
first what has expired goes, then half of what is left, in the order the map happens to iterate in.  So
an entry may be lost at any insertion, but what is found is always what was set last under its key.
-/

namespace GatewayEdge
namespace ResponseCache

open Foundation

/-! ## The code -/

/-- Default TTL for cached responses in seconds. -/
def defaultTtlSecs : ℕ := 30

/-- Maximum number of entries per worker. -/
def l1MaxEntries : ℕ := 5000

structure CacheEntry where
  value : String
  expiresAt : ℕ
  etag : String
  deriving DecidableEq

def CacheEntry.isValid (now : ℕ) (e : CacheEntry) : Bool := decide (now < e.expiresAt)

abbrev L1Map := Std.HashMap String CacheEntry

/-- `L1_CACHE` and the two counters. -/
structure L1Cache where
  map : L1Map
  hits : ℕ
  misses : ℕ

def L1Cache.empty : L1Cache := { map := ∅, hits := 0, misses := 0 }

/-- The key of a response: method, path and, if there is one, the user. -/
def cacheKey (method path : String) (userId : Option String) : String :=
  match userId with
  | some uid => method ++ ":" ++ path ++ ":" ++ uid
  | none => method ++ ":" ++ path

/-- A valid entry is a hit, anything else a miss. -/
def l1Get (now : ℕ) (key : String) (c : L1Cache) : L1Cache × Option CacheEntry :=
  match c.map[key]?.filter (CacheEntry.isValid now) with
  | some entry => ({ c with hits := (c.hits + 1) % 2 ^ 64 }, some entry)
  | none => ({ c with misses := (c.misses + 1) % 2 ^ 64 }, none)

/-- `map.retain(|_, v| v.expires_at > now_secs)`. -/
def retainLive (now : ℕ) (map : L1Map) : L1Map := map.filter fun _ v => decide (v.expiresAt > now)

/-- Room for one more entry; `order` is how `map.keys()` goes through what has not expired. -/
def evict (now : ℕ) (order : List String) (map : L1Map) : L1Map :=
  if map.size ≥ l1MaxEntries then
    let map := retainLive now map
    if map.size ≥ l1MaxEntries then
      let removeCount := map.size / 2
      (order.take removeCount).foldl (fun m k => m.erase k) map
    else map
  else map

/-- The arguments of `l1_set`, with the clock it reads and the order it finds the map in. -/
structure SetCall where
  now : ℕ
  key : String
  value : String
  ttlSecs : Option ℕ
  etag : String
  order : List String

/-- The second the entry is to expire in. -/
def SetCall.expiry (s : SetCall) : ℕ := s.now + s.ttlSecs.getD defaultTtlSecs

def l1Set (s : SetCall) (c : L1Cache) : L1Cache :=
  { c with
    map := (evict s.now s.order c.map).insert s.key
      { value := s.value, expiresAt := s.expiry % 2 ^ 64, etag := s.etag } }

def l1Invalidate (key : String) (c : L1Cache) : L1Cache := { c with map := c.map.erase key }

/-- `str::contains`. -/
def contains (text part : String) : Bool := decide (part.toList <:+: text.toList)

/-- Drops every key that contains the text, wherever it stands in the key. -/
def l1InvalidatePrefix (part : String) (c : L1Cache) : L1Cache :=
  { c with map := c.map.filter fun k _ => !contains k part }

/-! ## Sequences of calls -/

inductive Event
  | set (s : SetCall)
  | get (now : ℕ) (key : String)
  | invalidate (key : String)
  | invalidatePrefix (part : String)

/-- Any call, at any time; an iteration order goes through every key once. -/
def step (c : L1Cache) : Event → Option L1Cache
  | .set s =>
    if s.expiry < 2 ^ 64 ∧ s.order.Perm (retainLive s.now c.map).keys then some (l1Set s c) else none
  | .get now key => some (l1Get now key c).1
  | .invalidate key => some (l1Invalidate key c)
  | .invalidatePrefix part => some (l1InvalidatePrefix part c)

/-- The call replaces or removes what is stored under the key. -/
def Event.Touches (key : String) : Event → Prop
  | .set s => s.key = key
  | .get _ _ => False
  | .invalidate k => k = key
  | .invalidatePrefix part => contains key part = true

/-- The entry a call of `l1_set` asks for. -/
def SetCall.entry (s : SetCall) : CacheEntry := { value := s.value, expiresAt := s.expiry, etag := s.etag }

/-- The last call for the key is this one, and no later call touches it. -/
def LastSet (key : String) (s : SetCall) (es : List Event) : Prop :=
  s.key = key ∧ ∃ before after, es = before ++ .set s :: after ∧ ∀ e ∈ after, ¬ e.Touches key

/-! ## What one call does to the map -/

@[simp] theorem map_l1Get (now : ℕ) (key : String) (c : L1Cache) : (l1Get now key c).1.map = c.map := by
  unfold l1Get
  split <;> rfl

/-- What is returned is in the map and has not expired. -/
theorem l1Get_eq_some {now : ℕ} {key : String} {c : L1Cache} {entry : CacheEntry} :
    (l1Get now key c).2 = some entry ↔ c.map[key]? = some entry ∧ now < entry.expiresAt := by
  have hfound : (l1Get now key c).2 = c.map[key]?.filter (CacheEntry.isValid now) := by
    unfold l1Get
    split
    · rename_i entry h
      exact h.symm
    · rename_i h
      exact h.symm
  rw [hfound, Option.filter_eq_some_iff, CacheEntry.isValid, decide_eq_true_iff]

/-- Every call of `l1_get` is counted once. -/
theorem l1Get_counted (now : ℕ) (key : String) (c : L1Cache) :
    let c' := (l1Get now key c).1
    if (l1Get now key c).2.isSome then c'.hits = (c.hits + 1) % 2 ^ 64 ∧ c'.misses = c.misses
    else c'.hits = c.hits ∧ c'.misses = (c.misses + 1) % 2 ^ 64 := by
  unfold l1Get
  split <;> exact ⟨rfl, rfl⟩

theorem step_set {s : SetCall} {c c' : L1Cache} :
    step c (.set s) = some c' →
      s.order.Perm (retainLive s.now c.map).keys ∧
        c'.map = (evict s.now s.order c.map).insert s.key s.entry := by
  intro h
  by_cases henabled : s.expiry < 2 ^ 64 ∧ s.order.Perm (retainLive s.now c.map).keys
  · have hc' := Option.some.inj ((if_pos henabled).symm.trans h)
    refine ⟨henabled.2, ?_⟩
    rw [← hc']
    unfold l1Set SetCall.entry
    rw [Nat.mod_eq_of_lt henabled.1]
  · cases (if_neg henabled).symm.trans h

section Eviction

variable {now : ℕ} {order : List String} {map : L1Map}

theorem getElem?_of_retainLive {key : String} {entry : CacheEntry} :
    (retainLive now map)[key]? = some entry → map[key]? = some entry := by
  intro h
  unfold retainLive at h
  rw [Std.HashMap.getElem?_filter', Option.filter_eq_some_iff] at h
  exact h.1

theorem getElem?_of_foldl_erase {keys : List String} {key : String} {entry : CacheEntry} :
    (keys.foldl (fun m k => m.erase k) map)[key]? = some entry → map[key]? = some entry := by
  induction keys generalizing map with
  | nil => exact id
  | cons k keys ih =>
      intro h
      have herased := ih h
      rw [Std.HashMap.getElem?_erase] at herased
      split at herased
      · cases herased
      · exact herased

/-- Thinning out changes no entry it leaves. -/
theorem getElem?_of_evict {key : String} {entry : CacheEntry} :
    (evict now order map)[key]? = some entry → map[key]? = some entry := by
  intro h
  unfold evict at h
  split at h
  · dsimp only at h
    split at h
    · exact getElem?_of_retainLive (getElem?_of_foldl_erase h)
    · exact getElem?_of_retainLive h
  · exact h

/-- Keys of the map that are erased make it smaller, each by one. -/
theorem size_foldl_erase {keys : List String} :
    keys.Nodup → (∀ k ∈ keys, k ∈ map) →
      (keys.foldl (fun m k => m.erase k) map).size + keys.length = map.size := by
  induction keys generalizing map with
  | nil => exact fun _ _ => rfl
  | cons k keys ih =>
      intro hnodup hmem
      rcases List.nodup_cons.1 hnodup with ⟨hnot, hrest⟩
      have hleft : ∀ d ∈ keys, d ∈ map.erase k := by
        intro d hd
        have hne : k ≠ d := fun heq => hnot (heq ▸ hd)
        simpa [Std.HashMap.mem_erase, hne] using hmem d (List.mem_cons_of_mem _ hd)
      -- The key is in the map, so its entry goes.
      have hsize : (map.erase k).size + 1 = map.size := by
        have hk : k ∈ map := hmem k List.mem_cons_self
        have hpos : 0 < map.size := by
          rw [← Std.HashMap.length_keys]
          exact List.length_pos_of_mem (Std.HashMap.mem_keys.2 hk)
        rw [Std.HashMap.size_erase, if_pos hk]
        exact Nat.sub_add_cancel hpos
      calc
        (keys.foldl (fun m k => m.erase k) (map.erase k)).size + (keys.length + 1)
            = (map.erase k).size + 1 := by rw [← Nat.add_assoc, ih hrest hleft]
        _ = map.size := hsize

/-- After the thinning there is room for one entry. -/
theorem size_evict_lt (horder : order.Perm (retainLive now map).keys) (hbound : map.size ≤ l1MaxEntries) :
    (evict now order map).size < l1MaxEntries := by
  have hlive : (retainLive now map).size ≤ map.size := Std.HashMap.size_filter_le_size
  unfold evict
  split
  · dsimp only
    split
    · rename_i hfull
      have hkeys : ∀ k ∈ order.take ((retainLive now map).size / 2), k ∈ retainLive now map :=
        fun k hk => Std.HashMap.mem_keys.1 (horder.mem_iff.1 (List.mem_of_mem_take hk))
      have hnodup : (order.take ((retainLive now map).size / 2)).Nodup :=
        (horder.nodup_iff.2 Std.HashMap.nodup_keys).sublist (List.take_sublist _ _)
      have hcount : (order.take ((retainLive now map).size / 2)).length =
          (retainLive now map).size / 2 := by
        rw [List.length_take, horder.length_eq, Std.HashMap.length_keys]
        exact Nat.min_eq_left (Nat.div_le_self _ _)
      have hsize := size_foldl_erase hnodup hkeys
      rw [hcount] at hsize
      -- Half of at least 5000 entries is at least one.
      unfold l1MaxEntries at *
      omega
    · rename_i hroom
      exact Nat.lt_of_not_ge hroom
  · rename_i hroom
    exact Nat.lt_of_not_ge hroom

end Eviction

/-! ## Every sequence of calls -/

theorem size_step (c : L1Cache) (e : Event) (c' : L1Cache) :
    c.map.size ≤ l1MaxEntries → step c e = some c' → c'.map.size ≤ l1MaxEntries := by
  intro hbound h
  cases e with
  | set s =>
      rcases step_set h with ⟨horder, hmap⟩
      rw [hmap]
      exact le_trans Std.HashMap.size_insert_le (size_evict_lt horder hbound)
  | get now key =>
      cases h
      rw [map_l1Get]
      exact hbound
  | invalidate key =>
      cases h
      exact le_trans Std.HashMap.size_erase_le hbound
  | invalidatePrefix part =>
      cases h
      exact le_trans Std.HashMap.size_filter_le_size hbound

/-- An entry comes from the last call that has set its key. -/
def Traced (es : List Event) (c : L1Cache) : Prop :=
  ∀ key entry, c.map[key]? = some entry → ∃ s, LastSet key s es ∧ entry = s.entry

/-- A call that does not touch the key leaves its last set the last. -/
theorem LastSet.append {key : String} {s : SetCall} {es : List Event} {e : Event} :
    LastSet key s es → ¬ e.Touches key → LastSet key s (es ++ [e]) := by
  rintro ⟨hkey, before, after, rfl, hafter⟩ he
  refine ⟨hkey, before, after ++ [e], by rw [List.append_assoc, List.cons_append], ?_⟩
  intro d hd
  rcases List.mem_append.1 hd with hd | hd
  · exact hafter d hd
  · exact List.mem_singleton.1 hd ▸ he

theorem traced_step {es : List Event} {c c' : L1Cache} {e : Event} :
    Traced es c → step c e = some c' → Traced (es ++ [e]) c' := by
  intro htraced h key entry hentry
  -- What was there before and is not touched.
  have hkept : c.map[key]? = some entry → ¬ e.Touches key →
      ∃ s, LastSet key s (es ++ [e]) ∧ entry = s.entry := by
    intro hold huntouched
    rcases htraced key entry hold with ⟨s, hlast, hs⟩
    exact ⟨s, hlast.append huntouched, hs⟩
  cases e with
  | set s =>
      rw [(step_set h).2, Std.HashMap.getElem?_insert] at hentry
      by_cases hkey : s.key = key
      · -- The entry just stored; nothing comes after its call.
        rw [if_pos (beq_iff_eq.2 hkey)] at hentry
        exact ⟨s, ⟨hkey, es, [], rfl, fun e he => by cases he⟩, (Option.some.inj hentry).symm⟩
      · -- Another key's entry: eviction may drop it but does not change it.
        rw [if_neg (fun hbeq => hkey (beq_iff_eq.1 hbeq))] at hentry
        exact hkept (getElem?_of_evict hentry) hkey
  | get now k =>
      cases h
      rw [map_l1Get] at hentry
      exact hkept hentry id
  | invalidate k =>
      cases h
      have hfound : (c.map.erase k)[key]? = some entry := hentry
      rw [Std.HashMap.getElem?_erase] at hfound
      split at hfound
      · cases hfound
      · rename_i hne
        exact hkept hfound fun heq => hne (beq_iff_eq.2 heq)
  | invalidatePrefix part =>
      cases h
      have hfound : (c.map.filter fun k _ => !contains k part)[key]? = some entry := hentry
      rw [Std.HashMap.getElem?_filter', Option.filter_eq_some_iff, Bool.not_eq_true'] at hfound
      exact hkept hfound.1 fun htouched => Bool.false_ne_true (hfound.2.symm.trans htouched)

theorem traced_run {es : List Event} {c : L1Cache} :
    run step L1Cache.empty es = some c → Traced es c := by
  intro hrun
  refine run_induction (Q := Traced) ?_ ?_ hrun
  · intro key entry h
    simp [L1Cache.empty] at h
  · intro es m e t _ htraced hstep
    exact traced_step htraced hstep

/-- Whatever is called, however the clock moves and whichever keys a full map loses: it stays within its
bound, a lookup returns only what the last set of the key has stored, before that expires and if nothing
has invalidated it since, and what was just set is there and returned until it expires. -/
theorem l1_cache_law (es : List Event) (c : L1Cache) (hrun : run step L1Cache.empty es = some c) :
    c.map.size ≤ l1MaxEntries ∧
    (∀ now key entry, (l1Get now key c).2 = some entry →
      ∃ s, LastSet key s es ∧ entry = s.entry ∧ now < s.expiry) ∧
    (∀ before s, es = before ++ [.set s] → c.map[s.key]? = some s.entry ∧
      ∀ now, (l1Get now s.key c).2 = if now < s.expiry then some s.entry else none) := by
  refine ⟨?_, ?_, ?_⟩
  · have hempty : L1Cache.empty.map.size ≤ l1MaxEntries := by simp [L1Cache.empty]
    exact invariant_run (I := fun c => c.map.size ≤ l1MaxEntries) size_step hempty hrun
  · intro now key entry hget
    rcases l1Get_eq_some.1 hget with ⟨hentry, hvalid⟩
    rcases traced_run hrun key entry hentry with ⟨s, hlast, rfl⟩
    exact ⟨s, hlast, rfl, hvalid⟩
  · rintro before s rfl
    -- The insertion comes behind the eviction.
    rcases run_append_eq_some.1 hrun with ⟨m, -, hlast⟩
    rcases run_cons_eq_some.1 hlast with ⟨c', hc', hnil⟩
    have hsame : c' = c := Option.some.inj hnil
    have hthere : c.map[s.key]? = some s.entry := by
      rw [← hsame, (step_set hc').2]
      exact Std.HashMap.getElem?_insert_self
    refine ⟨hthere, fun now => ?_⟩
    split
    · rename_i hvalid
      exact l1Get_eq_some.2 ⟨hthere, hvalid⟩
    · rename_i hexpired
      rw [Option.eq_none_iff_forall_ne_some]
      intro entry hget
      rcases l1Get_eq_some.1 hget with ⟨hentry, hvalid⟩
      rw [hthere] at hentry
      cases hentry
      exact hexpired hvalid

/-- A response stored for a minute in an empty cache. -/
def sampleSet (key : String) : SetCall where
  now := 0
  key := key
  value := "body"
  ttlSecs := some 60
  etag := "e"
  order := []

theorem run_sampleSet (key : String) :
    run step L1Cache.empty [.set (sampleSet key)] = some (l1Set (sampleSet key) L1Cache.empty) := by
  have horder : (sampleSet key).order.Perm
      (retainLive (sampleSet key).now L1Cache.empty.map).keys := by
    have hkeys : (retainLive (sampleSet key).now L1Cache.empty.map).keys = [] := by
      rw [← List.length_eq_zero_iff, Std.HashMap.length_keys]
      exact Nat.eq_zero_of_le_zero Std.HashMap.size_filter_le_size
    rw [hkeys]
    exact List.Perm.nil
  have hexpiry : (0 : ℕ) + 60 < 2 ^ 64 := by decide
  exact run_cons_eq_some.2 ⟨_, if_pos ⟨hexpiry, horder⟩, rfl⟩

/-- What was invalidated last has no last set. -/
theorem not_lastSet_of_invalidated {key : String} {s : SetCall} {es : List Event} :
    ¬ LastSet key s (es ++ [.invalidate key]) := by
  rintro ⟨-, before, after, hsplit, hafter⟩
  rcases List.eq_nil_or_concat after with rfl | ⟨front, e, rfl⟩
  · cases (List.append_inj' hsplit rfl).2
  · -- The invalidation is the last call, so it comes behind the set.
    rw [List.concat_eq_append, ← List.cons_append, ← List.append_assoc] at hsplit
    have hlast := (List.append_inj' hsplit rfl).2
    cases hlast
    exact hafter (.invalidate key) (by rw [List.concat_eq_append]; simp) rfl

/-- Asked for within the minute and after it, and then invalidated. -/
def askedAndInvalidated (key : String) : List Event := [.get 59 key, .get 60 key, .invalidate key]

/-- The response is returned for a minute, and no longer than it is valid. -/
theorem law_after_one_set :
    let c := l1Set (sampleSet "GET:/a") L1Cache.empty
    c.map.size ≤ l1MaxEntries ∧ c.map["GET:/a"]? = some (sampleSet "GET:/a").entry ∧
      (l1Get 59 "GET:/a" c).2 = some (sampleSet "GET:/a").entry ∧ (l1Get 60 "GET:/a" c).2 = none ∧
      ∃ c', run step c (askedAndInvalidated "GET:/a") = some c' ∧ (l1Get 59 "GET:/a" c').2 = none := by
  intro c
  rcases l1_cache_law _ c (run_sampleSet "GET:/a") with ⟨hsize, -, hset⟩
  rcases hset [] _ rfl with ⟨hthere, hanswers⟩
  refine ⟨hsize, hthere, hanswers 59, hanswers 60, _, rfl, ?_⟩
  have hrun : run step L1Cache.empty
      ([.set (sampleSet "GET:/a")] ++ askedAndInvalidated "GET:/a") = some _ :=
    run_append_eq_some.2 ⟨c, run_sampleSet "GET:/a", rfl⟩
  rcases l1_cache_law _ _ hrun with ⟨-, hlookup, -⟩
  rw [Option.eq_none_iff_forall_ne_some]
  intro entry hget
  rcases hlookup 59 "GET:/a" entry hget with ⟨s, hlast, -⟩
  exact @not_lastSet_of_invalidated _ _
    [.set (sampleSet "GET:/a"), .get 59 "GET:/a", .get 60 "GET:/a"] hlast

end ResponseCache
end GatewayEdge
