import GatewayEdge.ResponseCache
import Mathlib.Data.Set.Function

/-!
# CacheKeys — which requests share a response

The parts of a cache key are joined by colons, and a path or a user id may hold colons of its own.  Two
requests of one method share their key exactly when the path of one is the path of the other up to a colon
and what follows stands at the beginning of the other's user id.
-/

namespace GatewayEdge
namespace ResponseCache

open Foundation

/-! ## Keys -/

/-- What a response is stored for. -/
structure CachedRequest where
  method : String
  path : String
  userId : Option String
  deriving DecidableEq

def CachedRequest.key (r : CachedRequest) : String := cacheKey r.method r.path r.userId

/-- What a key holds behind the path. -/
def userSuffix : Option String → String
  | some uid => ":" ++ uid
  | none => ""

/-- The path of the first request runs on, past a colon, into the user id of the second. -/
def Overlap (r₁ r₂ : CachedRequest) : Prop :=
  r₁.method = r₂.method ∧ ∃ x uid, r₂.userId = some uid ∧ r₁.path = r₂.path ++ ":" ++ x ∧
    uid = x ++ userSuffix r₁.userId

theorem toList_key (r : CachedRequest) :
    r.key.toList = r.method.toList ++ ':' :: (r.path.toList ++ (userSuffix r.userId).toList) := by
  unfold CachedRequest.key cacheKey userSuffix
  cases r.userId with
  | none => simp
  | some uid => simp

/-- The first separator that is in neither beginning is the same one. -/
theorem append_cons_inj {α : Type*} {c : α} {xs xs' ys ys' : List α} (h : c ∉ xs) (h' : c ∉ xs') :
    xs ++ c :: ys = xs' ++ c :: ys' → xs = xs' ∧ ys = ys' := by
  induction xs generalizing xs' with
  | nil =>
      intro heq
      cases xs' with
      | nil => exact ⟨rfl, (List.cons.inj heq).2⟩
      | cons x' xs' => exact absurd ((List.cons.inj heq).1 ▸ List.mem_cons_self) h'
  | cons x xs ih =>
      intro heq
      cases xs' with
      | nil => exact absurd ((List.cons.inj heq).1 ▸ List.mem_cons_self) h
      | cons x' xs' =>
          rcases List.cons.inj heq with ⟨rfl, hrest⟩
          rcases ih (fun hc => h (List.mem_cons_of_mem _ hc))
            (fun hc => h' (List.mem_cons_of_mem _ hc)) hrest with ⟨rfl, hys⟩
          exact ⟨rfl, hys⟩

theorem userSuffix_injective : Function.Injective userSuffix := by
  intro u u' h
  have hlist := congrArg String.toList h
  cases u with
  | none =>
      cases u' with
      | none => rfl
      | some uid' => simp [userSuffix] at hlist
  | some uid =>
      cases u' with
      | none => simp [userSuffix] at hlist
      | some uid' =>
          have huid : uid = uid' := by simpa [userSuffix, String.toList_inj] using hlist
          rw [huid]

/-- A longer path makes up for a shorter user id, or there is no difference. -/
theorem path_of_suffix {p p' : String} {u u' : Option String} {as : List Char}
    (hpath : p'.toList = p.toList ++ as)
    (hsuffix : (userSuffix u).toList = as ++ (userSuffix u').toList) :
    p = p' ∧ u = u' ∨
      ∃ x uid, u = some uid ∧ p' = p ++ ":" ++ x ∧ uid = x ++ userSuffix u' := by
  cases as with
  | nil =>
      have hpaths : p = p' := String.toList_inj.1 (by rw [hpath, List.append_nil])
      have hsuffixes : userSuffix u = userSuffix u' := String.toList_inj.1 hsuffix
      exact Or.inl ⟨hpaths, userSuffix_injective hsuffixes⟩
  | cons c x =>
      cases u with
      | none => simp [userSuffix] at hsuffix
      | some uid =>
          -- What the longer path has more begins with the colon in front of the user id.
          have hparts : ':' = c ∧ uid.toList = x ++ (userSuffix u').toList := by
            simpa [userSuffix] using hsuffix
          rcases hparts with ⟨rfl, huid⟩
          refine Or.inr ⟨String.ofList x, uid, rfl, ?_, ?_⟩
          · refine String.toList_inj.1 ?_
            simp [hpath]
          · refine String.toList_inj.1 ?_
            simp [huid]

/-- Two requests share their key only if they are the same or overlap. -/
theorem key_eq_iff {r₁ r₂ : CachedRequest} (h₁ : ':' ∉ r₁.method.toList)
    (h₂ : ':' ∉ r₂.method.toList) : r₁.key = r₂.key ↔ r₁ = r₂ ∨ Overlap r₁ r₂ ∨ Overlap r₂ r₁ := by
  constructor
  · intro h
    have hlist : r₁.key.toList = r₂.key.toList := congrArg String.toList h
    rw [toList_key, toList_key] at hlist
    -- Methods have no colon, so they end where the first one stands.
    rcases append_cons_inj h₁ h₂ hlist with ⟨hmethod, hrest⟩
    have hmethods : r₁.method = r₂.method := String.toList_inj.1 hmethod
    have hsame : r₁.path = r₂.path → r₁.userId = r₂.userId → r₁ = r₂ := by
      intro hpaths husers
      cases r₁
      cases r₂
      simp_all
    -- The path that is not shorter runs on into the rest of the other key, or not at all.
    rcases List.append_eq_append_iff.1 hrest with ⟨as, hpath, hsuffix⟩ | ⟨as, hpath, hsuffix⟩
    · rcases path_of_suffix hpath hsuffix with ⟨hpaths, husers⟩ | hlonger
      · exact Or.inl (hsame hpaths husers)
      · exact Or.inr (Or.inr ⟨hmethods.symm, hlonger⟩)
    · rcases path_of_suffix hpath hsuffix with ⟨hpaths, husers⟩ | hlonger
      · exact Or.inl (hsame hpaths.symm husers.symm)
      · exact Or.inr (Or.inl ⟨hmethods, hlonger⟩)
  · have hshared : ∀ r r' : CachedRequest, Overlap r r' → r.key = r'.key := by
      rintro r r' ⟨hmethod, x, uid, huser, hpath, huid⟩
      refine String.toList_inj.1 ?_
      rw [toList_key, toList_key, hmethod, hpath, huser]
      simp [userSuffix, huid]
    rintro (rfl | h | h)
    · rfl
    · exact hshared r₁ r₂ h
    · exact (hshared r₂ r₁ h).symm

/-! ## Requests that use the cache -/

/-- A response stored for a request under its key, a lookup for one, or an invalidation. -/
inductive Use
  | set (r : CachedRequest) (s : SetCall)
  | get (r : CachedRequest) (now : ℕ)
  | invalidate (r : CachedRequest)
  | invalidatePrefix (part : String)

def Use.event : Use → Event
  | .set r s => .set { s with key := r.key }
  | .get r now => .get now r.key
  | .invalidate r => .invalidate r.key
  | .invalidatePrefix part => .invalidatePrefix part

/-- The request the cache is used for, if it is used for one. -/
def Use.request : Use → Option CachedRequest
  | .set r _ => some r
  | .get r _ => some r
  | .invalidate r => some r
  | .invalidatePrefix _ => none

/-- However the cache is used for these requests: whenever a lookup for one of them returns an entry, the
call that has stored it, the last one for the key, was for that request. -/
def NeverCrosses (R : Set CachedRequest) : Prop :=
  ∀ us c, (∀ u ∈ us, ∀ r, u.request = some r → r ∈ R) →
    run step L1Cache.empty (us.map Use.event) = some c →
    ∀ r ∈ R, ∀ now entry, (l1Get now r.key c).2 = some entry →
      ∃ s before after, us = before ++ .set r s :: after ∧
        (∀ u ∈ after, ¬ u.event.Touches r.key) ∧ entry.value = s.value ∧ entry.etag = s.etag

/-- No path runs on past itself. -/
theorem ne_append_colon (path x : String) : path ≠ path ++ ":" ++ x := by
  intro h
  have hlist := congrArg String.toList h
  simp at hlist

theorem Overlap.ne {r₁ r₂ : CachedRequest} : Overlap r₁ r₂ → r₁ ≠ r₂ := by
  rintro ⟨-, x, uid, -, hpath, -⟩ rfl
  exact ne_append_colon _ x hpath

/-- Every entry found was stored for the request that finds it, if keys tell the requests apart. -/
theorem neverCrosses_of_injOn {R : Set CachedRequest} :
    Set.InjOn CachedRequest.key R → NeverCrosses R := by
  intro hinj us c hover hrun r hr now entry hget
  rcases traced_run hrun r.key entry (l1Get_eq_some.1 hget).1 with
    ⟨s, ⟨hkey, before, after, hsplit, hafter⟩, rfl⟩
  rcases List.map_eq_append_iff.1 hsplit with ⟨us₁, us₂, rfl, -, hrest⟩
  rcases List.map_eq_cons_iff.1 hrest with ⟨u, us₃, rfl, hu, rfl⟩
  -- The call that has stored it is a set for some request of the same key.
  cases u with
  | get r' now' => cases hu
  | invalidate r' => cases hu
  | invalidatePrefix part => cases hu
  | set r' s' =>
      have hs : s = { s' with key := r'.key } := (Event.set.inj hu).symm
      have hr' : r' ∈ R :=
        hover _ (List.mem_append_right us₁ List.mem_cons_self) r' rfl
      have hsame : r' = r := hinj hr' hr (by rw [← hkey, hs])
      rw [hs, hsame]
      exact ⟨s', us₁, us₃, rfl, fun d hd => hafter _ (List.mem_map_of_mem hd), rfl, rfl⟩

/-- Two requests that overlap find each other's responses. -/
theorem not_neverCrosses_of_overlap {R : Set CachedRequest} {r₁ r₂ : CachedRequest} (hr₁ : r₁ ∈ R)
    (hr₂ : r₂ ∈ R) (hkey : r₁.key = r₂.key) (hne : r₁ ≠ r₂) : ¬ NeverCrosses R := by
  intro hnever
  -- One call stores for the first request; the second one finds it.
  have hfound : (l1Get 0 r₂.key (l1Set (sampleSet r₁.key) L1Cache.empty)).2 =
      some (sampleSet r₁.key).entry := by
    have hvalid : 0 < (sampleSet r₁.key).entry.expiresAt := Nat.succ_pos 59
    refine l1Get_eq_some.2 ⟨?_, hvalid⟩
    rw [← hkey]
    exact Std.HashMap.getElem?_insert_self
  have hover : ∀ u ∈ [Use.set r₁ (sampleSet r₁.key)], ∀ r, u.request = some r → r ∈ R := by
    intro u hu r hr
    rw [List.mem_singleton.1 hu] at hr
    exact Option.some.inj hr ▸ hr₁
  rcases hnever _ _ hover (run_sampleSet r₁.key) r₂ hr₂ 0 _ hfound with
    ⟨s, before, after, hsplit, -⟩
  cases before with
  | nil => exact hne (Use.set.inj (List.cons.inj hsplit).1).1
  | cons u before => cases before <;> cases hsplit

/-! ## The law -/

/-- Whatever requests a worker serves: their keys tell them apart, and no lookup for one of them ever
returns what was stored for another, exactly if no two of them overlap. -/
theorem never_cross_users_iff (R : Set CachedRequest) (hmethod : ∀ r ∈ R, ':' ∉ r.method.toList) :
    (Set.InjOn CachedRequest.key R ∧ NeverCrosses R) ↔ ∀ r₁ ∈ R, ∀ r₂ ∈ R, ¬ Overlap r₁ r₂ := by
  constructor
  · rintro ⟨-, hnever⟩ r₁ hr₁ r₂ hr₂ hoverlap
    have hkey : r₁.key = r₂.key :=
      (key_eq_iff (hmethod r₁ hr₁) (hmethod r₂ hr₂)).2 (Or.inr (Or.inl hoverlap))
    exact not_neverCrosses_of_overlap hr₁ hr₂ hkey hoverlap.ne hnever
  · intro hapart
    have hinj : Set.InjOn CachedRequest.key R := by
      intro r₁ hr₁ r₂ hr₂ hkey
      rcases (key_eq_iff (hmethod r₁ hr₁) (hmethod r₂ hr₂)).1 hkey with h | h | h
      · exact h
      · exact absurd h (hapart r₁ hr₁ r₂ hr₂)
      · exact absurd h (hapart r₂ hr₂ r₁ hr₁)
    exact ⟨hinj, neverCrosses_of_injOn hinj⟩

/-- The list of items, for nobody and for one user. -/
def itemRequests : Set CachedRequest :=
  {r | r = { method := "GET", path := "/api/items", userId := none } ∨
    r = { method := "GET", path := "/api/items", userId := some "user123" }}

theorem items_never_cross : Set.InjOn CachedRequest.key itemRequests ∧ NeverCrosses itemRequests := by
  refine (never_cross_users_iff itemRequests ?_).2 ?_
  · rintro r (rfl | rfl) <;> decide
  · have hpath : ∀ r ∈ itemRequests, r.path = "/api/items" := by
      rintro r (rfl | rfl) <;> rfl
    rintro r₁ hr₁ r₂ hr₂ ⟨-, x, uid, -, hlonger, -⟩
    rw [hpath r₁ hr₁, hpath r₂ hr₂] at hlonger
    exact ne_append_colon _ x hlonger

/-- What is stored for everybody who asks for `/a:b` is found by the user `b` who asks for `/a`. -/
theorem user_finds_foreign_entry :
    cacheKey "GET" "/a:b" none = cacheKey "GET" "/a" (some "b") ∧
      ∃ c, run step L1Cache.empty [.set (sampleSet (cacheKey "GET" "/a:b" none))] = some c ∧
        (l1Get 0 (cacheKey "GET" "/a" (some "b")) c).2 = some (sampleSet (cacheKey "GET" "/a:b" none)).entry := by
  have hkey : cacheKey "GET" "/a:b" none = cacheKey "GET" "/a" (some "b") := by decide
  refine ⟨hkey, _, run_sampleSet _, l1Get_eq_some.2 ⟨?_, by decide⟩⟩
  rw [← hkey]
  exact Std.HashMap.getElem?_insert_self

end ResponseCache
end GatewayEdge
