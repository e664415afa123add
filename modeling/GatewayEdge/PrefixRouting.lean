import GatewayEdge.Foundation.PatternTree
import GatewayEdge.Router

/-!
# PrefixRouting — which route a path takes

Each route is put into the radix tree twice, as its prefix and as a catch-all below it.  A catch-all does not
match an empty rest, so two paths at the boundary of a prefix have no pattern: the prefix with a slash
appended where it is configured without one, and without its slash where it is configured with one.
Everywhere else the longest prefix wins.
-/

namespace GatewayEdge
namespace PrefixRouting

open Foundation
open Router (RouteMeta RouterTree Matchit updateRouter routeEntries findService)

/-! ## The library's tree -/

/-- A pattern of the library: `*path` at its end is the catch-all. -/
def parsePattern (pattern : String) : Pattern Char :=
  let chars := pattern.toList
  if ['*', 'p', 'a', 't', 'h'] <:+ chars then { literal := chars.take (chars.length - 5), catchAll := true }
  else { literal := chars, catchAll := false }

/-- The text begins with a slash and holds no metacharacter. -/
def Plain (text : List Char) : Prop := ['/'] <+: text ∧ ':' ∉ text ∧ '*' ∉ text

/-- An answer is the value of a pattern that matches, a catch-all standing for one or more characters, and a
literal way down is preferred to a catch-all: no pattern that matches has a longer literal part. -/
def AnswersLongest (matchit : Matchit) (tree : RouterTree) (path : String) : Prop :=
  ∀ m, matchit tree path = some m → ∃ e ∈ tree, e.2 = m ∧ (parsePattern e.1).Matches path.toList ∧
    ∀ e' ∈ tree, (parsePattern e'.1).Matches path.toList →
      (parsePattern e'.1).literal.length ≤ (parsePattern e.1).literal.length

/-- With backtracking a pattern that matches does not go unnoticed. -/
def Backtracks (matchit : Matchit) (tree : RouterTree) (path : String) : Prop :=
  ∀ e ∈ tree, (parsePattern e.1).Matches path.toList → matchit tree path ≠ none

/-- A look-up that always backtracks.  The library gives up where only a slash of the path is left. -/
def backtrackingTree : Matchit := fun tree path =>
  Pattern.walk path.toList (tree.map fun e => (parsePattern e.1, e.2))

theorem answersLongest_backtrackingTree (tree : RouterTree) (path : String) :
    AnswersLongest backtrackingTree tree path := by
  intro m hm
  rcases Pattern.walk_eq_some hm with ⟨p, hmem, hmatch, hbest⟩
  rcases List.mem_map.1 hmem with ⟨e, he, hpair⟩
  rcases Prod.mk.inj hpair with ⟨rfl, rfl⟩
  exact ⟨e, he, rfl, hmatch, fun e' he' => hbest _ e'.2 (List.mem_map_of_mem he')⟩

theorem backtracks_backtrackingTree (tree : RouterTree) (path : String) :
    Backtracks backtrackingTree tree path := by
  intro e he hmatch hnone
  exact Pattern.walk_eq_none hnone (List.mem_map_of_mem he) hmatch

/-! ## Longest-prefix match -/

/-- The prefix without a trailing slash. -/
def base (pathPrefix : String) : List Char :=
  if pathPrefix.toList.getLast? = some '/' then pathPrefix.toList.dropLast else pathPrefix.toList

/-- The path is the prefix, or lies below it. -/
def Covers (base path : List Char) : Prop := path = base ∨ (base ++ ['/']) <+: path

/-- Of the prefixes that cover the path no other one is longer. -/
structure Winner (prefixes : List String) (path : String) (pathPrefix : String) : Prop where
  mem : pathPrefix ∈ prefixes
  covers : Covers (base pathPrefix) path.toList
  longest : ∀ other ∈ prefixes, Covers (base other) path.toList →
    (base other).length ≤ (base pathPrefix).length

/-- What `find_service` answers when it uses this route. -/
def routeAnswer (config : GatewayConfig) (route : Route) :
    Option ServiceConfig × String × Option ValidationConfig :=
  (config.services.lookup route.serviceName, route.effectiveTier, route.validation)

/-- The route of the longest prefix is used, and none where no prefix covers the path. -/
def LongestPrefixMatch (matchit : Matchit) (config : GatewayConfig) (path : String) : Prop :=
  (∀ route ∈ config.routes, Winner (config.routes.map Route.pathPrefix) path route.pathPrefix →
    findService matchit (updateRouter config) path config = routeAnswer config route) ∧
  ((∀ route ∈ config.routes, ¬ Covers (base route.pathPrefix) path.toList) →
    findService matchit (updateRouter config) path config = (none, "normal", none))

/-- Prefixes begin with a slash, hold no metacharacter, and differ by more than a trailing slash. -/
structure Admissible (prefixes : List String) : Prop where
  plain : ∀ p ∈ prefixes, Plain p.toList
  distinct : (prefixes.map base).Nodup

/-- The two paths at the boundary of a prefix that no pattern of its route matches. -/
def Missed (pathPrefix path : String) : Prop :=
  (pathPrefix.toList.getLast? ≠ some '/' ∧ path.toList = pathPrefix.toList ++ ['/']) ∨
    (pathPrefix.toList.getLast? = some '/' ∧ path.toList = pathPrefix.toList.dropLast)

theorem admissible_pair {p q : String} (hp : Plain p.toList) (hq : Plain q.toList)
    (hne : base p ≠ base q) : Admissible [p, q] where
  plain := by
    intro r hr
    rcases List.mem_pair.1 hr with rfl | rfl
    · exact hp
    · exact hq
  distinct := by simpa using hne

/-! ## The patterns of a route -/

theorem toList_eq_base (pathPrefix : String) :
    pathPrefix.toList = base pathPrefix ++ if pathPrefix.toList.getLast? = some '/' then ['/'] else [] := by
  unfold base
  split
  · rename_i hlast
    exact (List.dropLast_append_getLast? _ hlast).symm
  · exact (List.append_nil _).symm

def catchAllOf (pathPrefix : String) : Pattern Char := { literal := base pathPrefix ++ ['/'], catchAll := true }

def literalOf (pathPrefix : String) : Pattern Char := { literal := pathPrefix.toList, catchAll := false }

def metaOf (route : Route) : RouteMeta where
  serviceName := route.serviceName
  tier := route.effectiveTier
  validation := route.validation

theorem parsePattern_catchAll (pathPrefix : String) :
    parsePattern (if pathPrefix.toList.getLast? = some '/' then pathPrefix ++ "*path"
      else pathPrefix ++ "/*path") = catchAllOf pathPrefix := by
  have hchars : (if pathPrefix.toList.getLast? = some '/' then pathPrefix ++ "*path"
      else pathPrefix ++ "/*path").toList = base pathPrefix ++ ['/'] ++ ['*', 'p', 'a', 't', 'h'] := by
    have htext := toList_eq_base pathPrefix
    split
    · rename_i hlast
      rw [if_pos hlast] at htext
      rw [String.toList_append, htext]
      rfl
    · rename_i hlast
      rw [if_neg hlast, List.append_nil] at htext
      rw [String.toList_append, htext, List.append_assoc]
      rfl
  unfold parsePattern
  rw [hchars]
  dsimp only
  have hlength : (base pathPrefix ++ ['/'] ++ ['*', 'p', 'a', 't', 'h']).length - 5 =
      (base pathPrefix ++ ['/']).length := by
    simp
  rw [if_pos (List.suffix_append _ _), hlength, List.take_left]
  rfl

theorem parsePattern_literal {pathPrefix : String} (hplain : '*' ∉ pathPrefix.toList) :
    parsePattern pathPrefix = literalOf pathPrefix := by
  unfold parsePattern
  dsimp only
  rw [if_neg fun hsuffix => hplain (hsuffix.subset List.mem_cons_self)]
  rfl

/-- What the library is asked with after `update_router`. -/
def entriesOf (config : GatewayConfig) : List (Pattern Char × RouteMeta) :=
  (updateRouter config).map fun e => (parsePattern e.1, e.2)

section Routes

variable {config : GatewayConfig} {path : String}

/-- Two entries for each route. -/
theorem mem_entriesOf (hadm : Admissible (config.routes.map Route.pathPrefix)) {p : Pattern Char}
    {m : RouteMeta} :
    (p, m) ∈ entriesOf config ↔ ∃ route ∈ config.routes, m = metaOf route ∧
      (p = catchAllOf route.pathPrefix ∨ p = literalOf route.pathPrefix) := by
  have hentries : ∀ route ∈ config.routes, (routeEntries route).map (fun e => (parsePattern e.1, e.2)) =
      [(catchAllOf route.pathPrefix, metaOf route), (literalOf route.pathPrefix, metaOf route)] := by
    intro route hroute
    have hplain := (hadm.plain _ (List.mem_map_of_mem hroute)).2.2
    unfold routeEntries
    simp only [List.map_cons, List.map_nil, parsePattern_catchAll, parsePattern_literal hplain]
    rfl
  unfold entriesOf updateRouter
  rw [List.map_flatMap, List.mem_flatMap]
  constructor
  · rintro ⟨route, hroute, hmem⟩
    rw [hentries route hroute] at hmem
    refine ⟨route, hroute, ?_⟩
    simp only [List.mem_cons, Prod.mk.injEq, List.not_mem_nil, or_false] at hmem
    rcases hmem with ⟨hp, hm⟩ | ⟨hp, hm⟩
    · exact ⟨hm, Or.inl hp⟩
    · exact ⟨hm, Or.inr hp⟩
  · rintro ⟨route, hroute, hm, hp⟩
    refine ⟨route, hroute, ?_⟩
    rw [hentries route hroute, hm]
    rcases hp with hp | hp
    · simp [hp]
    · simp [hp]

/-! ## Patterns and prefixes -/

/-- A route whose pattern matches covers the path. -/
theorem covers_of_matches {pathPrefix : String} {word : List Char} {p : Pattern Char}
    (hp : p = catchAllOf pathPrefix ∨ p = literalOf pathPrefix) (h : p.Matches word) :
    Covers (base pathPrefix) word := by
  rcases hp with rfl | rfl
  · rcases Pattern.matches_catchAll_iff.1 h with ⟨a, rest, hword⟩
    exact Or.inr ⟨a :: rest, hword.symm⟩
  · have hword := Pattern.matches_static_iff.1 h
    have htext := toList_eq_base pathPrefix
    split at htext
    · exact Or.inr ⟨[], by rw [List.append_nil, hword, htext]⟩
    · rw [List.append_nil] at htext
      exact Or.inl (hword.trans htext)

/-- A prefix that covers the path has a pattern for it unless it misses it. -/
theorem matches_or_missed {pathPrefix : String} {word : String}
    (h : Covers (base pathPrefix) word.toList) :
    (∃ a rest, word.toList = base pathPrefix ++ '/' :: a :: rest) ∨ word.toList = pathPrefix.toList ∨
      Missed pathPrefix word := by
  have htext := toList_eq_base pathPrefix
  unfold Missed
  by_cases hlast : pathPrefix.toList.getLast? = some '/'
  · have hbase : base pathPrefix = pathPrefix.toList.dropLast := if_pos hlast
    rw [if_pos hlast] at htext
    rcases h with hexact | ⟨rest, hrest⟩
    · exact Or.inr (Or.inr (Or.inr ⟨hlast, hexact.trans hbase⟩))
    · cases rest with
      | nil =>
          rw [List.append_nil] at hrest
          exact Or.inr (Or.inl (hrest.symm.trans htext.symm))
      | cons a rest => exact Or.inl ⟨a, rest, by rw [← hrest]; simp⟩
  · rw [if_neg hlast, List.append_nil] at htext
    rcases h with hexact | ⟨rest, hrest⟩
    · exact Or.inr (Or.inl (hexact.trans htext.symm))
    · cases rest with
      | nil =>
          rw [List.append_nil] at hrest
          exact Or.inr (Or.inr (Or.inl ⟨hlast, by rw [htext]; exact hrest.symm⟩))
      | cons a rest => exact Or.inl ⟨a, rest, by rw [← hrest]; simp⟩

/-- A prefix that misses the path has no pattern for it. -/
theorem not_matches_of_missed {pathPrefix : String} {word : String} (h : Missed pathPrefix word)
    {p : Pattern Char} (hp : p = catchAllOf pathPrefix ∨ p = literalOf pathPrefix) :
    ¬ p.Matches word.toList := by
  intro hmatch
  have htext := congrArg List.length (toList_eq_base pathPrefix)
  -- The path is too short for the catch-all and not as long as the prefix.
  have hlength : word.toList.length ≤ (base pathPrefix).length + 1 ∧
      word.toList.length ≠ pathPrefix.toList.length := by
    rcases h with ⟨hlast, hword⟩ | ⟨hlast, hword⟩
    · rw [if_neg hlast, List.append_nil] at htext
      rw [hword, List.length_append, List.length_singleton]
      omega
    · have hbase : base pathPrefix = pathPrefix.toList.dropLast := if_pos hlast
      rw [if_pos hlast, List.length_append, List.length_singleton] at htext
      rw [hword, ← hbase]
      omega
  rcases hp with rfl | rfl
  · rcases Pattern.matches_catchAll_iff.1 hmatch with ⟨a, rest, hword⟩
    have hlong := congrArg List.length hword
    simp only [List.length_append, List.length_cons, List.length_nil] at hlong
    omega
  · exact hlength.2 (congrArg List.length (Pattern.matches_static_iff.1 hmatch))

/-! ## What is found -/

/-- An answer is the route of an entry that matches, none that matches being longer. -/
theorem findService_of_some {matchit : Matchit} {m : RouteMeta}
    (hlongest : AnswersLongest matchit (updateRouter config) path)
    (hadm : Admissible (config.routes.map Route.pathPrefix))
    (hm : matchit (updateRouter config) path = some m) :
    ∃ route ∈ config.routes, ∃ p,
      findService matchit (updateRouter config) path config = routeAnswer config route ∧
        (p = catchAllOf route.pathPrefix ∨ p = literalOf route.pathPrefix) ∧ p.Matches path.toList ∧
        ∀ q m, (q, m) ∈ entriesOf config → q.Matches path.toList → q.literal.length ≤ p.literal.length := by
  rcases hlongest m hm with ⟨e, he, rfl, hmatch, hbest⟩
  have hmem : (parsePattern e.1, e.2) ∈ entriesOf config := List.mem_map_of_mem he
  rcases (mem_entriesOf hadm).1 hmem with ⟨route, hroute, hmeta, hp⟩
  refine ⟨route, hroute, _, ?_, hp, hmatch, fun q m' hq hqmatch => ?_⟩
  · unfold findService
    rw [hm, hmeta]
    rfl
  · rcases List.mem_map.1 hq with ⟨e', he', hpair⟩
    rcases Prod.mk.inj hpair with ⟨rfl, -⟩
    exact hbest e' he' hqmatch

theorem findService_of_none {matchit : Matchit} (hnone : matchit (updateRouter config) path = none) :
    findService matchit (updateRouter config) path config = (none, "normal", none) := by
  unfold findService
  rw [hnone]

/-- Two routes with one base are one route. -/
theorem route_eq_of_base (hadm : Admissible (config.routes.map Route.pathPrefix)) {r r' : Route}
    (hr : r ∈ config.routes) (hr' : r' ∈ config.routes)
    (hbase : base r'.pathPrefix = base r.pathPrefix) : r' = r := by
  have hnodup := hadm.distinct
  rw [List.map_map] at hnodup
  exact List.inj_on_of_nodup_map hnodup hr' hr hbase

/-- The winner is found where it does not miss the path. -/
theorem base_eq_of_best {route route' : Route} {p : Pattern Char}
    (hadm : Admissible (config.routes.map Route.pathPrefix)) (hroute : route ∈ config.routes)
    (hroute' : route' ∈ config.routes)
    (hwins : Winner (config.routes.map Route.pathPrefix) path route.pathPrefix)
    (hmiss : ¬ Missed route.pathPrefix path)
    (hp : p = catchAllOf route'.pathPrefix ∨ p = literalOf route'.pathPrefix)
    (hmatch : p.Matches path.toList)
    (hbest : ∀ q m, (q, m) ∈ entriesOf config → q.Matches path.toList →
      q.literal.length ≤ p.literal.length) : base route'.pathPrefix = base route.pathPrefix := by
  have hshorter := hwins.longest _ (List.mem_map_of_mem hroute') (covers_of_matches hp hmatch)
  have htext := congrArg List.length (toList_eq_base route'.pathPrefix)
  have hown : ∀ q, q = catchAllOf route.pathPrefix ∨ q = literalOf route.pathPrefix →
      q.Matches path.toList → q.literal.length ≤ p.literal.length := fun q hq hqmatch =>
    hbest q (metaOf route) ((mem_entriesOf hadm).2 ⟨route, hroute, rfl, hq⟩) hqmatch
  rcases matches_or_missed hwins.covers with ⟨a, rest, hword⟩ | hword | hmissed
  · -- The path lies below the winner: its catch-all matches.
    have hcatch : (catchAllOf route.pathPrefix).Matches path.toList :=
      Pattern.matches_catchAll_iff.2 ⟨a, rest, by rw [hword]; simp⟩
    have hlong := hown _ (Or.inl rfl) hcatch
    rcases hp with rfl | rfl
    · have hlength : (catchAllOf route'.pathPrefix).literal.length =
          (catchAllOf route.pathPrefix).literal.length := by
        simp only [catchAllOf, List.length_append, List.length_singleton] at hlong ⊢
        omega
      exact List.append_cancel_right (Pattern.literal_eq_of_matches hmatch hcatch hlength)
    · -- A literal match would be of a longer prefix.
      have hpathLength := congrArg List.length (Pattern.matches_static_iff.1 hmatch)
      have hwordLength := congrArg List.length hword
      rw [List.length_append] at htext
      simp only [List.length_append, List.length_cons] at hwordLength
      split at htext
      · rw [List.length_singleton] at htext
        omega
      · rw [List.length_nil] at htext
        omega
  · -- The path is the winner's own prefix, which only a literal match can equal in length.
    have hlong := hown _ (Or.inr rfl) (Pattern.matches_static_iff.2 hword)
    rcases hp with rfl | rfl
    · rcases Pattern.matches_catchAll_iff.1 hmatch with ⟨a, rest, hword'⟩
      have hlength := congrArg List.length hword'
      have hpathLength := congrArg List.length hword
      simp only [catchAllOf, literalOf, List.length_append, List.length_cons] at hlong hlength
      omega
    · have hsame : route'.pathPrefix = route.pathPrefix :=
        String.toList_injective ((Pattern.matches_static_iff.1 hmatch).symm.trans hword)
      rw [hsame]
  · exact absurd hmissed hmiss

end Routes

/-- A config with one service for each prefix. -/
def oneServiceEach (prefixes : List String) : GatewayConfig where
  services := prefixes.map fun p =>
    (p, { name := p, rateLimitMax := 0, regionalUpstreams := [], requireAuth := false })
  routes := prefixes.map fun p => { pathPrefix := p, serviceName := p }

theorem prefixes_oneServiceEach (prefixes : List String) :
    (oneServiceEach prefixes).routes.map Route.pathPrefix = prefixes := by
  unfold oneServiceEach
  rw [List.map_map]
  exact List.map_id _

theorem services_lookup {prefixes : List String} {p : String} (hp : p ∈ prefixes) :
    (oneServiceEach prefixes).services.lookup p =
      some { name := p, rateLimitMax := 0, regionalUpstreams := [], requireAuth := false } := by
  unfold oneServiceEach
  dsimp only
  induction prefixes with
  | nil => cases hp
  | cons q prefixes ih =>
      rw [List.map_cons, List.lookup_cons]
      by_cases hq : p = q
      · rw [hq]
        simp
      · have hne : (p == q) = false := by simpa using hq
        rw [hne]
        exact ih ((List.mem_cons.1 hp).resolve_left hq)

/-- On a path that the longest prefix misses its route is not used, backtracking or not: with a service of
its own for each prefix the answer tells which route has been. -/
theorem not_longestPrefixMatch_of_missed {matchit : Matchit} {prefixes : List String} {path p : String}
    (hadm : Admissible prefixes)
    (hlongest : AnswersLongest matchit (updateRouter (oneServiceEach prefixes)) path)
    (hwins : Winner prefixes path p) (hmissed : Missed p path) :
    ¬ LongestPrefixMatch matchit (oneServiceEach prefixes) path := by
  intro hmatch
  have hprefixes := prefixes_oneServiceEach prefixes
  have hroute : ({ pathPrefix := p, serviceName := p } : Route) ∈ (oneServiceEach prefixes).routes :=
    List.mem_map_of_mem hwins.mem
  have hown := hmatch.1 _ hroute (by rw [hprefixes]; exact hwins)
  have hservice := congrArg Prod.fst hown
  have hp : (routeAnswer (oneServiceEach prefixes) { pathPrefix := p, serviceName := p }).1 = _ :=
    services_lookup hwins.mem
  rw [hp] at hservice
  rw [← hprefixes] at hadm
  cases hm : matchit (updateRouter (oneServiceEach prefixes)) path with
  | none =>
      rw [findService_of_none hm] at hservice
      cases hservice
  | some m =>
      rcases findService_of_some hlongest hadm hm with ⟨route, hmem, q, hfound, hq, hqmatch, -⟩
      -- Another route has answered, with its own service.
      rcases List.mem_map.1 hmem with ⟨other, hother, rfl⟩
      have hotherService : (routeAnswer (oneServiceEach prefixes)
          { pathPrefix := other, serviceName := other }).1 = _ := services_lookup hother
      rw [hfound, hotherService] at hservice
      have hsame : other = p := congrArg ServiceConfig.name (Option.some.inj hservice)
      subst hsame
      exact not_matches_of_missed hmissed hq hqmatch

/-- Where the winner has a pattern for the path its route is used. -/
theorem longestPrefixMatch_of_not_missed {matchit : Matchit} {config : GatewayConfig} {path : String}
    (hadm : Admissible (config.routes.map Route.pathPrefix))
    (hlongest : AnswersLongest matchit (updateRouter config) path)
    (hback : Backtracks matchit (updateRouter config) path)
    (hclear : ∀ p, Winner (config.routes.map Route.pathPrefix) path p → ¬ Missed p path) :
    LongestPrefixMatch matchit config path := by
  cases hm : matchit (updateRouter config) path with
  | none =>
      refine ⟨fun route hroute hwins => ?_, fun _ => findService_of_none hm⟩
      have hentry : ∀ q, q = catchAllOf route.pathPrefix ∨ q = literalOf route.pathPrefix →
          ¬ q.Matches path.toList := by
        intro q hq hqmatch
        have hmem : (q, metaOf route) ∈ entriesOf config :=
          (mem_entriesOf hadm).2 ⟨route, hroute, rfl, hq⟩
        rcases List.mem_map.1 hmem with ⟨e, he, hpair⟩
        rcases Prod.mk.inj hpair with ⟨rfl, -⟩
        exact hback e he hqmatch hm
      rcases matches_or_missed hwins.covers with ⟨a, rest, hword⟩ | hword | hmissed
      · exact absurd (Pattern.matches_catchAll_iff.2 ⟨a, rest, by rw [hword]; simp⟩) (hentry _ (Or.inl rfl))
      · exact absurd (Pattern.matches_static_iff.2 hword) (hentry _ (Or.inr rfl))
      · exact absurd hmissed (hclear _ hwins)
  | some m =>
      rcases findService_of_some hlongest hadm hm with ⟨route', hroute', p, hfound, hp, hpmatch, hbest⟩
      constructor
      · intro route hroute hwins
        have hbase := base_eq_of_best hadm hroute hroute' hwins (hclear _ hwins) hp hpmatch hbest
        rw [hfound, route_eq_of_base hadm hroute hroute' hbase]
      · intro hnone
        exact absurd (covers_of_matches hp hpmatch) (hnone route' hroute')

/-- Routing is longest-prefix match, whatever is configured behind the prefixes, exactly on the paths that
the winning prefix does not miss.  What is granted of the library is granted for this path and the trees of
these prefixes. -/
theorem longest_prefix_iff {matchit : Matchit} {prefixes : List String} (hadm : Admissible prefixes)
    {path : String}
    (hlongest : ∀ config : GatewayConfig, config.routes.map Route.pathPrefix = prefixes →
      AnswersLongest matchit (updateRouter config) path)
    (hback : ∀ config : GatewayConfig, config.routes.map Route.pathPrefix = prefixes →
      Backtracks matchit (updateRouter config) path) :
    (∀ config : GatewayConfig, config.routes.map Route.pathPrefix = prefixes →
      LongestPrefixMatch matchit config path) ↔
      ∀ p, Winner prefixes path p → ¬ Missed p path := by
  constructor
  · intro hmatch p hwins hmissed
    have hprefixes := prefixes_oneServiceEach prefixes
    exact not_longestPrefixMatch_of_missed hadm (hlongest _ hprefixes) hwins hmissed (hmatch _ hprefixes)
  · rintro hclear config rfl
    exact longestPrefixMatch_of_not_missed hadm (hlongest config rfl) (hback config rfl) hclear

/-- A path below both of two nested prefixes goes to the longer one. -/
theorem nested_prefix_used :
    LongestPrefixMatch backtrackingTree (oneServiceEach ["/api", "/api/v1"]) "/api/v1/x" := by
  have hadm : Admissible ["/api", "/api/v1"] :=
    admissible_pair ⟨by decide, by decide, by decide⟩ ⟨by decide, by decide, by decide⟩ (by decide)
  refine (longest_prefix_iff hadm (fun _ _ => answersLongest_backtrackingTree _ _)
    (fun _ _ => backtracks_backtrackingTree _ _)).2 (fun p hwins hmissed => ?_) _ rfl
  rcases List.mem_pair.1 hwins.mem with rfl | rfl
  · revert hmissed
    unfold Missed
    decide
  · revert hmissed
    unfold Missed
    decide

/-- `/api/` lies below `/api`, the only prefix, and no service is found for it, whether the look-up
backtracks or not. -/
theorem trailing_slash_unserved :
    Admissible ["/api"] ∧ Winner ["/api"] "/api/" "/api" ∧
      (∀ matchit, AnswersLongest matchit (updateRouter (oneServiceEach ["/api"])) "/api/" →
        matchit (updateRouter (oneServiceEach ["/api"])) "/api/" = none ∧
          ¬ LongestPrefixMatch matchit (oneServiceEach ["/api"]) "/api/") ∧
      AnswersLongest backtrackingTree (updateRouter (oneServiceEach ["/api"])) "/api/" ∧
      Backtracks backtrackingTree (updateRouter (oneServiceEach ["/api"])) "/api/" := by
  have hadm : Admissible ["/api"] := by
    refine ⟨fun p hp => ?_, by decide⟩
    rw [List.mem_singleton.1 hp]
    exact ⟨by decide, by decide, by decide⟩
  have hwins : Winner ["/api"] "/api/" "/api" := by
    refine ⟨by decide, Or.inr (by decide), fun other hother _ => ?_⟩
    rw [List.mem_singleton.1 hother]
  have hmissed : Missed "/api" "/api/" := Or.inl (by decide)
  refine ⟨hadm, hwins, fun matchit hlongest => ⟨?_, ?_⟩, answersLongest_backtrackingTree _ _,
    backtracks_backtrackingTree _ _⟩
  · cases hm : matchit (updateRouter (oneServiceEach ["/api"])) "/api/" with
    | none => rfl
    | some m =>
        rcases findService_of_some hlongest hadm hm with ⟨route, hroute, q, -, hq, hqmatch, -⟩
        rcases List.mem_singleton.1 hroute with rfl
        exact absurd hqmatch (not_matches_of_missed hmissed hq)
  · exact not_longestPrefixMatch_of_missed hadm hlongest hwins hmissed

end PrefixRouting
end GatewayEdge
