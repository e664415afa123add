import Mathlib.Data.List.Infix

/-!
# PatternTree — look-ups in a tree of literal and catch-all patterns

A pattern is a word, or a word followed by a catch-all for one or more further letters.  The tree is given
by its entries: `descend` is the step into a child, and `walk` follows a word letter by letter, a longer way
down being preferred to a catch-all that could be taken here.  What comes out is an entry with the longest
literal part among all that match.
-/

namespace GatewayEdge
namespace Foundation

structure Pattern (α : Type*) where
  literal : List α
  catchAll : Bool
  deriving DecidableEq, Repr

namespace Pattern

variable {α ν : Type*}

/-- The word is the literal part, followed by something exactly if the pattern ends in a catch-all. -/
def Matches (p : Pattern α) (word : List α) : Prop :=
  ∃ rest, word = p.literal ++ rest ∧ (rest ≠ [] ↔ p.catchAll = true)

theorem Matches.length_le {p : Pattern α} {word : List α} (h : p.Matches word) :
    p.literal.length ≤ word.length := by
  rcases h with ⟨rest, rfl, -⟩
  rw [List.length_append]
  exact Nat.le_add_right _ _

theorem matches_static_iff {literal word : List α} :
    (Pattern.mk literal false).Matches word ↔ word = literal := by
  constructor
  · rintro ⟨rest, hword, hrest⟩
    have hnil : rest = [] := by simpa using hrest
    rw [hword, hnil, List.append_nil]
  · rintro rfl
    exact ⟨[], (List.append_nil _).symm, by simp⟩

theorem matches_catchAll_iff {literal word : List α} :
    (Pattern.mk literal true).Matches word ↔ ∃ a rest, word = literal ++ a :: rest := by
  constructor
  · rintro ⟨rest, hword, hrest⟩
    rcases List.exists_cons_of_ne_nil (hrest.2 rfl) with ⟨a, rest', rfl⟩
    exact ⟨a, rest', hword⟩
  · rintro ⟨a, rest, hword⟩
    exact ⟨a :: rest, hword, by simp⟩

/-- Two patterns of the same length that match one word have the same literal part. -/
theorem literal_eq_of_matches {p q : Pattern α} {word : List α} (hp : p.Matches word) (hq : q.Matches word)
    (hlength : p.literal.length = q.literal.length) : p.literal = q.literal := by
  rcases hp with ⟨restP, hwordP, -⟩
  rcases hq with ⟨restQ, hwordQ, -⟩
  exact (List.append_inj (hwordP.symm.trans hwordQ) hlength).1

/-- What is stored at the node itself; of two entries for one pattern the first is kept. -/
def atNode (catchAll : Bool) (entries : List (Pattern α × ν)) : Option ν :=
  (entries.find? fun e => e.1.literal.isEmpty && e.1.catchAll == catchAll).map Prod.snd

/-- A pattern matches a longer word through its child. -/
theorem matches_cons_iff {a : α} {p : Pattern α} {word : List α} :
    (Pattern.mk (a :: p.literal) p.catchAll).Matches (a :: word) ↔ p.Matches word := by
  constructor
  · rintro ⟨rest, hword, hrest⟩
    exact ⟨rest, (List.cons.inj hword).2, hrest⟩
  · rintro ⟨rest, rfl, hrest⟩
    exact ⟨rest, rfl, hrest⟩

theorem atNode_eq_some {catchAll : Bool} {entries : List (Pattern α × ν)} {v : ν}
    (h : atNode catchAll entries = some v) : (Pattern.mk [] catchAll, v) ∈ entries := by
  rcases Option.map_eq_some_iff.1 h with ⟨⟨⟨literal, flag⟩, w⟩, hfind, rfl⟩
  have hnode := List.find?_some hfind
  rw [Bool.and_eq_true, List.isEmpty_iff, beq_iff_eq] at hnode
  have hmem := List.mem_of_find?_eq_some hfind
  rcases hnode with ⟨hliteral, hflag⟩
  dsimp only at hliteral hflag
  rwa [hliteral, hflag] at hmem

theorem atNode_eq_none {catchAll : Bool} {entries : List (Pattern α × ν)}
    (h : atNode catchAll entries = none) (v : ν) : (Pattern.mk [] catchAll, v) ∉ entries := by
  intro hmem
  have hnot := List.find?_eq_none.1 (Option.map_eq_none_iff.1 h) _ hmem
  simp at hnot

section Tree

variable [DecidableEq α]

/-- The entries below the child for this letter. -/
def descend (a : α) (entries : List (Pattern α × ν)) : List (Pattern α × ν) :=
  entries.filterMap fun e =>
    match e.1.literal with
    | [] => none
    | b :: literal => if b = a then some ({ literal := literal, catchAll := e.1.catchAll }, e.2) else none

def walk : List α → List (Pattern α × ν) → Option ν
  | [], entries => atNode false entries
  | a :: word, entries => (walk word (descend a entries)).or (atNode true entries)

theorem mem_descend {a : α} {entries : List (Pattern α × ν)} {p : Pattern α} {v : ν} :
    (p, v) ∈ descend a entries ↔ ({ literal := a :: p.literal, catchAll := p.catchAll }, v) ∈ entries := by
  unfold descend
  rw [List.mem_filterMap]
  constructor
  · rintro ⟨⟨⟨literal, catchAll⟩, w⟩, hmem, hsome⟩
    cases literal with
    | nil => cases hsome
    | cons b literal =>
        dsimp only at hsome
        split at hsome
        · rename_i hb
          subst hb
          cases hsome
          exact hmem
        · cases hsome
  · intro hmem
    exact ⟨_, hmem, by simp⟩

/-- Whatever matches a longer word is at the node, or below the child of its first letter. -/
theorem matches_below {a : α} {word : List α} {entries : List (Pattern α × ν)} {q : Pattern α} {v : ν}
    (hmem : (q, v) ∈ entries) (hmatch : q.Matches (a :: word)) :
    q = { literal := [], catchAll := true } ∨
      ∃ p : Pattern α, q.literal = a :: p.literal ∧ (p, v) ∈ descend a entries ∧ p.Matches word := by
  rcases q with ⟨literal, catchAll⟩
  rcases hmatch with ⟨rest, hword, hrest⟩
  cases literal with
  | nil =>
      have hne : rest ≠ [] := by
        rintro rfl
        cases hword
      have hcatch : catchAll = true := hrest.1 hne
      exact Or.inl (congrArg _ hcatch)
  | cons b literal =>
      rcases List.cons.inj hword with ⟨rfl, hword'⟩
      exact Or.inr ⟨⟨literal, catchAll⟩, rfl, mem_descend.2 hmem, rest, hword', hrest⟩

theorem walk_eq_none {word : List α} {entries : List (Pattern α × ν)} (h : walk word entries = none)
    {q : Pattern α} {v : ν} (hmem : (q, v) ∈ entries) : ¬ q.Matches word := by
  induction word generalizing entries q with
  | nil =>
      intro hmatch
      rcases q with ⟨literal, catchAll⟩
      rcases hmatch with ⟨rest, hword, hrest⟩
      rcases List.append_eq_nil_iff.1 hword.symm with ⟨rfl, rfl⟩
      have hstatic : catchAll = false := by simpa using hrest
      exact atNode_eq_none h v (hstatic ▸ hmem)
  | cons a word ih =>
      unfold walk at h
      rcases Option.or_eq_none_iff.1 h with ⟨hchild, hnode⟩
      intro hmatch
      rcases matches_below hmem hmatch with rfl | ⟨p, -, hbelow, hp⟩
      · exact atNode_eq_none hnode v hmem
      · exact ih hchild hbelow hp

/-- An entry that is found matches, and no entry that matches has a longer literal part. -/
theorem walk_eq_some {word : List α} {entries : List (Pattern α × ν)} {v : ν}
    (h : walk word entries = some v) :
    ∃ p, (p, v) ∈ entries ∧ p.Matches word ∧
      ∀ q w, (q, w) ∈ entries → q.Matches word → q.literal.length ≤ p.literal.length := by
  induction word generalizing entries with
  | nil => exact ⟨_, atNode_eq_some h, matches_static_iff.2 rfl, fun q w _ hq => hq.length_le⟩
  | cons a word ih =>
      unfold walk at h
      cases hchild : walk word (descend a entries) with
      | some u =>
          rw [hchild, Option.some_or] at h
          cases h
          rcases ih hchild with ⟨p, hmem, hmatch, hbest⟩
          refine ⟨_, mem_descend.1 hmem, matches_cons_iff.2 hmatch, fun q w hq hqmatch => ?_⟩
          rcases matches_below hq hqmatch with rfl | ⟨p', hliteral, hbelow, hp'⟩
          · exact Nat.zero_le _
          · rw [hliteral]
            exact Nat.succ_le_succ (hbest p' w hbelow hp')
      | none =>
          -- Nothing matches further down, so the catch-all here is the longest.
          rw [hchild, Option.none_or] at h
          refine ⟨_, atNode_eq_some h, matches_catchAll_iff.2 ⟨a, word, rfl⟩, fun q w hq hqmatch => ?_⟩
          rcases matches_below hq hqmatch with rfl | ⟨p', -, hbelow, hp'⟩
          · exact Nat.le_refl _
          · exact absurd hp' (walk_eq_none hchild hbelow)

end Tree

end Pattern

end Foundation
end GatewayEdge
