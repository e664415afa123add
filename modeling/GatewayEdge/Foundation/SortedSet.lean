import Mathlib.Data.List.AList
import Mathlib.Data.List.Sort

/-!
# SortedSet — scored members, ranges of scores and watermarks

A sorted set maps each member to one integer score.  A reader who pulls it incrementally keeps a
*watermark*, the largest score he has seen (`none` before the first pull), and asks for the scores
from a fixed overlap below it; each member of the reply then overwrites an entry of a map.
-/

namespace GatewayEdge
namespace Foundation

/-! ## Watermarks -/

namespace Watermark

/-- The score is not below the lower end `lo`; `none` is minus infinity. -/
def AtLeast (lo : Option Int) (score : Int) : Prop := ∀ w ∈ lo, w ≤ score

instance (lo : Option Int) (score : Int) : Decidable (AtLeast lo score) :=
  inferInstanceAs (Decidable (∀ w ∈ lo, w ≤ score))

/-- The largest score of the reply, or the watermark so far. -/
def raise {α : Type*} (top : Option Int) (reply : List (α × Int)) : Option Int :=
  reply.foldl
    (fun top m =>
      match top with
      | some w => if w < m.2 then some m.2 else some w
      | none => some m.2)
    top

/-- Where the next pull starts. -/
def queryFrom (overlap : Int) (top : Option Int) : Option Int := top.map (· - overlap)

theorem atLeast_none (score : Int) : AtLeast none score := fun _ h => by cases h

theorem atLeast_queryFrom {overlap score : Int} {top : Option Int} :
    AtLeast (queryFrom overlap top) score ↔ AtLeast top (score + overlap) := by
  cases top with
  | none => exact iff_of_true (atLeast_none _) (atLeast_none _)
  | some w =>
      have hshift : w - overlap ≤ score ↔ w ≤ score + overlap := by omega
      unfold AtLeast queryFrom
      constructor
      · rintro h w' ⟨⟩
        exact hshift.1 (h _ rfl)
      · rintro h w' ⟨⟩
        exact hshift.2 (h _ rfl)

/-- What is not below a raised watermark is not below the watermark before. -/
theorem atLeast_of_raise {α : Type*} {score : Int} {top : Option Int} {reply : List (α × Int)}
    (h : AtLeast (raise top reply) score) : AtLeast top score := by
  induction reply generalizing top with
  | nil => exact h
  | cons m reply ih =>
      have hraised := ih h
      cases top with
      | none => exact atLeast_none score
      | some w =>
          intro w' hw'
          cases hw'
          dsimp only at hraised
          split at hraised
          · rename_i hlt
            exact le_trans (le_of_lt hlt) (hraised _ rfl)
          · exact hraised _ rfl

theorem raise_eq_none {α : Type*} {top : Option Int} {reply : List (α × Int)}
    (h : raise top reply = none) : top = none := by
  induction reply generalizing top with
  | nil => exact h
  | cons m reply ih =>
      have hnext := ih h
      cases top with
      | none => rfl
      | some w =>
          dsimp only at hnext
          split at hnext <;> cases hnext

/-- `low` is no higher than `high`: whatever is not below `high` is not below `low`. -/
def Le (low high : Option Int) : Prop := ∀ score, AtLeast high score → AtLeast low score

theorem Le.trans {a b c : Option Int} (hab : Le a b) (hbc : Le b c) : Le a c :=
  fun score h => hab score (hbc score h)

theorem none_le (top : Option Int) : Le none top := fun score _ => atLeast_none score

/-- A lower watermark asks for more. -/
theorem Le.queryFrom {low high : Option Int} (h : Le low high) (overlap : Int) :
    Le (queryFrom overlap low) (queryFrom overlap high) := fun score hscore =>
  atLeast_queryFrom.2 (h (score + overlap) (atLeast_queryFrom.1 hscore))

theorem le_raise {α : Type*} (top : Option Int) (reply : List (α × Int)) :
    Le top (raise top reply) := fun _ => atLeast_of_raise

theorem le_raise_single {α : Type*} (top : Option Int) (m : α × Int) :
    Le (some m.2) (raise top [m]) := by
  intro score h w hw
  cases hw
  cases top with
  | none => exact h _ rfl
  | some w =>
      by_cases hlt : w < m.2
      · exact h _ (by simp [raise, hlt])
      · exact (not_lt.1 hlt).trans (h _ (by simp [raise, hlt]))

/-- A bound of the watermark and of every score of the reply bounds the raised watermark. -/
theorem raise_le {α : Type*} {low top : Option Int} {reply : List (α × Int)} (hlow : Le low top)
    (h : ∀ m ∈ reply, Le (some m.2) top) : Le (raise low reply) top := by
  induction reply generalizing low with
  | nil => exact hlow
  | cons m reply ih =>
      have hm : Le (some m.2) top := h m List.mem_cons_self
      have hrest : ∀ d ∈ reply, Le (some d.2) top := fun d hd => h d (List.mem_cons_of_mem m hd)
      cases low with
      | none => exact ih hm hrest
      | some w =>
          by_cases hlt : w < m.2
          · simpa [raise, hlt] using ih hm hrest
          · simpa [raise, hlt] using ih hlow hrest

end Watermark

/-! ## Sorted sets -/

/-- A member has one score: the entries of an `AList` have distinct keys. -/
abbrev SortedSet (α : Type*) := AList fun _ : α => Int

namespace SortedSet

variable {α β : Type*} [DecidableEq α]

/-- Members in the order of their scores, ties in the order of the members. -/
def Before [LinearOrder α] (a b : α × Int) : Prop := a.2 < b.2 ∨ (a.2 = b.2 ∧ a.1 ≤ b.1)

instance [LinearOrder α] : DecidableRel (Before (α := α)) :=
  fun a b => inferInstanceAs (Decidable (a.2 < b.2 ∨ (a.2 = b.2 ∧ a.1 ≤ b.1)))

/-- The members with a score from `lo` on, in order, with their scores. -/
def rangeFrom [LinearOrder α] (lo : Option Int) (s : SortedSet α) : List (α × Int) :=
  ((s.entries.map fun m => (m.1, m.2)).filter fun m => decide (Watermark.AtLeast lo m.2)).insertionSort
    Before

/-- Drop every member with a score up to `hi`. -/
def removeUpTo (hi : Int) (s : SortedSet α) : SortedSet α where
  entries := s.entries.filter fun m => decide (hi < m.2)
  nodupKeys := s.nodupKeys.sublist List.filter_sublist

theorem mem_entries {s : SortedSet α} {m : α} {score : Int} :
    (⟨m, score⟩ : Sigma fun _ : α => Int) ∈ s.entries ↔ s.lookup m = some score :=
  (AList.mem_lookup_iff (s := s)).symm

theorem mem_rangeFrom [LinearOrder α] {lo : Option Int} {s : SortedSet α} {m : α} {score : Int} :
    (m, score) ∈ rangeFrom lo s ↔ s.lookup m = some score ∧ Watermark.AtLeast lo score := by
  unfold rangeFrom
  rw [List.mem_insertionSort, List.mem_filter, List.mem_map, ← mem_entries]
  constructor
  · rintro ⟨⟨⟨m', score'⟩, hmem, hpair⟩, hlo⟩
    cases hpair
    exact ⟨hmem, of_decide_eq_true hlo⟩
  · rintro ⟨hmem, hlo⟩
    exact ⟨⟨_, hmem, rfl⟩, decide_eq_true hlo⟩

theorem lookup_removeUpTo {hi : Int} {s : SortedSet α} {m : α} {score : Int} :
    (removeUpTo hi s).lookup m = some score ↔ s.lookup m = some score ∧ hi < score := by
  rw [← mem_entries, ← mem_entries]
  simp [removeUpTo]

end SortedSet

/-! ## Applying a reply to a map -/

section Overwrite

variable {α β γ : Type*} [DecidableEq α]

/-- Each member of the reply overwrites its entry, in order. -/
def overwrite (f : β → γ) (base : α → Option γ) (reply : List (α × β)) : α → Option γ :=
  reply.foldl (fun map m => Function.update map m.1 (some (f m.2))) base

/-- No member comes with two values. -/
def SingleValued (reply : List (α × β)) : Prop :=
  ∀ m v w, (m, v) ∈ reply → (m, w) ∈ reply → v = w

theorem overwrite_of_not_mem {f : β → γ} {reply : List (α × β)} {m : α}
    (h : ∀ v, (m, v) ∉ reply) (base : α → Option γ) : overwrite f base reply m = base m := by
  induction reply generalizing base with
  | nil => rfl
  | cons d reply ih =>
      have hne : m ≠ d.1 := by
        rintro rfl
        exact h d.2 (by simp)
      have hrest : ∀ v, (m, v) ∉ reply := fun v hv => h v (by simp [hv])
      calc
        overwrite f base (d :: reply) m
            = Function.update base d.1 (some (f d.2)) m := ih hrest _
        _ = base m := Function.update_of_ne hne _ _

theorem overwrite_of_mem {f : β → γ} {reply : List (α × β)} (hsingle : SingleValued reply) {m : α}
    {v : β} (h : (m, v) ∈ reply) (base : α → Option γ) : overwrite f base reply m = some (f v) := by
  induction reply generalizing base with
  | nil => simp at h
  | cons d reply ih =>
      have hsingle' : SingleValued reply := fun m v w hv hw =>
        hsingle m v w (by simp [hv]) (by simp [hw])
      -- A later mention of the member carries the same value.
      by_cases hlater : ∃ w, (m, w) ∈ reply
      · rcases hlater with ⟨w, hw⟩
        have hvw : v = w := hsingle m v w h (by simp [hw])
        exact ih hsingle' (hvw ▸ hw) _
      · -- The first member is the only one of its name, so nothing overwrites it.
        have hlast : ∀ w, (m, w) ∉ reply := fun w hw => hlater ⟨w, hw⟩
        have hd : (m, v) = d := (List.mem_cons.1 h).resolve_right (hlast v)
        subst hd
        exact (overwrite_of_not_mem hlast _).trans (Function.update_self _ _ _)

theorem SortedSet.rangeFrom_singleValued [LinearOrder α] (lo : Option Int) (s : SortedSet α) :
    SingleValued (SortedSet.rangeFrom lo s) := by
  intro m v w hv hw
  have hlookup := (SortedSet.mem_rangeFrom.1 hv).1.symm.trans (SortedSet.mem_rangeFrom.1 hw).1
  exact Option.some.inj hlookup

end Overwrite


end Foundation
end GatewayEdge
