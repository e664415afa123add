import Mathlib.Data.List.Basic
import Mathlib.Data.List.Pairwise

/-!
# GateChain — checks one behind the other, each with a mark of its own

A gate looks at a state, lets it pass or refuses it with an answer, and leaves its mark either way.  Going
through a chain hands the state that the gates have marked so far from one to the next.  When no gate sees
the marks of those before it, the chain can be judged on the state of arrival: the answer is that of the
first gate that refuses there (`pass_of_blind`), and what one gate alone writes is written when the state
gets that far and is as it was otherwise (`view_pass`).
-/

namespace GatewayEdge
namespace Foundation

/-- One check: its verdict on a state, `none` to let it pass, and the state it leaves. -/
structure Gate (σ ε : Type*) where
  verdict : σ → Option ε
  mark : σ → σ

namespace Gate

variable {σ ε α : Type*}

/-- The state goes from gate to gate, up to the first that refuses. -/
def pass : List (Gate σ ε) → σ → σ × Option ε
  | [], s => (s, none)
  | g :: gs, s =>
    match g.verdict s with
    | some answer => (g.mark s, some answer)
    | none => pass gs (g.mark s)

/-- The gates that see the state `s`: those that let it pass, and the first that refuses. -/
def reached : List (Gate σ ε) → σ → List (Gate σ ε)
  | [], _ => []
  | g :: gs, s => if (g.verdict s).isSome then [g] else g :: reached gs s

/-- The marks of some gates, one after the other. -/
def marks (gs : List (Gate σ ε)) (s : σ) : σ := gs.foldl (fun s g => g.mark s) s

/-- The answer of the first gate that refuses the state. -/
def firstRefusal (gs : List (Gate σ ε)) (s : σ) : Option ε := gs.findSome? fun g => g.verdict s

/-- The mark of `g` makes no difference to `h`. -/
def Hidden (g h : Gate σ ε) : Prop := ∀ s, h.verdict (g.mark s) = h.verdict s

/-- No gate sees the marks of those before it. -/
def Blind (gs : List (Gate σ ε)) : Prop := gs.Pairwise Hidden

/-! ## One gate -/

theorem marks_cons (g : Gate σ ε) (gs : List (Gate σ ε)) (s : σ) : marks (g :: gs) s = marks gs (g.mark s) :=
  rfl

theorem marks_append (gs hs : List (Gate σ ε)) (s : σ) : marks (gs ++ hs) s = marks hs (marks gs s) :=
  List.foldl_append

theorem pass_cons_of_refused {g : Gate σ ε} {s : σ} {answer : ε} (gs : List (Gate σ ε))
    (h : g.verdict s = some answer) : pass (g :: gs) s = (g.mark s, some answer) := by
  simp only [pass, h]

theorem pass_cons_of_passed {g : Gate σ ε} {s : σ} (gs : List (Gate σ ε)) (h : g.verdict s = none) :
    pass (g :: gs) s = pass gs (g.mark s) := by
  simp only [pass, h]

theorem reached_subset (gs : List (Gate σ ε)) (s : σ) : reached gs s ⊆ gs := by
  induction gs with
  | nil =>
      exact List.Subset.refl []
  | cons g gs ih =>
      unfold reached
      split
      · exact List.cons_subset.2 ⟨List.mem_cons_self, List.nil_subset _⟩
      · exact List.cons_subset_cons g ih

theorem reached_cons (g : Gate σ ε) (gs : List (Gate σ ε)) (s : σ) :
    reached (g :: gs) s = g :: if (g.verdict s).isSome then [] else reached gs s := by
  rw [reached]
  split
  · rfl
  · rfl

theorem firstRefusal_cons_of_passed {g : Gate σ ε} {s : σ} (gs : List (Gate σ ε))
    (h : g.verdict s = none) : firstRefusal (g :: gs) s = firstRefusal gs s := by
  unfold firstRefusal
  rw [List.findSome?_cons, h]

/-- Gates that let a state pass send it on to those behind them. -/
theorem reached_append_of_passed {gs : List (Gate σ ε)} {s : σ} (rest : List (Gate σ ε))
    (h : firstRefusal gs s = none) : reached (gs ++ rest) s = gs ++ reached rest s := by
  induction gs with
  | nil =>
      rfl
  | cons g gs ih =>
      have hg : g.verdict s = none := List.findSome?_eq_none_iff.1 h g List.mem_cons_self
      rw [firstRefusal_cons_of_passed gs hg] at h
      rw [List.cons_append, reached_cons, hg, ih h]
      rfl

/-- Behind the first gate that refuses nobody is reached. -/
theorem reached_append_of_refused {gs : List (Gate σ ε)} {s : σ} (rest : List (Gate σ ε))
    (h : firstRefusal gs s ≠ none) : reached (gs ++ rest) s = reached gs s := by
  induction gs with
  | nil =>
      exact absurd rfl h
  | cons g gs ih =>
      cases hg : g.verdict s with
      | some answer =>
          simp [reached, hg]
      | none =>
          rw [firstRefusal_cons_of_passed gs hg] at h
          simp [reached, hg, ih h]

/-! ## A chain -/

/-- A mark that a whole chain cannot see changes nothing about who refuses and who is reached. -/
theorem judged_same {gs : List (Gate σ ε)} {g : Gate σ ε} (h : ∀ g' ∈ gs, Hidden g g') (s : σ) :
    firstRefusal gs (g.mark s) = firstRefusal gs s ∧ reached gs (g.mark s) = reached gs s := by
  induction gs with
  | nil =>
      exact ⟨rfl, rfl⟩
  | cons g' gs ih =>
      have hsame : g'.verdict (g.mark s) = g'.verdict s := h g' List.mem_cons_self s
      rcases ih fun g'' hg'' => h g'' (List.mem_cons_of_mem g' hg'') with ⟨hrefusal, hreached⟩
      unfold firstRefusal at hrefusal ⊢
      unfold reached
      rw [List.findSome?_cons, List.findSome?_cons, hsame, hrefusal, hreached]
      exact ⟨rfl, rfl⟩

/-- A blind chain is judged on arrival: the first gate that refuses the state there answers, and the state
left behind carries the marks of the gates up to that one. -/
theorem pass_of_blind {gs : List (Gate σ ε)} (h : Blind gs) (s : σ) :
    pass gs s = (marks (reached gs s) s, firstRefusal gs s) := by
  induction gs generalizing s with
  | nil =>
      rfl
  | cons g gs ih =>
      rcases List.pairwise_cons.1 h with ⟨hhead, htail⟩
      cases hg : g.verdict s with
      | some answer =>
          rw [pass_cons_of_refused gs hg]
          simp [reached, marks, firstRefusal, hg]
      | none =>
          rcases judged_same hhead s with ⟨hrefusal, hreached⟩
          rw [pass_cons_of_passed gs hg, ih htail (g.mark s), hrefusal, hreached]
          simp [reached, marks, firstRefusal, hg]

/-! ## What the marks leave alone -/

/-- What no gate of a list writes, their marks together do not write. -/
theorem view_marks {view : σ → α} {gs : List (Gate σ ε)} (h : ∀ g ∈ gs, ∀ s, view (g.mark s) = view s)
    (s : σ) : view (marks gs s) = view s := by
  induction gs generalizing s with
  | nil =>
      rfl
  | cons g gs ih =>
      rw [marks_cons, ih (fun g' hg' => h g' (List.mem_cons_of_mem g hg'))]
      exact h g List.mem_cons_self s

/-- What only one gate of a chain writes: it writes it when all gates in front let the state pass, and then as
if it had been asked on arrival. -/
theorem view_pass {view : σ → α} {front back : List (Gate σ ε)} {g : Gate σ ε}
    (hblind : Blind (front ++ g :: back)) (hfront : ∀ g' ∈ front, ∀ s, view (g'.mark s) = view s)
    (hback : ∀ g' ∈ back, ∀ s, view (g'.mark s) = view s)
    (hsame : ∀ g' ∈ front, ∀ s, view (g.mark (g'.mark s)) = view (g.mark s)) (s : σ) :
    view (pass (front ++ g :: back) s).1 =
      if firstRefusal front s = none then view (g.mark s) else view s := by
  rw [pass_of_blind hblind s]
  dsimp only
  split
  · rename_i hpassed
    have hlater : view (marks (reached (g :: back) s) (marks front s)) = view (g.mark (marks front s)) := by
      rw [reached_cons, marks_cons]
      refine view_marks (fun g' hg' => ?_) _
      split at hg'
      · exact absurd hg' List.not_mem_nil
      · exact hback g' (reached_subset back s hg')
    rw [reached_append_of_passed (g :: back) hpassed, marks_append, hlater]
    exact @view_marks _ _ _ (fun s => view (g.mark s)) front hsame s
  · rename_i hrefused
    rw [reached_append_of_refused (g :: back) hrefused]
    exact view_marks (fun g' hg' => hfront g' (reached_subset front s hg')) s

end Gate
end Foundation
end GatewayEdge
