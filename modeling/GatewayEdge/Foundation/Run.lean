import Mathlib.Data.List.Induction

/-!
# Run — finite runs of labelled partial transitions

A system is given by `step : σ → ε → Option σ`: the event `e` is *disabled* in `s` when
`step s e = none`.  This module packages, once and for all, the two inductions every safety
argument over such systems needs:

* an invariant kept by each step is kept by each run (`invariant_run`), also when the steps are
  only well behaved under a side condition on the state they are taken in (`invariant_run_along`);
* a law about single steps holds at every step of a run (`Along`) when every invariant state
  obeys it (`along_of_invariant`), or when another law that implies it there does (`along_mono`).

A statement about the past of a state is proved by `run_induction`, in terms of the states
`Visited` so far.
-/

namespace GatewayEdge
namespace Foundation

variable {σ ε : Type*} {step : σ → ε → Option σ}

/-- Execute the events in order; `none` as soon as one of them is disabled. -/
def run (step : σ → ε → Option σ) : σ → List ε → Option σ
  | s, [] => some s
  | s, e :: es => (step s e).bind fun s' => run step s' es

/-- `P s e` holds for every event of the run, `s` being the state the event is taken in. -/
def Along (step : σ → ε → Option σ) (P : σ → ε → Prop) : σ → List ε → Prop
  | _, [] => True
  | s, e :: es => P s e ∧ ∀ s', step s e = some s' → Along step P s' es

/-! ## Runs -/

@[simp] theorem run_nil (s : σ) : run step s [] = some s := rfl

theorem run_cons_eq_some {s t : σ} {e : ε} {es : List ε} :
    run step s (e :: es) = some t ↔ ∃ s', step s e = some s' ∧ run step s' es = some t := by
  simp [run, Option.bind_eq_some_iff]

theorem run_append_eq_some {s t : σ} {es fs : List ε} :
    run step s (es ++ fs) = some t ↔ ∃ m, run step s es = some m ∧ run step m fs = some t := by
  induction es generalizing s with
  | nil =>
      simp
  | cons e es ih =>
      constructor
      · intro h
        rcases run_cons_eq_some.1 h with ⟨s', hs', hrest⟩
        rcases ih.1 hrest with ⟨m, hm, ht⟩
        exact ⟨m, run_cons_eq_some.2 ⟨s', hs', hm⟩, ht⟩
      · rintro ⟨m, hm, ht⟩
        rcases run_cons_eq_some.1 hm with ⟨s', hs', hm'⟩
        exact run_cons_eq_some.2 ⟨s', hs', ih.2 ⟨m, hm', ht⟩⟩

/-! ## Invariants of runs -/

/-- What every step preserves, every run preserves. -/
theorem invariant_run {I : σ → Prop}
    (hstep : ∀ s e s', I s → step s e = some s' → I s') {s t : σ} {es : List ε}
    (hs : I s) (hrun : run step s es = some t) : I t := by
  induction es generalizing s with
  | nil =>
      have hst : s = t := by simpa using hrun
      exact hst ▸ hs
  | cons e es ih =>
      rcases run_cons_eq_some.1 hrun with ⟨s', hs', hrest⟩
      exact ih (hstep s e s' hs hs') hrest

/-- The guarded form: the step lemma may use a condition `P` which the run meets throughout. -/
theorem invariant_run_along {I : σ → Prop} {P : σ → ε → Prop}
    (hstep : ∀ s e s', I s → P s e → step s e = some s' → I s') {s t : σ} {es : List ε}
    (hs : I s) (halong : Along step P s es) (hrun : run step s es = some t) : I t := by
  induction es generalizing s with
  | nil =>
      have hst : s = t := by simpa using hrun
      exact hst ▸ hs
  | cons e es ih =>
      rcases run_cons_eq_some.1 hrun with ⟨s', hs', hrest⟩
      exact ih (hstep s e s' hs halong.1 hs') (halong.2 s' hs') hrest

/-! ## Laws along a run -/

/-- A law that holds in every invariant state holds along every run. -/
theorem along_of_invariant {I : σ → Prop} {P : σ → ε → Prop}
    (hstep : ∀ s e s', I s → step s e = some s' → I s') (hlaw : ∀ s e, I s → P s e)
    {s : σ} (hs : I s) (es : List ε) : Along step P s es := by
  induction es generalizing s with
  | nil => trivial
  | cons e es ih =>
      exact ⟨hlaw s e hs, fun s' hs' => ih (hstep s e s' hs hs')⟩

/-- A condition on the events alone is a law along the run. -/
theorem along_of_forall {P : ε → Prop} {es : List ε} (h : ∀ e ∈ es, P e) (s : σ) :
    Along step (fun _ e => P e) s es := by
  induction es generalizing s with
  | nil => trivial
  | cons e es ih =>
      exact ⟨h e List.mem_cons_self, fun s' _ => ih (fun d hd => h d (List.mem_cons_of_mem _ hd)) s'⟩

/-- Where one law implies another in every invariant state, so it does along every run; the
invariant may be kept thanks to the first law. -/
theorem along_mono {I : σ → Prop} {P Q : σ → ε → Prop}
    (hstep : ∀ s e s', I s → P s e → step s e = some s' → I s')
    (hlaw : ∀ s e, I s → P s e → Q s e) {s : σ} (hs : I s) {es : List ε}
    (h : Along step P s es) : Along step Q s es := by
  induction es generalizing s with
  | nil => trivial
  | cons e es ih =>
      exact ⟨hlaw s e hs h.1, fun s' hs' => ih (hstep s e s' hs h.1 hs') (h.2 s' hs')⟩

/-- Laws that agree in every invariant state agree along every run. -/
theorem along_congr {I : σ → Prop} {P Q : σ → ε → Prop}
    (hstep : ∀ s e s', I s → step s e = some s' → I s') (hlaw : ∀ s e, I s → (P s e ↔ Q s e))
    {s : σ} (hs : I s) (es : List ε) : Along step P s es ↔ Along step Q s es := by
  constructor
  · intro h
    exact along_mono (fun s e s' hI _ => hstep s e s' hI) (fun s e hI => (hlaw s e hI).1) hs h
  · intro h
    exact along_mono (fun s e s' hI _ => hstep s e s' hI) (fun s e hI => (hlaw s e hI).2) hs h

/-- A law that can be decided at each step can be decided along a run. -/
instance decidableAlong {P : σ → ε → Prop} [∀ s e, Decidable (P s e)] :
    ∀ s es, Decidable (Along step P s es)
  | _, [] => isTrue trivial
  | s, e :: es =>
    match hs : step s e with
    | none => decidable_of_iff (P s e) ⟨fun h => ⟨h, fun s' hs' => by simp [hs] at hs'⟩, And.left⟩
    | some s' =>
      have : Decidable (Along step P s' es) := decidableAlong s' es
      decidable_of_iff (P s e ∧ Along step P s' es)
        ⟨fun h => ⟨h.1, fun t ht => Option.some.inj (hs.symm.trans ht) ▸ h.2⟩,
          fun h => ⟨h.1, h.2 s' hs⟩⟩

/-- A law along a run holds at the event after any beginning of it. -/
theorem Along.at {P : σ → ε → Prop} {s t : σ} {es fs : List ε} {e : ε}
    (h : Along step P s (es ++ e :: fs)) (hrun : run step s es = some t) : P t e := by
  induction es generalizing s with
  | nil =>
      have hst : s = t := by simpa using hrun
      exact hst ▸ h.1
  | cons d es ih =>
      rcases run_cons_eq_some.1 hrun with ⟨s', hs', hrest⟩
      exact ih (h.2 s' hs') hrest

/-- A law holds along two runs that follow each other if it does along each. -/
theorem along_append {P : σ → ε → Prop} {s t : σ} {es fs : List ε} (hrun : run step s es = some t)
    (hes : Along step P s es) (hfs : Along step P t fs) : Along step P s (es ++ fs) := by
  induction es generalizing s with
  | nil =>
      have hst : s = t := by simpa using hrun
      exact hst ▸ hfs
  | cons e es ih =>
      rcases run_cons_eq_some.1 hrun with ⟨s', hs', hrest⟩
      refine ⟨hes.1, fun s'' hs'' => ?_⟩
      have hsame : s' = s'' := Option.some.inj (hs'.symm.trans hs'')
      exact hsame ▸ ih hrest (hes.2 s' hs')

/-- Two laws that hold along a run hold along it together. -/
theorem Along.and {P Q : σ → ε → Prop} {s : σ} {es : List ε} (hP : Along step P s es)
    (hQ : Along step Q s es) : Along step (fun s e => P s e ∧ Q s e) s es := by
  induction es generalizing s with
  | nil => trivial
  | cons e es ih => exact ⟨⟨hP.1, hQ.1⟩, fun s' hs' => ih (hP.2 s' hs') (hQ.2 s' hs')⟩

/-- Where no step lowers a measure and every step of one kind raises it, a run has no more steps of that kind
than the measure has risen by. -/
theorem countP_le_of_rises {P : σ → ε → Prop} {f : σ → ℕ} {kind : ε → Bool}
    (hle : ∀ s e s', P s e → step s e = some s' → f s ≤ f s')
    (hlt : ∀ s e s', P s e → kind e = true → step s e = some s' → f s < f s') {s t : σ} {es : List ε}
    (halong : Along step P s es) (hrun : run step s es = some t) : f s + es.countP kind ≤ f t := by
  induction es generalizing s with
  | nil =>
      have hst : s = t := by simpa using hrun
      exact hst ▸ Nat.le_refl _
  | cons e es ih =>
      rcases run_cons_eq_some.1 hrun with ⟨s', hs', hrest⟩
      have hlater := ih (halong.2 s' hs') hrest
      have hkept := hle s e s' halong.1 hs'
      rw [List.countP_cons]
      split
      · rename_i hkind
        have hraised := hlt s e s' halong.1 hkind hs'
        omega
      · omega

/-! ## The states a run has been in -/

/-- Some state of the run, its last one included, satisfies `P`. -/
def Visited (step : σ → ε → Option σ) (P : σ → Prop) (s : σ) (es : List ε) : Prop :=
  ∃ before after m, es = before ++ after ∧ run step s before = some m ∧ P m

theorem Visited.last {P : σ → Prop} {s t : σ} {es : List ε} (hrun : run step s es = some t)
    (h : P t) : Visited step P s es :=
  ⟨es, [], t, (List.append_nil es).symm, hrun, h⟩

theorem Visited.mono {P Q : σ → Prop} {s : σ} {es : List ε} (h : Visited step P s es)
    (hPQ : ∀ m, P m → Q m) : Visited step Q s es := by
  rcases h with ⟨before, after, m, hsplit, hrun, hm⟩
  exact ⟨before, after, m, hsplit, hrun, hPQ m hm⟩

/-- What a run has visited, its continuations have. -/
theorem Visited.append {P : σ → Prop} {s : σ} {es : List ε} (fs : List ε)
    (h : Visited step P s es) : Visited step P s (es ++ fs) := by
  rcases h with ⟨before, after, m, rfl, hrun, hm⟩
  exact ⟨before, after ++ fs, m, List.append_assoc .., hrun, hm⟩

/-- What holds at the end of a run and not at its beginning has come about in one of its steps. -/
theorem exists_step_of_becomes {P : σ → Prop} {s t : σ} {es : List ε} (hrun : run step s es = some t)
    (hs : ¬ P s) (ht : P t) :
    ∃ before e after m m', es = before ++ e :: after ∧ run step s before = some m ∧
      step m e = some m' ∧ ¬ P m ∧ P m' := by
  induction es generalizing s with
  | nil =>
      have hst : s = t := by simpa using hrun
      exact absurd ht (hst ▸ hs)
  | cons e es ih =>
      rcases run_cons_eq_some.1 hrun with ⟨s', hs', hrest⟩
      by_cases hnow : P s'
      · exact ⟨[], e, es, s, s', rfl, rfl, hs', hs, hnow⟩
      · rcases ih hrest hnow with ⟨before, d, after, m, m', rfl, hbefore, hstep, hm, hm'⟩
        exact ⟨e :: before, d, after, m, m', rfl, run_cons_eq_some.2 ⟨s', hs', hbefore⟩, hstep, hm, hm'⟩

/-- Every state of the run satisfies `P`, its first and its last one included. -/
def Throughout (step : σ → ε → Option σ) (P : σ → Prop) (s : σ) (es : List ε) : Prop :=
  ∀ before after t, es = before ++ after → run step s before = some t → P t

theorem throughout_nil {P : σ → Prop} {s : σ} : Throughout step P s [] ↔ P s := by
  constructor
  · intro h
    exact h [] [] s rfl rfl
  · intro h before after t hsplit hrun
    have hbefore : before = [] := (List.append_eq_nil_iff.1 hsplit.symm).1
    rw [hbefore] at hrun
    exact Option.some.inj hrun ▸ h

theorem throughout_cons {P : σ → Prop} {s : σ} {e : ε} {es : List ε} :
    Throughout step P s (e :: es) ↔ P s ∧ ∀ s', step s e = some s' → Throughout step P s' es := by
  constructor
  · intro h
    refine ⟨h [] (e :: es) s rfl rfl, fun s' hs' before after t hsplit hrun => ?_⟩
    exact h (e :: before) after t (by rw [hsplit]; rfl) (run_cons_eq_some.2 ⟨s', hs', hrun⟩)
  · rintro ⟨hs, hrest⟩ before after t hsplit hrun
    cases before with
    | nil => exact Option.some.inj hrun ▸ hs
    | cons d before =>
        rcases List.cons.inj hsplit with ⟨rfl, hes⟩
        rcases run_cons_eq_some.1 hrun with ⟨s', hs', hrest'⟩
        exact hrest s' hs' before after t hes hrest'

/-- What a law keeps along a run holds throughout it. -/
theorem throughout_of_along {I P : σ → Prop} {Q : σ → ε → Prop}
    (hstep : ∀ s e s', I s → Q s e → step s e = some s' → I s') (hlaw : ∀ s, I s → P s) {s : σ}
    (hI : I s) {es : List ε} (h : Along step Q s es) : Throughout step P s es := by
  induction es generalizing s with
  | nil => exact throughout_nil.2 (hlaw s hI)
  | cons e es ih =>
      refine throughout_cons.2 ⟨hlaw s hI, fun s' hs' => ?_⟩
      exact ih (hstep s e s' hI h.1 hs') (h.2 s' hs')

/-- Where a step leads to `P` exactly if it obeys `Q`, a run stays in `P` exactly if it obeys `Q`
throughout; the invariant has to be kept by steps within `P` only. -/
theorem throughout_iff_along {I P : σ → Prop} {Q : σ → ε → Prop}
    (hstep : ∀ s e s', I s → P s → P s' → step s e = some s' → I s')
    (hlaw : ∀ s e, I s → P s → ((∀ s', step s e = some s' → P s') ↔ Q s e)) {s : σ} (hI : I s)
    (hP : P s) (es : List ε) : Throughout step P s es ↔ Along step Q s es := by
  induction es generalizing s with
  | nil => exact ⟨fun _ => trivial, fun _ => throughout_nil.2 hP⟩
  | cons e es ih =>
      rw [throughout_cons]
      constructor
      · rintro ⟨_, hrest⟩
        have hnext : ∀ s', step s e = some s' → P s' := fun s' hs' =>
          hrest s' hs' [] es s' rfl rfl
        refine ⟨(hlaw s e hI hP).1 hnext, fun s' hs' => ?_⟩
        exact (ih (hstep s e s' hI hP (hnext s' hs') hs') (hnext s' hs')).1 (hrest s' hs')
      · rintro ⟨hQ, hrest⟩
        have hnext : ∀ s', step s e = some s' → P s' := (hlaw s e hI hP).2 hQ
        refine ⟨hP, fun s' hs' => ?_⟩
        exact (ih (hstep s e s' hI hP (hnext s' hs') hs') (hnext s' hs')).2 (hrest s' hs')

/-- Induction along a run, for statements about the whole past of a state. -/
theorem run_induction {s : σ} {Q : List ε → σ → Prop} (hstart : Q [] s)
    (hstep : ∀ es m e t, run step s es = some m → Q es m → step m e = some t → Q (es ++ [e]) t)
    {es : List ε} {t : σ} (hrun : run step s es = some t) : Q es t := by
  induction es using List.reverseRecOn generalizing t with
  | nil =>
      have hst : s = t := by simpa using hrun
      exact hst ▸ hstart
  | append_singleton es e ih =>
      rcases run_append_eq_some.1 hrun with ⟨m, hm, hlast⟩
      rcases run_cons_eq_some.1 hlast with ⟨t', ht', hnil⟩
      have htt : t' = t := by simpa using hnil
      exact hstep es m e t hm (ih hm) (htt ▸ ht')

/-- What holds throughout a run and in the state behind its next step holds throughout both. -/
theorem throughout_concat {P : σ → Prop} {s m t : σ} {es : List ε} {e : ε} (h : Throughout step P s es)
    (hrun : run step s es = some m) (hstep : step m e = some t) (ht : P t) :
    Throughout step P s (es ++ [e]) := by
  intro before after u hsplit hbefore
  rcases List.eq_nil_or_concat after with rfl | ⟨after, d, rfl⟩
  · rw [List.append_nil] at hsplit
    rw [← hsplit] at hbefore
    have hu : run step s (es ++ [e]) = some t :=
      run_append_eq_some.2 ⟨m, hrun, run_cons_eq_some.2 ⟨t, hstep, rfl⟩⟩
    exact Option.some.inj (hu.symm.trans hbefore) ▸ ht
  · rw [List.concat_eq_append, ← List.append_assoc] at hsplit
    exact h before after u (List.append_inj_left' hsplit rfl) hbefore

/-- What holds at the end of a run and not at its beginning has come about in one of its steps and held ever
since. -/
theorem exists_last_step_of_becomes {P : σ → Prop} {s t : σ} {es : List ε} (hrun : run step s es = some t)
    (hs : ¬ P s) (ht : P t) :
    ∃ before e after m m', es = before ++ e :: after ∧ run step s before = some m ∧
      step m e = some m' ∧ ¬ P m ∧ P m' ∧ run step m' after = some t ∧ Throughout step P m' after := by
  refine run_induction (s := s) (Q := fun es t => P t →
    ∃ before e after m m', es = before ++ e :: after ∧ run step s before = some m ∧
      step m e = some m' ∧ ¬ P m ∧ P m' ∧ run step m' after = some t ∧ Throughout step P m' after)
    (fun h => absurd h hs) ?_ hrun ht
  intro es m e t hm ih hstep ht
  by_cases hnow : P m
  · rcases ih hnow with ⟨before, d, after, k, k', rfl, hbefore, hd, hk, hk', hafter, hsince⟩
    refine ⟨before, d, after ++ [e], k, k', List.append_assoc .., hbefore, hd, hk, hk', ?_, ?_⟩
    · exact run_append_eq_some.2 ⟨m, hafter, run_cons_eq_some.2 ⟨t, hstep, rfl⟩⟩
    · exact throughout_concat hsince hafter hstep ht
  · exact ⟨es, e, [], m, t, rfl, hm, hstep, hnow, ht, rfl, throughout_nil.2 ht⟩

/-! ## Total steps: leaving out what cannot be seen -/

/-- Operations that do not show in a view can be left out of a run: the view relates the states before
and after them, and the other operations take related states to related states. -/
theorem foldl_purge {exec : σ → ε → σ} {View : σ → σ → Prop} {own : ε → Bool}
    (hown : ∀ s t e, own e = true → View s t → View (exec s e) (exec t e)) {es : List ε}
    (hforeign : ∀ e ∈ es, own e = false → ∀ s t, View s t → View (exec s e) t) {s t : σ}
    (h : View s t) : View (es.foldl exec s) ((es.filter own).foldl exec t) := by
  induction es generalizing s t with
  | nil => exact h
  | cons e es ih =>
      have hrest : ∀ d ∈ es, own d = false → ∀ s t, View s t → View (exec s d) t :=
        fun d hd => hforeign d (List.mem_cons_of_mem _ hd)
      cases hseen : own e with
      | true => simpa [List.filter_cons, hseen] using ih hrest (hown s t e hseen h)
      | false =>
          have hview := hforeign e List.mem_cons_self hseen s t h
          simpa [List.filter_cons, hseen] using ih hrest hview

end Foundation
end GatewayEdge
