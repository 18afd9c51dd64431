import Mathlib.Data.List.Basic
import Mathlib.Data.List.Induction
import Mathlib.Order.Basic
import Mathlib.Tactic.Common

/-!
# Machinery/Run — runs of a deterministic system

A system is a step function `step : σ → ε → σ`; a run is a list of events, read from the left.
Three things are said of a run: what holds where it ends, what holds at every state it passes
(`Always`), and what holds of every step it takes, judged at the state the step is taken in
(`Steps`).  Each induction over runs is done here once.
-/

universe u v w

namespace Machinery

variable {σ : Type u} {τ : Type v} {ε : Type w} {step : σ → ε → σ}

/-- The state a run ends in. -/
def run (step : σ → ε → σ) (s : σ) (es : List ε) : σ := es.foldl step s

@[simp] theorem run_nil (s : σ) : run step s [] = s := rfl

@[simp] theorem run_cons (s : σ) (e : ε) (es : List ε) :
    run step s (e :: es) = run step (step s e) es := rfl

theorem run_append (s : σ) (es fs : List ε) :
    run step s (es ++ fs) = run step (run step s es) fs := List.foldl_append

@[simp] theorem run_concat (s : σ) (es : List ε) (e : ε) :
    run step s (es ++ [e]) = step (run step s es) e := run_append s es [e]

/-- **Induction over runs**: what holds at the start and is kept by every step holds at the end. -/
theorem run_invariant {P : σ → Prop} {s : σ} (h0 : P s) (hstep : ∀ s e, P s → P (step s e)) :
    ∀ es : List ε, P (run step s es) := by
  intro es
  induction es generalizing s with
  | nil => exact h0
  | cons e es ih => exact ih (hstep s e h0)

/-! ## Every state, every step

Both are stated by splitting the run, so that they say something of the state in the middle, and
both are read step by step in proofs. -/

/-- `P` holds at every state the run passes, its first and last included. -/
def Always (step : σ → ε → σ) (P : σ → Prop) (s : σ) (es : List ε) : Prop :=
  ∀ pre post, es = pre ++ post → P (run step s pre)

/-- Each step `e` of the run is taken in a state `t` with `C t e`. -/
def Steps (step : σ → ε → σ) (C : σ → ε → Prop) (s : σ) (es : List ε) : Prop :=
  ∀ pre e post, es = pre ++ e :: post → C (run step s pre) e

theorem Always.last {P : σ → Prop} {s : σ} {es : List ε} (h : Always step P s es) :
    P (run step s es) := h es [] (List.append_nil es).symm

theorem Always.first {P : σ → Prop} {s : σ} {es : List ε} (h : Always step P s es) : P s :=
  h [] es rfl

/-- Splitting a one-longer list: either the second part is empty, or it ends in the new item. -/
theorem concat_eq_append {es pre post : List ε} {e : ε} (h : es ++ [e] = pre ++ post) :
    (pre = es ++ [e] ∧ post = []) ∨ ∃ post', post = post' ++ [e] ∧ es = pre ++ post' := by
  rcases List.eq_nil_or_concat post with rfl | ⟨post', e', rfl⟩
  · exact Or.inl ⟨by simpa using h.symm, rfl⟩
  · rw [List.concat_eq_append, ← List.append_assoc] at h
    obtain ⟨h1, h2⟩ := List.append_inj' h rfl
    cases h2
    exact Or.inr ⟨post', List.concat_eq_append .., h1⟩

theorem always_nil {P : σ → Prop} {s : σ} : Always step P s [] ↔ P s := by
  refine ⟨fun h => h.first, fun h pre post heq => ?_⟩
  obtain ⟨rfl, rfl⟩ := List.append_eq_nil_iff.mp heq.symm
  exact h

theorem always_concat {P : σ → Prop} {s : σ} {es : List ε} {e : ε} :
    Always step P s (es ++ [e]) ↔ Always step P s es ∧ P (step (run step s es) e) := by
  constructor
  · intro h
    refine ⟨fun pre post heq => h pre (post ++ [e]) (by rw [heq, List.append_assoc]), ?_⟩
    have hlast := h.last
    rwa [run_concat] at hlast
  · rintro ⟨h, hlast⟩ pre post heq
    rcases concat_eq_append heq with ⟨rfl, rfl⟩ | ⟨post', rfl, hes⟩
    · rwa [run_concat]
    · exact h pre post' hes

theorem steps_nil {C : σ → ε → Prop} {s : σ} : Steps step C s [] := fun pre e post heq => by
  simp at heq

theorem steps_cons {C : σ → ε → Prop} {s : σ} {e : ε} {es : List ε} :
    Steps step C s (e :: es) ↔ C s e ∧ Steps step C (step s e) es := by
  constructor
  · intro h
    exact ⟨h [] e es rfl, fun pre e' post heq => h (e :: pre) e' post (by rw [heq]; rfl)⟩
  · rintro ⟨he, hes⟩ pre e' post heq
    rcases pre with _ | ⟨e₀, pre⟩
    · cases heq
      exact he
    · cases heq
      exact hes pre e' post rfl

theorem steps_concat {C : σ → ε → Prop} {s : σ} {es : List ε} {e : ε} :
    Steps step C s (es ++ [e]) ↔ Steps step C s es ∧ C (run step s es) e := by
  constructor
  · intro h
    exact ⟨fun pre e' post heq => h pre e' (post ++ [e]) (by rw [heq]; simp), h es e [] rfl⟩
  · rintro ⟨h, hlast⟩ pre e' post heq
    rcases concat_eq_append heq with ⟨-, hnil⟩ | ⟨post', hpost, hes⟩
    · exact absurd hnil (List.cons_ne_nil _ _)
    · rcases post' with _ | ⟨e₀, post'⟩
      · cases hpost
        rw [List.append_nil] at hes
        rwa [← hes]
      · cases hpost
        exact h pre _ post' hes

/-- What every step that meets `C` keeps is had at the end of a run whose steps all meet `C`. -/
theorem Steps.invariant {P : σ → Prop} {C : σ → ε → Prop} {s : σ} (h0 : P s)
    (hstep : ∀ s e, P s → C s e → P (step s e)) {es : List ε} (h : Steps step C s es) :
    P (run step s es) := by
  induction es using List.reverseRecOn with
  | nil => exact h0
  | append_singleton es e ih =>
    obtain ⟨hes, he⟩ := steps_concat.mp h
    rw [run_concat]
    exact hstep _ e (ih hes) he

/-- **A property of every state, decided step by step**: where it holds before a step, it holds
after it exactly when the step meets `C`. -/
theorem always_iff_steps {I P : σ → Prop} {C : σ → ε → Prop} {s : σ} (hI : I s) (hP : P s)
    (hkeep : ∀ s e, I s → I (step s e)) (hstep : ∀ s e, I s → P s → (P (step s e) ↔ C s e))
    (es : List ε) : Always step P s es ↔ Steps step C s es := by
  induction es using List.reverseRecOn with
  | nil => exact ⟨fun _ => steps_nil, fun _ => always_nil.mpr hP⟩
  | append_singleton es e ih =>
    rw [always_concat, steps_concat]
    refine ⟨fun h => ⟨ih.mp h.1, ?_⟩, fun h => ⟨ih.mpr h.1, ?_⟩⟩
    · exact (hstep _ e (run_invariant hI hkeep es) h.1.last).mp h.2
    · exact (hstep _ e (run_invariant hI hkeep es) (ih.mpr h.1).last).mpr h.2

/-- **Two conditions that agree in every state that is reached** are met by the same runs. -/
theorem steps_congr {I : σ → Prop} {C D : σ → ε → Prop} {s : σ} (hI : I s)
    (hkeep : ∀ s e, I s → I (step s e)) (h : ∀ s e, I s → (C s e ↔ D s e)) (es : List ε) :
    Steps step C s es ↔ Steps step D s es :=
  forall₄_congr fun pre e _ _ => h _ e (run_invariant hI hkeep pre)

/-- **What holds at the end of a run and not at its start** came about at one of its steps. -/
theorem exists_step {I P : σ → Prop} {C : σ → ε → Prop} {s : σ} (hI : I s)
    (hkeep : ∀ s e, I s → I (step s e)) (h0 : ¬ P s)
    (hstep : ∀ s e, I s → P (step s e) → P s ∨ C s e) {es : List ε} (h : P (run step s es)) :
    ∃ pre e post, es = pre ++ e :: post ∧ C (run step s pre) e := by
  induction es using List.reverseRecOn with
  | nil => exact absurd h h0
  | append_singleton es e ih =>
    rw [run_concat] at h
    rcases hstep _ e (run_invariant hI hkeep es) h with hbefore | hC
    · obtain ⟨pre, e', post, rfl, hC⟩ := ih hbefore
      exact ⟨pre, e', post ++ [e], by simp, hC⟩
    · exact ⟨es, e, [], rfl, hC⟩

section Clock

variable {κ : Type*} [Preorder κ] {I : σ → Prop} {clock : σ → κ} {s : σ}

/-- A clock that no step turns back is not turned back by a run. -/
theorem clock_le_run (hI : I s) (hkeep : ∀ s e, I s → I (step s e))
    (hmono : ∀ s e, I s → clock s ≤ clock (step s e)) (es : List ε) :
    clock s ≤ clock (run step s es) := by
  induction es using List.reverseRecOn with
  | nil => exact le_rfl
  | append_singleton es e ih =>
    rw [run_concat]
    exact ih.trans (hmono _ e (run_invariant hI hkeep es))

/-- **A step that advances a clock is singled out by the time it is taken at.** -/
theorem eq_of_clock_eq (hI : I s) (hkeep : ∀ s e, I s → I (step s e))
    (hmono : ∀ s e, I s → clock s ≤ clock (step s e)) {pre post pre' post' : List ε} {e e' : ε}
    (heq : pre ++ e :: post = pre' ++ e' :: post')
    (htick : clock (run step s pre) < clock (step (run step s pre) e))
    (htick' : clock (run step s pre') < clock (step (run step s pre') e'))
    (hclock : clock (run step s pre) = clock (run step s pre')) :
    pre = pre' ∧ e = e' ∧ post = post' := by
  -- a longer run would have passed the step, and the clock would be later
  have hlater : ∀ {pre pre' mid : List ε} {e : ε}, pre' = pre ++ e :: mid →
      clock (run step s pre) < clock (step (run step s pre) e) →
      clock (run step s pre) < clock (run step s pre') := fun hpre htick => by
    rw [hpre, run_append, run_cons]
    exact htick.trans_le (clock_le_run (hkeep _ _ (run_invariant hI hkeep _)) hkeep hmono _)
  rcases List.append_eq_append_iff.mp heq with ⟨mid, hpre, hpost⟩ | ⟨mid, hpre, hpost⟩
  · rcases mid with _ | ⟨e₀, mid⟩
    · rw [List.append_nil] at hpre
      cases hpost
      exact ⟨hpre.symm, rfl, rfl⟩
    · cases hpost
      exact absurd hclock (hlater hpre htick).ne
  · rcases mid with _ | ⟨e₀, mid⟩
    · rw [List.append_nil] at hpre
      cases hpost
      exact ⟨hpre, rfl, rfl⟩
    · cases hpost
      exact absurd hclock (hlater hpre htick').ne'

end Clock

/-! ## Runs with events left out

An event may be left out for what it would do in the state it happens in, and not for what it is. -/

/-- The events of a run that `keep` keeps, each judged in the state it happens in. -/
def kept (step : σ → ε → σ) (keep : σ → ε → Bool) : σ → List ε → List ε
  | _, [] => []
  | s, e :: es =>
      if keep s e then e :: kept step keep (step s e) es else kept step keep (step s e) es

theorem kept_append (keep : σ → ε → Bool) (fs : List ε) : ∀ (es : List ε) (s : σ),
    kept step keep s (es ++ fs) = kept step keep s es ++ kept step keep (run step s es) fs
  | [], _ => rfl
  | e :: es, s => by
      rw [List.cons_append, kept, kept, kept_append keep fs es, run_cons]
      split <;> rfl

/-- **Events that can be left out**: a relation kept by taking a kept event on both sides, and by
taking any other on the left only, relates a run to the run of what is kept of it. -/
theorem run_kept {I : σ → Prop} {R : σ → σ → Prop} {keep : σ → ε → Bool}
    (hI : ∀ s e, I s → I (step s e))
    (hkept : ∀ s t e, I s → R s t → keep s e = true → R (step s e) (step t e))
    (hleft : ∀ s t e, I s → R s t → keep s e = false → R (step s e) t) :
    ∀ (es : List ε) {s t : σ}, I s → R s t → R (run step s es) (run step t (kept step keep s es))
  | [], _, _, _, h => h
  | e :: es, s, t, hs, h => by
      rw [kept, run_cons]
      rcases hk : keep s e with _ | _
      · exact run_kept hI hkept hleft es (hI s e hs) (hleft s t e hs h hk)
      · exact run_kept hI hkept hleft es (hI s e hs) (hkept s t e hs h hk)

/-! ## Runs seen through a translation -/

section Translation

variable {δ : Type*}

/-- The events of a run, each translated in the state it happens in or left out. -/
def translated (step : σ → ε → σ) (translate : σ → ε → Option δ) : σ → List ε → List δ
  | _, [] => []
  | s, e :: es => (translate s e).toList ++ translated step translate (step s e) es

theorem translated_append (translate : σ → ε → Option δ) : ∀ (es fs : List ε) (s : σ),
    translated step translate s (es ++ fs)
      = translated step translate s es ++ translated step translate (run step s es) fs
  | [], _, _ => rfl
  | e :: es, fs, s => by
      rw [List.cons_append, translated, translated, translated_append translate es fs,
        List.append_assoc, run_cons]

/-- **A run and its translation**: a relation kept by taking an event on one side and its
translation on the other, if it has one, relates a run to the run of what it is translated to. -/
theorem run_translated {step' : τ → δ → τ} {R : σ → τ → Prop} {translate : σ → ε → Option δ}
    (hstep : ∀ s t e, R s t → R (step s e) (run step' t (translate s e).toList)) :
    ∀ (es : List ε) {s : σ} {t : τ}, R s t →
      R (run step s es) (run step' t (translated step translate s es))
  | [], _, _, h => h
  | e :: es, s, t, h => by
      rw [translated, run_cons, run_append]
      exact run_translated hstep es (hstep s t e h)

end Translation

/-! ## Runs of one system inside another -/

section Simulation

variable {δ : Type*} {step' : τ → δ → τ} {f : σ → τ}

/-- **A system whose steps are runs of another has runs that are runs of the other.** -/
theorem run_of_steps_run (hstep : ∀ s e, ∃ ds, f (step s e) = run step' (f s) ds) (s : σ) :
    ∀ es : List ε, ∃ ds, f (run step s es) = run step' (f s) ds := by
  intro es
  induction es using List.reverseRecOn with
  | nil => exact ⟨[], rfl⟩
  | append_singleton es e ih =>
    obtain ⟨ds, hds⟩ := ih
    obtain ⟨ds', hds'⟩ := hstep (run step s es) e
    exact ⟨ds ++ ds', by rw [run_concat, hds', hds, run_append]⟩

/-- A projection that commutes with the steps commutes with the runs. -/
theorem map_run {step' : τ → ε → τ} (hstep : ∀ s e, f (step s e) = step' (f s) e) :
    ∀ (es : List ε) (s : σ), f (run step s es) = run step' (f s) es
  | [], _ => rfl
  | e :: es, s => by rw [run_cons, run_cons, map_run hstep es, hstep]

/-- …and what holds at every state of one holds at every state of the other. -/
theorem always_map {step' : τ → ε → τ} (hstep : ∀ s e, f (step s e) = step' (f s) e) {P : τ → Prop}
    {s : σ} {es : List ε} : Always step (fun s => P (f s)) s es ↔ Always step' P (f s) es := by
  have hrun : ∀ pre, P (f (run step s pre)) ↔ P (run step' (f s) pre) := fun pre => by
    rw [map_run hstep pre s]
  exact forall₃_congr fun pre _ _ => hrun pre

/-- …and so does what holds of every step. -/
theorem steps_map {step' : τ → ε → τ} (hstep : ∀ s e, f (step s e) = step' (f s) e)
    {C : τ → ε → Prop} {s : σ} {es : List ε} :
    Steps step (fun s e => C (f s) e) s es ↔ Steps step' C (f s) es := by
  have hrun : ∀ pre e, C (f (run step s pre)) e ↔ C (run step' (f s) pre) e := fun pre e => by
    rw [map_run hstep pre s]
  exact forall₄_congr fun pre e _ _ => hrun pre e

end Simulation

end Machinery
