import Mathlib.Data.List.Induction
import Mathlib.Logic.Relation

/-!
# Labelled transition systems and guarded runs

The one piece of meta-theory every concurrency result of the development needs. A system is a
partial step function on labelled states; a *guarded* run is a run each of whose steps meets a
condition on the state it is taken in. Invariants are proved step by step and carried to every
state of every guarded run by `ReachableVia.invariant`.
-/

namespace EnergyAgent.Lib

/-- A transition system over states `σ` and labels `α`. `step s a = none` means that `a` is not
enabled in `s`; everything a step leaves open (which message, which outcome of a call) is part of
its label. -/
structure TransitionSystem (σ : Type) (α : Type) where
  init : σ → Prop
  step : σ → α → Option σ

namespace TransitionSystem

variable {σ α : Type} (T : TransitionSystem σ α)

/-- The states reached by the runs all of whose steps meet `ok`. -/
inductive ReachableVia (ok : σ → α → Prop) : σ → Prop
  | init {s : σ} : T.init s → ReachableVia ok s
  | step {s t : σ} {a : α} : ReachableVia ok s → ok s a → T.step s a = some t → ReachableVia ok t

/-- The states reached by any run. -/
abbrev Reachable : σ → Prop := T.ReachableVia (fun _ _ => True)

/-- Replay a list of labels; `none` as soon as one of them is not enabled. -/
def run : σ → List α → Option σ
  | s, [] => some s
  | s, a :: as => (T.step s a).bind (run · as)

variable {T}

/-- A run that meets a guard meets every weaker one. -/
theorem ReachableVia.mono {ok ok' : σ → α → Prop} (himp : ∀ s a, ok s a → ok' s a) {s : σ}
    (h : T.ReachableVia ok s) : T.ReachableVia ok' s := by
  induction h with
  | init h0 => exact .init h0
  | step _ hok hs ih => exact .step ih (himp _ _ hok) hs

/-- **The invariant rule.** What holds initially and is kept by every step that meets `ok` holds in
every state a guarded run reaches. -/
theorem ReachableVia.invariant {ok : σ → α → Prop} {I : σ → Prop}
    (hinit : ∀ s, T.init s → I s)
    (hstep : ∀ s a t, I s → ok s a → T.step s a = some t → I t)
    {s : σ} (h : T.ReachableVia ok s) : I s := by
  induction h with
  | init h0 => exact hinit _ h0
  | step _ hok hs ih => exact hstep _ _ _ ih hok hs

/-- Replaying labels that meet the condition wherever they are taken, from a reached state, reaches the
last state of the replay. -/
theorem ReachableVia.of_run {ok : σ → α → Prop} {as : List α} (hok : ∀ a ∈ as, ∀ s, ok s a) :
    ∀ {s t : σ}, T.ReachableVia ok s → T.run s as = some t → T.ReachableVia ok t := by
  induction as with
  | nil =>
      intro s t hs hrun
      simp only [run, Option.some.injEq] at hrun
      exact hrun ▸ hs
  | cons a as ih =>
      intro s t hs hrun
      obtain ⟨m, hm, hrest⟩ := Option.bind_eq_some_iff.mp hrun
      have hstep := ReachableVia.step hs (hok a (List.mem_cons_self ..) s) hm
      exact ih (fun a' ha' => hok a' (List.mem_cons_of_mem _ ha')) hstep hrest

theorem Reachable.of_run {as : List α} {s t : σ} (hs : T.Reachable s) (hrun : T.run s as = some t) :
    T.Reachable t :=
  ReachableVia.of_run (fun _ _ _ => trivial) hs hrun

/-- The last step of a replay. -/
theorem run_concat (T : TransitionSystem σ α) (as : List α) (a : α) :
    ∀ s, T.run s (as ++ [a]) = (T.run s as).bind (T.step · a) := by
  induction as with
  | nil =>
      intro s
      show (T.step s a).bind some = T.step s a
      cases T.step s a <;> rfl
  | cons b as ih =>
      intro s
      show (T.step s b).bind (T.run · (as ++ [a])) = ((T.step s b).bind (T.run · as)).bind (T.step · a)
      cases T.step s b with
      | none => rfl
      | some t => exact ih t

/-- **How it came about.** What does not hold initially, and begins to hold only with a step to a state
where `P` holds, has `P` in the past. -/
theorem exists_past {P Q : σ → Prop} (hinit : ∀ s, T.init s → ¬ Q s)
    (hstep : ∀ s a t, T.Reachable s → T.step s a = some t → Q t → Q s ∨ P t) {s t : σ} {as : List α}
    (hs : T.init s) (hrun : T.run s as = some t) (ht : Q t) :
    ∃ past future u, as = past ++ future ∧ T.run s past = some u ∧ P u := by
  induction as using List.reverseRecOn generalizing t with
  | nil =>
      cases hrun
      exact absurd ht (hinit s hs)
  | append_singleton as a ih =>
      rw [run_concat] at hrun
      obtain ⟨m, hm, hlast⟩ := Option.bind_eq_some_iff.mp hrun
      rcases hstep m a t (Reachable.of_run (.init hs) hm) hlast ht with hbefore | hnow
      · obtain ⟨past, future, u, rfl, hu, hP⟩ := ih hm hbefore
        exact ⟨past, future ++ [a], u, List.append_assoc _ _ _, hu, hP⟩
      · refine ⟨as ++ [a], [], t, (List.append_nil _).symm, ?_, hnow⟩
        rw [run_concat, hm]
        exact hlast

/-- Replay a list of labels, each of which must pass `check` in the state it is taken in. -/
def runChecked (T : TransitionSystem σ α) (check : σ → α → Bool) : σ → List α → Option σ
  | s, [] => some s
  | s, a :: as => if check s a then (T.step s a).bind (runChecked T check · as) else none

theorem run_of_runChecked {check : σ → α → Bool} {as : List α} :
    ∀ {s t : σ}, T.runChecked check s as = some t → T.run s as = some t := by
  induction as with
  | nil => exact fun h => h
  | cons a as ih =>
      intro s t hrun
      simp only [runChecked] at hrun
      split at hrun
      · obtain ⟨m, hm, hrest⟩ := Option.bind_eq_some_iff.mp hrun
        exact Option.bind_eq_some_iff.mpr ⟨m, hm, ih hrest⟩
      · cases hrun

/-- A replay whose checks imply the condition stays within the guarded runs. -/
theorem ReachableVia.of_runChecked {ok : σ → α → Prop} {check : σ → α → Bool}
    (hcheck : ∀ s a, check s a = true → ok s a) {as : List α} :
    ∀ {s t : σ}, T.ReachableVia ok s → T.runChecked check s as = some t →
      T.ReachableVia ok t := by
  induction as with
  | nil =>
      intro s t hs hrun
      cases hrun
      exact hs
  | cons a as ih =>
      intro s t hs hrun
      simp only [runChecked] at hrun
      split at hrun
      · next hpass =>
          obtain ⟨m, hm, hrest⟩ := Option.bind_eq_some_iff.mp hrun
          exact ih (hs.step (hcheck s a hpass) hm) hrest
      · cases hrun

end TransitionSystem

end EnergyAgent.Lib
