/-
Labelled machines with executable steps, runs restricted by a condition on
each step, and the induction rule that turns a step lemma into a run lemma.
-/
import Mathlib.Logic.Basic
import Mathlib.Data.List.Basic

universe u v

variable {S : Type u} {A : Type v}

/-- A machine whose step is a partial function: `none` means that the action
is not enabled in the state.  Every nondeterministic choice is part of the
action, so one run is one list of actions. -/
structure Machine (S : Type u) (A : Type v) where
  start : S → Prop
  step : S → A → Option S

namespace Machine

open Option

/-- States reached by runs all of whose steps satisfy `ok`, a condition on the
state before the step and on the action. -/
inductive ReachableUnder (M : Machine S A) (ok : S → A → Prop) : S → Prop
  | start {s : S} : M.start s → ReachableUnder M ok s
  | step {s t : S} (a : A) : ReachableUnder M ok s → ok s a →
      M.step s a = some t → ReachableUnder M ok t

/-- States reached by runs without any condition on their steps. -/
def Reachable (M : Machine S A) (s : S) : Prop := M.ReachableUnder (fun _ _ => True) s

/-- A property of the start states that every admitted step preserves holds in
every state of every admitted run. -/
lemma ReachableUnder.invariant {M : Machine S A} {ok : S → A → Prop} {P : S → Prop}
    (hstart : ∀ s, M.start s → P s) (hstep : ∀ s a t, P s → ok s a → M.step s a = some t → P t)
    {s : S} (hs : M.ReachableUnder ok s) : P s := by
  induction hs with
  | start hinit => exact hstart _ hinit
  | step action _ hok hnext ih => exact hstep _ action _ ih hok hnext

/-- Weakening the condition on the steps only adds runs. -/
lemma ReachableUnder.mono {M : Machine S A} {ok ok' : S → A → Prop} (himp : ∀ s a, ok s a → ok' s a)
    {s : S} (hs : M.ReachableUnder ok s) : M.ReachableUnder ok' s := by
  induction hs with
  | start hinit => exact .start hinit
  | step action _ hok hnext ih => exact .step action ih (himp _ _ hok) hnext

/-- Execute a list of actions from a given state. -/
def run (M : Machine S A) : S → List A → Option S
  | s, [] => some s
  | s, a :: rest => (M.step s a).bind fun t => M.run t rest

/-- Execute a list of actions, checking the step condition on the way. -/
def runUnder (M : Machine S A) (ok : S → A → Prop)
    [∀ s a, Decidable (ok s a)] : S → List A → Option S
  | s, [] => some s
  | s, a :: rest =>
    if ok s a then (M.step s a).bind fun t => M.runUnder ok t rest else none

lemma ReachableUnder.runUnder {M : Machine S A} {ok : S → A → Prop} [∀ s a, Decidable (ok s a)]
    {s t : S} {actions : List A} (hs : M.ReachableUnder ok s)
    (hrun : M.runUnder ok s actions = some t) : M.ReachableUnder ok t := by
  induction actions generalizing s with
  | nil =>
    simp only [Machine.runUnder, some.injEq] at hrun
    exact hrun ▸ hs
  | cons action rest ih =>
    by_cases hok : ok s action
    · simp only [Machine.runUnder, hok, ↓reduceIte, bind_eq_some_iff] at hrun
      obtain ⟨next, hnext, hrest⟩ := hrun
      exact ih (hs.step action hok hnext) hrest
    · simp [Machine.runUnder, hok] at hrun

/-- What every step preserves, a run preserves. -/
lemma run_invariant {M : Machine S A} {P : S → Prop}
    (hstep : ∀ s a t, P s → M.step s a = some t → P t) {s t : S}
    {actions : List A} (hs : P s) (hrun : M.run s actions = some t) : P t := by
  induction actions generalizing s with
  | nil =>
    simp only [Machine.run, some.injEq] at hrun
    exact hrun ▸ hs
  | cons action rest ih =>
    simp only [Machine.run, bind_eq_some_iff] at hrun
    obtain ⟨next, hnext, hrest⟩ := hrun
    exact ih (hstep s action next hs hnext) hrest

lemma Reachable.run {M : Machine S A} {s t : S} {actions : List A} (hs : M.Reachable s)
    (hrun : M.run s actions = some t) : M.Reachable t :=
  run_invariant (fun _ action _ hs hnext => hs.step action trivial hnext) hs hrun

end Machine
