import Mathlib.Logic.Function.Basic
import Mathlib.Tactic.TypeStar

/-!
# Deterministic components and their runs

A component with private state is described by what one operation does: the state it leaves and
the result it returns (`Machine`). A run is a list of operations. This file provides the state
and the results of a run, the rule that an invariant kept by every operation holds along every
run (`Machine.run_invariant`), and the rule that a relation kept by every operation of two
components with equal results makes all their runs return the same (`Machine.Simulates`).

## Main definitions

* `Machine`, `Machine.run`, `Machine.results`, `Machine.trace`.
* `Machine.Meets` — the operations of a run meet a condition.
* `Machine.parallel` — components side by side.
* `Machine.Simulates` — a simulation relation between two components.

## Main results

* `Machine.run_invariant`, `Machine.meets_of_invariant`, `Machine.run_of_meets`,
  `Machine.trace_invariant`, `Machine.exists_step_of_run`.
* `Machine.run_parallel`.
* `Machine.Simulates.results_eq`, `Machine.Simulates.run_rel`.
-/

namespace LightFS.Library

/-- A deterministic component with states `σ`, operations `ι` and results `ο`. -/
structure Machine (σ ι ο : Type*) where
  /-- The state an operation leaves and the result it returns. -/
  step : σ → ι → σ × ο

namespace Machine

variable {σ τ ι ο : Type*} (M : Machine σ ι ο) (N : Machine τ ι ο)

/-- The state after a run. -/
def run : σ → List ι → σ
  | s, [] => s
  | s, op :: ops => run (M.step s op).1 ops

/-- The results of a run, in order. -/
def results : σ → List ι → List ο
  | _, [] => []
  | s, op :: ops => (M.step s op).2 :: results (M.step s op).1 ops

@[simp] theorem run_nil (s : σ) : M.run s [] = s := rfl

@[simp] theorem run_cons (s : σ) (op : ι) (ops : List ι) :
    M.run s (op :: ops) = M.run (M.step s op).1 ops := rfl

@[simp] theorem results_nil (s : σ) : M.results s [] = [] := rfl

@[simp] theorem results_cons (s : σ) (op : ι) (ops : List ι) :
    M.results s (op :: ops) = (M.step s op).2 :: M.results (M.step s op).1 ops := rfl

theorem run_append (s : σ) (ops ops' : List ι) :
    M.run s (ops ++ ops') = M.run (M.run s ops) ops' := by
  induction ops generalizing s with
  | nil => rfl
  | cons op ops ih => exact ih _

/-- A property that holds of the first state and is kept by every operation of the run holds of
the last state. -/
theorem run_invariant {M : Machine σ ι ο} {P : σ → Prop} {ops : List ι}
    (hstep : ∀ s, ∀ op ∈ ops, P s → P (M.step s op).1) {s : σ} (hs : P s) : P (M.run s ops) := by
  induction ops generalizing s with
  | nil => exact hs
  | cons op ops ih =>
    refine ih (fun s op' hop' => hstep s op' (List.mem_cons_of_mem _ hop')) ?_
    exact hstep s op List.mem_cons_self hs

/-- A property that a run brings about is brought about by one of its operations. -/
theorem exists_step_of_run {M : Machine σ ι ο} {P : σ → Prop} {s : σ} {ops : List ι}
    (hs : ¬ P s) (hrun : P (M.run s ops)) : ∃ earlier op later, ops = earlier ++ op :: later ∧
      ¬ P (M.run s earlier) ∧ P (M.step (M.run s earlier) op).1 := by
  induction ops generalizing s with
  | nil => exact absurd hrun hs
  | cons op ops ih =>
    by_cases hop : P (M.step s op).1
    · exact ⟨[], op, ops, rfl, hs, hop⟩
    · obtain ⟨earlier, op', later, rfl, hbefore, hafter⟩ := ih hop hrun
      exact ⟨op :: earlier, op', later, rfl, hbefore, hafter⟩

/-- Every operation of a run meets a condition on the state it starts from. -/
def Meets (P : σ → ι → Prop) : σ → List ι → Prop
  | _, [] => True
  | s, op :: ops => P s op ∧ Meets P (M.step s op).1 ops

/-- An invariant under which every operation meets a condition makes a run meet it. -/
theorem meets_of_invariant {M : Machine σ ι ο} {P : σ → ι → Prop} {I : σ → Prop}
    (hstep : ∀ s op, I s → P s op ∧ I (M.step s op).1) {s : σ} (hs : I s) (ops : List ι) :
    M.Meets P s ops := by
  induction ops generalizing s with
  | nil => trivial
  | cons op ops ih =>
    obtain ⟨hmeets, hnext⟩ := hstep s op hs
    exact ⟨hmeets, ih hnext⟩

/-- A property that is kept by the operations that meet a condition is kept by a run of them. -/
theorem run_of_meets {M : Machine σ ι ο} {P : σ → ι → Prop} {I : σ → Prop}
    (hstep : ∀ s op, P s op → I s → I (M.step s op).1) {s : σ} {ops : List ι}
    (hmeets : M.Meets P s ops) (hs : I s) : I (M.run s ops) := by
  induction ops generalizing s with
  | nil => exact hs
  | cons op ops ih => exact ih hmeets.2 (hstep s op hmeets.1 hs)

/-! ### Components side by side -/

section Parallel

variable {κ : Type*} [DecidableEq κ] (Ms : κ → Machine σ ι ο)

/-- Components `κ` side by side; an operation is one of one of them. -/
def parallel : Machine (κ → σ) (κ × ι) ο where
  step s op :=
    let r := (Ms op.1).step (s op.1) op.2
    (Function.update s op.1 r.1, r.2)

/-- The operations of one component in a run of all. -/
def operationsOf (k : κ) (ops : List (κ × ι)) : List ι :=
  ops.filterMap fun op => if op.1 = k then some op.2 else none

/-- A component does in a run of all what it does alone. -/
theorem run_parallel (s : κ → σ) (ops : List (κ × ι)) (k : κ) :
    (parallel Ms).run s ops k = (Ms k).run (s k) (operationsOf k ops) := by
  induction ops generalizing s with
  | nil => rfl
  | cons op ops ih =>
    obtain ⟨j, op⟩ := op
    rw [run_cons, ih]
    by_cases hj : j = k
    · subst hj
      simp [operationsOf, parallel]
    · simp [operationsOf, parallel, hj, Function.update_of_ne (Ne.symm hj)]

end Parallel

/-! ### Traces -/

section Trace

variable {ε : Type*} (T : Machine σ ι (List ε))

/-- What happens in a run, for a component whose results are lists of events. -/
def trace (s : σ) (ops : List ι) : List ε := (T.results s ops).flatten

@[simp] theorem trace_nil (s : σ) : T.trace s [] = [] := rfl

@[simp] theorem trace_cons (s : σ) (op : ι) (ops : List ι) :
    T.trace s (op :: ops) = (T.step s op).2 ++ T.trace (T.step s op).1 ops := rfl

/-- A relation between the state and what has happened so far, kept by every operation, holds at
the end of every run. -/
theorem trace_invariant {T : Machine σ ι (List ε)} {P : σ → List ε → Prop}
    (hstep : ∀ s events op, P s events → P (T.step s op).1 (events ++ (T.step s op).2))
    {s : σ} {events : List ε} (hs : P s events) (ops : List ι) :
    P (T.run s ops) (events ++ T.trace s ops) := by
  induction ops generalizing s events with
  | nil => simpa using hs
  | cons op ops ih =>
    rw [run_cons, trace_cons, ← List.append_assoc]
    exact ih (hstep s events op hs)

end Trace

/-- The relation `R` is a simulation between `M` and `N`: from related states every operation
returns the same result and leads to related states. -/
structure Simulates (R : σ → τ → Prop) : Prop where
  /-- Related states answer alike. -/
  result_eq : ∀ {s t} (op : ι), R s t → (M.step s op).2 = (N.step t op).2
  /-- Every operation keeps the relation. -/
  step_rel : ∀ {s t} (op : ι), R s t → R (M.step s op).1 (N.step t op).1

namespace Simulates

variable {M N} {R : σ → τ → Prop}

theorem run_rel (h : M.Simulates N R) {s : σ} {t : τ} (hst : R s t) (ops : List ι) :
    R (M.run s ops) (N.run t ops) := by
  induction ops generalizing s t with
  | nil => exact hst
  | cons op ops ih => exact ih (h.step_rel op hst)

/-- Related components return the same results along every run. -/
theorem results_eq (h : M.Simulates N R) {s : σ} {t : τ} (hst : R s t) (ops : List ι) :
    M.results s ops = N.results t ops := by
  induction ops generalizing s t with
  | nil => rfl
  | cons op ops ih => rw [results_cons, results_cons, h.result_eq op hst, ih (h.step_rel op hst)]

end Simulates

end Machine

end LightFS.Library
