import Mathlib.Algebra.BigOperators.Group.Finset.Piecewise
import LightFS.Library.Machine

/-!
# Interleaved executions over a shared state

Several executions run a program each and share a state. One atomic step of an execution reads and
changes its own local state and the shared state, and nothing else. A schedule is a list of
executions, each taking one step; every interleaving is a schedule.

## Main definitions

* `Interleaved` — the local states and the shared state.
* `interleave` — the machine of all interleavings.

## Main results

* `sum_threads_update` — how a sum over the executions changes with one local state.
* `interleave_rank_run_le` — an execution finishes when it is scheduled often enough.
-/

namespace LightFS.Library

/-- The states of executions `ι` with local states `L` over a shared state. -/
structure Interleaved (ι L S : Type*) where
  threads : ι → L
  shared : S

variable {ι L S : Type*} [DecidableEq ι]

/-- One atomic step of an execution after the other, in any order. -/
def interleave (act : ι → L → S → L × S) : Machine (Interleaved ι L S) ι Unit where
  step c i :=
    let r := act i (c.threads i) c.shared
    ({ threads := Function.update c.threads i r.1, shared := r.2 }, ())

/-- A sum over the executions changes by the term of the one that took a step. -/
theorem sum_threads_update [Fintype ι] (f : ι → L → ℕ) (threads : ι → L) (i : ι) (l : L) :
    ∑ j, f j (Function.update threads i l j) + f i (threads i) =
      ∑ j, f j (threads j) + f i l := by
  have hupdate : (fun j => f j (Function.update threads i l j)) =
      Function.update (fun j => f j (threads j)) i (f i l) := by
    funext j
    exact Function.apply_update f threads i l j
  rw [hupdate, Finset.sum_update_of_mem (Finset.mem_univ i),
    ← Finset.add_sum_erase _ (fun j => f j (threads j)) (Finset.mem_univ i),
    Finset.sdiff_singleton_eq_erase]
  omega

variable {act : ι → L → S → L × S}

/-- If every step of an execution, from states with the invariant, brings it closer to its end, a
schedule brings it as many steps closer as it has turns. -/
theorem interleave_rank_run_le {P : Interleaved ι L S → Prop} {rank : L → ℕ}
    (hP : ∀ c i, P c → P ((interleave act).step c i).1)
    (hrank : ∀ c i, P c → rank (act i (c.threads i) c.shared).1 ≤ rank (c.threads i) - 1)
    {c : Interleaved ι L S} (hc : P c) (schedule : List ι) (i : ι) :
    rank (((interleave act).run c schedule).threads i) ≤
      rank (c.threads i) - schedule.count i := by
  induction schedule generalizing c with
  | nil => exact le_rfl
  | cons j schedule ih =>
    have hnext := ih (hP c j hc)
    rw [Machine.run_cons]
    by_cases hj : j = i
    · subst hj
      have hstep : rank (((interleave act).step c j).1.threads j) ≤ rank (c.threads j) - 1 := by
        simpa only [interleave, Function.update_self] using hrank c j hc
      rw [List.count_cons_self]
      omega
    · have hstep : ((interleave act).step c j).1.threads i = c.threads i :=
        Function.update_of_ne (Ne.symm hj) _ _
      rw [hstep] at hnext
      rwa [List.count_cons_of_ne hj]

end LightFS.Library
