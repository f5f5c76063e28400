import Mathlib.Data.List.Perm.Basic
import Mathlib.Data.List.Perm.Lattice

/-!
# Jobs that move between places

In a system with several queues, tables and channels each piece of work is, at any time, in some
of these places and not in others. Such a system is described by the list of its jobs: a place is
a list that holds, in some order, what a `view` of the jobs shows (`Shows`). A step of the system
replaces one job, and each place follows: it keeps its contents, an element is put there, or one
is taken away.

## Main definitions

* `Shows` — the place holds exactly what the view shows of the jobs.

## Main results

* `Shows.exists_job` — an element of a place belongs to a job.
* `Shows.keep`, `Shows.put`, `Shows.take`, `Shows.requeue` — a job is replaced.
* `Shows.cons_some`, `Shows.cons_none` — a new job.
-/

namespace LightFS.Library

variable {α β : Type*} {view : α → Option β} {jobs rest : List α} {job job' : α} {l : List β}
  {i : ℕ} {x y : β}

/-- The place `l` holds what `view` shows of the jobs. -/
def Shows (view : α → Option β) (jobs : List α) (l : List β) : Prop :=
  l.Perm (jobs.filterMap view)

namespace Shows

theorem of_perm (h : Shows view jobs l) (hperm : jobs.Perm rest) : Shows view rest l :=
  List.Perm.trans h (hperm.filterMap view)

theorem mem_iff (h : Shows view jobs l) : x ∈ l ↔ ∃ job ∈ jobs, view job = some x := by
  rw [List.Perm.mem_iff h, List.mem_filterMap]

/-- An element of a place belongs to a job. -/
theorem exists_job (h : Shows view jobs l) (hx : l[i]? = some x) :
    ∃ job rest, jobs.Perm (job :: rest) ∧ view job = some x := by
  obtain ⟨job, hjob, hview⟩ := h.mem_iff.mp (List.mem_of_getElem? hx)
  obtain ⟨before, after, rfl⟩ := List.append_of_mem hjob
  exact ⟨job, before ++ after, List.perm_middle, hview⟩

/-- A place in which the job is seen as before. -/
theorem keep (h : Shows view (job :: rest) l) (heq : view job' = view job) :
    Shows view (job' :: rest) l := by
  rw [Shows, List.filterMap_cons, heq, ← List.filterMap_cons]
  exact h

/-- A place to which the job comes. -/
theorem put (h : Shows view (job :: rest) l) (hjob : view job = none) (hjob' : view job' = some y) :
    Shows view (job' :: rest) (l ++ [y]) := by
  rw [Shows, List.filterMap_cons_none hjob] at h
  rw [Shows, List.filterMap_cons_some hjob']
  exact (List.perm_append_singleton y l).trans (h.cons y)

private theorem eraseIdx_perm (h : Shows view (job :: rest) l) (hx : l[i]? = some x)
    (hjob : view job = some x) : (l.eraseIdx i).Perm (rest.filterMap view) := by
  obtain ⟨hi, rfl⟩ := List.getElem?_eq_some_iff.mp hx
  rw [Shows, List.filterMap_cons_some hjob] at h
  exact ((List.getElem_cons_eraseIdx_perm hi).trans h).cons_inv

/-- A place that the job leaves. -/
theorem take (h : Shows view (job :: rest) l) (hx : l[i]? = some x) (hjob : view job = some x)
    (hjob' : view job' = none) : Shows view (job' :: rest) (l.eraseIdx i) := by
  rw [Shows, List.filterMap_cons_none hjob']
  exact h.eraseIdx_perm hx hjob

/-- An element that is taken away and put back. -/
theorem requeue (h : Shows view jobs l) (hx : l[i]? = some x) :
    Shows view jobs (l.eraseIdx i ++ [x]) := by
  obtain ⟨hi, rfl⟩ := List.getElem?_eq_some_iff.mp hx
  exact ((List.perm_append_singleton _ _).trans (List.getElem_cons_eraseIdx_perm hi)).trans h

/-- A new job that is seen in a place. -/
theorem cons_some (h : Shows view jobs l) (hjob : view job = some y) :
    Shows view (job :: jobs) (l ++ [y]) := by
  rw [Shows, List.filterMap_cons_some hjob]
  exact (List.perm_append_singleton y l).trans (List.Perm.cons y h)

/-- A new job that is not seen in a place. -/
theorem cons_none (h : Shows view jobs l) (hjob : view job = none) :
    Shows view (job :: jobs) l := by
  rw [Shows, List.filterMap_cons_none hjob]
  exact h

end Shows

end LightFS.Library
