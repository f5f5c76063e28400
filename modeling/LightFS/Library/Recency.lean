import Mathlib.Data.List.Basic

/-!
# Recency of use

A history is the list of the things that were used, in order. The age of a thing says how many
uses lie behind its last one, so that of some things that were all used there is at most one that
was used least recently.

## Main definitions

* `age`, `IsOldest`.

## Main results

* `IsOldest.unique`, `IsOldest.eq_newest`.
-/

namespace LightFS.Library

variable {α : Type*} [DecidableEq α]

/-- The number of uses behind the last use of `x`. -/
def age (uses : List α) (x : α) : ℕ := uses.reverse.idxOf x

/-- Among the things with property `P`, `x` was used least recently. -/
def IsOldest (uses : List α) (P : α → Prop) (x : α) : Prop :=
  P x ∧ ∀ y, P y → age uses y ≤ age uses x

variable {uses : List α} {P : α → Prop} {x y : α}

theorem age_append_self (uses : List α) (x : α) : age (uses ++ [x]) x = 0 := by
  rw [age, List.reverse_append]
  exact List.idxOf_cons_self

theorem age_lt_length (hx : x ∈ uses) : age uses x < uses.length := by
  rw [← List.length_reverse]
  exact List.idxOf_lt_length_of_mem (List.mem_reverse.mpr hx)

theorem eq_of_age_eq (hx : x ∈ uses) (h : age uses x = age uses y) : x = y :=
  (List.idxOf_inj (List.mem_reverse.mpr hx)).mp h

theorem IsOldest.unique (hused : ∀ z, P z → z ∈ uses) (hx : IsOldest uses P x)
    (hy : IsOldest uses P y) : x = y :=
  eq_of_age_eq (hused x hx.1) (Nat.le_antisymm (hy.2 x hx.1) (hx.2 y hy.1))

/-- If the thing used last is the oldest, there is no other. -/
theorem IsOldest.eq_newest (h : IsOldest (uses ++ [x]) P x) (hy : P y) : x = y := by
  have hage : age (uses ++ [x]) y ≤ 0 := age_append_self uses x ▸ h.2 y hy
  refine eq_of_age_eq (List.mem_append_right uses (List.mem_singleton_self x)) ?_
  rw [age_append_self, Nat.le_zero.mp hage]

end LightFS.Library
