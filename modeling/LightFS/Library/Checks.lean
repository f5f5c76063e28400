import Mathlib.Data.List.Basic

/-!
# Checks in a row

A function that validates its input makes one check after the other and stops at the first that
fails, with a message. It is a computation in `Except` made of `check` and of loops of checks
(`checkAll`), and it passes when all checks do.

## Main definitions

* `check`, `checkAll`.

## Main results

* `bind_eq_ok_iff`, `check_eq_ok_iff`, `checkAll_eq_ok_iff`.
* `forall_mem_zipIdx_drop_iff` — a loop over the pairs of a list.
-/

namespace LightFS.Library

variable {α ε : Type*}

/-- Go on if the condition holds, fail with a message otherwise. -/
def check (p : Prop) [Decidable p] (message : ε) : Except ε Unit :=
  if p then .ok () else .error message

/-- Make a check for each entry of a list. -/
def checkAll (f : α → Except ε Unit) : List α → Except ε Unit
  | [] => .ok ()
  | a :: l => do
    f a
    checkAll f l

theorem check_eq_ok_iff {p : Prop} [Decidable p] {message : ε} :
    check p message = .ok () ↔ p := by
  by_cases h : p
  · exact iff_of_true (if_pos h) h
  · refine iff_of_false (fun hcheck => ?_) h
    rw [check, if_neg h] at hcheck
    cases hcheck

theorem bind_eq_ok_iff {first : Except ε Unit} {second : Unit → Except ε Unit} :
    (first >>= second) = .ok () ↔ first = .ok () ∧ second () = .ok () := by
  rcases first with message | _
  · refine iff_of_false (fun h => ?_) fun h => ?_
    · cases h
    · cases h.1
  · exact (and_iff_right rfl).symm

/-- A computation that does not fail goes on with the result of its first part. -/
theorem exists_of_bind_eq_ok {β γ : Type*} {first : Except ε β} {second : β → Except ε γ} {c : γ}
    (h : first.bind second = .ok c) : ∃ b, first = .ok b ∧ second b = .ok c := by
  rcases first with message | b
  · cases h
  · exact ⟨b, rfl, h⟩

theorem checkAll_eq_ok_iff {f : α → Except ε Unit} {l : List α} :
    checkAll f l = .ok () ↔ ∀ a ∈ l, f a = .ok () := by
  induction l with
  | nil => exact iff_of_true rfl fun a h => absurd h List.not_mem_nil
  | cons a l ih => rw [checkAll, bind_eq_ok_iff, ih, List.forall_mem_cons]

/-- A loop over the entries of a list with an inner loop over the entries behind. -/
theorem forall_mem_zipIdx_drop_iff {P : α → α → Prop} {l : List α} :
    (∀ entry ∈ l.zipIdx, ∀ later ∈ l.zipIdx.drop (entry.2 + 1), P entry.1 later.1) ↔
      l.Pairwise P := by
  rw [List.pairwise_iff_getElem]
  constructor
  · intro h i j hi hj hij
    refine h (l[i], i) (List.mk_mem_zipIdx_iff_getElem?.mpr (List.getElem?_eq_getElem hi))
      (l[j], j) (List.mem_drop_iff_getElem.mpr ⟨j - (i + 1), ?_, ?_⟩)
    · rw [List.length_zipIdx]
      omega
    · simp only [List.getElem_zipIdx, Nat.zero_add, Nat.add_sub_cancel' (show i + 1 ≤ j from hij)]
  · rintro h ⟨a, i⟩ hentry later hlater
    obtain ⟨hi, rfl⟩ := List.getElem?_eq_some_iff.mp (List.mk_mem_zipIdx_iff_getElem?.mp hentry)
    obtain ⟨k, hk, rfl⟩ := List.mem_drop_iff_getElem.mp hlater
    rw [List.length_zipIdx, Nat.add_comm] at hk
    rw [List.getElem_zipIdx]
    exact h i (i + 1 + k) hi hk (by omega)

end LightFS.Library
