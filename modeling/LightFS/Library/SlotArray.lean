import Mathlib.Data.List.Basic
import Mathlib.Data.List.GetD
import Mathlib.Logic.Function.Basic

/-!
# Arrays with a live prefix

A growable C array is a block of slots of which the first `n` are live. The block is modelled
by a function from slot numbers (`a : ℕ → α`), its live part by the list `slots a n`. The loops
C code runs over such arrays are given here as loops, slot by slot, each with the list operation
it performs on the live part:

* `findSlot`, the scan for the first live slot with a property, is `List.findIdx?`
  (`findSlot_eq`);
* storing to a live slot is `List.set` (`slots_update`), storing behind the live part appends
  (`slots_update_succ`);
* `shiftDown`, the loop that closes the gap at a slot, is `List.eraseIdx` (`slots_shiftDown`).
-/

namespace LightFS.Library

variable {α : Type*}

/-- The live part of an array: its first `n` slots. -/
def slots (a : ℕ → α) (n : ℕ) : List α := (List.range n).map a

@[simp] theorem length_slots (a : ℕ → α) (n : ℕ) : (slots a n).length = n := by simp [slots]

@[simp] theorem slots_zero (a : ℕ → α) : slots a 0 = [] := rfl

@[simp] theorem getElem_slots (a : ℕ → α) (n i : ℕ) (h : i < (slots a n).length) :
    (slots a n)[i] = a i := by simp [slots]

theorem mem_slots {a : ℕ → α} {n : ℕ} {x : α} : x ∈ slots a n ↔ ∃ i < n, a i = x := by
  simp [slots]

theorem slots_inj {a a' : ℕ → α} {n : ℕ} : slots a n = slots a' n ↔ ∀ i < n, a i = a' i := by
  simp [slots]

theorem slots_const (x : α) (n : ℕ) : slots (fun _ => x) n = List.replicate n x := by
  rw [slots, List.map_const', List.length_range]

theorem slots_succ (a : ℕ → α) (n : ℕ) :
    slots a (n + 1) = a 0 :: slots (fun i => a (i + 1)) n := by
  simp [slots, List.range_succ_eq_map, Function.comp_def]

/-- The slots from `i` on are slot `i` and the slots behind it. -/
theorem slots_offset_succ (a : ℕ → α) (i n : ℕ) :
    slots (fun j => a (i + j)) (n + 1) = a i :: slots (fun j => a (i + 1 + j)) n := by
  have hshift : (fun j => a (i + (j + 1))) = fun j => a (i + 1 + j) :=
    funext fun j => congrArg a (by omega)
  rw [slots_succ, hshift, Nat.add_zero]

/-- The live part in two pieces. -/
theorem slots_eq_append (a : ℕ → α) (n n' : ℕ) :
    slots a (n + n') = slots a n ++ slots (fun i => a (n + i)) n' := by
  rw [slots, List.range_add, List.map_append, List.map_map]
  rfl

theorem take_slots (a : ℕ → α) {n n' : ℕ} (h : n ≤ n') : (slots a n').take n = slots a n := by
  rw [slots, ← List.map_take, List.take_range, Nat.min_eq_left h]
  rfl

/-- An array that is cut into blocks of one size. -/
theorem flatten_map_slots (a : ℕ → α) (size k : ℕ) :
    ((List.range k).map fun i => slots (fun b => a (i * size + b)) size).flatten =
      slots a (k * size) := by
  induction k with
  | zero => rw [Nat.zero_mul]; rfl
  | succ k ih =>
    rw [List.range_succ, List.map_append, List.flatten_append, ih, List.map_singleton,
      List.flatten_singleton, Nat.succ_mul, slots_eq_append]

/-- A list in an array that goes on with a default value. -/
theorem slots_getD {l : List α} {n : ℕ} (h : l.length ≤ n) (d : α) :
    slots (fun i => l.getD i d) n = l ++ List.replicate (n - l.length) d := by
  refine List.ext_getElem ?_ fun i hi hi' => ?_
  · rw [length_slots, List.length_append, List.length_replicate]
    omega
  · rw [getElem_slots, List.getElem_append]
    split_ifs with hlt
    · exact List.getD_eq_getElem _ _ hlt
    · rw [List.getElem_replicate]
      exact List.getD_eq_default _ _ (Nat.not_lt.mp hlt)

theorem slots_getD_length (l : List α) (d : α) : slots (fun i => l.getD i d) l.length = l := by
  rw [slots_getD (Nat.le_refl _), Nat.sub_self, List.replicate_zero, List.append_nil]

/-! ### Stores -/

/-- A store to a live slot replaces one element of the live part. -/
theorem slots_update (a : ℕ → α) (n i : ℕ) (x : α) :
    slots (Function.update a i x) n = (slots a n).set i x := by
  refine List.ext_getElem (by simp) fun j h₁ h₂ => ?_
  rw [getElem_slots, List.getElem_set, getElem_slots, Function.update_apply]
  simp only [eq_comm]

/-- A store to the first slot behind the live part, made live, appends. -/
theorem slots_update_succ (a : ℕ → α) (n : ℕ) (x : α) :
    slots (Function.update a n x) (n + 1) = slots a n ++ [x] := by
  rw [slots, List.range_succ, List.map_append, List.map_singleton, Function.update_self]
  congr 1
  refine List.map_congr_left fun i hi => Function.update_of_ne ?_ _ _
  have := List.mem_range.mp hi
  omega

/-! ### The search loop -/

/-- `for (i = start; i < start + n; i++) if (p(a[i])) return i;`, with `none` when the loop
ends. -/
def findSlot (p : α → Bool) (a : ℕ → α) : ℕ → ℕ → Option ℕ
  | _, 0 => none
  | i, n + 1 => if p (a i) then some i else findSlot p a (i + 1) n

private theorem findSlot_eq_map (p : α → Bool) (a : ℕ → α) (i n : ℕ) :
    findSlot p a i n = ((slots (fun j => a (i + j)) n).findIdx? p).map (i + ·) := by
  induction n generalizing i with
  | zero => rfl
  | succ n ih =>
    rw [findSlot, slots_offset_succ, List.findIdx?_cons, ih]
    by_cases h : p (a i) = true
    · simp [h]
    · simp only [h, Bool.false_eq_true, ↓reduceIte]
      rw [Option.map_map]
      congr 1
      funext j
      simp only [Function.comp_apply]
      omega

/-- The search loop finds the first element of the live part with the property. -/
theorem findSlot_eq (p : α → Bool) (a : ℕ → α) (n : ℕ) :
    findSlot p a 0 n = (slots a n).findIdx? p := by
  rw [findSlot_eq_map]
  simp

/-- Searching what a function makes of the slots. -/
theorem findSlot_map {β : Type*} (p : β → Bool) (f : α → β) (a : ℕ → α) (i n : ℕ) :
    findSlot p (fun j => f (a j)) i n = findSlot (fun x => p (f x)) a i n := by
  induction n generalizing i with
  | zero => rfl
  | succ n ih => rw [findSlot, findSlot, ih]

theorem findSlot_eq_none_iff {p : α → Bool} {a : ℕ → α} {n : ℕ} :
    findSlot p a 0 n = none ↔ ∀ i < n, p (a i) = false := by
  rw [findSlot_eq, List.findIdx?_eq_none_iff]
  simp [mem_slots]

theorem findSlot_eq_some_iff {p : α → Bool} {a : ℕ → α} {n i : ℕ} :
    findSlot p a 0 n = some i ↔ i < n ∧ p (a i) = true ∧ ∀ j < i, p (a j) = false := by
  rw [findSlot_eq, List.findIdx?_eq_some_iff_getElem]
  simp [and_left_comm]

/-- A slot that the search from `i` on stops at. -/
theorem of_findSlot_eq_some {p : α → Bool} {a : ℕ → α} {i j n : ℕ}
    (h : findSlot p a i n = some j) : i ≤ j ∧ j < i + n ∧ p (a j) = true := by
  rw [findSlot_eq_map] at h
  obtain ⟨k, hk, rfl⟩ := Option.map_eq_some_iff.mp h
  obtain ⟨hlt, hpk, -⟩ := List.findIdx?_eq_some_iff_getElem.mp hk
  rw [getElem_slots] at hpk
  rw [length_slots] at hlt
  exact ⟨Nat.le_add_right i k, Nat.add_lt_add_left hlt i, hpk⟩

/-- The search from slot `i` on stops at the first slot with the property. -/
theorem findSlot_of_first {p : α → Bool} {a : ℕ → α} {i j n : ℕ} (hij : i ≤ j) (hj : j < i + n)
    (hfirst : p (a j) = true) (hbefore : ∀ k, i ≤ k → k < j → p (a k) = false) :
    findSlot p a i n = some j := by
  induction n generalizing i with
  | zero => omega
  | succ n ih =>
    rw [findSlot]
    obtain rfl | hlt := Nat.eq_or_lt_of_le hij
    · rw [if_pos hfirst]
    · rw [if_neg (Bool.eq_false_iff.mp (hbefore i (Nat.le_refl i) hlt))]
      exact ih hlt (by omega) fun k hk => hbefore k (by omega)

/-- The search from slot `i` on comes to the end if no slot has the property. -/
theorem findSlot_of_forall {p : α → Bool} {a : ℕ → α} {i n : ℕ}
    (h : ∀ k, i ≤ k → k < i + n → p (a k) = false) : findSlot p a i n = none := by
  induction n generalizing i with
  | zero => rfl
  | succ n ih =>
    rw [findSlot, if_neg (Bool.eq_false_iff.mp (h i (Nat.le_refl i) (by omega)))]
    exact ih fun k hk hlt => h k (by omega) (by omega)

/-! ### Closing a gap -/

/-- `for (j = i; j < i + n; j++) a[j] = a[j + 1];`. -/
def shiftDown : (ℕ → α) → ℕ → ℕ → ℕ → α
  | a, _, 0 => a
  | a, i, n + 1 => shiftDown (Function.update a i (a (i + 1))) (i + 1) n

theorem shiftDown_apply (a : ℕ → α) (i n j : ℕ) :
    shiftDown a i n j = if i ≤ j ∧ j < i + n then a (j + 1) else a j := by
  induction n generalizing a i with
  | zero => simp only [shiftDown, Nat.add_zero]; split_ifs <;> first | omega | rfl
  | succ n ih =>
    rw [shiftDown, ih]
    -- the store to slot `i` is read by no later iteration
    have hne : Function.update a i (a (i + 1)) (j + 1) = a (j + 1) ∨ i = j + 1 := by
      by_cases h : i = j + 1
      · exact Or.inr h
      · exact Or.inl (Function.update_of_ne (fun h' => h h'.symm) _ _)
    by_cases hj : j = i
    · subst hj
      simp
    · rw [Function.update_of_ne hj]
      split_ifs with h₁ h₂ h₂
      · exact hne.resolve_right (by omega)
      · omega
      · omega
      · rfl

/-- Shifting the slots behind `i` down by one and giving up the last live slot removes the
element `i` of the live part. -/
theorem slots_shiftDown (a : ℕ → α) {i n : ℕ} (hi : i < n) :
    slots (shiftDown a i (n - 1 - i)) (n - 1) = (slots a n).eraseIdx i := by
  have hlen : ((slots a n).eraseIdx i).length = n - 1 := by
    rw [List.length_eraseIdx_of_lt (by simpa using hi), length_slots]
  refine List.ext_getElem (by simp [hlen]) fun j h₁ h₂ => ?_
  rw [length_slots] at h₁
  rw [getElem_slots, shiftDown_apply, List.getElem_eraseIdx]
  split_ifs with h h'
  · omega
  · rw [getElem_slots]
  · rw [getElem_slots]
  · omega

end LightFS.Library
