import Mathlib.Data.List.Basic
import Mathlib.Data.Int.ModEq
import Mathlib.Logic.Function.Basic

/-!
# Queues in a ring

A queue in an array whose end is followed by its start. The queue has no count: its entries are
those from the head up to the tail, and it is empty when both are at the same place, so a ring of
`cap` slots takes `cap - 1` entries. What is appended below that is behind the entries
(`entries_push`); one entry more, and the queue is empty (`length_push`).

## Main definitions

* `RingQueue`, `RingQueue.length`, `RingQueue.entries`, `RingQueue.push`.
-/

namespace LightFS.Library

variable {α : Type*} {cap : ℕ}

/-- An array of `cap` slots with the places of the first entry and behind the last one. -/
structure RingQueue (α : Type*) (cap : ℕ) where
  cells : Fin cap → α
  head : Fin cap
  tail : Fin cap

namespace RingQueue

variable (q : RingQueue α cap)

/-- The number of entries. -/
def length : ℕ := (q.tail + cap - q.head) % cap

/-- The slot that is `i` behind the head. -/
def slot (i : ℕ) : Fin cap := ⟨(q.head + i) % cap, Nat.mod_lt _ q.head.pos⟩

/-- The entries, from the head up to the tail. -/
def entries : List α := (List.range q.length).map fun i => q.cells (q.slot i)

/-- Store an entry at the tail and move the tail. -/
def push (x : α) : RingQueue α cap :=
  { q with
    cells := Function.update q.cells q.tail x
    tail := ⟨(q.tail + 1) % cap, Nat.mod_lt _ q.tail.pos⟩ }

@[simp] theorem length_entries : q.entries.length = q.length := by
  rw [entries, List.length_map, List.length_range]

theorem length_eq_zero (h : q.head = q.tail) : q.length = 0 := by
  rw [length, h, Nat.add_sub_cancel_left, Nat.mod_self]

theorem entries_eq_nil (h : q.head = q.tail) : q.entries = [] :=
  List.eq_nil_of_length_eq_zero (q.length_entries.trans (q.length_eq_zero h))

/-- The tail is as far behind the head as there are entries. -/
theorem slot_length : q.slot q.length = q.tail := by
  have hhead := q.head.isLt
  have htail := q.tail.isLt
  have hsum : (q.head : ℕ) + (q.tail + cap - q.head) = q.tail + cap := by omega
  have hplace : ((q.head : ℕ) + (q.tail + cap - q.head) % cap) % cap = q.tail := by
    rw [Nat.add_mod_mod, hsum, Nat.add_mod_right, Nat.mod_eq_of_lt htail]
  exact Fin.ext hplace

/-- Slots that are less than a turn apart are different. -/
theorem slot_ne {i j : ℕ} (hij : i < j) (hj : j < cap) : q.slot i ≠ q.slot j := by
  intro heq
  have hmod : (q.head + i) % cap = (q.head + j) % cap := congrArg Fin.val heq
  have hdvd : cap ∣ q.head + j - (q.head + i) := (Nat.modEq_iff_dvd' (by omega)).mp hmod
  have hle := Nat.le_of_dvd (by omega) hdvd
  omega

theorem length_lt : q.length < cap := Nat.mod_lt _ q.head.pos

variable {q}

/-- The tail moves by one, and a queue that gets full is empty. -/
theorem length_push (x : α) : (q.push x).length = (q.length + 1) % cap := by
  have hhead := q.head.isLt
  have htail : (q.tail : ℕ) = (q.head + q.length) % cap := congrArg Fin.val q.slot_length.symm
  have hnext : ((q.tail : ℕ) + 1) % cap = (q.head + (q.length + 1)) % cap := by
    rw [htail, Nat.mod_add_mod, Nat.add_assoc]
  have hmod : ((q.head + (q.length + 1)) % cap + (cap - q.head)) % cap = (q.length + 1) % cap := by
    have hsum : (q.head : ℕ) + (q.length + 1) + (cap - q.head) = q.length + 1 + cap := by omega
    rw [Nat.mod_add_mod, hsum, Nat.add_mod_right]
  have hlength : (q.push x).length = (((q.tail : ℕ) + 1) % cap + cap - q.head) % cap := rfl
  rw [hlength, hnext, Nat.add_sub_assoc (Nat.le_of_lt hhead), hmod]

/-- An entry is appended behind the others. -/
theorem entries_push (h : q.length + 1 < cap) (x : α) : (q.push x).entries = q.entries ++ [x] := by
  rw [entries, length_push, Nat.mod_eq_of_lt h, List.range_succ, List.map_append,
    List.map_singleton]
  congr 1
  · refine List.map_congr_left fun i hi => ?_
    have hne : q.slot i ≠ q.tail := by
      rw [← q.slot_length]
      exact q.slot_ne (List.mem_range.mp hi) (by omega)
    exact Function.update_of_ne hne _ _
  · have hslot : (q.push x).slot q.length = q.tail := q.slot_length
    rw [hslot]
    exact congrArg ([·]) (Function.update_self _ _ _)

/-- Whether there is room or not, no other entry appears. -/
theorem mem_entries_push {x y : α} (hy : y ∈ (q.push x).entries) : y ∈ q.entries ∨ y = x := by
  obtain hroom | hfull := Nat.lt_or_ge (q.length + 1) cap
  · rw [entries_push hroom, List.mem_append, List.mem_singleton] at hy
    exact hy
  · have hcap : q.length + 1 = cap := Nat.le_antisymm q.length_lt hfull
    rw [entries, length_push, hcap, Nat.mod_self] at hy
    exact absurd hy List.not_mem_nil

end RingQueue

end LightFS.Library
