import Mathlib.Algebra.BigOperators.Group.Finset.Basic
import Mathlib.Algebra.GroupWithZero.Nat
import Mathlib.Data.List.Basic
import Mathlib.Data.List.Nodup
import Mathlib.Data.List.Range

/-!
# Handing out numbered pieces

Pieces `first`, `first + 1`, … are handed out one after the other. Who gets them is a list of
takers: its element `i` is the taker of the piece `first + i`. What one taker has is then the list
of the positions at which it occurs (`handed`), and each piece is with one taker only
(`handed_unique`).

A taker that wants several pieces occurs several times (`portions`). When there are only `r` pieces,
the takers in line get the first `r` of their portions, and one of them is left with nothing unless
there are more pieces than those in front of it want (`mem_take_portions_iff`).

## Main definitions

* `handed`, `portions`.
-/

namespace LightFS.Library

variable {κ : Type*} [DecidableEq κ]

/-- The pieces of the taker `k` when pieces from `first` on are handed out to `takers`. -/
def handed (first : ℕ) (takers : List κ) (k : κ) : List ℕ :=
  ((takers.zipIdx first).filter fun p => p.1 = k).map Prod.snd

/-- The next piece goes to the next taker. -/
theorem handed_concat (first : ℕ) (takers : List κ) (k k' : κ) :
    handed first (takers ++ [k']) k =
      handed first takers k ++ if k' = k then [first + takers.length] else [] := by
  rw [handed, List.zipIdx_append, List.filter_append, List.map_append]
  congr 1
  by_cases h : k' = k
  · simp [h]
  · simp [h]

theorem length_handed [BEq κ] [LawfulBEq κ] (first : ℕ) (takers : List κ) (k : κ) :
    (handed first takers k).length = takers.count k := by
  induction takers generalizing first with
  | nil => rfl
  | cons k' takers ih =>
    rw [handed, List.zipIdx_cons, List.filter_cons, List.count_cons, ← ih (first + 1)]
    by_cases h : k' = k
    · simp [h, handed]
    · simp [h, handed]

theorem mem_handed {first : ℕ} {takers : List κ} {k : κ} {id : ℕ} :
    id ∈ handed first takers k ↔ first ≤ id ∧ takers[id - first]? = some k := by
  rw [handed, List.mem_map]
  constructor
  · rintro ⟨⟨k', id'⟩, hmem, rfl⟩
    obtain ⟨hmem, hk⟩ := List.mem_filter.mp hmem
    have hat := List.mk_mem_zipIdx_iff_le_and_getElem?_sub.mp hmem
    rw [← of_decide_eq_true hk]
    exact hat
  · intro hat
    refine ⟨(k, id), List.mem_filter.mpr ⟨?_, decide_eq_true rfl⟩, rfl⟩
    exact List.mk_mem_zipIdx_iff_le_and_getElem?_sub.mpr hat

theorem nodup_handed (first : ℕ) (takers : List κ) (k : κ) : (handed first takers k).Nodup := by
  have hsub : List.Sublist (handed first takers k) ((takers.zipIdx first).map Prod.snd) :=
    List.Sublist.map _ List.filter_sublist
  rw [List.zipIdx_map_snd] at hsub
  exact List.Nodup.sublist hsub List.nodup_range'

/-- Each piece is with one taker, and there only once. -/
theorem handed_unique {first : ℕ} {takers : List κ} {k k' : κ} {i i' id : ℕ}
    (h : (handed first takers k)[i]? = some id) (h' : (handed first takers k')[i']? = some id) :
    k = k' ∧ i = i' := by
  have hk := (mem_handed.mp (List.mem_of_getElem? h)).2
  have hk' := (mem_handed.mp (List.mem_of_getElem? h')).2
  obtain rfl : k = k' := Option.some.inj (hk.symm.trans hk')
  obtain ⟨hi, hid⟩ := List.getElem?_eq_some_iff.mp h
  obtain ⟨hi', hid'⟩ := List.getElem?_eq_some_iff.mp h'
  exact ⟨rfl, (List.Nodup.getElem_inj_iff (nodup_handed first takers k)).mp (hid.trans hid'.symm)⟩

/-- What all takers have is what was handed out. -/
theorem sum_length_handed (first : ℕ) {takers : List κ} {all : Finset κ}
    (h : ∀ k ∈ takers, k ∈ all) :
    ∑ k ∈ all, (handed first takers k).length = takers.length := by
  simp only [length_handed, ← Multiset.coe_count]
  exact Multiset.sum_count_eq_card fun k hk => h k (Multiset.mem_coe.mp hk)

/-! ### Portions -/

section Portions

omit [DecidableEq κ]

variable (want : κ → ℕ)

/-- Each taker as often as the pieces it wants. -/
def portions (takers : List κ) : List κ :=
  takers.flatMap fun k => List.replicate (want k) k

@[simp] theorem portions_nil : portions want [] = [] := rfl

@[simp] theorem portions_cons (k : κ) (takers : List κ) :
    portions want (k :: takers) = List.replicate (want k) k ++ portions want takers :=
  List.flatMap_cons

theorem portions_append (takers takers' : List κ) :
    portions want (takers ++ takers') = portions want takers ++ portions want takers' :=
  List.flatMap_append

theorem length_portions (takers : List κ) :
    (portions want takers).length = (takers.map want).sum := by
  simp [portions, List.length_flatMap]

theorem mem_portions {takers : List κ} {k : κ} :
    k ∈ portions want takers ↔ k ∈ takers ∧ 0 < want k := by
  rw [portions, List.mem_flatMap]
  constructor
  · rintro ⟨k', hmem, hk⟩
    obtain ⟨hne, rfl⟩ := List.mem_replicate.mp hk
    exact ⟨hmem, Nat.pos_of_ne_zero hne⟩
  · rintro ⟨hmem, hpos⟩
    exact ⟨k, hmem, List.mem_replicate.mpr ⟨Nat.ne_of_gt hpos, rfl⟩⟩

variable {want}

/-- A taker gets something if there are more pieces than those in front of it want. -/
theorem mem_take_portions_iff (r : ℕ) {before : List κ} (after : List κ) {k : κ}
    (hwant : 0 < want k) (hk : k ∉ before) :
    k ∈ (portions want (before ++ k :: after)).take r ↔ (before.map want).sum < r := by
  rw [portions_append, portions_cons, List.take_append, List.take_append, ← length_portions]
  have hfront : k ∉ (portions want before).take r := fun h =>
    hk ((mem_portions want).mp (List.mem_of_mem_take h)).1
  constructor
  · intro h
    by_contra hle
    rw [Nat.sub_eq_zero_of_le (Nat.not_lt.mp hle)] at h
    simp [hfront] at h
  · intro h
    refine List.mem_append_right _ (List.mem_append_left _ ?_)
    rw [List.take_replicate, List.mem_replicate]
    exact ⟨by omega, rfl⟩

/-- Those in front get something when their portions are there. -/
theorem mem_take_portions {before after : List κ} {k : κ} {r : ℕ} (hwant : 0 < want k)
    (hk : k ∈ before) (hr : (before.map want).sum ≤ r) :
    k ∈ (portions want (before ++ after)).take r := by
  rw [portions_append, List.take_append,
    List.take_of_length_le (by rwa [length_portions])]
  exact List.mem_append_left _ ((mem_portions want).mpr ⟨hk, hwant⟩)

end Portions

end LightFS.Library
