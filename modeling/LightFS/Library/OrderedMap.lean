import Mathlib.Data.List.Nodup
import Mathlib.Data.List.Pairwise

/-!
# Insertion-ordered maps

A finite map kept as a list of records, each record carrying its key (`key : α → κ`), in the
order in which the keys were first inserted. `upsert` replaces the record of a key in place and
appends a new key, `eraseKey` removes the record of a key and keeps the order of the others,
`lookupKey` returns the record of a key. The invariant is that no two records have the same key
(`KeysNodup`).

`overlay` upserts the records of one map into another, one after the other; `overlay_eq` gives
its result in one piece: the old records in their order, each replaced when its key is
overlaid, and behind them the records with new keys in their own order.

## Main results

* `lookupKey_upsert`, `lookupKey_eraseKey`.
* `overlay_eq`.
-/

namespace LightFS.Library

variable {α κ : Type*} [DecidableEq κ] (key : α → κ)

/-- Replace the record with the key of `x` in place, or append `x`. -/
def upsert (x : α) : List α → List α
  | [] => [x]
  | y :: l => if key y = key x then x :: l else y :: upsert x l

/-- The record with a given key. -/
def lookupKey (k : κ) (l : List α) : Option α := l.find? fun y => decide (key y = k)

/-- Remove the record with a given key. -/
def eraseKey (k : κ) (l : List α) : List α := l.eraseP fun y => decide (key y = k)

/-- No two records have the same key. -/
def KeysNodup (l : List α) : Prop := (l.map key).Nodup

/-- Upsert the records of `l'` into `l`, in the order of `l'`. -/
def overlay (l l' : List α) : List α := l'.foldl (fun l x => upsert key x l) l

variable {key} {l l' : List α} {x : α} {k : κ}

omit [DecidableEq κ] in
theorem keysNodup_nil : KeysNodup key ([] : List α) := List.nodup_nil

omit [DecidableEq κ] in
theorem KeysNodup.eq_of_key_eq (hl : KeysNodup key l) {y : α} (hx : x ∈ l) (hy : y ∈ l)
    (h : key x = key y) : x = y := List.inj_on_of_nodup_map hl hx hy h

/-- The records after an upsert. -/
theorem eq_or_mem_of_mem_upsert {y : α} (h : y ∈ upsert key x l) : y = x ∨ y ∈ l := by
  induction l with
  | nil => exact .inl (List.mem_singleton.mp h)
  | cons z l ih =>
    rw [upsert] at h
    split_ifs at h
    · exact (List.mem_cons.mp h).imp_right (List.mem_cons_of_mem z)
    · rcases List.mem_cons.mp h with rfl | h
      · exact .inr List.mem_cons_self
      · exact (ih h).imp_right (List.mem_cons_of_mem z)

/-! ### The index of a key -/

/-- Upserting a key found at index `i` stores to index `i`. -/
theorem upsert_of_findIdx?_eq_some {i : ℕ}
    (h : l.findIdx? (fun y => decide (key y = key x)) = some i) : upsert key x l = l.set i x := by
  induction l generalizing i with
  | nil => simp at h
  | cons y l ih =>
    rw [List.findIdx?_cons] at h
    by_cases hy : key y = key x
    · simp only [hy, decide_true, ↓reduceIte, Option.some.injEq] at h
      simp [upsert, hy, ← h]
    · simp only [hy, decide_false, Bool.false_eq_true, ↓reduceIte, Option.map_eq_some_iff] at h
      obtain ⟨j, hj, rfl⟩ := h
      simp [upsert, hy, ih hj]

theorem upsert_of_notMem (h : key x ∉ l.map key) : upsert key x l = l ++ [x] := by
  induction l with
  | nil => rfl
  | cons y l ih =>
    simp only [List.map_cons, List.mem_cons, not_or] at h
    simp [upsert, Ne.symm h.1, ih h.2]

theorem notMem_keys_iff_findIdx?_eq_none :
    k ∉ l.map key ↔ l.findIdx? (fun y => decide (key y = k)) = none := by
  simp [List.findIdx?_eq_none_iff]

theorem eraseKey_of_findIdx?_eq_some {i : ℕ}
    (h : l.findIdx? (fun y => decide (key y = k)) = some i) : eraseKey key k l = l.eraseIdx i := by
  rw [eraseKey, List.eraseP_eq_eraseIdx, h]

theorem lookupKey_of_findIdx?_eq_some {i : ℕ}
    (h : l.findIdx? (fun y => decide (key y = k)) = some i) : lookupKey key k l = l[i]? := by
  obtain ⟨hi, hk, hlt⟩ := List.findIdx?_eq_some_iff_getElem.mp h
  rw [lookupKey, List.getElem?_eq_getElem hi, List.find?_eq_some_iff_getElem]
  exact ⟨hk, i, hi, rfl, fun j hj => by simpa using hlt j hj⟩

theorem lookupKey_eq_none_iff : lookupKey key k l = none ↔ k ∉ l.map key := by
  simp [lookupKey]

theorem lookupKey_eq_some_iff (hl : KeysNodup key l) :
    lookupKey key k l = some x ↔ x ∈ l ∧ key x = k := by
  constructor
  · intro h
    exact ⟨List.mem_of_find?_eq_some h, by simpa using List.find?_some h⟩
  · rintro ⟨hx, rfl⟩
    cases h : lookupKey key (key x) l with
    | none => exact absurd (List.mem_map_of_mem hx) (lookupKey_eq_none_iff.mp h)
    | some y =>
      have hy : key y = key x := by simpa using List.find?_some h
      rw [hl.eq_of_key_eq (List.mem_of_find?_eq_some h) hx hy]

/-! ### Keys -/

theorem map_key_upsert_of_mem (h : key x ∈ l.map key) : (upsert key x l).map key = l.map key := by
  induction l with
  | nil => simp at h
  | cons y l ih =>
    by_cases hy : key y = key x
    · simp [upsert, hy]
    · have hl : key x ∈ l.map key := by simpa [Ne.symm hy] using h
      rw [upsert, if_neg hy, List.map_cons, ih hl, List.map_cons]

theorem KeysNodup.upsert (hl : KeysNodup key l) : KeysNodup key (upsert key x l) := by
  by_cases h : key x ∈ l.map key
  · rw [KeysNodup, map_key_upsert_of_mem h]
    exact hl
  · rw [KeysNodup, upsert_of_notMem h, List.map_append]
    exact List.nodup_append'.mpr ⟨hl, by simp, by simpa using h⟩

/-- What is erased is the first record with the key. -/
theorem perm_eraseKey (h : k ∈ l.map key) :
    ((eraseKey key k l).map key ++ [k]).Perm (l.map key) := by
  obtain ⟨x, hx, rfl⟩ := List.mem_map.mp h
  obtain ⟨y, l₁, l₂, -, hy, hl, herase⟩ :=
    List.exists_of_eraseP (p := fun y => decide (key y = key x)) hx (decide_eq_true rfl)
  rw [eraseKey, herase, hl, List.map_append, List.map_append, List.map_cons,
    ← of_decide_eq_true hy, List.append_assoc]
  exact List.Perm.append_left _ (List.perm_append_singleton _ _)

theorem KeysNodup.eraseKey (hl : KeysNodup key l) : KeysNodup key (eraseKey key k l) :=
  hl.sublist (List.eraseP_sublist.map key)

/-! ### Lookups after updates -/

theorem lookupKey_upsert :
    lookupKey key k (upsert key x l) = if k = key x then some x else lookupKey key k l := by
  induction l with
  | nil => simp [upsert, lookupKey, eq_comm]
  | cons y l ih =>
    unfold lookupKey at ih ⊢
    by_cases hy : key y = key x
    · rw [upsert, if_pos hy, List.find?_cons, List.find?_cons, hy]
      by_cases hk : key x = k
      · simp [hk]
      · simp [hk, Ne.symm hk]
    · rw [upsert, if_neg hy, List.find?_cons, List.find?_cons, ih]
      by_cases hk : key y = k
      · have : k ≠ key x := fun h => hy (hk.trans h)
        simp [hk, this]
      · simp [hk]

theorem lookupKey_eraseKey (hl : KeysNodup key l) {k' : κ} :
    lookupKey key k' (eraseKey key k l) = if k' = k then none else lookupKey key k' l := by
  induction l with
  | nil => simp [eraseKey, lookupKey]
  | cons y l ih =>
    have hl' : KeysNodup key l := (List.nodup_cons.mp hl).2
    have hy : key y ∉ l.map key := (List.nodup_cons.mp hl).1
    unfold eraseKey
    rw [List.eraseP_cons]
    by_cases hk : key y = k
    · simp only [hk, decide_true, cond_true]
      split_ifs with h
      · rw [h, ← hk]
        exact lookupKey_eq_none_iff.mpr hy
      · rw [lookupKey, lookupKey, List.find?_cons]
        simp [hk, Ne.symm h]
    · simp only [hk, decide_false, cond_false]
      have ih := ih hl'
      unfold lookupKey at ih ⊢
      rw [List.find?_cons, List.find?_cons, ← eraseKey, ih]
      by_cases hk' : key y = k'
      · have : k' ≠ k := fun h => hk (hk'.trans h)
        simp [hk', this]
      · simp [hk']

/-! ### Overlays -/

@[simp] theorem overlay_nil : overlay key l [] = l := rfl

@[simp] theorem overlay_cons : overlay key l (x :: l') = overlay key (upsert key x l) l' := rfl

theorem KeysNodup.overlay (hl : KeysNodup key l) : KeysNodup key (overlay key l l') := by
  induction l' generalizing l with
  | nil => exact hl
  | cons x l' ih => exact ih hl.upsert

/-- In a map with distinct keys, upserting a present key rewrites its record and no other. -/
private theorem upsert_eq_map (hl : KeysNodup key l) (h : key x ∈ l.map key) :
    upsert key x l = l.map fun y => if key y = key x then x else y := by
  induction l with
  | nil => simp at h
  | cons y l ih =>
    have hl' : KeysNodup key l := (List.nodup_cons.mp hl).2
    have hy : key y ∉ l.map key := (List.nodup_cons.mp hl).1
    by_cases hyx : key y = key x
    · have hid : l.map (fun z => if key z = key x then x else z) = l := by
        refine (List.map_congr_left fun z hz => if_neg fun hzx => hy ?_).trans l.map_id'
        exact hyx ▸ hzx ▸ List.mem_map_of_mem hz
      simp [upsert, hyx, hid]
    · have hx : key x ∈ l.map key := by simpa [Ne.symm hyx] using h
      simp [upsert, hyx, ih hl' hx]

/-- **The overlay in one piece.** The old records keep their order, each replaced when its key
is overlaid; the records with new keys follow in their own order. -/
theorem overlay_eq (hl : KeysNodup key l) (hl' : KeysNodup key l') :
    overlay key l l' = (l.map fun y => (lookupKey key (key y) l').getD y) ++
      l'.filter fun x => key x ∉ l.map key := by
  induction l' generalizing l with
  | nil => simp [lookupKey]
  | cons x l' ih =>
    have hnodup : KeysNodup key l' := (List.nodup_cons.mp hl').2
    have hx : key x ∉ l'.map key := (List.nodup_cons.mp hl').1
    have hlook : lookupKey key (key x) l' = none := lookupKey_eq_none_iff.mpr hx
    have hcons (k : κ) : lookupKey key k (x :: l') =
        if key x = k then some x else lookupKey key k l' := by
      simp only [lookupKey, List.find?_cons]
      split <;> simp_all
    rw [overlay_cons, ih hl.upsert hnodup]
    by_cases h : key x ∈ l.map key
    · -- a present key: its record is rewritten now and by no later upsert
      rw [map_key_upsert_of_mem h, upsert_eq_map hl h, List.map_map,
        List.filter_cons_of_neg (by simpa using h)]
      congr 1
      refine List.map_congr_left fun y _ => ?_
      simp only [Function.comp_apply, hcons]
      by_cases hy : key y = key x
      · simp [hy, hlook]
      · simp [hy, Ne.symm hy]
    · -- a new key: its record is appended, and no later upsert has its key
      rw [upsert_of_notMem h, List.map_append, List.map_singleton, hlook, List.append_assoc,
        List.filter_cons_of_pos (by simpa using h)]
      congr 1
      · refine List.map_congr_left fun y hy => ?_
        have hyx : key x ≠ key y := fun e => h (e ▸ List.mem_map_of_mem hy)
        rw [hcons, if_neg hyx]
      · rw [Option.getD_none, List.singleton_append]
        congr 1
        refine List.filter_congr fun z hz => ?_
        have hzx : key z ≠ key x := fun e => hx (e ▸ List.mem_map_of_mem hz)
        simp [hzx]

theorem mem_overlay_of_mem (hl : KeysNodup key l) (hl' : KeysNodup key l') (hx : x ∈ l') :
    x ∈ overlay key l l' := by
  rw [overlay_eq hl hl', List.mem_append]
  by_cases h : key x ∈ l.map key
  · obtain ⟨y, hy, hyx⟩ := List.mem_map.mp h
    refine Or.inl (List.mem_map.mpr ⟨y, hy, ?_⟩)
    rw [hyx, (lookupKey_eq_some_iff hl').mpr ⟨hx, rfl⟩, Option.getD_some]
  · exact Or.inr (List.mem_filter.mpr ⟨hx, by simpa using h⟩)

end LightFS.Library
