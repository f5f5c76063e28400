import Mathlib.Data.Fintype.Pigeonhole
import Mathlib.Data.Nat.ModEq
import LightFS.Library.SlotArray

/-!
# Linear probing without tombstones

An open-addressing table over `capacity` slots: a key is looked for at its home slot and the
slots behind it, cyclically. In the variant described here

* lookup and erase stop at the first empty slot;
* erase empties the slot it finds, leaving a hole and no mark;
* insert first looks for the key in all slots, past holes, and otherwise uses the first empty
  slot, after emptying slot `0` when the table is full.

Whether a stored key is found depends on the slots in front of it being occupied: its chain has
to be intact (`ProbeTable.Intact`). Erase removes a key exactly when its chain is intact, and a
key that erase missed is found again once the holes have been filled by other keys.

## Main definitions

* `ProbeTable`, `ProbeTable.lookup`, `ProbeTable.insert`, `ProbeTable.erase`.
* `ProbeTable.Distinct`, `ProbeTable.Absent`, `ProbeTable.Intact`.

## Main results

* `ProbeTable.lookup_insert_iff` — what was just inserted is found exactly when its chain was
  intact.
* `ProbeTable.absent_erase_of_intact`, `ProbeTable.erase_eq_self_of_not_intact`.
* `ProbeTable.exists_inserts_full` — fresh keys fill all holes and move nothing.
* `ProbeTable.Agrees.insert`, `ProbeTable.Agrees.lookup` — a key has the value last inserted.
* `ProbeTable.absent_insert_of_full_iff` — what a new key removes from a full table.
-/

namespace LightFS.Library

/-- A table of `capacity` slots, each empty or holding a key and a value. -/
structure ProbeTable (κ ν : Type*) where
  slot : ℕ → Option (κ × ν)
  capacity : ℕ

namespace ProbeTable

variable {κ ν : Type*}

/-- Store to one slot. -/
def set (t : ProbeTable κ ν) (p : ℕ) (x : Option (κ × ν)) : ProbeTable κ ν :=
  { t with slot := Function.update t.slot p x }

@[simp] theorem capacity_set (t : ProbeTable κ ν) (p : ℕ) (x : Option (κ × ν)) :
    (t.set p x).capacity = t.capacity := rfl

theorem slot_set (t : ProbeTable κ ν) (p q : ℕ) (x : Option (κ × ν)) :
    (t.set p x).slot q = if q = p then x else t.slot q :=
  Function.update_apply t.slot p x q

theorem set_eq_self {t : ProbeTable κ ν} {p : ℕ} {x : Option (κ × ν)} (h : t.slot p = x) :
    t.set p x = t := by
  rw [set, ← h, Function.update_eq_self]

/-- The slot the probe number `i` of a search from slot `start` looks at. -/
def probe (t : ProbeTable κ ν) (start i : ℕ) : ℕ := (start + i) % t.capacity

/-- What the probe number `i` sees. -/
def entry (t : ProbeTable κ ν) (start i : ℕ) : Option (κ × ν) := t.slot (t.probe start i)

variable [DecidableEq κ] (home : κ → ℕ)

/-- The slot holds the key. -/
def holdsKey (k : κ) (x : Option (κ × ν)) : Bool := x.any fun e => decide (e.1 = k)

/-- A search for the key ends here: the slot is empty or holds the key. -/
def stopsAt (k : κ) (x : Option (κ × ν)) : Bool := x.all fun e => decide (e.1 = k)

/-- Look for the key from its home slot on, up to the first empty slot. -/
def lookup (t : ProbeTable κ ν) (k : κ) : Option ν :=
  match findSlot (stopsAt k) (t.entry (home k)) 0 t.capacity with
  | none => none
  | some i => (t.entry (home k) i).map Prod.snd

/-- Empty the slot a lookup of the key finds. -/
def erase (t : ProbeTable κ ν) (k : κ) : ProbeTable κ ν :=
  match findSlot (stopsAt k) (t.entry (home k)) 0 t.capacity with
  | none => t
  | some i => t.set (t.probe (home k) i) none

/-- Make room: when no slot is empty, empty slot `0`. -/
def makeRoom (t : ProbeTable κ ν) : ProbeTable κ ν :=
  match findSlot Option.isNone t.slot 0 t.capacity with
  | none => t.set 0 none
  | some _ => t

/-- Store to the first empty slot from the home slot of the key on. -/
def place (t : ProbeTable κ ν) (k : κ) (v : ν) : ProbeTable κ ν :=
  match findSlot Option.isNone (t.entry (home k)) 0 t.capacity with
  | none => t
  | some i => t.set (t.probe (home k) i) (some (k, v))

/-- Replace the value of the key, wherever it is, or place the key. -/
def insert (t : ProbeTable κ ν) (k : κ) (v : ν) : ProbeTable κ ν :=
  match findSlot (holdsKey k) (t.entry (home k)) 0 t.capacity with
  | some i => t.set (t.probe (home k) i) (some (k, v))
  | none => t.makeRoom.place home k v

/-! ### Probing visits every slot once -/

section Probe

variable {t : ProbeTable κ ν} {start i j p : ℕ}

omit [DecidableEq κ] in
theorem probe_lt (hcap : 0 < t.capacity) : t.probe start i < t.capacity := Nat.mod_lt _ hcap

omit [DecidableEq κ] in
theorem probe_inj (hi : i < t.capacity) (hj : j < t.capacity)
    (h : t.probe start i = t.probe start j) : i = j := by
  have hmod : start + i ≡ start + j [MOD t.capacity] := h
  exact Nat.ModEq.eq_of_lt_of_lt (Nat.ModEq.add_left_cancel' start hmod) hi hj

omit [DecidableEq κ] in
theorem exists_probe_eq (start : ℕ) (hp : p < t.capacity) :
    ∃ i < t.capacity, t.probe start i = p := by
  have hcap : 0 < t.capacity := by omega
  have hlt : start % t.capacity < t.capacity := Nat.mod_lt _ hcap
  refine ⟨(p + (t.capacity - start % t.capacity)) % t.capacity, Nat.mod_lt _ hcap, ?_⟩
  have hsum : start + (p + (t.capacity - start % t.capacity)) =
      p + t.capacity * (start / t.capacity + 1) := by
    have := Nat.div_add_mod start t.capacity
    rw [Nat.mul_add, Nat.mul_one]
    omega
  rw [probe, Nat.add_mod_mod, hsum, Nat.add_mul_mod_self_left, Nat.mod_eq_of_lt hp]

end Probe

/-! ### Invariant, absence and chains -/

/-- No key is held twice. -/
def Distinct (t : ProbeTable κ ν) : Prop :=
  ∀ p < t.capacity, ∀ q < t.capacity, ∀ e e' : κ × ν,
    t.slot p = some e → t.slot q = some e' → e.1 = e'.1 → p = q

/-- No slot holds the key. -/
def Absent (t : ProbeTable κ ν) (k : κ) : Prop :=
  ∀ p < t.capacity, ∀ v, t.slot p ≠ some (k, v)

/-- The chain of the key is intact: no empty slot stands between the home slot of the key and a
slot that holds it. -/
def Intact (t : ProbeTable κ ν) (k : κ) : Prop :=
  ∀ i < t.capacity, ∀ v, t.entry (home k) i = some (k, v) →
    ∀ j < i, t.entry (home k) j ≠ none

section Facts

variable {home} {t : ProbeTable κ ν} {k : κ} {v : ν} {i p : ℕ}

theorem holdsKey_eq_true_iff {x : Option (κ × ν)} : holdsKey k x = true ↔ ∃ v, x = some (k, v) := by
  cases x with
  | none => simp [holdsKey]
  | some e =>
    obtain ⟨k', v⟩ := e
    simp [holdsKey]

theorem stopsAt_eq_true_iff {x : Option (κ × ν)} :
    stopsAt k x = true ↔ x = none ∨ ∃ v, x = some (k, v) := by
  cases x with
  | none => simp [stopsAt]
  | some e =>
    obtain ⟨k', v⟩ := e
    simp [stopsAt]

theorem stopsAt_eq_false_iff {x : Option (κ × ν)} :
    stopsAt k x = false ↔ x ≠ none ∧ ∀ v, x ≠ some (k, v) := by
  rw [← Bool.not_eq_true, stopsAt_eq_true_iff, not_or, not_exists]

omit [DecidableEq κ] in
theorem entry_ne_of_absent (hcap : 0 < t.capacity) (h : t.Absent k) (start i : ℕ) (v : ν) :
    t.entry start i ≠ some (k, v) :=
  h _ (probe_lt hcap) v

omit [DecidableEq κ] in
/-- A key that is not absent is seen by some probe from its home slot. -/
theorem exists_entry_of_not_absent (home : κ → ℕ) (h : ¬ t.Absent k) :
    ∃ i < t.capacity, ∃ v, t.entry (home k) i = some (k, v) := by
  simp only [Absent, not_forall, not_not] at h
  obtain ⟨p, hp, v, hv⟩ := h
  obtain ⟨i, hi, rfl⟩ := exists_probe_eq (home k) hp
  exact ⟨i, hi, v, hv⟩

omit [DecidableEq κ] in
/-- In a table without doubles the key is seen by one probe only. -/
theorem Distinct.entry_inj (hd : t.Distinct) {start j : ℕ} {v' : ν} (hi : i < t.capacity)
    (hj : j < t.capacity) (hv : t.entry start i = some (k, v))
    (hv' : t.entry start j = some (k, v')) : i = j := by
  have hcap : 0 < t.capacity := by omega
  exact probe_inj hi hj (hd _ (probe_lt hcap) _ (probe_lt hcap) _ _ hv hv' rfl)

/-! ### Lookup -/

/-- A lookup returns the value of the first slot that holds the key, when no slot in front of it
is empty. -/
theorem lookup_eq_some_iff (hd : t.Distinct) :
    t.lookup home k = some v ↔ ∃ i < t.capacity, t.entry (home k) i = some (k, v) ∧
      ∀ j < i, t.entry (home k) j ≠ none := by
  rw [lookup]
  constructor
  · intro h
    cases hfind : findSlot (stopsAt k) (t.entry (home k)) 0 t.capacity with
    | none => simp [hfind] at h
    | some i =>
      simp only [hfind] at h
      obtain ⟨hi, hstop, hbefore⟩ := findSlot_eq_some_iff.mp hfind
      obtain ⟨e, he, rfl⟩ := Option.map_eq_some_iff.mp h
      rcases stopsAt_eq_true_iff.mp hstop with hnone | ⟨v, hv⟩
      · simp [he] at hnone
      · obtain rfl : e = (k, v) := Option.some.inj (he.symm.trans hv)
        exact ⟨i, hi, he, fun j hj => (stopsAt_eq_false_iff.mp (hbefore j hj)).1⟩
  · rintro ⟨i, hi, hv, hbefore⟩
    have hfind : findSlot (stopsAt k) (t.entry (home k)) 0 t.capacity = some i := by
      refine findSlot_eq_some_iff.mpr ⟨hi, stopsAt_eq_true_iff.mpr (.inr ⟨v, hv⟩), fun j hj => ?_⟩
      refine stopsAt_eq_false_iff.mpr ⟨hbefore j hj, fun v' hv' => ?_⟩
      exact hj.ne' (hd.entry_inj hi (hj.trans hi) hv hv')
    simp only [hfind, hv, Option.map_some]

theorem lookup_eq_none_of_absent (hcap : 0 < t.capacity) (hd : t.Distinct) (h : t.Absent k) :
    t.lookup home k = none := by
  refine Option.eq_none_iff_forall_not_mem.mpr fun v hv => ?_
  obtain ⟨i, -, hi, -⟩ := (lookup_eq_some_iff hd).mp hv
  exact entry_ne_of_absent hcap h _ i v hi

/-! ### Stores -/

omit [DecidableEq κ] in
theorem entry_set_of_ne {start j : ℕ} (x : Option (κ × ν)) (hi : i < t.capacity)
    (hj : j < t.capacity) (hij : j ≠ i) :
    (t.set (t.probe start i) x).entry start j = t.entry start j := by
  have hne : t.probe start j ≠ t.probe start i := fun h => hij (probe_inj hj hi h)
  exact (slot_set ..).trans (if_neg hne)

omit [DecidableEq κ] in
theorem entry_set_self (start i : ℕ) (x : Option (κ × ν)) :
    (t.set (t.probe start i) x).entry start i = x :=
  (slot_set ..).trans (if_pos rfl)

omit [DecidableEq κ] in
theorem Distinct.set_none (hd : t.Distinct) (p : ℕ) : (t.set p none).Distinct := by
  intro q hq r hr e e' he he'
  rw [slot_set] at he he'
  split_ifs at he he'
  exact hd q hq r hr e e' he he'

omit [DecidableEq κ] in
/-- Storing a key keeps keys distinct when no other slot holds it. -/
theorem Distinct.set_some (hd : t.Distinct)
    (h : ∀ q < t.capacity, q ≠ p → ∀ v', t.slot q ≠ some (k, v')) :
    (t.set p (some (k, v))).Distinct := by
  rintro q hq r hr ⟨k₁, v₁⟩ ⟨k₂, v₂⟩ he he' (rfl : k₁ = k₂)
  rw [slot_set] at he he'
  split_ifs at he he' with h₁ h₂ h₂
  · rw [h₁, h₂]
  · obtain ⟨rfl, -⟩ := Prod.mk.inj (Option.some.inj he)
    exact absurd he' (h r hr h₂ v₂)
  · obtain ⟨rfl, -⟩ := Prod.mk.inj (Option.some.inj he')
    exact absurd he (h q hq h₁ v₁)
  · exact hd q hq r hr _ _ he he' rfl

omit [DecidableEq κ] in
theorem Absent.set_none (h : t.Absent k) (p : ℕ) : (t.set p none).Absent k := by
  intro q hq v
  rw [slot_set]
  split_ifs
  · simp
  · exact h q hq v

omit [DecidableEq κ] in
theorem Absent.set_some (h : t.Absent k) {k' : κ} (hk : k' ≠ k) (p : ℕ) (v' : ν) :
    (t.set p (some (k', v'))).Absent k := by
  intro q hq v
  rw [slot_set]
  split_ifs
  · simp [hk]
  · exact h q hq v

/-! ### Erase -/

@[simp] theorem capacity_erase (t : ProbeTable κ ν) (k : κ) :
    (t.erase home k).capacity = t.capacity := by
  rw [erase]
  split <;> rfl

theorem Distinct.erase (hd : t.Distinct) (k : κ) : (t.erase home k).Distinct := by
  rw [ProbeTable.erase]
  split
  · exact hd
  · exact hd.set_none _

theorem Absent.erase (h : t.Absent k) (k' : κ) : (t.erase home k').Absent k := by
  rw [ProbeTable.erase]
  split
  · exact h
  · exact h.set_none _

/-- Erasing a key with an intact chain removes it. -/
theorem absent_erase_of_intact (hcap : 0 < t.capacity) (hd : t.Distinct)
    (hintact : t.Intact home k) : (t.erase home k).Absent k := by
  by_cases habsent : t.Absent k
  · exact habsent.erase k
  obtain ⟨i, hi, v, hv⟩ := exists_entry_of_not_absent home habsent
  have hfind : findSlot (stopsAt k) (t.entry (home k)) 0 t.capacity = some i := by
    refine findSlot_eq_some_iff.mpr ⟨hi, stopsAt_eq_true_iff.mpr (.inr ⟨v, hv⟩), fun j hj => ?_⟩
    refine stopsAt_eq_false_iff.mpr ⟨hintact i hi v hv j hj, fun v' hv' => ?_⟩
    exact hj.ne' (hd.entry_inj hi (hj.trans hi) hv hv')
  intro q hq v'
  rw [capacity_erase] at hq
  simp only [ProbeTable.erase, hfind, slot_set]
  split_ifs with hqi
  · simp
  · exact fun hq' => hqi (hd q hq _ (probe_lt hcap) _ _ hq' hv rfl)

/-- Erasing a key behind a hole changes nothing. -/
theorem erase_eq_self_of_not_intact (hd : t.Distinct) (hintact : ¬ t.Intact home k) :
    t.erase home k = t := by
  simp only [Intact, not_forall, not_not] at hintact
  obtain ⟨i, hi, v, hv, j, hj, hhole⟩ := hintact
  rw [ProbeTable.erase]
  cases hfind : findSlot (stopsAt k) (t.entry (home k)) 0 t.capacity with
  | none => rfl
  | some l =>
    obtain ⟨hl, hstop, hbefore⟩ := findSlot_eq_some_iff.mp hfind
    have hlj : l ≤ j := by
      by_contra hlt
      have := hbefore j (not_le.mp hlt)
      rw [hhole] at this
      exact absurd this (by simp [stopsAt])
    -- the search cannot end at the key itself, which stands behind the hole
    have hlnone : t.entry (home k) l = none := by
      refine (stopsAt_eq_true_iff.mp hstop).resolve_right ?_
      rintro ⟨v', hv'⟩
      have := hd.entry_inj hl hi hv' hv
      omega
    exact set_eq_self hlnone

/-! ### Insert -/

/-- Some slot is empty. -/
def HasHole (t : ProbeTable κ ν) : Prop := ∃ p < t.capacity, t.slot p = none

omit [DecidableEq κ] in
theorem makeRoom_of_hasHole (h : t.HasHole) : t.makeRoom = t := by
  obtain ⟨p, hp, hnone⟩ := h
  rw [makeRoom]
  cases hfind : findSlot Option.isNone t.slot 0 t.capacity with
  | none => simpa [hnone] using findSlot_eq_none_iff.mp hfind p hp
  | some i => rfl

omit [DecidableEq κ] in
theorem makeRoom_of_not_hasHole (h : ¬ t.HasHole) : t.makeRoom = t.set 0 none := by
  rw [makeRoom]
  cases hfind : findSlot Option.isNone t.slot 0 t.capacity with
  | none => rfl
  | some i =>
    obtain ⟨hi, hnone, -⟩ := findSlot_eq_some_iff.mp hfind
    exact absurd ⟨i, hi, Option.isNone_iff_eq_none.mp hnone⟩ h

omit [DecidableEq κ] in
/-- Making room empties at most slot `0`, and leaves an empty slot. -/
theorem makeRoom_spec (hcap : 0 < t.capacity) :
    (t.makeRoom = t ∨ t.makeRoom = t.set 0 none) ∧ t.makeRoom.HasHole ∧
      t.makeRoom.capacity = t.capacity := by
  by_cases h : t.HasHole
  · rw [makeRoom_of_hasHole h]
    exact ⟨.inl rfl, h, rfl⟩
  · rw [makeRoom_of_not_hasHole h]
    exact ⟨.inr rfl, ⟨0, hcap, by simp [slot_set]⟩, rfl⟩

omit [DecidableEq κ] in
/-- Placing a key uses the first empty slot from its home slot on. -/
theorem place_spec (home : κ → ℕ) (h : t.HasHole) (k : κ) (v : ν) :
    ∃ i < t.capacity, t.entry (home k) i = none ∧ (∀ j < i, t.entry (home k) j ≠ none) ∧
      t.place home k v = t.set (t.probe (home k) i) (some (k, v)) := by
  obtain ⟨p, hp, hnone⟩ := h
  obtain ⟨l, hl, rfl⟩ := exists_probe_eq (home k) hp
  rw [place]
  cases hfind : findSlot Option.isNone (t.entry (home k)) 0 t.capacity with
  | none =>
    have := findSlot_eq_none_iff.mp hfind l hl
    rw [entry, hnone] at this
    exact absurd this (by simp)
  | some i =>
    obtain ⟨hi, hnone, hbefore⟩ := findSlot_eq_some_iff.mp hfind
    refine ⟨i, hi, Option.isNone_iff_eq_none.mp hnone, fun j hj hjnone => ?_, rfl⟩
    simpa [hjnone] using hbefore j hj

/-- Inserting a key that is present replaces its value in place. -/
theorem insert_of_entry (hd : t.Distinct) {v' : ν} (hi : i < t.capacity)
    (hv' : t.entry (home k) i = some (k, v')) (v : ν) :
    t.insert home k v = t.set (t.probe (home k) i) (some (k, v)) := by
  have hfind : findSlot (holdsKey k) (t.entry (home k)) 0 t.capacity = some i := by
    refine findSlot_eq_some_iff.mpr ⟨hi, holdsKey_eq_true_iff.mpr ⟨v', hv'⟩, fun j hj => ?_⟩
    rw [← Bool.not_eq_true, holdsKey_eq_true_iff]
    rintro ⟨v'', hv''⟩
    exact hj.ne (hd.entry_inj (hj.trans hi) hi hv'' hv')
  rw [insert, hfind]

/-- Inserting a key that is absent places it. -/
theorem insert_of_absent (hcap : 0 < t.capacity) (h : t.Absent k) (v : ν) :
    t.insert home k v = t.makeRoom.place home k v := by
  have hfind : findSlot (holdsKey k) (t.entry (home k)) 0 t.capacity = none := by
    refine findSlot_eq_none_iff.mpr fun i _ => ?_
    rw [← Bool.not_eq_true, holdsKey_eq_true_iff]
    rintro ⟨v', hv'⟩
    exact entry_ne_of_absent hcap h _ i v' hv'
  rw [insert, hfind]

/-- **What an insert does.** It stores the key to one slot of a table that is the old one or, when
that was full, the old one without slot `0`: to the slot that holds the key, or, the key being
absent, to the first empty slot from its home slot on. -/
theorem insert_cases (home : κ → ℕ) (hcap : 0 < t.capacity) (hd : t.Distinct) (k : κ) (v : ν) :
    (∃ i < t.capacity, ∃ v', t.entry (home k) i = some (k, v') ∧
      t.insert home k v = t.set (t.probe (home k) i) (some (k, v))) ∨
    (t.Absent k ∧ ∃ r : ProbeTable κ ν, (r = t ∨ r = t.set 0 none) ∧ ∃ i < t.capacity,
      r.entry (home k) i = none ∧ (∀ j < i, r.entry (home k) j ≠ none) ∧
      t.insert home k v = r.set (r.probe (home k) i) (some (k, v))) := by
  by_cases h : t.Absent k
  · obtain ⟨hroom, hhole, hcapacity⟩ := makeRoom_spec hcap
    obtain ⟨i, hi, hnone, hbefore, hplace⟩ := place_spec home hhole k v
    rw [insert_of_absent hcap h]
    exact .inr ⟨h, t.makeRoom, hroom, i, hcapacity ▸ hi, hnone, hbefore, hplace⟩
  · obtain ⟨i, hi, v', hv'⟩ := exists_entry_of_not_absent home h
    exact .inl ⟨i, hi, v', hv', insert_of_entry hd hi hv' v⟩

theorem capacity_insert (hcap : 0 < t.capacity) (hd : t.Distinct) (k : κ) (v : ν) :
    (t.insert home k v).capacity = t.capacity := by
  rcases insert_cases home hcap hd k v with
    ⟨i, -, v', -, heq⟩ | ⟨-, r, rfl | rfl, i, -, -, -, heq⟩ <;> rw [heq] <;> rfl

theorem Distinct.insert (hcap : 0 < t.capacity) (hd : t.Distinct) (k : κ) (v : ν) :
    (t.insert home k v).Distinct := by
  rcases insert_cases home hcap hd k v with
    ⟨i, hi, v', hv', heq⟩ | ⟨habsent, r, hr, i, hi, -, -, heq⟩
  · rw [heq]
    refine hd.set_some fun q hq hne v'' hv'' => hne ?_
    exact hd q hq _ (probe_lt hcap) _ _ hv'' hv' rfl
  · rw [heq]
    have hrd : r.Distinct := by
      rcases hr with rfl | rfl
      · exact hd
      · exact hd.set_none 0
    have hrabsent : r.Absent k := by
      rcases hr with rfl | rfl
      · exact habsent
      · exact habsent.set_none 0
    exact hrd.set_some fun q hq _ => hrabsent q hq

theorem Absent.insert (hcap : 0 < t.capacity) (hd : t.Distinct) (h : t.Absent k) {k' : κ}
    (hk : k' ≠ k) (v : ν) : (t.insert home k' v).Absent k := by
  rcases insert_cases home hcap hd k' v with
    ⟨i, hi, v', hv', heq⟩ | ⟨-, r, rfl | rfl, i, hi, -, -, heq⟩
  · exact heq ▸ h.set_some hk _ _
  · exact heq ▸ h.set_some hk _ _
  · exact heq ▸ (h.set_none 0).set_some hk _ _

/-- A key is present after it was inserted. -/
theorem not_absent_insert (hcap : 0 < t.capacity) (hd : t.Distinct) (k : κ) (v : ν) :
    ¬ (t.insert home k v).Absent k := by
  obtain ⟨r, p, hp, heq⟩ : ∃ (r : ProbeTable κ ν) (p : ℕ), p < r.capacity ∧
      t.insert home k v = r.set p (some (k, v)) := by
    rcases insert_cases home hcap hd k v with
      ⟨i, -, v', -, heq⟩ | ⟨-, r, rfl | rfl, i, -, -, -, heq⟩
    · exact ⟨t, _, probe_lt hcap, heq⟩
    · exact ⟨_, _, probe_lt hcap, heq⟩
    · exact ⟨t.set 0 none, _, probe_lt hcap, heq⟩
  rw [heq]
  exact fun habsent => habsent p hp v ((slot_set ..).trans (if_pos rfl))

/-- In a full table a lookup finds every key that is present. -/
theorem lookup_isSome_iff_of_full (hcap : 0 < t.capacity) (hd : t.Distinct) (hfull : ¬ t.HasHole) :
    (t.lookup home k).isSome ↔ ¬ t.Absent k := by
  constructor
  · intro hsome habsent
    rw [lookup_eq_none_of_absent hcap hd habsent] at hsome
    exact Bool.false_ne_true hsome
  · intro hpresent
    obtain ⟨i, hi, v, hv⟩ := exists_entry_of_not_absent home hpresent
    have hfound : t.lookup home k = some v :=
      (lookup_eq_some_iff hd).mpr ⟨i, hi, hv, fun j _ hnone => hfull ⟨_, probe_lt hcap, hnone⟩⟩
    rw [hfound]
    rfl

/-- A new key takes slot `0` of a full table. -/
theorem insert_of_full (hcap : 0 < t.capacity) (hfull : ¬ t.HasHole) (h : t.Absent k) (v : ν) :
    t.insert home k v = t.set 0 (some (k, v)) := by
  rw [insert_of_absent hcap h, makeRoom_of_not_hasHole hfull]
  have hhole : (t.set 0 none).HasHole := ⟨0, hcap, (slot_set ..).trans (if_pos rfl)⟩
  obtain ⟨i, hi, hnone, -, hplace⟩ := place_spec home hhole k v
  -- slot 0 is the only empty one
  have hzero : (t.set 0 none).probe (home k) i = 0 := by
    by_contra hne
    rw [entry, slot_set, if_neg hne] at hnone
    exact hfull ⟨_, probe_lt hcap, hnone⟩
  rw [hplace, hzero, set, set, set]
  simp only [Function.update_idem]

/-- Of a full table, the insert of a new key removes the key in slot `0` and no other. -/
theorem absent_insert_of_full_iff (hcap : 0 < t.capacity) (hd : t.Distinct)
    (hfull : ¬ t.HasHole) (h : t.Absent k) (v : ν) {e : κ × ν} (he : t.slot 0 = some e) {k' : κ}
    (hk' : ¬ t.Absent k') : (t.insert home k v).Absent k' ↔ k' = e.1 := by
  rw [insert_of_full hcap hfull h]
  have hne : k ≠ k' := fun heq => hk' (heq ▸ h)
  simp only [Absent, not_forall, not_not] at hk'
  obtain ⟨p, hp, v', hv'⟩ := hk'
  constructor
  · intro habsent
    by_contra hother
    have hpne : p ≠ 0 := by
      rintro rfl
      rw [hv'] at he
      exact hother (congrArg Prod.fst (Option.some.inj he))
    exact habsent p hp v' ((slot_set ..).trans ((if_neg hpne).trans hv'))
  · rintro rfl q hq v'' hv''
    rw [slot_set] at hv''
    split_ifs at hv'' with hq0
    · exact hne (congrArg Prod.fst (Option.some.inj hv''))
    · exact hq0 (hd q hq 0 hcap _ _ hv'' he rfl)

/-- **Read after write.** What was just inserted is found exactly when its chain was intact. -/
theorem lookup_insert_iff (hcap : 0 < t.capacity) (hd : t.Distinct) (k : κ) (v : ν) :
    (t.insert home k v).lookup home k = some v ↔ t.Intact home k := by
  have hd' : (t.insert home k v).Distinct := hd.insert hcap k v
  rw [lookup_eq_some_iff hd', capacity_insert hcap hd]
  rcases insert_cases home hcap hd k v with
    ⟨i, hi, v', hv', heq⟩ | ⟨habsent, r, hr, i, hi, -, hbefore, heq⟩
  · -- the value is replaced in place: the slots in front of it stay as they are
    rw [heq] at hd' ⊢
    have hself : (t.set (t.probe (home k) i) (some (k, v))).entry (home k) i = some (k, v) :=
      entry_set_self ..
    have hfront (j : ℕ) (hj : j < i) :
        (t.set (t.probe (home k) i) (some (k, v))).entry (home k) j = t.entry (home k) j :=
      entry_set_of_ne _ hi (hj.trans hi) hj.ne
    constructor
    · rintro ⟨i', hi', hv, hbefore⟩ i'' hi'' v'' hv'' j hj
      obtain rfl : i = i' := hd'.entry_inj hi hi' hself hv
      obtain rfl : i'' = i := hd.entry_inj hi'' hi hv'' hv'
      rw [← hfront j hj]
      exact hbefore j hj
    · intro hintact
      refine ⟨i, hi, hself, fun j hj => ?_⟩
      rw [hfront j hj]
      exact hintact i hi v' hv' j hj
  · -- the key is placed in the first empty slot from its home slot on
    refine iff_of_true ⟨i, hi, ?_, fun j hj => ?_⟩ fun i' _ v' hv' => ?_
    · rw [heq]
      exact entry_set_self ..
    · have hrcap : r.capacity = t.capacity := by rcases hr with rfl | rfl <;> rfl
      rw [heq, entry_set_of_ne _ (hrcap ▸ hi) (hrcap ▸ hj.trans hi) hj.ne]
      exact hbefore j hj
    · exact absurd hv' (entry_ne_of_absent hcap habsent _ i' v')

/-! ### Filling the holes -/

omit [DecidableEq κ] in
/-- Among more keys than slots one is absent. -/
theorem exists_absent {N : ℕ} (hN : t.capacity < N) {g : Fin N → κ} (hg : Function.Injective g) :
    ∃ i, t.Absent (g i) := by
  by_contra hnone
  simp only [Absent, not_exists, not_forall, not_not] at hnone
  choose p hp v hv using hnone
  obtain ⟨i, j, hij, heq⟩ := Fintype.exists_ne_map_eq_of_card_lt
    (fun i => (⟨p i, hp i⟩ : Fin t.capacity)) (by simpa using hN)
  have hslot : t.slot (p i) = t.slot (p j) := congrArg t.slot (Fin.mk.inj heq)
  rw [hv, hv] at hslot
  exact hij (hg (Prod.mk.inj (Option.some.inj hslot)).1)

/-- The empty slots. -/
def holes (t : ProbeTable κ ν) : Finset ℕ :=
  (Finset.range t.capacity).filter fun p => (t.slot p).isNone

omit [DecidableEq κ] in
theorem mem_holes : p ∈ t.holes ↔ p < t.capacity ∧ t.slot p = none := by
  simp [holes]

omit [DecidableEq κ] in
/-- Storing to an empty slot fills it. -/
theorem holes_set_some (t : ProbeTable κ ν) (p : ℕ) (e : κ × ν) :
    (t.set p (some e)).holes = t.holes.erase p := by
  ext r
  rw [Finset.mem_erase, mem_holes, mem_holes, capacity_set, slot_set]
  by_cases hrp : r = p <;> simp [hrp]

omit [DecidableEq κ] in
theorem holes_set_none (hp : p < t.capacity) : (t.set p none).holes = Insert.insert p t.holes := by
  ext r
  rw [Finset.mem_insert, mem_holes, mem_holes, capacity_set, slot_set]
  by_cases hrp : r = p <;> simp [hrp, hp]

omit [DecidableEq κ] in
theorem hasHole_iff_card_holes : t.HasHole ↔ 0 < t.holes.card := by
  rw [Finset.card_pos]
  exact ⟨fun ⟨p, hp⟩ => ⟨p, mem_holes.mpr hp⟩, fun ⟨p, hp⟩ => ⟨p, mem_holes.mp hp⟩⟩

/-- Inserting an absent key into a table with a hole fills one hole and changes nothing else. -/
theorem insert_fills (home : κ → ℕ) (hcap : 0 < t.capacity) (h : t.Absent k) (hhole : t.HasHole)
    (v : ν) :
    ∃ p ∈ t.holes, t.insert home k v = t.set p (some (k, v)) := by
  obtain ⟨i, hi, hnone, -, hplace⟩ := place_spec home hhole k v
  refine ⟨t.probe (home k) i, mem_holes.mpr ⟨probe_lt hcap, hnone⟩, ?_⟩
  rw [insert_of_absent hcap h, makeRoom_of_hasHole hhole, hplace]

/-- **Fresh keys fill the table.** From more keys than slots one can choose keys that are absent
and whose inserts, one after the other, leave no slot empty and all occupied slots as they
were. -/
theorem exists_inserts_full (home : κ → ℕ) (hcap : 0 < t.capacity) (hd : t.Distinct) {N : ℕ}
    (hN : t.capacity < N) {g : Fin N → κ} (hg : Function.Injective g) (v : ν) :
    ∃ chosen : List (Fin N), (∀ i ∈ chosen, t.Absent (g i)) ∧
      let full := (chosen.map g).foldl (fun t k => t.insert home k v) t
      full.capacity = t.capacity ∧ full.Distinct ∧ ¬ full.HasHole ∧
        ∀ p < t.capacity, ∀ e, t.slot p = some e → full.slot p = some e := by
  -- induction on the number of empty slots
  induction hn : t.holes.card generalizing t with
  | zero =>
    refine ⟨[], by simp, rfl, hd, ?_, fun p _ e he => he⟩
    exact fun hhole => (hasHole_iff_card_holes.mp hhole).ne' hn
  | succ n ih =>
    have hhole : t.HasHole := hasHole_iff_card_holes.mpr (by omega)
    obtain ⟨i, hfresh⟩ := exists_absent hN hg
    obtain ⟨p, hp, hinsert⟩ := insert_fills home hcap hfresh hhole v
    have hpnone := (mem_holes.mp hp).2
    have hkept : ∀ r < t.capacity, ∀ e, t.slot r = some e →
        (t.set p (some (g i, v))).slot r = some e := by
      intro r _ e he
      rw [slot_set, if_neg]
      · exact he
      · rintro rfl
        simp [hpnone] at he
    have hholes : (t.set p (some (g i, v))).holes.card = n := by
      rw [holes_set_some, Finset.card_erase_of_mem hp, hn, Nat.add_sub_cancel]
    have hd' : (t.set p (some (g i, v))).Distinct := hinsert ▸ hd.insert hcap (g i) v
    obtain ⟨chosen, hchosen, hfull⟩ := ih (t := t.set p (some (g i, v))) hcap hd' hN hholes
    refine ⟨i :: chosen, ?_, ?_⟩
    · intro j hj
      rcases List.mem_cons.mp hj with rfl | hj
      · exact hfresh
      · exact fun r hr v' hv' => hchosen j hj r hr v' (hkept r hr _ hv')
    · rw [List.map_cons, List.foldl_cons, hinsert]
      refine ⟨hfull.1, hfull.2.1, hfull.2.2.1, fun r hr e he => ?_⟩
      exact hfull.2.2.2 r hr e (hkept r hr e he)

/-! ### The values of a table -/

/-- Every key of the table has the value that `f` gives it. -/
def Agrees (t : ProbeTable κ ν) (f : κ → Option ν) : Prop :=
  ∀ p < t.capacity, ∀ k v, t.slot p = some (k, v) → f k = some v

section Agrees

variable {f : κ → Option ν}

omit [DecidableEq κ] in
theorem Agrees.set_none (h : t.Agrees f) (p : ℕ) : (t.set p none).Agrees f := by
  intro q hq k v hv
  rw [slot_set] at hv
  split_ifs at hv
  exact h q hq k v hv

/-- Storing a key to the only slot that may hold it changes its value. -/
theorem Agrees.set_some (h : t.Agrees f) {p : ℕ} {k : κ}
    (honly : ∀ q < t.capacity, q ≠ p → ∀ v', t.slot q ≠ some (k, v')) (v : ν) :
    (t.set p (some (k, v))).Agrees (Function.update f k (some v)) := by
  intro q hq k' v' hv'
  rw [slot_set] at hv'
  split_ifs at hv' with hqp
  · obtain ⟨rfl, rfl⟩ := Prod.mk.inj (Option.some.inj hv')
    exact Function.update_self ..
  · have hk : k' ≠ k := by
      rintro rfl
      exact honly q hq hqp v' hv'
    rw [Function.update_of_ne hk]
    exact h q hq k' v' hv'

theorem Agrees.erase (h : t.Agrees f) (k : κ) : (t.erase home k).Agrees f := by
  rw [ProbeTable.erase]
  split
  · exact h
  · exact h.set_none _

theorem Agrees.insert (hcap : 0 < t.capacity) (hd : t.Distinct) (h : t.Agrees f) (k : κ) (v : ν) :
    (t.insert home k v).Agrees (Function.update f k (some v)) := by
  rcases insert_cases home hcap hd k v with
    ⟨i, hi, v', hv', heq⟩ | ⟨habsent, r, hr, i, hi, -, -, heq⟩
  · rw [heq]
    refine h.set_some (fun q hq hne v'' hv'' => hne ?_) v
    exact hd q hq _ (probe_lt hcap) _ _ hv'' hv' rfl
  · rw [heq]
    rcases hr with rfl | rfl
    · exact h.set_some (fun q hq _ => habsent q hq) v
    · exact (h.set_none 0).set_some (fun q hq _ => habsent.set_none 0 q hq) v

/-- A lookup returns the value of the key, if anything. -/
theorem Agrees.lookup (hcap : 0 < t.capacity) (hd : t.Distinct) (h : t.Agrees f) {k : κ} {v : ν}
    (hv : t.lookup home k = some v) : f k = some v := by
  obtain ⟨i, -, hentry, -⟩ := (lookup_eq_some_iff hd).mp hv
  exact h _ (probe_lt hcap) k v hentry

end Agrees

end Facts

end ProbeTable

end LightFS.Library
