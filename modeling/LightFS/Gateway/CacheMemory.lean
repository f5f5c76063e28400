import LightFS.Gateway.CacheHash
import LightFS.Gateway.EncoderMemory

/-!
# The manifest cache on a heap

The manifest cache (`src/gateway/gateway_manifest_cache.c`) with its memory: the record of the cache
and the array of its entries are two blocks. The loops walk through the array probe by probe. An
index behind the end of the array has no result, nor has an operation whose result is not an `int`,
nor a division by zero.

A call looks at the array at the indices that `make_index` and the probes give it. If the hash of
the names overflows no `int` (`NamesInInt`), every index is inside the array, no `int` overflows,
and the call leaves what it leaves in the model without memory, for every well-formed cache of at
most `2 ^ 30` entries; otherwise the behaviour of the call is undefined.

## Main definitions

* In `InMemory` the functions of the source.
* `cacheBlocks` — the blocks of a cache.
* `NamesInInt` — the hash of the names overflows no `int`.

## Main results

* `returns_manifestCacheLookup`, `returns_manifestCacheInsert`, `returns_manifestCacheInvalidate`.
* `fails_manifestCacheLookup`, `fails_manifestCacheInsert`, `fails_manifestCacheInvalidate`.
-/

namespace LightFS.Gateway

open Library Meta

/-! ### The code -/

namespace InMemory

/-- The result of an operation, whose behaviour is undefined if there is none. -/
def result (r : Option ℤ) : GatewayM ℤ :=
  match r with
  | some v => return v
  | none => fault

/-- `a % b`. -/
def remainder (a b : ℤ) : GatewayM ℤ := if b = 0 then fault else return a.tmod b

/-- `make_index`. -/
def makeIndex (bucket key : CString) (capacity : ℕ) : GatewayM ℤ :=
  if capacity = 0 then fault else result (makeIndexInt bucket key capacity)

/-- `entries[slot]`. -/
def loadEntry (entries : ℕ) (slot : ℤ) : GatewayM CacheEntry :=
  if slot < 0 then fault else load (fun b => b.entries?.bind (·[slot.toNat]?)) entries

/-- `entries[slot] = entry`. -/
def storeEntry (entries : ℕ) (slot : ℤ) (entry : CacheEntry) : GatewayM Unit := do
  let array ← load (·.entries?) entries
  if 0 ≤ slot ∧ slot < array.length then
    store entries (.entries (array.set slot.toNat entry))
  else fault

/-- `(index + i) % cache->capacity`. -/
def probe (record : CacheRecord) (index : ℤ) (i : ℕ) : GatewayM ℤ := do
  let sum ← result (intResult (index + i))
  remainder sum record.capacity

/-- A loop over the array, from the round `i` on: the first slot whose entry has the property, with
this entry. -/
def findEntry (record : CacheRecord) (slotOf : ℕ → GatewayM ℤ) (p : CacheEntry → Bool) :
    ℕ → ℕ → GatewayM (Option (ℤ × CacheEntry))
  | _, 0 => return none
  | i, n + 1 => do
    let slot ← slotOf i
    let entry ← loadEntry record.entries slot
    if p entry then return some (slot, entry) else findEntry record slotOf p (i + 1) n

/-- The loop of lookup and invalidate: it ends at an invalid entry, or at one with these names. -/
def searchEnd (record : CacheRecord) (bucket key : CString) :
    GatewayM (Option (ℤ × CacheEntry)) := do
  let index ← makeIndex bucket key record.capacity
  findEntry record (probe record index) (fun entry => !entry.isValid || entry.hasNames bucket key)
    0 record.capacity

/-- `manifest_cache_lookup`: the manifest written to `out`, `none` for `-1`. -/
def manifestCacheLookup (cache : ℕ) (bucket key : CString) : GatewayM (Option ObjectManifest) := do
  let record ← load (·.cache?) cache
  match ← searchEnd record bucket key with
  | none => return none
  | some (_, entry) => return if entry.isValid then some entry.manifest else none

/-- `cache->count += change`. -/
def changeCount (cache : ℕ) (change : ℤ) : GatewayM Unit := do
  let record ← load (·.cache?) cache
  let count ← result (intResult (record.count + change))
  store cache (.cache { record with count })

/-- `entries[slot].is_valid = 0; count--;`. -/
def clearSlot (cache : ℕ) (slot : ℤ) : GatewayM Unit := do
  let record ← load (·.cache?) cache
  let entry ← loadEntry record.entries slot
  storeEntry record.entries slot { entry with isValid := false }
  changeCount cache (-1)

/-- The stores to a new entry, and `count++;`. -/
def fillSlot (cache : ℕ) (slot : ℤ) (bucket key : CString) (manifest : ObjectManifest) :
    GatewayM Unit := do
  let record ← load (·.cache?) cache
  storeEntry record.entries slot ⟨.strncpy bucket, .strncpy key, manifest, true⟩
  changeCount cache 1

/-- The eviction of `manifest_cache_insert`, whose loop walks through the array in order. -/
def evict (cache : ℕ) : GatewayM Unit := do
  let record ← load (·.cache?) cache
  if record.capacity ≤ record.count then do
    let found ← findEntry record (fun i => return i) (fun entry => !entry.isValid)
      0 record.capacity
    clearSlot cache (found.elim 0 Prod.fst)
  else return ()

/-- The last loop of `manifest_cache_insert`. -/
def placeEntry (cache : ℕ) (index : ℤ) (bucket key : CString) (manifest : ObjectManifest) :
    GatewayM Unit := do
  let record ← load (·.cache?) cache
  match ← findEntry record (probe record index) (fun entry => !entry.isValid)
    0 record.capacity with
  | none => return ()
  | some (slot, _) => fillSlot cache slot bucket key manifest

/-- `manifest_cache_insert`. -/
def manifestCacheInsert (cache : ℕ) (bucket key : CString) (manifest : ObjectManifest) :
    GatewayM Unit := do
  let record ← load (·.cache?) cache
  let index ← makeIndex bucket key record.capacity
  match ← findEntry record (probe record index)
    (fun entry => entry.isValid && entry.hasNames bucket key) 0 record.capacity with
  | some (slot, entry) => storeEntry record.entries slot { entry with manifest }
  | none => do
    evict cache
    placeEntry cache index bucket key manifest

/-- `manifest_cache_invalidate`. -/
def manifestCacheInvalidate (cache : ℕ) (bucket key : CString) : GatewayM Unit := do
  let record ← load (·.cache?) cache
  match ← searchEnd record bucket key with
  | none => return ()
  | some (slot, entry) => if entry.isValid then clearSlot cache slot else return ()

end InMemory

/-! ### The blocks of a cache -/

/-- The blocks of a cache: its record and the array of its entries. -/
def cacheBlocks (addr : ℕ × ℕ) (cache : ManifestCache) : List (ℕ × GatewayBlock) :=
  [(addr.1, .cache ⟨addr.2, cache.capacity, cache.count⟩),
    (addr.2, .entries (slots cache.entries cache.capacity))]

/-- The record of a cache. -/
def cacheRecord (addr : ℕ × ℕ) (cache : ManifestCache) : CacheRecord :=
  ⟨addr.2, cache.capacity, cache.count⟩

/-- No operation of `make_index` overflows: the text of both names is a number to the base 31 below
`2 ^ 31`, so is its last product, and no number before the last character is negative. -/
def NamesInInt (bucket key : CString) : Prop :=
  (∀ pre, pre <+: (bucket.bytes ++ key.bytes).dropLast → 0 ≤ textValue pre) ∧
    textValue (bucket.bytes ++ key.bytes).dropLast * 31 < 2 ^ 31 ∧
    textValue (bucket.bytes ++ key.bytes) < 2 ^ 31

theorem namesInInt_iff {bucket key : CString} : NamesInInt bucket key ↔
    cacheHash.NoOverflow ((bucket.bytes ++ key.bytes).map signedChar) := by
  rw [NamesInInt, ← small_map_signedChar_iff,
    HornerHash.noOverflow_iff neg_digit_le_signedChar]

/-- The hash has a result, in a cache of any size. -/
theorem namesInInt_iff_isSome {bucket key : CString} {capacity : ℤ} (hcapacity : 1 ≤ capacity) :
    NamesInInt bucket key ↔ (makeIndexInt bucket key capacity).isSome := by
  rw [namesInInt_iff, Option.isSome_iff_exists]
  constructor
  · intro hno
    exact ⟨_, (makeIndexInt_eq_some_iff hcapacity).mpr ⟨hno, rfl⟩⟩
  · rintro ⟨index, hindex⟩
    exact ((makeIndexInt_eq_some_iff hcapacity).mp hindex).1

section Steps

variable {pre : List (ℕ × GatewayBlock)} {addr : ℕ × ℕ} {cache : ManifestCache}
  {bucket key : CString} {capacity slot : ℕ}

theorem returns_result {v : ℤ} (hv : IsInt v) :
    Returns pre (InMemory.result (intResult v)) v pre := by
  rw [intResult, if_pos hv]
  exact Spec.pure ⟨rfl, rfl⟩

theorem returns_makeIndex (hcap : 0 < capacity) (hnames : NamesInInt bucket key) :
    Returns pre (InMemory.makeIndex bucket key capacity) (makeIndex bucket key capacity) pre := by
  have hcap' : (1 : ℤ) ≤ capacity := by exact_mod_cast hcap
  have hindex : makeIndexInt bucket key capacity = some (makeIndex bucket key capacity : ℤ) :=
    (makeIndexInt_eq_some_iff hcap').mpr ⟨namesInInt_iff.mp hnames, rfl⟩
  rw [InMemory.makeIndex, if_neg (Nat.ne_of_gt hcap), hindex]
  exact Spec.pure ⟨rfl, rfl⟩

theorem fails_makeIndex (hnames : ¬ NamesInInt bucket key) :
    Fails pre (InMemory.makeIndex bucket key capacity) := by
  rw [InMemory.makeIndex]
  split_ifs with hcap
  · exact fails_fault
  · have hcap' : (1 : ℤ) ≤ capacity := by exact_mod_cast Nat.pos_of_ne_zero hcap
    rw [namesInInt_iff_isSome hcap', Option.not_isSome_iff_eq_none] at hnames
    rw [hnames]
    exact fails_fault

/-- The sum of a probe is an `int`, and the probe is inside the array. -/
theorem returns_probe {index i : ℕ} (hcap : 0 < cache.capacity) (hmax : cache.capacity ≤ 2 ^ 30)
    (hindex : index < cache.capacity) (hi : i < cache.capacity) :
    Returns pre (InMemory.probe (cacheRecord addr cache) index i) (cache.probe index i) pre := by
  have hsum : IsInt ((index : ℤ) + i) := by
    constructor <;> omega
  have hrem : ((index : ℤ) + i).tmod cache.capacity = (cache.probe index i : ℕ) := by
    rw [Int.tmod_eq_emod_of_nonneg (by omega), ManifestCache.probe]
    push_cast
    rfl
  refine Returns.bind (returns_result hsum) ?_
  have hne : ((cacheRecord addr cache).capacity : ℤ) ≠ 0 := by
    exact_mod_cast Nat.ne_of_gt hcap
  rw [InMemory.remainder, if_neg hne]
  exact Spec.pure ⟨hrem, rfl⟩

theorem returns_loadCache :
    Returns (cacheBlocks addr cache) (load (·.cache?) addr.1) (cacheRecord addr cache)
      (cacheBlocks addr cache) :=
  returns_load List.mem_cons_self rfl

theorem returns_loadEntry (hslot : slot < cache.capacity) :
    Returns (cacheBlocks addr cache) (InMemory.loadEntry addr.2 slot) (cache.entries slot)
      (cacheBlocks addr cache) := by
  rw [InMemory.loadEntry, if_neg (by omega)]
  refine returns_load (List.mem_cons_of_mem _ List.mem_cons_self) ?_
  have hlength : slot < (slots cache.entries cache.capacity).length := by rwa [length_slots]
  change (slots cache.entries cache.capacity)[slot]? = some (cache.entries slot)
  rw [List.getElem?_eq_getElem hlength, getElem_slots]

theorem returns_storeEntry (hslot : slot < cache.capacity) (entry : CacheEntry) :
    Returns (cacheBlocks addr cache) (InMemory.storeEntry addr.2 slot entry) ()
      (cacheBlocks addr (cache.setEntry slot entry)) := by
  refine Returns.bind (returns_load (List.mem_cons_of_mem _ List.mem_cons_self) rfl) ?_
  rw [if_pos (by rw [length_slots]; omega), Int.toNat_natCast, ← slots_update]
  exact returns_store_middle [_] _

/-- A loop over the array finds what the scan of the slots finds. -/
theorem returns_findEntry {slotOf : ℕ → ℕ} {slotProg : ℕ → GatewayM ℤ} (p : CacheEntry → Bool)
    (hslot : ∀ i < cache.capacity, slotOf i < cache.capacity ∧
      Returns (cacheBlocks addr cache) (slotProg i) (slotOf i) (cacheBlocks addr cache))
    {i n : ℕ} (hn : i + n ≤ cache.capacity) :
    Returns (cacheBlocks addr cache)
      (InMemory.findEntry (cacheRecord addr cache) slotProg p i n)
      ((findSlot p (fun j => cache.entries (slotOf j)) i n).map fun j =>
        ((slotOf j : ℤ), cache.entries (slotOf j))) (cacheBlocks addr cache) := by
  induction n generalizing i with
  | zero => exact Spec.pure ⟨rfl, rfl⟩
  | succ n ih =>
    obtain ⟨hlt, hprog⟩ := hslot i (by omega)
    refine Returns.bind hprog (Returns.bind (returns_loadEntry hlt) ?_)
    rw [findSlot]
    split_ifs
    · exact Spec.pure ⟨rfl, rfl⟩
    · exact ih (by omega)

theorem returns_changeCount (cache : ManifestCache) {change : ℤ}
    (hcount : IsInt (cache.count + change)) :
    Returns (cacheBlocks addr cache) (InMemory.changeCount addr.1 change) ()
      (cacheBlocks addr { cache with count := cache.count + change }) := by
  refine Returns.bind returns_loadCache (Returns.bind (returns_result hcount) ?_)
  exact returns_store_middle [] _

theorem returns_clearSlot (hslot : slot < cache.capacity) (hcount : IsInt (cache.count - 1)) :
    Returns (cacheBlocks addr cache) (InMemory.clearSlot addr.1 slot) ()
      (cacheBlocks addr (cache.clearSlot slot)) := by
  refine Returns.bind returns_loadCache (Returns.bind (returns_loadEntry hslot) ?_)
  refine Returns.bind (returns_storeEntry hslot _) ?_
  exact returns_changeCount (cache.setEntry slot _) hcount

theorem returns_fillSlot (hslot : slot < cache.capacity) (hcount : IsInt (cache.count + 1))
    (manifest : ObjectManifest) :
    Returns (cacheBlocks addr cache) (InMemory.fillSlot addr.1 slot bucket key manifest) ()
      (cacheBlocks addr (cache.fillSlot slot bucket key manifest)) := by
  refine Returns.bind returns_loadCache (Returns.bind (returns_storeEntry hslot _) ?_)
  exact returns_changeCount (cache.setEntry slot _) hcount

end Steps

/-! ### The calls -/

/-- The counter of a well-formed cache. -/
theorem ManifestCache.WellFormed.count_bounds {cache : ManifestCache} (hwf : cache.WellFormed) :
    0 ≤ cache.count ∧ cache.count ≤ cache.capacity := by
  have hcounts : cache.count + cache.table.holes.card = cache.capacity := hwf.counts
  have hholes : cache.table.holes.card ≤ cache.capacity :=
    (Finset.card_filter_le _ _).trans (Finset.card_range _).le
  omega

/-- The counter can go down. -/
theorem ManifestCache.WellFormed.isInt_count_sub_one {cache : ManifestCache}
    (hwf : cache.WellFormed) (hmax : cache.capacity ≤ 2 ^ 30) : IsInt (cache.count - 1) := by
  have hbounds := hwf.count_bounds
  constructor <;> omega

section Calls

variable {addr : ℕ × ℕ} {cache : ManifestCache} {bucket key : CString}

/-- The loops along the probes of names. -/
theorem returns_findProbe (hcap : 0 < cache.capacity) (hmax : cache.capacity ≤ 2 ^ 30)
    (bucket key : CString) (p : CacheEntry → Bool) :
    let index := makeIndex bucket key cache.capacity
    Returns (cacheBlocks addr cache)
      (InMemory.findEntry (cacheRecord addr cache)
        (InMemory.probe (cacheRecord addr cache) index) p 0 cache.capacity)
      ((findSlot p (cache.probeEntry index) 0 cache.capacity).map fun i =>
        ((cache.probe index i : ℤ), cache.probeEntry index i)) (cacheBlocks addr cache) := by
  have hindex : makeIndex bucket key cache.capacity < cache.capacity := Nat.mod_lt _ hcap
  refine returns_findEntry p (fun i hi => ⟨Nat.mod_lt _ hcap, ?_⟩) (Nat.zero_add _).le
  exact returns_probe hcap hmax hindex hi

section Defined

variable (hwf : cache.WellFormed) (hmax : cache.capacity ≤ 2 ^ 30)
  (hnames : NamesInInt bucket key)

include hwf hmax

/-- The eviction finds a slot inside the array, also if no entry is invalid. -/
theorem returns_evict :
    Returns (cacheBlocks addr cache) (InMemory.evict addr.1) ()
      (cacheBlocks addr (evict cache)) := by
  have hfind : Returns (cacheBlocks addr cache)
      (InMemory.findEntry (cacheRecord addr cache) (fun i => return i)
        (fun entry => !entry.isValid) 0 cache.capacity)
      ((findSlot (fun entry => !entry.isValid) cache.entries 0 cache.capacity).map fun i : ℕ =>
        ((i : ℤ), cache.entries i)) (cacheBlocks addr cache) :=
    returns_findEntry _ (fun i hi => ⟨hi, Spec.pure ⟨rfl, rfl⟩⟩) (Nat.zero_add _).le
  have hcount := hwf.isInt_count_sub_one hmax
  refine Returns.bind returns_loadCache ?_
  rw [evict]
  by_cases hfull : (cache.capacity : ℤ) ≤ cache.count
  · have hfull' : ((cacheRecord addr cache).capacity : ℤ) ≤ (cacheRecord addr cache).count := hfull
    rw [if_pos hfull, if_pos hfull']
    refine Returns.bind hfind ?_
    cases hfound : findSlot (fun entry => !entry.isValid) cache.entries 0 cache.capacity with
    | none => exact returns_clearSlot hwf.capacity_pos hcount
    | some i => exact returns_clearSlot (findSlot_eq_some_iff.mp hfound).1 hcount
  · have hfull' : ¬ ((cacheRecord addr cache).capacity : ℤ) ≤ (cacheRecord addr cache).count :=
      hfull
    rw [if_neg hfull, if_neg hfull']
    exact Spec.pure ⟨rfl, rfl⟩

include hnames

theorem returns_searchEnd :
    Returns (cacheBlocks addr cache) (InMemory.searchEnd (cacheRecord addr cache) bucket key)
      ((searchEnd cache bucket key).map fun i =>
        ((cache.probe (makeIndex bucket key cache.capacity) i : ℤ),
          cache.probeEntry (makeIndex bucket key cache.capacity) i)) (cacheBlocks addr cache) :=
  Returns.bind (returns_makeIndex hwf.capacity_pos hnames)
    (returns_findProbe hwf.capacity_pos hmax bucket key _)

variable (addr) in
theorem returns_manifestCacheLookup :
    Returns (cacheBlocks addr cache) (InMemory.manifestCacheLookup addr.1 bucket key)
      (manifestCacheLookup cache bucket key) (cacheBlocks addr cache) := by
  refine Returns.bind returns_loadCache (Returns.bind (returns_searchEnd hwf hmax hnames) ?_)
  rw [manifestCacheLookup]
  cases searchEnd cache bucket key with
  | none => exact Spec.pure ⟨rfl, rfl⟩
  | some i => exact Spec.pure ⟨rfl, rfl⟩

variable (addr) in
theorem returns_manifestCacheInvalidate :
    Returns (cacheBlocks addr cache) (InMemory.manifestCacheInvalidate addr.1 bucket key) ()
      (cacheBlocks addr (manifestCacheInvalidate cache bucket key)) := by
  refine Returns.bind returns_loadCache (Returns.bind (returns_searchEnd hwf hmax hnames) ?_)
  rw [manifestCacheInvalidate]
  cases searchEnd cache bucket key with
  | none => exact Spec.pure ⟨rfl, rfl⟩
  | some i =>
    dsimp only [Option.map_some]
    split_ifs
    · exact returns_clearSlot (Nat.mod_lt _ hwf.capacity_pos) (hwf.isInt_count_sub_one hmax)
    · exact Spec.pure ⟨rfl, rfl⟩

omit hwf hnames in
/-- The last loop of the insert, in a cache whose counter can grow. -/
theorem returns_placeEntry (hcap : 0 < cache.capacity) (hcount : IsInt (cache.count + 1))
    (manifest : ObjectManifest) :
    Returns (cacheBlocks addr cache)
      (InMemory.placeEntry addr.1 (makeIndex bucket key cache.capacity) bucket key manifest) ()
      (cacheBlocks addr (placeEntry cache bucket key manifest)) := by
  refine Returns.bind returns_loadCache
    (Returns.bind (returns_findProbe hcap hmax bucket key _) ?_)
  rw [placeEntry]
  cases findSlot (fun entry => !entry.isValid)
      (cache.probeEntry (makeIndex bucket key cache.capacity)) 0 cache.capacity with
  | none => exact Spec.pure ⟨rfl, rfl⟩
  | some i => exact returns_fillSlot (Nat.mod_lt _ hcap) hcount manifest

variable (addr) in
theorem returns_manifestCacheInsert (manifest : ObjectManifest) :
    Returns (cacheBlocks addr cache) (InMemory.manifestCacheInsert addr.1 bucket key manifest) ()
      (cacheBlocks addr (manifestCacheInsert cache bucket key manifest)) := by
  have hcap := hwf.capacity_pos
  refine Returns.bind returns_loadCache (Returns.bind (returns_makeIndex hcap hnames) ?_)
  refine Returns.bind (returns_findProbe hcap hmax bucket key _) ?_
  rw [manifestCacheInsert]
  cases findSlot (fun entry => entry.isValid && entry.hasNames bucket key)
      (cache.probeEntry (makeIndex bucket key cache.capacity)) 0 cache.capacity with
  | some i => exact returns_storeEntry (Nat.mod_lt _ hcap) _
  | none =>
    have hcount : IsInt ((evict cache).count + 1) := by
      have hbounds := hwf.count_bounds
      have hevict : (evict cache).count = cache.count ∨
          (evict cache).count = cache.count - 1 := by
        rw [evict]
        split_ifs
        · exact .inr rfl
        · exact .inl rfl
      constructor <;> omega
    refine Returns.bind (returns_evict hwf hmax) ?_
    have hplace : Returns (cacheBlocks addr (evict cache)) (InMemory.placeEntry addr.1
          (makeIndex bucket key (evict cache).capacity) bucket key manifest) ()
        (cacheBlocks addr (placeEntry (evict cache) bucket key manifest)) := by
      refine returns_placeEntry ?_ ?_ hcount manifest <;> rwa [capacity_evict]
    rwa [capacity_evict] at hplace

end Defined

section Undefined

variable (hnames : ¬ NamesInInt bucket key)

include hnames

theorem fails_searchEnd :
    Fails (cacheBlocks addr cache)
      (InMemory.searchEnd (cacheRecord addr cache) bucket key) :=
  Fails.bind (fails_makeIndex hnames)

theorem fails_manifestCacheLookup :
    Fails (cacheBlocks addr cache) (InMemory.manifestCacheLookup addr.1 bucket key) :=
  Returns.bind_fails returns_loadCache (Fails.bind (fails_searchEnd hnames))

theorem fails_manifestCacheInvalidate :
    Fails (cacheBlocks addr cache) (InMemory.manifestCacheInvalidate addr.1 bucket key) :=
  Returns.bind_fails returns_loadCache (Fails.bind (fails_searchEnd hnames))

theorem fails_manifestCacheInsert (manifest : ObjectManifest) :
    Fails (cacheBlocks addr cache)
      (InMemory.manifestCacheInsert addr.1 bucket key manifest) :=
  Returns.bind_fails returns_loadCache (Fails.bind (fails_makeIndex hnames))

end Undefined

end Calls

end LightFS.Gateway
