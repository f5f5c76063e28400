import LightFS.Library.Heap
import LightFS.Gateway.ObjectCalls

/-!
# The encoder on a heap

The erasure coding engine (`src/gateway/gateway_ec.c`) with its memory: the engine and its matrix
are two blocks, and the fragments of an object are allocated one by one, filled in place and handed
to the caller. Blocks have a length, and an access behind their end has no result.

The matrix that the loops of `erasure_coding_engine_create` fill is the one of the model without
memory (`spec_erasureCodingEngineCreate`), and so are the fragments that `erasure_coding_encode`
leaves in the buffers (`spec_erasureCodingEncode`); if an allocation fails, the buffers before it
are released and nothing is left behind. No access is out of bounds, whatever the size of the
object, also where the `uint64_t` computations of sizes and offsets wrap.

## Main definitions

* `GatewayBlock`, `EngineRecord`, and in `InMemory` the functions of the source.
* `engineBlocks` — the blocks of an engine.
* `fragmentOf` — a fragment of an object.

## Main results

* `spec_erasureCodingEngineCreate`, `spec_erasureCodingEncode`.
-/

namespace LightFS.Gateway

open Library Meta

/-! ### The code -/

/-- `struct erasure_coding_engine`, with the address of the matrix. -/
structure EngineRecord where
  dataFragmentCount : ℕ
  parityFragmentCount : ℕ
  encodeMatrix : ℕ

/-- `struct manifest_cache`, with the address of the entries. -/
structure CacheRecord where
  entries : ℕ
  capacity : ℕ
  count : ℤ

/-- `struct gateway`, with the addresses of its parts; a part that is not checked when it is
allocated can be missing. -/
structure GatewayRecord where
  config : GatewayConfig
  placement : ℕ
  router : ℕ
  cache : ℕ
  erasureCodingEngines : ErasureCodingPolicy → Option ℕ
  manifests : Option ℕ
  batchCount : ℕ
  batchCapacity : ℕ

/-- The contents of a block: a record, an array of entries of the cache, of manifests or of bytes.
An array is as long as it was allocated. -/
inductive GatewayBlock where
  | gateway (record : GatewayRecord)
  | placement (engine : PlacementEngine)
  | router
  | cache (record : CacheRecord)
  | entries (array : List CacheEntry)
  | engine (record : EngineRecord)
  | manifests (array : List ObjectManifest)
  | bytes (b : List UInt8)

namespace GatewayBlock

def gateway? : GatewayBlock → Option GatewayRecord
  | .gateway record => some record
  | _ => none

def placement? : GatewayBlock → Option PlacementEngine
  | .placement nodes => some nodes
  | _ => none

def cache? : GatewayBlock → Option CacheRecord
  | .cache record => some record
  | _ => none

def entries? : GatewayBlock → Option (List CacheEntry)
  | .entries array => some array
  | _ => none

def engine? : GatewayBlock → Option EngineRecord
  | .engine record => some record
  | _ => none

def manifests? : GatewayBlock → Option (List ObjectManifest)
  | .manifests array => some array
  | _ => none

def bytes? : GatewayBlock → Option (List UInt8)
  | .bytes b => some b
  | _ => none

end GatewayBlock

/-- Programs on the blocks of a gateway. -/
abbrev GatewayM (α : Type) : Type := HeapM GatewayBlock α

namespace InMemory

/-- `p[i] = value`. -/
def setByte (p i : ℕ) (value : UInt8) : GatewayM Unit := do
  let b ← load (·.bytes?) p
  if i < b.length then store p (.bytes (b.set i value)) else fault

/-- The two loops that fill the matrix of an engine. -/
def fillMatrix (matrix k m : ℕ) : GatewayM Unit := do
  (List.range k).forM fun i => setByte matrix (i * k + i) 1
  (List.range m).forM fun r => (List.range k).forM fun j =>
    setByte matrix ((k + r) * k + j) (UInt8.ofNat ((r + 1) * (j + 1)))

/-- `erasure_coding_engine_create`, with the outcomes of its two allocations. -/
def erasureCodingEngineCreate (succeeds : Bool × Bool) (dataFragmentCount parityFragmentCount : ℤ) :
    GatewayM (Option ℕ) :=
  if dataFragmentCount ≤ 0 ∨ parityFragmentCount < 0 ∨
      gatewayMaxFragments < dataFragmentCount + parityFragmentCount then
    return none
  else do
    let k := dataFragmentCount.toNat
    let m := parityFragmentCount.toNat
    match ← malloc succeeds.1 (.engine ⟨k, m, 0⟩) with
    | none => return none
    | some engine =>
      match ← malloc succeeds.2 (.bytes (List.replicate ((k + m) * k) 0)) with
      | none => do
        free (some engine)
        return none
      | some matrix => do
        store engine (.engine ⟨k, m, matrix⟩)
        fillMatrix matrix k m
        return some engine

/-- `erasure_coding_engine_destroy`. -/
def erasureCodingEngineDestroy : Option ℕ → GatewayM Unit
  | none => pure ()
  | some engine => do
    let record ← load (·.engine?) engine
    free (some record.encodeMatrix)
    free (some engine)

/-- `free` of every buffer. -/
def freeFragments (fragments : List ℕ) : GatewayM Unit := fragments.forM fun p => free (some p)

/-- The loop of `erasure_coding_encode` that allocates the buffers, of which some are there. -/
def allocFragments (calloc : ℕ → Bool) (size : ℕ) : ℕ → List ℕ → GatewayM (Option (List ℕ))
  | 0, fragments => return some fragments
  | n + 1, fragments => do
    match ← malloc (calloc fragments.length) (.bytes (List.replicate size 0)) with
    | none => do
      freeFragments fragments
      return none
    | some p => allocFragments calloc size n (fragments ++ [p])

/-- `fragments[i]`. -/
def fragmentAt (fragments : List ℕ) (i : ℕ) : GatewayM ℕ :=
  match fragments[i]? with
  | some p => return p
  | none => fault

/-- `memcpy` of bytes of the object to the start of a buffer. -/
def memcpy (p : ℕ) (data : List UInt8) (offset copy : ℕ) : GatewayM Unit := do
  let b ← load (·.bytes?) p
  if copy ≤ b.length ∧ offset + copy ≤ data.length then
    store p (.bytes (overwrite b 0 ((data.drop offset).take copy)))
  else fault

/-- `copy`, the number of bytes of the object that a data fragment gets. -/
def copySize (data : List UInt8) (size offset : ℕ) : ℕ :=
  if offset < data.length then
    if data.length - offset < size then data.length - offset else size
  else 0

/-- The loop over the data fragments: its body. -/
def copyData (data : List UInt8) (size : ℕ) (fragments : List ℕ) (i : ℕ) : GatewayM Unit :=
  let offset := i * size % 2 ^ 64
  let copy := copySize data size offset
  if 0 < copy then do
    let p ← fragmentAt fragments i
    memcpy p data offset copy
  else return ()

/-- The loops over the parity fragments: the body. -/
def addToParity (record : EngineRecord) (size : ℕ) (fragments : List ℕ) (i j : ℕ) :
    GatewayM Unit := do
  let coefficient ← load (fun b => b.bytes?.bind (·[i * record.dataFragmentCount + j]?))
    record.encodeMatrix
  if coefficient = 0 then return ()
  else
    let p ← fragmentAt fragments i
    let q ← fragmentAt fragments j
    let parity ← load (·.bytes?) p
    let dataFragment ← load (·.bytes?) q
    if size ≤ parity.length ∧ size ≤ dataFragment.length then
      store p (.bytes (xorInto (parity.take size) (dataFragment.take size) ++ parity.drop size))
    else fault

/-- `erasure_coding_encode`: the buffers and the sizes, `none` for `-1`. -/
def erasureCodingEncode (calloc : ℕ → Bool) (engine : ℕ) (data : List UInt8) :
    GatewayM (Option (List ℕ × List ℕ)) := do
  let record ← load (·.engine?) engine
  let k := record.dataFragmentCount
  let m := record.parityFragmentCount
  let size := fragmentSize data.length k
  match ← allocFragments calloc size (k + m) [] with
  | none => return none
  | some fragments => do
    (List.range k).forM (copyData data size fragments)
    (List.range m).forM fun r => (List.range k).forM (addToParity record size fragments (k + r))
    return some (fragments, List.replicate (k + m) size)

end InMemory

/-! ### The matrix -/

/-- The blocks of an engine: its record and its matrix. -/
def engineBlocks (addr : ℕ × ℕ) (engine : ErasureCodingEngine) : List (ℕ × GatewayBlock) :=
  [(addr.1, .engine ⟨engine.dataFragmentCount, engine.parityFragmentCount, addr.2⟩),
    (addr.2, .bytes (slots engine.encodeMatrix (engine.totalFragments * engine.dataFragmentCount)))]

/-- The matrix behind the first rounds of the loop over the diagonal. -/
def diagonalUpTo (k n index : ℕ) : UInt8 :=
  if index / k < n ∧ index / k = index % k then 1 else 0

/-- The matrix with the first parity rows, and of the next row the first entries. -/
def rowsUpTo (k r j index : ℕ) : UInt8 :=
  if index / k < k then if index / k = index % k then 1 else 0
  else if index / k < k + r ∨ index / k = k + r ∧ index % k < j then
    UInt8.ofNat ((index / k - k + 1) * (index % k + 1))
  else 0

section Matrix

variable {k m n i j r : ℕ}

/-- The row and the column of an entry. -/
theorem eq_mul_add_iff {index : ℕ} (hj : j < k) :
    index = i * k + j ↔ index / k = i ∧ index % k = j := by
  rw [Nat.div_mod_unique (Nat.zero_lt_of_lt hj), Nat.mul_comm k, Nat.add_comm j]
  exact ⟨fun h => ⟨h.symm, hj⟩, fun h => h.1.symm⟩

/-- An entry is in a matrix with more rows. -/
theorem entry_lt (hi : i < n) (hj : j < k) : i * k + j < n * k := by
  rw [Nat.mul_comm i]
  exact Nat.mul_add_lt_mul_of_lt_of_lt hi hj

theorem diagonalUpTo_succ (hn : n < k) :
    Function.update (diagonalUpTo k n) (n * k + n) 1 = diagonalUpTo k (n + 1) := by
  funext index
  by_cases h : index = n * k + n
  · obtain ⟨hrow, hcol⟩ := (eq_mul_add_iff hn).mp h
    rw [h, Function.update_self, ← h, diagonalUpTo, hrow, hcol, if_pos ⟨n.lt_succ_self, rfl⟩]
  · rw [Function.update_of_ne h, diagonalUpTo, diagonalUpTo]
    rw [eq_mul_add_iff hn] at h
    exact if_congr (by omega) rfl rfl

theorem rowsUpTo_succ (hj : j < k) :
    Function.update (rowsUpTo k r j) ((k + r) * k + j) (UInt8.ofNat ((r + 1) * (j + 1))) =
      rowsUpTo k r (j + 1) := by
  funext index
  by_cases h : index = (k + r) * k + j
  · obtain ⟨hrow, hcol⟩ := (eq_mul_add_iff hj).mp h
    rw [h, Function.update_self, ← h, rowsUpTo, hrow, hcol, if_neg (by omega),
      if_pos (.inr ⟨rfl, j.lt_succ_self⟩), Nat.add_sub_cancel_left]
  · rw [Function.update_of_ne h, rowsUpTo, rowsUpTo]
    rw [eq_mul_add_iff hj] at h
    exact if_congr Iff.rfl rfl (if_congr (by omega) rfl rfl)

/-- A row is done when all its entries are. -/
theorem rowsUpTo_row (hk : 0 < k) : rowsUpTo k r k = rowsUpTo k (r + 1) 0 := by
  funext index
  have hcol : index % k < k := Nat.mod_lt index hk
  exact if_congr Iff.rfl rfl (if_congr (by omega) rfl rfl)

theorem diagonalUpTo_eq_rowsUpTo : diagonalUpTo k k = rowsUpTo k 0 0 := by
  funext index
  rw [diagonalUpTo, rowsUpTo]
  by_cases h : index / k < k
  · rw [if_pos h]
    exact if_congr (and_iff_right h) rfl rfl
  · rw [if_neg h, if_neg (by omega), if_neg (by omega)]

theorem rowsUpTo_eq_encodeMatrixEntry : rowsUpTo k m 0 = encodeMatrixEntry k m := by
  funext index
  rw [rowsUpTo, encodeMatrixEntry]
  exact if_congr Iff.rfl rfl (if_congr (by omega) rfl rfl)

variable {pre : List (ℕ × GatewayBlock)} {p : ℕ}

theorem returns_setByte {f : ℕ → UInt8} (hi : i < n) (value : UInt8) :
    Returns ((p, .bytes (slots f n)) :: pre) (InMemory.setByte p i value) ()
      ((p, .bytes (slots (Function.update f i value) n)) :: pre) := by
  refine Returns.bind (returns_load List.mem_cons_self rfl) ?_
  rw [if_pos (by rwa [length_slots]), slots_update]
  exact returns_store_middle [] _

/-- The loops fill the matrix of the model without memory. -/
theorem returns_fillMatrix (hk : 0 < k) :
    Returns ((p, .bytes (List.replicate ((k + m) * k) 0)) :: pre) (InMemory.fillMatrix p k m) ()
      ((p, .bytes (slots (encodeMatrixEntry k m) ((k + m) * k))) :: pre) := by
  have hzero : List.replicate ((k + m) * k) (0 : UInt8) =
      slots (diagonalUpTo k 0) ((k + m) * k) := by
    refine List.ext_getElem (by simp) fun i _ _ => ?_
    rw [List.getElem_replicate, getElem_slots, diagonalUpTo, if_neg (by omega)]
  have hdiagonal : ∀ i < k, Returns ((p, .bytes (slots (diagonalUpTo k i) ((k + m) * k))) :: pre)
      (InMemory.setByte p (i * k + i) 1) ()
      ((p, .bytes (slots (diagonalUpTo k (i + 1)) ((k + m) * k))) :: pre) := by
    intro i hi
    rw [← diagonalUpTo_succ hi]
    exact returns_setByte (entry_lt (by omega) hi) 1
  have hrow : ∀ r < m, Returns ((p, .bytes (slots (rowsUpTo k r 0) ((k + m) * k))) :: pre)
      ((List.range k).forM fun j =>
        InMemory.setByte p ((k + r) * k + j) (UInt8.ofNat ((r + 1) * (j + 1)))) ()
      ((p, .bytes (slots (rowsUpTo k (r + 1) 0) ((k + m) * k))) :: pre) := by
    intro r hr
    rw [← rowsUpTo_row hk]
    refine returns_forM_range
      (fun j => (p, .bytes (slots (rowsUpTo k r j) ((k + m) * k))) :: pre) fun j hj => ?_
    rw [← rowsUpTo_succ hj]
    exact returns_setByte (entry_lt (by omega) hj) _
  rw [hzero]
  refine Returns.bind (returns_forM_range
    (fun i => (p, .bytes (slots (diagonalUpTo k i) ((k + m) * k))) :: pre) hdiagonal) ?_
  rw [diagonalUpTo_eq_rowsUpTo, ← rowsUpTo_eq_encodeMatrixEntry]
  exact returns_forM_range
    (fun r => (p, .bytes (slots (rowsUpTo k r 0) ((k + m) * k))) :: pre) hrow

end Matrix

section Engines

variable {pre : List (ℕ × GatewayBlock)}

/-- An engine is created with its matrix, or nothing is left. -/
theorem spec_erasureCodingEngineCreate (succeeds : Bool × Bool) (k m : ℤ) :
    Spec pre (InMemory.erasureCodingEngineCreate succeeds k m) fun p owned => ∃ addr,
      let engine := if succeeds = (true, true) then erasureCodingEngineCreate k m else none
      p = engine.map (fun _ => addr.1) ∧ owned = engine.elim [] (engineBlocks addr) ++ pre := by
  rw [InMemory.erasureCodingEngineCreate, erasureCodingEngineCreate]
  split_ifs with hbad hsucceeds hsucceeds
  · exact Spec.pure ⟨(0, 0), rfl, rfl⟩
  · exact Spec.pure ⟨(0, 0), rfl, rfl⟩
  · rw [hsucceeds]
    refine Spec.bind_malloc fun engine => Spec.bind_malloc fun matrix => ?_
    refine Returns.bind (returns_store_middle [_] _) ?_
    refine Returns.bind (returns_fillMatrix (by omega)) ?_
    exact Spec.pure_of_perm (List.Perm.swap _ _ _) ⟨(engine, matrix), rfl, rfl⟩
  · obtain ⟨first, second⟩ := succeeds
    cases first
    · exact Returns.bind (returns_malloc_false _) (Spec.pure ⟨(0, 0), rfl, rfl⟩)
    · cases second
      · refine Spec.bind_malloc fun engine => Returns.bind (returns_malloc_false _) ?_
        refine Returns.bind (returns_free (List.Perm.refl _)) ?_
        exact Spec.pure ⟨(0, 0), rfl, rfl⟩
      · exact absurd rfl hsucceeds

/-- An engine is destroyed with its matrix. -/
theorem returns_erasureCodingEngineDestroy (addr : ℕ × ℕ) (engine : Option ErasureCodingEngine) :
    Returns (engine.elim [] (engineBlocks addr) ++ pre)
      (InMemory.erasureCodingEngineDestroy (engine.map fun _ => addr.1)) () pre := by
  cases engine with
  | none => exact Spec.pure ⟨rfl, rfl⟩
  | some engine =>
    refine Returns.bind (returns_load List.mem_cons_self rfl) ?_
    refine Returns.bind (returns_free (List.Perm.swap _ _ _)) ?_
    exact returns_free (List.Perm.refl _)

end Engines

/-! ### Fragments -/

/-- A fragment of an object. -/
def fragmentOf (engine : ErasureCodingEngine) (data : List UInt8) (i : ℕ) : List UInt8 :=
  let size := fragmentSize data.length engine.dataFragmentCount
  if i < engine.dataFragmentCount then dataFragment data size i
  else parityFragment engine (dataFragment data size) size i

/-- A parity fragment behind the first rounds of the loop over the data fragments. -/
def parityUpTo (engine : ErasureCodingEngine) (fragment : ℕ → List UInt8) (size i n : ℕ) :
    List UInt8 :=
  (List.range n).foldl
    (fun parity j =>
      if engine.encodeMatrix (i * engine.dataFragmentCount + j) = 0 then parity
      else xorInto parity (fragment j))
    (List.replicate size 0)

/-- The buffers behind the first rounds of the loop over the data fragments. -/
def copiedUpTo (data : List UInt8) (size n i : ℕ) : GatewayBlock :=
  .bytes (if i < n then dataFragment data size i else List.replicate size 0)

/-- The buffers with the data, the first parity fragments, and of the next one the first terms. -/
def encodedUpTo (engine : ErasureCodingEngine) (data : List UInt8) (size r n i : ℕ) :
    GatewayBlock :=
  .bytes (if i < engine.dataFragmentCount then dataFragment data size i
    else if i < engine.dataFragmentCount + r then
      parityFragment engine (dataFragment data size) size i
    else if i = engine.dataFragmentCount + r then
      parityUpTo engine (dataFragment data size) size i n
    else List.replicate size 0)

section Fragments

variable {pre : List (ℕ × GatewayBlock)} {ptrs : List ℕ} {data : List UInt8} {size : ℕ}
  {engine : ErasureCodingEngine}

/-- The buffers are allocated, or all of them are released. -/
theorem spec_allocFragments (calloc : ℕ → Bool) (size n : ℕ) (fragments : List ℕ) :
    Spec (pointees fragments (fun _ => .bytes (List.replicate size 0)) ++ pre)
      (InMemory.allocFragments calloc size n fragments) fun r owned =>
        (∀ i < n, calloc (fragments.length + i) = true) ∧
          (∃ ptrs, r = some ptrs ∧ ptrs.length = fragments.length + n ∧
            owned = pointees ptrs (fun _ => .bytes (List.replicate size 0)) ++ pre) ∨
        ¬ (∀ i < n, calloc (fragments.length + i) = true) ∧ r = none ∧ owned = pre := by
  induction n generalizing fragments with
  | zero => exact Spec.pure (.inl ⟨fun i hi => absurd hi i.not_lt_zero, fragments, rfl, rfl, rfl⟩)
  | succ n ih =>
    have hshift : (∀ i < n + 1, calloc (fragments.length + i) = true) ↔
        calloc fragments.length = true ∧ ∀ i < n, calloc (fragments.length + 1 + i) = true := by
      rw [Nat.forall_lt_succ_left']
      simp only [Nat.add_zero, Nat.add_assoc, Nat.add_comm 1]
    rw [hshift, InMemory.allocFragments]
    cases hcalloc : calloc fragments.length with
    | false =>
      refine Returns.bind (returns_malloc_false _) ?_
      refine Returns.bind (returns_free_pointees _ _) (Spec.pure (.inr ⟨?_, rfl, rfl⟩))
      exact fun h => Bool.false_ne_true h.1
    | true =>
      refine Spec.bind_malloc fun p => ?_
      have hperm : ((p, .bytes (List.replicate size 0)) ::
          (pointees fragments (fun _ => .bytes (List.replicate size 0)) ++ pre)).Perm
            (pointees (fragments ++ [p]) (fun _ => .bytes (List.replicate size 0)) ++ pre) := by
        rw [pointees_concat, List.append_assoc]
        exact List.perm_middle.symm
      refine ((ih (fragments ++ [p])).of_perm hperm).weaken fun r owned h => ?_
      rw [List.length_append, List.length_singleton] at h
      simpa [Nat.add_assoc, Nat.add_comm 1] using h

theorem returns_fragmentAt {i p : ℕ} (hp : ptrs[i]? = some p) :
    Returns pre (InMemory.fragmentAt ptrs i) p pre := by
  rw [InMemory.fragmentAt, hp]
  exact Spec.pure ⟨rfl, rfl⟩

/-- The bytes that a data fragment is given are in the object, and there is room for them. -/
theorem copySize_le (data : List UInt8) (size offset : ℕ) :
    InMemory.copySize data size offset ≤ size ∧ (0 < InMemory.copySize data size offset →
      offset + InMemory.copySize data size offset ≤ data.length) := by
  rw [InMemory.copySize]
  split_ifs <;> omega

theorem dataFragment_eq_overwrite (data : List UInt8) (size i : ℕ) :
    dataFragment data size i = overwrite (List.replicate size 0) 0
      ((data.drop (i * size % 2 ^ 64)).take
        (InMemory.copySize data size (i * size % 2 ^ 64))) := rfl

theorem length_dataFragment (data : List UInt8) (size i : ℕ) :
    (dataFragment data size i).length = size := by
  obtain ⟨hsize, -⟩ := copySize_le data size (i * size % 2 ^ 64)
  rw [dataFragment_eq_overwrite, length_overwrite, List.length_replicate]
  rw [Nat.zero_add, List.length_replicate, List.length_take]
  exact (Nat.min_le_left _ _).trans hsize

/-- A data fragment is copied to its buffer. -/
theorem returns_copyData {i : ℕ} (hi : i < ptrs.length) :
    Returns (pointees ptrs (copiedUpTo data size i) ++ pre) (InMemory.copyData data size ptrs i) ()
      (pointees ptrs (copiedUpTo data size (i + 1)) ++ pre) := by
  have hp : ptrs[i]? = some ptrs[i] := List.getElem?_eq_getElem hi
  have hzero : copiedUpTo data size i i = .bytes (List.replicate size 0) := by
    rw [copiedUpTo, if_neg i.lt_irrefl]
  have hnext : copiedUpTo data size (i + 1) =
      Function.update (copiedUpTo data size i) i (.bytes (dataFragment data size i)) := by
    funext j
    by_cases hj : j = i
    · rw [hj, Function.update_self, copiedUpTo, if_pos i.lt_succ_self]
    · rw [Function.update_of_ne hj, copiedUpTo, copiedUpTo]
      exact congrArg _ (if_congr (by omega) rfl rfl)
  obtain ⟨hsize, hbound⟩ := copySize_le data size (i * size % 2 ^ 64)
  dsimp only [InMemory.copyData]
  split_ifs with hcopy
  · refine Returns.bind (returns_fragmentAt hp) ?_
    refine Returns.bind (returns_load (List.mem_append_left _ (mem_pointees hp))
      (by rw [hzero]; rfl)) ?_
    rw [if_pos ⟨by rwa [List.length_replicate], hbound hcopy⟩, hnext]
    exact returns_store_pointee hp _
  · have hsame : dataFragment data size i = List.replicate size 0 := by
      rw [dataFragment_eq_overwrite, Nat.eq_zero_of_not_pos hcopy, List.take_zero]
      simp [overwrite]
    rw [hnext, hsame, ← hzero, Function.update_eq_self]
    exact Spec.pure ⟨rfl, rfl⟩

/-- One more round adds a data fragment, unless its coefficient is zero. -/
theorem parityUpTo_succ (fragment : ℕ → List UInt8) (i n : ℕ) :
    parityUpTo engine fragment size i (n + 1) =
      if engine.encodeMatrix (i * engine.dataFragmentCount + n) = 0 then
        parityUpTo engine fragment size i n
      else xorInto (parityUpTo engine fragment size i n) (fragment n) := by
  rw [parityUpTo, List.range_succ, List.foldl_append]
  rfl

theorem length_parityUpTo {fragment : ℕ → List UInt8} (h : ∀ j, (fragment j).length = size)
    (i n : ℕ) : (parityUpTo engine fragment size i n).length = size := by
  induction n with
  | zero => exact List.length_replicate
  | succ n ih =>
    rw [parityUpTo_succ]
    split_ifs
    · exact ih
    · rw [length_xorInto (ih.trans (h n).symm), ih]

/-- The parity fragment that is being computed. -/
theorem encodedUpTo_parity (r n : ℕ) :
    encodedUpTo engine data size r n (engine.dataFragmentCount + r) = .bytes
      (parityUpTo engine (dataFragment data size) size (engine.dataFragmentCount + r) n) := by
  rw [encodedUpTo, if_neg (by omega), if_neg (by omega), if_pos rfl]

/-- One more round changes no other buffer. -/
theorem encodedUpTo_succ (r n : ℕ) : encodedUpTo engine data size r (n + 1) =
    Function.update (encodedUpTo engine data size r n) (engine.dataFragmentCount + r) (.bytes
      (parityUpTo engine (dataFragment data size) size (engine.dataFragmentCount + r)
        (n + 1))) := by
  funext i
  by_cases hi : i = engine.dataFragmentCount + r
  · rw [hi, Function.update_self, encodedUpTo_parity]
  · rw [Function.update_of_ne hi, encodedUpTo, encodedUpTo, if_neg hi, if_neg hi]

/-- A parity fragment is done when all data fragments are added. -/
theorem encodedUpTo_row (r : ℕ) : encodedUpTo engine data size r engine.dataFragmentCount =
    encodedUpTo engine data size (r + 1) 0 := by
  funext i
  rw [encodedUpTo, encodedUpTo]
  refine congrArg GatewayBlock.bytes (if_congr Iff.rfl rfl ?_)
  rcases lt_trichotomy i (engine.dataFragmentCount + r) with h | rfl | h
  · rw [if_pos h, if_pos (by omega)]
  · rw [if_neg (Nat.lt_irrefl _), if_pos rfl, if_pos (by omega)]
    rfl
  · rw [if_neg (by omega), if_neg (by omega), if_neg (by omega), parityUpTo, List.range_zero,
      List.foldl_nil, ite_self]

/-- A data fragment is added to a parity fragment. -/
theorem returns_addToParity {matrix r j : ℕ} (hptrs : ptrs.length = engine.totalFragments)
    (hmatrix : (matrix, GatewayBlock.bytes (slots engine.encodeMatrix
      (engine.totalFragments * engine.dataFragmentCount))) ∈ pre)
    (hr : r < engine.parityFragmentCount) (hj : j < engine.dataFragmentCount) :
    Returns (pointees ptrs (encodedUpTo engine data size r j) ++ pre)
      (InMemory.addToParity ⟨engine.dataFragmentCount, engine.parityFragmentCount, matrix⟩ size ptrs
        (engine.dataFragmentCount + r) j) ()
      (pointees ptrs (encodedUpTo engine data size r (j + 1)) ++ pre) := by
  have htotal : engine.totalFragments =
      engine.dataFragmentCount + engine.parityFragmentCount := rfl
  have hp : ptrs[engine.dataFragmentCount + r]? = some ptrs[engine.dataFragmentCount + r] :=
    List.getElem?_eq_getElem (by omega)
  have hq : ptrs[j]? = some ptrs[j] := List.getElem?_eq_getElem (by omega)
  have hdata : encodedUpTo engine data size r j j = .bytes (dataFragment data size j) := by
    rw [encodedUpTo, if_pos hj]
  have hentry : (slots engine.encodeMatrix (engine.totalFragments * engine.dataFragmentCount))[
      (engine.dataFragmentCount + r) * engine.dataFragmentCount + j]? =
        some (engine.encodeMatrix
          ((engine.dataFragmentCount + r) * engine.dataFragmentCount + j)) := by
    have hlt := entry_lt (show engine.dataFragmentCount + r < engine.totalFragments by omega) hj
    rw [List.getElem?_eq_getElem (by rwa [length_slots]), getElem_slots]
  refine Returns.bind (returns_load (List.mem_append_right _ hmatrix) hentry) ?_
  rw [encodedUpTo_succ, parityUpTo_succ]
  split_ifs with hzero
  · rw [← encodedUpTo_parity, Function.update_eq_self]
    exact Spec.pure ⟨rfl, rfl⟩
  · have hlength : (parityUpTo engine (dataFragment data size) size
        (engine.dataFragmentCount + r) j).length = size :=
      length_parityUpTo (length_dataFragment data size) _ j
    have hlength' := length_dataFragment data size j
    refine Returns.bind (returns_fragmentAt hp) (Returns.bind (returns_fragmentAt hq) ?_)
    refine Returns.bind (returns_load (List.mem_append_left _ (mem_pointees hp))
      (by rw [encodedUpTo_parity]; rfl)) ?_
    refine Returns.bind (returns_load (List.mem_append_left _ (mem_pointees hq))
      (by rw [hdata]; rfl)) ?_
    rw [if_pos ⟨hlength.ge, hlength'.ge⟩, List.take_of_length_le hlength.le,
      List.take_of_length_le hlength'.le, List.drop_eq_nil_of_le hlength.le, List.append_nil]
    exact returns_store_pointee hp _

theorem erasureCodingEncode_of_calloc {calloc : ℕ → Bool}
    (h : ∀ i < engine.totalFragments, calloc i = true) :
    erasureCodingEncode calloc engine data = some
      { fragments := slots (fragmentOf engine data) engine.totalFragments
        fragmentSizes := List.replicate engine.totalFragments
          (fragmentSize data.length engine.dataFragmentCount) } := by
  rw [erasureCodingEncode, if_pos (by simpa using h)]
  rfl

/-- **Encoding.** The buffers hold the fragments of the model without memory, or nothing is left. -/
theorem spec_erasureCodingEncode {addr : ℕ × ℕ} (hengine : engineBlocks addr engine ⊆ pre)
    (calloc : ℕ → Bool) (data : List UInt8) :
    Spec pre (InMemory.erasureCodingEncode calloc addr.1 data) fun r owned =>
      (∀ i < engine.totalFragments, calloc i = true) ∧
        (∃ ptrs, r = some (ptrs, List.replicate engine.totalFragments
            (fragmentSize data.length engine.dataFragmentCount)) ∧
          ptrs.length = engine.totalFragments ∧
          owned = pointees ptrs (fun i => .bytes (fragmentOf engine data i)) ++ pre) ∨
      ¬ (∀ i < engine.totalFragments, calloc i = true) ∧ r = none ∧ owned = pre := by
  set size := fragmentSize data.length engine.dataFragmentCount with hsize
  have hmatrix := hengine (List.mem_cons_of_mem _ List.mem_cons_self)
  refine Returns.bind (returns_load (hengine List.mem_cons_self) rfl) ?_
  refine Spec.bind (spec_allocFragments calloc size engine.totalFragments []) ?_
  simp only [List.length_nil, Nat.zero_add]
  rintro _ _ (⟨hcalloc, ptrs, rfl, hptrs, rfl⟩ | ⟨hcalloc, rfl, rfl⟩)
  · have hzero : (fun _ => .bytes (List.replicate size 0)) = copiedUpTo data size 0 := by
      funext i
      rw [copiedUpTo, if_neg i.not_lt_zero]
    have hcopied : copiedUpTo data size engine.dataFragmentCount =
        encodedUpTo engine data size 0 0 := by
      funext i
      rw [copiedUpTo, encodedUpTo, Nat.add_zero, parityUpTo, List.range_zero, List.foldl_nil,
        ite_self]
      split_ifs <;> rfl
    have hdone : pointees ptrs (encodedUpTo engine data size engine.parityFragmentCount 0) =
        pointees ptrs (fun i => .bytes (fragmentOf engine data i)) := by
      refine pointees_congr fun i hi => ?_
      rw [hptrs, ErasureCodingEngine.totalFragments] at hi
      rw [encodedUpTo, if_pos hi]
      rfl
    rw [hzero]
    refine Returns.bind (returns_forM_range
      (fun i => pointees ptrs (copiedUpTo data size i) ++ pre) fun i hi =>
        returns_copyData (by rw [hptrs, ErasureCodingEngine.totalFragments]; omega)) ?_
    rw [hcopied]
    refine Returns.bind (returns_forM_range
      (fun r => pointees ptrs (encodedUpTo engine data size r 0) ++ pre) fun r hr => ?_) ?_
    · rw [← encodedUpTo_row]
      exact returns_forM_range (fun j => pointees ptrs (encodedUpTo engine data size r j) ++ pre)
        fun j hj => returns_addToParity hptrs hmatrix hr hj
    · rw [hdone]
      exact Spec.pure (.inl ⟨hcalloc, ptrs, rfl, hptrs, rfl⟩)
  · exact Spec.pure (.inr ⟨hcalloc, rfl, rfl⟩)

end Fragments

end LightFS.Gateway
