import Mathlib.Data.List.GetD
import Mathlib.Tactic.Linarith
import Mathlib.Tactic.NormNum
import LightFS.Library.ByteCursor
import LightFS.Library.FormattedText
import LightFS.Library.XorParity

/-!
# The erasure coding engine

The engine of the gateway (`src/gateway/gateway_ec.c`): an object is cut into `k` data fragments
of one size, a multiple of 64, and `m` parity fragments are computed from them. The coefficients
of the encoding matrix are read only to be compared with zero; a data fragment with a non-zero
coefficient is XOR-ed into the parity fragment as it is. Decoding copies the data fragments it finds
to their places and nothing else.

Sizes are `uint64_t` in the source; the model computes them in `ℕ` with the reductions modulo
`2 ^ 64` written out.

## Main definitions

* `ErasureCodingPolicy`, `erasureCodingParamsForPolicy`.
* `ErasureCodingEngine`, `erasureCodingEngineCreate`.
* `fragmentSize`, `dataFragment`, `parityFragment`, `erasureCodingEncode`.
* `erasureCodingDecode`.

## Main results

* `fragmentSize_eq`, `fragmentSize_eq_zero`.
* `dataFragment_eq`, `parityFragment_eq`.
-/

namespace LightFS.Gateway

open Library

/-- `GATEWAY_MAX_FRAGMENTS`. -/
abbrev gatewayMaxFragments : ℕ := 20

/-- `erasure_coding_policy_t`. -/
inductive ErasureCodingPolicy where
  | replication2x
  | replication3x
  | sixPlusThree
  | tenPlusFour
deriving DecidableEq

/-- `erasure_coding_params_t`. -/
structure ErasureCodingParams where
  dataFragments : ℕ
  parityFragments : ℕ
  stripeSize : ℕ

/-- `erasure_coding_params_for_policy`. -/
def erasureCodingParamsForPolicy : ErasureCodingPolicy → ErasureCodingParams
  | .replication2x => ⟨1, 1, 0⟩
  | .replication3x => ⟨1, 2, 0⟩
  | .sixPlusThree => ⟨6, 3, 512 * 1024⟩
  | .tenPlusFour => ⟨10, 4, 4 * 1024 * 1024⟩

/-- `struct erasure_coding_engine`. The matrix is indexed as in the source, by
`row * data_fragment_count + column`. -/
structure ErasureCodingEngine where
  dataFragmentCount : ℕ
  parityFragmentCount : ℕ
  encodeMatrix : ℕ → UInt8

/-- The number of fragments of an object. -/
def ErasureCodingEngine.totalFragments (engine : ErasureCodingEngine) : ℕ :=
  engine.dataFragmentCount + engine.parityFragmentCount

/-- The matrix the two loops of `erasure_coding_engine_create` fill: the identity, and below it
the rows of the parity fragments. -/
def encodeMatrixEntry (k m : ℕ) (index : ℕ) : UInt8 :=
  let i := index / k
  let j := index % k
  if i < k then if i = j then 1 else 0
  else if i < k + m then UInt8.ofNat ((i - k + 1) * (j + 1))
  else 0

/-- `erasure_coding_engine_create`, its allocations succeeding; `none` for `NULL`. -/
def erasureCodingEngineCreate (dataFragmentCount parityFragmentCount : ℤ) :
    Option ErasureCodingEngine :=
  if dataFragmentCount ≤ 0 ∨ parityFragmentCount < 0 ∨
      gatewayMaxFragments < dataFragmentCount + parityFragmentCount then none
  else
    some
      { dataFragmentCount := dataFragmentCount.toNat
        parityFragmentCount := parityFragmentCount.toNat
        encodeMatrix := encodeMatrixEntry dataFragmentCount.toNat parityFragmentCount.toNat }

/-! ### Encoding -/

/-- The size of every fragment of an object of `dataSize` bytes. -/
def fragmentSize (dataSize k : ℕ) : ℕ :=
  let perFragment := (dataSize + k - 1) % 2 ^ 64 / k
  (perFragment + 63) % 2 ^ 64 / 64 * 64 % 2 ^ 64

/-- The data fragment `i`: the bytes of the object from offset `i * size` on, in a zeroed
buffer. -/
def dataFragment (data : List UInt8) (size i : ℕ) : List UInt8 :=
  let offset := i * size % 2 ^ 64
  let copy :=
    if offset < data.length then
      if data.length - offset < size then data.length - offset else size
    else 0
  overwrite (List.replicate size 0) 0 ((data.drop offset).take copy)

/-- The parity fragment `i`: the data fragments with a non-zero coefficient, XOR-ed. -/
def parityFragment (engine : ErasureCodingEngine) (fragment : ℕ → List UInt8) (size i : ℕ) :
    List UInt8 :=
  (List.range engine.dataFragmentCount).foldl
    (fun parity j =>
      if engine.encodeMatrix (i * engine.dataFragmentCount + j) = 0 then parity
      else xorInto parity (fragment j))
    (List.replicate size 0)

/-- The fragments and sizes `erasure_coding_encode` writes. -/
structure EncodedFragments where
  fragments : List (List UInt8)
  fragmentSizes : List ℕ

/-- `erasure_coding_encode`, with the outcome of each `calloc`; `none` for `-1`. -/
def erasureCodingEncode (calloc : ℕ → Bool) (engine : ErasureCodingEngine) (data : List UInt8) :
    Option EncodedFragments :=
  let size := fragmentSize data.length engine.dataFragmentCount
  if (List.range engine.totalFragments).all calloc then
    some
      { fragments := (List.range engine.totalFragments).map fun i =>
          if i < engine.dataFragmentCount then dataFragment data size i
          else parityFragment engine (dataFragment data size) size i
        fragmentSizes := List.replicate engine.totalFragments size }
  else none

/-! ### Decoding -/

/-- What `erasure_coding_decode` leaves: its result, the memory at `data_out` and the size it
reports. -/
structure DecodedData where
  status : ℤ
  dataOut : Buffer
  dataSizeOut : ℕ

/-- The body of the loop of `erasure_coding_decode`: the data fragment `i`, if it is in the list, is
copied to its place. -/
def copyFragment (fragments : ℕ → List UInt8) (fragmentMap : ℕ → ℤ) (fragmentCount size : ℕ)
    (dataOut : Buffer) (i : ℕ) : Buffer :=
  match findSlot (fun index => index = (i : ℤ)) fragmentMap 0 fragmentCount with
  | some found => dataOut.store (i * size % 2 ^ 64) ((fragments found).take size)
  | none => dataOut

/-- `erasure_coding_decode`. The size of the fragments is read from the first entry of the array
also when the list is empty. -/
def erasureCodingDecode (engine : ErasureCodingEngine) (fragments : ℕ → List UInt8)
    (fragmentSizes : ℕ → ℕ) (fragmentMap : ℕ → ℤ) (fragmentCount : ℕ) (dataOut : Buffer) :
    DecodedData :=
  let size := fragmentSizes 0
  { status := 0
    dataOut := (List.range engine.dataFragmentCount).foldl
      (copyFragment fragments fragmentMap fragmentCount size) dataOut
    dataSizeOut := size * engine.dataFragmentCount % 2 ^ 64 }

/-! ### The matrix -/

/-- What an engine that `erasure_coding_engine_create` returned looks like. -/
structure ErasureCodingEngine.Admitted (engine : ErasureCodingEngine) : Prop where
  data_pos : 0 < engine.dataFragmentCount
  total_le : engine.totalFragments ≤ gatewayMaxFragments
  encodeMatrix_eq :
    engine.encodeMatrix = encodeMatrixEntry engine.dataFragmentCount engine.parityFragmentCount

theorem erasureCodingEngineCreate_eq_some {k m : ℤ} {engine : ErasureCodingEngine}
    (h : erasureCodingEngineCreate k m = some engine) :
    engine.Admitted ∧ (engine.dataFragmentCount : ℤ) = k ∧
      (engine.parityFragmentCount : ℤ) = m := by
  rw [erasureCodingEngineCreate] at h
  split_ifs at h with hbad
  obtain rfl := Option.some.inj h
  simp only [not_or, not_le, not_lt] at hbad
  obtain ⟨hk, hm, htotal⟩ := hbad
  refine ⟨⟨?_, ?_, rfl⟩, ?_, ?_⟩ <;> simp only [ErasureCodingEngine.totalFragments] <;> omega

/-- The coefficients of the parity rows. -/
theorem ErasureCodingEngine.Admitted.encodeMatrix_parity {engine : ErasureCodingEngine}
    (h : engine.Admitted) {r j : ℕ} (hr : r < engine.parityFragmentCount)
    (hj : j < engine.dataFragmentCount) :
    engine.encodeMatrix ((engine.dataFragmentCount + r) * engine.dataFragmentCount + j) =
      UInt8.ofNat ((r + 1) * (j + 1)) := by
  set k := engine.dataFragmentCount with hk
  have hrow : ((k + r) * k + j) / k = k + r := by
    rw [Nat.mul_comm, Nat.mul_add_div h.data_pos, Nat.div_eq_of_lt hj, Nat.add_zero]
  have hcol : ((k + r) * k + j) % k = j := by
    rw [Nat.mul_comm, Nat.mul_add_mod, Nat.mod_eq_of_lt hj]
  rw [h.encodeMatrix_eq, encodeMatrixEntry, ← hk, hrow, hcol, if_neg (by omega),
    if_pos (by omega), Nat.add_sub_cancel_left]

/-- The coefficients of the parity rows are below 256. -/
theorem ErasureCodingEngine.Admitted.coefficient_lt {engine : ErasureCodingEngine}
    (h : engine.Admitted) {r j : ℕ} (hr : r < engine.parityFragmentCount)
    (hj : j < engine.dataFragmentCount) : (r + 1) * (j + 1) < 256 := by
  have htotal : engine.dataFragmentCount + engine.parityFragmentCount ≤ 20 := h.total_le
  have hsum : (r + 1) + (j + 1) ≤ 20 := by omega
  nlinarith

/-- No coefficient of a parity row is zero. -/
theorem ErasureCodingEngine.Admitted.encodeMatrix_ne_zero {engine : ErasureCodingEngine}
    (h : engine.Admitted) {i j : ℕ} (hi : engine.dataFragmentCount ≤ i)
    (hi' : i < engine.totalFragments) (hj : j < engine.dataFragmentCount) :
    engine.encodeMatrix (i * engine.dataFragmentCount + j) ≠ 0 := by
  obtain ⟨r, rfl⟩ := Nat.exists_eq_add_of_le hi
  have hr : r < engine.parityFragmentCount := Nat.lt_of_add_lt_add_left hi'
  rw [h.encodeMatrix_parity hr hj]
  intro hzero
  have hproduct := congrArg UInt8.toNat hzero
  rw [UInt8.toNat_ofNat_of_lt' (h.coefficient_lt hr hj)] at hproduct
  exact (Nat.mul_pos r.succ_pos j.succ_pos).ne' hproduct

/-! ### Sizes -/

/-- The fragment size without overflow: `64` times the number of 64-byte rows. -/
def paddedFragmentSize (dataSize k : ℕ) : ℕ := 64 * ((dataSize + 64 * k - 1) / (64 * k))

/-- The `uint64_t` sums of the size computation do not wrap. -/
def SizeFits (dataSize k : ℕ) : Prop :=
  dataSize + k - 1 < 2 ^ 64 ∧ (dataSize + k - 1) / k + 63 < 2 ^ 64

theorem fragmentSize_eq {n k : ℕ} (hk : 0 < k) (h : SizeFits n k) :
    fragmentSize n k = paddedFragmentSize n k := by
  obtain ⟨h₁, h₂⟩ := h
  have hdiv : ((n + k - 1) / k + 63) / 64 = (n + 64 * k - 1) / (64 * k) := by
    have hsum : n + 64 * k - 1 = n + k - 1 + k * 63 := by omega
    rw [hsum, Nat.mul_comm 64 k, ← Nat.div_div_eq_div_mul, Nat.add_mul_div_left _ _ hk]
  rw [fragmentSize, Nat.mod_eq_of_lt h₁, Nat.mod_eq_of_lt h₂, hdiv, paddedFragmentSize,
    Nat.mul_comm, Nat.mod_eq_of_lt]
  rw [← hdiv]
  omega

/-- A size computation that wraps gives empty fragments. -/
theorem fragmentSize_eq_zero {n k : ℕ} (hn : n < 2 ^ 64) (hk : 0 < k)
    (hk' : k ≤ gatewayMaxFragments) (h : ¬ SizeFits n k) : fragmentSize n k = 0 := by
  have hk₂₀ : k ≤ 20 := hk'
  have hwrap : (n + k - 1) % 2 ^ 64 / k + 63 < 64 ∨
      2 ^ 64 ≤ (n + k - 1) % 2 ^ 64 / k + 63 ∧ (n + k - 1) % 2 ^ 64 / k < 2 ^ 64 := by
    by_cases h₁ : n + k - 1 < 2 ^ 64
    · rw [Nat.mod_eq_of_lt h₁]
      exact .inr ⟨not_lt.mp fun h₂ => h ⟨h₁, h₂⟩, (Nat.div_le_self _ _).trans_lt h₁⟩
    · have hsmall : (n + k - 1) % 2 ^ 64 < k := by omega
      rw [Nat.div_eq_of_lt hsmall]
      exact .inl (by norm_num)
  rw [fragmentSize]
  generalize (n + k - 1) % 2 ^ 64 / k = x at hwrap ⊢
  omega

/-- The fragments have room for the data, and less than one row of 64 bytes each is lost. -/
theorem paddedFragmentSize_bounds {n k : ℕ} (hk : 0 < k) :
    n ≤ k * paddedFragmentSize n k ∧ k * paddedFragmentSize n k ≤ n + 64 * k - 1 := by
  have hmul : k * paddedFragmentSize n k = 64 * k * ((n + 64 * k - 1) / (64 * k)) := by
    rw [paddedFragmentSize, ← Nat.mul_assoc, Nat.mul_comm k 64]
  have hdiv := Nat.div_add_mod (n + 64 * k - 1) (64 * k)
  have hmod := Nat.mod_lt (n + 64 * k - 1) (show 0 < 64 * k by omega)
  omega

theorem offset_lt {n k i : ℕ} (hn : n < 2 ^ 64) (hk' : k ≤ gatewayMaxFragments) (hi : i < k) :
    i * paddedFragmentSize n k < 2 ^ 64 := by
  have hk : 0 < k := by omega
  have hk₂₀ : k ≤ 20 := hk'
  obtain ⟨-, hupper⟩ := paddedFragmentSize_bounds (n := n) hk
  have hnext :
      i * paddedFragmentSize n k + paddedFragmentSize n k ≤ k * paddedFragmentSize n k := by
    rw [← Nat.succ_mul]
    exact Nat.mul_le_mul_right _ hi
  rcases Nat.lt_or_ge (paddedFragmentSize n k) 1280 with hsmall | hlarge
  · calc i * paddedFragmentSize n k ≤ 20 * 1280 := Nat.mul_le_mul (by omega) hsmall.le
      _ < 2 ^ 64 := by norm_num
  · omega

/-! ### Fragments as blocks -/

/-- A data fragment holds its part of the object, followed by zeros. -/
theorem dataFragment_eq {data : List UInt8} {size i : ℕ} (h : i * size < 2 ^ 64) :
    dataFragment data size i = slots (fun b => data.getD (i * size + b) 0) size := by
  have hcopy : (if i * size < data.length then
      if data.length - i * size < size then data.length - i * size else size else 0) =
      min size (data.length - i * size) := by
    split_ifs <;> omega
  have hlen : ((data.drop (i * size)).take (min size (data.length - i * size))).length =
      min size (data.length - i * size) := by
    simp
  rw [dataFragment, Nat.mod_eq_of_lt h]
  simp only [hcopy]
  refine List.ext_getElem ?_ fun b hb hb' => ?_
  · rw [length_overwrite (by rw [hlen, List.length_replicate]; omega), length_slots,
      List.length_replicate]
  · have hbsize : b < size := by simpa using hb'
    simp only [overwrite, List.take_zero, List.nil_append, Nat.zero_add, hlen, getElem_slots,
      List.drop_replicate]
    rcases Nat.lt_or_ge b (min size (data.length - i * size)) with hin | hout
    · rw [List.getElem_append_left (by omega), List.getElem_take, List.getElem_drop,
        List.getD_eq_getElem _ _ (by omega)]
    · rw [List.getElem_append_right (by omega), List.getElem_replicate,
        List.getD_eq_default _ _ (by omega)]

/-- No data fragment is skipped. -/
theorem parityFragment_eq_xorBlocks {engine : ErasureCodingEngine} (h : engine.Admitted) {i : ℕ}
    (hi : engine.dataFragmentCount ≤ i) (hi' : i < engine.totalFragments)
    (fragment : ℕ → List UInt8) (size : ℕ) :
    parityFragment engine fragment size i =
      xorBlocks size ((List.range engine.dataFragmentCount).map fragment) := by
  rw [parityFragment, xorBlocks, List.foldl_map]
  refine List.foldl_ext _ _ _ fun parity j hj => ?_
  rw [if_neg (h.encodeMatrix_ne_zero hi hi' (List.mem_range.mp hj))]

/-- A parity fragment is the XOR of all data fragments. -/
theorem parityFragment_eq {engine : ErasureCodingEngine} (h : engine.Admitted) {i : ℕ}
    (hi : engine.dataFragmentCount ≤ i) (hi' : i < engine.totalFragments)
    {fragment : ℕ → List UInt8} {block : ℕ → ℕ → UInt8} {size : ℕ}
    (hfragment : ∀ j < engine.dataFragmentCount, fragment j = slots (block j) size) :
    parityFragment engine fragment size i =
      slots (fun b => xorSum (fun j => block j b) engine.dataFragmentCount) size := by
  rw [parityFragment_eq_xorBlocks h hi hi', xorBlocks, List.foldl_map, ← foldl_xorInto]
  refine List.foldl_ext _ _ _ fun parity j hj => ?_
  rw [hfragment j (List.mem_range.mp hj)]

end LightFS.Gateway
