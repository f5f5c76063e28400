import Mathlib.Order.Bounds.Basic
import LightFS.Gateway.ErasureDurability

/-!
# Encoding and decoding an object

How the fragments of an object are laid out, and what `erasure_coding_decode` makes of a list of
them. The data fragments, one behind the other, are the object and zeros, and each parity fragment
is the XOR of all of them (`encode_layout`), so that one lost fragment can be computed from the
others. The decoder does not do this: it copies the data fragments that are there to their places.
With all of them it restores the object (`decode_complete`); without one it reports success all the
same, and the result is right only where the buffer happened to hold the missing bytes before
(`decode_right_iff`). The zeros are copied as well, past the end of the object, unless there are
none (`decode_within_size_iff`).

## Main definitions

* `Gathered` — arrays that describe a list of fragments of an object.

## Main results

* `erasureCodingDecode_dataOut` — the memory after decoding, byte by byte.
* `encode_layout`, `decode_complete`, `decode_right_iff`, `decode_within_size_iff`.
-/

namespace LightFS.Gateway

open Library

/-! ### The layout -/

section Layout

variable {n k : ℕ}

theorem sizeFits_of_lt (h : n + k + 63 < 2 ^ 63) : SizeFits n k := by
  have hdiv : (n + k - 1) / k ≤ n + k - 1 := Nat.div_le_self _ _
  exact ⟨by omega, by omega⟩

/-- The size of a fragment is the least multiple of 64 that is enough. -/
theorem isLeast_paddedFragmentSize (hk : 0 < k) :
    IsLeast {F | 64 ∣ F ∧ n ≤ k * F} (paddedFragmentSize n k) := by
  refine ⟨⟨Nat.dvd_mul_right .., (paddedFragmentSize_bounds hk).1⟩, ?_⟩
  rintro _ ⟨⟨q, rfl⟩, hq⟩
  have hrows : (n + 64 * k - 1) / (64 * k) < q + 1 := by
    rw [Nat.div_lt_iff_lt_mul (by omega)]
    have hmul : (q + 1) * (64 * k) = k * (64 * q) + 64 * k := by ring
    omega
  exact Nat.mul_le_mul_left 64 (Nat.lt_succ_iff.mp hrows)

end Layout

section Encoding

variable {engine : ErasureCodingEngine} {data : List UInt8}

/-- The offset of a data fragment does not wrap, whatever the size of the object. -/
theorem fragmentOffset_lt (h : engine.Admitted) (hdata : data.length < 2 ^ 64) {i : ℕ}
    (hi : i < engine.dataFragmentCount) :
    i * fragmentSize data.length engine.dataFragmentCount < 2 ^ 64 := by
  have hk : engine.dataFragmentCount ≤ gatewayMaxFragments :=
    (Nat.le_add_right _ _).trans h.total_le
  by_cases hfits : SizeFits data.length engine.dataFragmentCount
  · rw [fragmentSize_eq h.data_pos hfits]
    exact offset_lt hdata hk hi
  · rw [fragmentSize_eq_zero hdata h.data_pos hk hfits]
    norm_num

/-- The data fragments of an object, and behind them the parity of all of them, once for each
parity row. -/
theorem erasureCodingEncode_eq (h : engine.Admitted) :
    erasureCodingEncode (fun _ => true) engine data = some
      (let size := fragmentSize data.length engine.dataFragmentCount
       let blocks := (List.range engine.dataFragmentCount).map (dataFragment data size)
       { fragments := blocks ++ List.replicate engine.parityFragmentCount (xorBlocks size blocks)
         fragmentSizes := List.replicate engine.totalFragments size }) := by
  rw [erasureCodingEncode, if_pos (by simp)]
  congr 2
  rw [ErasureCodingEngine.totalFragments, List.range_add, List.map_append, List.map_map]
  congr 1
  · refine List.map_congr_left fun i hi => ?_
    rw [if_pos (List.mem_range.mp hi)]
  · rw [← List.length_range (n := engine.parityFragmentCount), ← List.map_const',
      List.length_range]
    refine List.map_congr_left fun r hr => ?_
    have hr := List.mem_range.mp hr
    have htotal : engine.dataFragmentCount + r < engine.totalFragments :=
      Nat.add_lt_add_left hr _
    rw [Function.comp_apply, if_neg (Nat.not_lt.mpr (Nat.le_add_right _ _)),
      parityFragment_eq_xorBlocks h (Nat.le_add_right _ _) htotal]

end Encoding

/-- **Layout and parity.** For every engine that `erasure_coding_engine_create` admits and every
object of `n` bytes with `n + k + 63` below `2 ^ 63`, all fragments have the least length `F` that
is a multiple of 64 with `n ≤ k * F`. The data fragments in order are the object followed by zeros.
No coefficient of the matrix is zero, every parity fragment is the XOR of all data fragments, and
each data fragment is the XOR of any parity fragment and the other data fragments. -/
theorem encode_layout (k m : ℤ) (engine : ErasureCodingEngine)
    (hengine : erasureCodingEngineCreate k m = some engine) (data : List UInt8)
    (hsize : data.length + k.toNat + 63 < 2 ^ 63) :
    ∃ F encoded, erasureCodingEncode (fun _ => true) engine data = some encoded ∧
      encoded.fragments.length = (k + m).toNat ∧ (∀ f ∈ encoded.fragments, f.length = F) ∧
      encoded.fragmentSizes = List.replicate (k + m).toNat F ∧
      IsLeast {F | 64 ∣ F ∧ data.length ≤ k.toNat * F} F ∧
      (encoded.fragments.take k.toNat).flatten =
        data ++ List.replicate (k.toNat * F - data.length) 0 ∧
      (∀ p < m.toNat, ∀ j < k.toNat,
        engine.encodeMatrix ((k.toNat + p) * k.toNat + j) = UInt8.ofNat ((p + 1) * (j + 1)) ∧
          (p + 1) * (j + 1) % 256 ≠ 0) ∧
      ∀ parity ∈ encoded.fragments.drop k.toNat,
        parity = xorBlocks F (encoded.fragments.take k.toNat) ∧
        ∀ i < k.toNat, encoded.fragments[i]? =
          some (xorBlocks F (parity :: (encoded.fragments.take k.toNat).eraseIdx i)) := by
  obtain ⟨h, rfl, rfl⟩ := erasureCodingEngineCreate_eq_some hengine
  simp only [Int.toNat_natCast, ← Nat.cast_add] at hsize ⊢
  set k := engine.dataFragmentCount with hk
  have hfits : SizeFits data.length k := sizeFits_of_lt hsize
  set F := fragmentSize data.length k with hF
  set blocks := (List.range k).map (dataFragment data F) with hblocks
  have hcount : blocks.length = k := by rw [hblocks, List.length_map, List.length_range]
  have hblock : blocks = (List.range k).map fun i => slots (objectByte data F i) F :=
    List.map_congr_left fun i hi =>
      dataFragment_eq (fragmentOffset_lt h (by omega) (List.mem_range.mp hi))
  have hlength : ∀ f ∈ blocks, f.length = F := by
    rw [hblock]
    intro f hf
    obtain ⟨i, -, rfl⟩ := List.mem_map.mp hf
    exact length_slots _ _
  have hleast : IsLeast {F | 64 ∣ F ∧ data.length ≤ k * F} F := by
    rw [hF, fragmentSize_eq h.data_pos hfits]
    exact isLeast_paddedFragmentSize h.data_pos
  have htake : (blocks ++ List.replicate engine.parityFragmentCount (xorBlocks F blocks)).take k =
      blocks := List.take_left' hcount
  refine ⟨F, _, erasureCodingEncode_eq h, ?_, ?_, rfl, hleast, ?_, ?_, ?_⟩
  · rw [List.length_append, List.length_replicate]
    exact congrArg (· + engine.parityFragmentCount) hcount
  · intro f hf
    rcases List.mem_append.mp hf with hf | hf
    · exact hlength f hf
    · rw [List.eq_of_mem_replicate hf]
      exact length_foldl_xorInto hlength List.length_replicate
  · refine (congrArg List.flatten htake).trans ?_
    rw [hblock]
    exact (flatten_map_slots (fun p => data.getD p 0) F k).trans (slots_getD hleast.1.2 0)
  · intro p hp j hj
    refine ⟨h.encodeMatrix_parity hp hj, ?_⟩
    rw [Nat.mod_eq_of_lt (h.coefficient_lt hp hj)]
    exact (Nat.mul_pos p.succ_pos j.succ_pos).ne'
  · intro parity hparity
    have hparity : parity = xorBlocks F blocks := by
      refine List.eq_of_mem_replicate (n := engine.parityFragmentCount) ?_
      rwa [List.drop_left' hcount] at hparity
    refine ⟨by rw [hparity, htake], fun i hi => ?_⟩
    have hi' : i < blocks.length := by omega
    rw [htake, hparity, xorBlocks_eraseIdx hlength hi', List.getElem?_append_left hi',
      List.getElem?_eq_getElem hi']

theorem encode_layout_two_plus_one :
    ∃ engine F encoded, erasureCodingEngineCreate 2 1 = some engine ∧
      erasureCodingEncode (fun _ => true) engine [1, 2, 3] = some encoded ∧
      (encoded.fragments.take 2).flatten = [1, 2, 3] ++ List.replicate (2 * F - 3) 0 := by
  obtain ⟨F, encoded, hencode, -, -, -, -, hdata, -⟩ :=
    encode_layout 2 1 _ rfl [1, 2, 3] (show 3 + 2 + 63 < 2 ^ 63 by norm_num)
  exact ⟨_, F, encoded, rfl, hencode, hdata⟩

/-! ### Decoding -/

/-- The arrays describe the fragments of an object with the given indices, in this order. -/
structure Gathered (engine : ErasureCodingEngine) (data : List UInt8) (indices : List ℕ)
    (fragments : ℕ → List UInt8) (fragmentSizes : ℕ → ℕ) (fragmentMap : ℕ → ℤ) : Prop where
  map_eq : ∀ j (h : j < indices.length), fragmentMap j = indices[j]
  fragment_eq : ∀ j (h : j < indices.length),
    encodedFragment engine data indices[j] = some (fragments j)
  size_eq : ∀ j < indices.length,
    fragmentSizes j = fragmentSize data.length engine.dataFragmentCount

/-- There are such arrays for every list of fragment indices. -/
theorem gathered_of_forall_lt {engine : ErasureCodingEngine} (data : List UInt8)
    {indices : List ℕ} (h : ∀ i ∈ indices, i < engine.totalFragments) :
    Gathered engine data indices
      (fun j => (encodedFragment engine data (indices.getD j 0)).getD [])
      (fun _ => fragmentSize data.length engine.dataFragmentCount)
      (fun j => (indices.getD j 0 : ℕ)) where
  map_eq j hj := by rw [List.getD_eq_getElem _ _ hj]
  fragment_eq j hj := by
    rw [List.getD_eq_getElem _ _ hj, encodedFragment_of_lt (h _ (List.getElem_mem hj)),
      Option.getD_some]
  size_eq _ _ := rfl

/-- The byte `p` lies in one of the first `k` data fragments, and this fragment is in the list. -/
def Covered (indices : List ℕ) (k F p : ℕ) : Prop :=
  ∃ i ∈ indices, i < k ∧ i * F ≤ p ∧ p < (i + 1) * F

instance (indices : List ℕ) (k F p : ℕ) : Decidable (Covered indices k F p) :=
  inferInstanceAs (Decidable (∃ i ∈ indices, i < k ∧ i * F ≤ p ∧ p < (i + 1) * F))

theorem covered_succ {indices : List ℕ} {k F p : ℕ} :
    Covered indices (k + 1) F p ↔
      Covered indices k F p ∨ (k ∈ indices ∧ k * F ≤ p ∧ p < (k + 1) * F) := by
  constructor
  · rintro ⟨i, hmem, hi, hp⟩
    rcases Nat.lt_succ_iff_lt_or_eq.mp hi with hi | rfl
    · exact .inl ⟨i, hmem, hi, hp⟩
    · exact .inr ⟨hmem, hp⟩
  · rintro (⟨i, hmem, hi, hp⟩ | ⟨hmem, hp⟩)
    · exact ⟨i, hmem, hi.trans k.lt_succ_self, hp⟩
    · exact ⟨k, hmem, k.lt_succ_self, hp⟩

/-- With all data fragments every byte up to their end is covered. -/
theorem covered_of_forall_mem {indices : List ℕ} {k F p : ℕ} (h : ∀ i < k, i ∈ indices)
    (hp : p < k * F) : Covered indices k F p := by
  have hF : 0 < F := Nat.pos_of_ne_zero fun hF => by simp [hF] at hp
  have hi : p / F < k := Nat.div_lt_of_lt_mul (Nat.mul_comm k F ▸ hp)
  exact ⟨p / F, h _ hi, hi, Nat.div_mul_le_self p F,
    (Nat.div_lt_iff_lt_mul hF).mp (Nat.lt_succ_self _)⟩

theorem Covered.lt {indices : List ℕ} {k F p : ℕ} (h : Covered indices k F p) : p < k * F := by
  obtain ⟨i, -, hi, -, hp⟩ := h
  exact hp.trans_le (Nat.mul_le_mul_right F hi)

section Decoding

variable {engine : ErasureCodingEngine} {data : List UInt8} {indices : List ℕ}
  {fragments : ℕ → List UInt8} {fragmentSizes : ℕ → ℕ} {fragmentMap : ℕ → ℤ}

/-- A data fragment that is not in the list is left out. -/
theorem copyFragment_of_notMem (hg : Gathered engine data indices fragments fragmentSizes
    fragmentMap) {i : ℕ} (hi : i ∉ indices) (size : ℕ) (dataOut : Buffer) :
    copyFragment fragments fragmentMap indices.length size dataOut i = dataOut := by
  have hnone : findSlot (fun index => index = (i : ℤ)) fragmentMap 0 indices.length = none := by
    rw [findSlot_eq_none_iff]
    intro j hj
    rw [hg.map_eq j hj, decide_eq_false_iff_not, Nat.cast_inj]
    rintro rfl
    exact hi (List.getElem_mem hj)
  rw [copyFragment, hnone]

/-- A data fragment that is in the list is copied to its place. -/
theorem copyFragment_of_mem (hg : Gathered engine data indices fragments fragmentSizes
    fragmentMap) (h : engine.Admitted) (hdata : data.length < 2 ^ 64) {i : ℕ} (hi : i ∈ indices)
    (hi' : i < engine.dataFragmentCount) (dataOut : Buffer) :
    let F := fragmentSize data.length engine.dataFragmentCount
    copyFragment fragments fragmentMap indices.length F dataOut i =
      dataOut.store (i * F) (slots (objectByte data F i) F) := by
  intro F
  have hoffset : i * F < 2 ^ 64 := fragmentOffset_lt h hdata hi'
  -- the first entry of the map with this index
  obtain ⟨j, hj⟩ : ∃ j, findSlot (fun index => index = (i : ℤ)) fragmentMap 0 indices.length =
      some j := by
    refine Option.ne_none_iff_exists'.mp fun hnone => ?_
    obtain ⟨j, hj, rfl⟩ := List.getElem_of_mem hi
    have := findSlot_eq_none_iff.mp hnone j hj
    rw [hg.map_eq j hj, decide_eq_false_iff_not] at this
    exact this rfl
  obtain ⟨hlt, hindex, -⟩ := findSlot_eq_some_iff.mp hj
  rw [hg.map_eq j hlt, decide_eq_true_eq, Nat.cast_inj] at hindex
  have hfragment : fragments j = slots (objectByte data F i) F := by
    have hsome := hg.fragment_eq j hlt
    rw [hindex, encodedFragment_of_lt (hi'.trans_le (Nat.le_add_right _ _)), if_pos hi',
      dataFragment_eq hoffset] at hsome
    exact (Option.some.inj hsome).symm
  rw [copyFragment, hj]
  show dataOut.store (i * F % 2 ^ 64) ((fragments j).take F) = _
  rw [Nat.mod_eq_of_lt hoffset, hfragment, List.take_of_length_le (length_slots _ _).le]

/-- The memory after the first `c` rounds of the loop. The induction is on `c`: one round adds the
bytes of one fragment to those that are covered. -/
theorem foldl_copyFragment_apply (hg : Gathered engine data indices fragments fragmentSizes
    fragmentMap) (h : engine.Admitted) (hdata : data.length < 2 ^ 64) {c : ℕ}
    (hc : c ≤ engine.dataFragmentCount) (dataOut : Buffer) (p : ℕ) :
    let F := fragmentSize data.length engine.dataFragmentCount
    (List.range c).foldl (copyFragment fragments fragmentMap indices.length F) dataOut p =
      if Covered indices c F p then data.getD p 0 else dataOut p := by
  intro F
  induction c with
  | zero =>
    rw [if_neg fun hcovered => by simpa using hcovered.lt]
    rfl
  | succ c ih =>
    rw [List.range_succ, List.foldl_append, List.foldl_cons, List.foldl_nil]
    simp only [covered_succ]
    by_cases hmem : c ∈ indices
    · rw [copyFragment_of_mem hg h hdata hmem hc, Buffer.store_apply]
      simp only [length_slots, getElem_slots, hmem, true_and]
      by_cases hp : c * F ≤ p ∧ p - c * F < F
      · rw [dif_pos hp, if_pos (.inr ⟨hp.1, by rw [Nat.succ_mul]; omega⟩), objectByte,
          Nat.add_sub_of_le hp.1]
      · have hp' : ¬ (c * F ≤ p ∧ p < (c + 1) * F) := by
          rw [Nat.succ_mul]
          omega
        rw [dif_neg hp, ih (Nat.le_of_succ_le hc)]
        simp only [hp', or_false]
    · rw [copyFragment_of_notMem hg hmem, ih (Nat.le_of_succ_le hc)]
      simp only [hmem, false_and, or_false]

/-- The memory after decoding, byte by byte. -/
theorem erasureCodingDecode_dataOut (hg : Gathered engine data indices fragments fragmentSizes
    fragmentMap) (h : engine.Admitted) (hdata : data.length < 2 ^ 64) (dataOut : Buffer) (p : ℕ) :
    (erasureCodingDecode engine fragments fragmentSizes fragmentMap indices.length
        dataOut).dataOut p =
      if Covered indices engine.dataFragmentCount
          (fragmentSize data.length engine.dataFragmentCount) p
      then data.getD p 0 else dataOut p := by
  rw [← foldl_copyFragment_apply hg h hdata le_rfl]
  rcases Nat.eq_zero_or_pos indices.length with hempty | hpos
  · -- nothing is copied, whatever the size that was read
    have hskip (size : ℕ) : copyFragment fragments fragmentMap indices.length size =
        fun dataOut _ => dataOut := by
      funext dataOut i
      rw [hempty]
      rfl
    simp only [erasureCodingDecode, hskip]
  · rw [erasureCodingDecode, hg.size_eq 0 hpos]

/-- The memory after decoding from a list with all data fragments. -/
theorem erasureCodingDecode_dataOut_of_forall_mem (hg : Gathered engine data indices fragments
    fragmentSizes fragmentMap) (h : engine.Admitted) (hdata : data.length < 2 ^ 64)
    (hall : ∀ i < engine.dataFragmentCount, i ∈ indices) (dataOut : Buffer) (p : ℕ) :
    (erasureCodingDecode engine fragments fragmentSizes fragmentMap indices.length
        dataOut).dataOut p =
      if p < engine.dataFragmentCount * fragmentSize data.length engine.dataFragmentCount
      then data.getD p 0 else dataOut p := by
  rw [erasureCodingDecode_dataOut hg h hdata]
  exact if_congr ⟨Covered.lt, covered_of_forall_mem hall⟩ rfl rfl

theorem erasureCodingDecode_dataSizeOut (hg : Gathered engine data indices fragments
    fragmentSizes fragmentMap) (hpos : 0 < indices.length) (dataOut : Buffer) :
    (erasureCodingDecode engine fragments fragmentSizes fragmentMap indices.length
        dataOut).dataSizeOut =
      engine.dataFragmentCount * fragmentSize data.length engine.dataFragmentCount % 2 ^ 64 := by
  rw [erasureCodingDecode, hg.size_eq 0 hpos, Nat.mul_comm]

end Decoding

/-- **Decoding with all data fragments.** For every engine that `erasure_coding_engine_create`
admits, every object of `n` bytes with `n + k + 63` below `2 ^ 63` and every list of fragments of
its encoding that contains all data fragments, `erasure_coding_decode` returns 0, writes the object
and zeros up to `k` times the fragment size, leaves the memory behind it as it was, and reports
that size. -/
theorem decode_complete (k m : ℤ) (engine : ErasureCodingEngine)
    (hengine : erasureCodingEngineCreate k m = some engine) (data : List UInt8)
    (hsize : data.length + k.toNat + 63 < 2 ^ 63) (indices : List ℕ)
    (fragments : ℕ → List UInt8) (fragmentSizes : ℕ → ℕ) (fragmentMap : ℕ → ℤ)
    (hgathered : Gathered engine data indices fragments fragmentSizes fragmentMap)
    (hall : ∀ i < k.toNat, i ∈ indices) (dataOut : Buffer) :
    let F := fragmentSize data.length k.toNat
    let decoded := erasureCodingDecode engine fragments fragmentSizes fragmentMap indices.length
      dataOut
    decoded.status = 0 ∧ decoded.dataSizeOut = k.toNat * F ∧
      slots decoded.dataOut (k.toNat * F) =
        data ++ List.replicate (k.toNat * F - data.length) 0 ∧
      ∀ p, k.toNat * F ≤ p → decoded.dataOut p = dataOut p := by
  obtain ⟨h, rfl, rfl⟩ := erasureCodingEngineCreate_eq_some hengine
  simp only [Int.toNat_natCast] at hsize hall ⊢
  have hdata : data.length < 2 ^ 64 := by omega
  have hfits := sizeFits_of_lt hsize
  have hF := fragmentSize_eq h.data_pos hfits
  obtain ⟨hlower, hupper⟩ := paddedFragmentSize_bounds (n := data.length) h.data_pos
  rw [← hF] at hlower hupper
  refine ⟨rfl, ?_, ?_, fun p hp => ?_⟩
  · have hk : engine.dataFragmentCount ≤ 20 := (Nat.le_add_right _ _).trans h.total_le
    have hfirst : 0 < indices.length := List.length_pos_of_mem (hall 0 h.data_pos)
    rw [erasureCodingDecode_dataSizeOut hgathered hfirst, Nat.mod_eq_of_lt (by omega)]
  · rw [← slots_getD hlower 0, slots_inj]
    intro p hp
    rw [erasureCodingDecode_dataOut_of_forall_mem hgathered h hdata hall, if_pos hp]
  · rw [erasureCodingDecode_dataOut_of_forall_mem hgathered h hdata hall,
      if_neg (Nat.not_lt.mpr hp)]

/-- The data fragments in the wrong order, one of them twice and a parity fragment between them. -/
theorem decode_complete_two_plus_one :
    ∃ engine fragments fragmentSizes fragmentMap, erasureCodingEngineCreate 2 1 = some engine ∧
      slots (erasureCodingDecode engine fragments fragmentSizes fragmentMap 4
        (fun _ => 255)).dataOut 128 = [7, 8, 9] ++ List.replicate 125 0 := by
  have hdecoded := decode_complete 2 1 _ rfl [7, 8, 9] (show 3 + 2 + 63 < 2 ^ 63 by norm_num)
    [1, 2, 0, 1] _ _ _ (gathered_of_forall_lt _ (by decide)) (by decide) (fun _ => 255)
  exact ⟨_, _, _, _, rfl, hdecoded.2.2.1⟩

/-- **When decoding is right.** For every engine that `erasure_coding_engine_create` admits, every
object, every list of fragments of its encoding and every content of `data_out`:
`erasure_coding_decode` reports an error or leaves the object at the start of `data_out`, if and
only if each byte of the object lies in a data fragment of the list or was in its place already. -/
theorem decode_right_iff (k m : ℤ) (engine : ErasureCodingEngine)
    (hengine : erasureCodingEngineCreate k m = some engine) (data : List UInt8)
    (hdata : data.length < 2 ^ 64) (indices : List ℕ)
    (fragments : ℕ → List UInt8) (fragmentSizes : ℕ → ℕ) (fragmentMap : ℕ → ℤ)
    (hgathered : Gathered engine data indices fragments fragmentSizes fragmentMap)
    (dataOut : Buffer) :
    ((erasureCodingDecode engine fragments fragmentSizes fragmentMap indices.length
          dataOut).status ≠ 0 ∨
        slots (erasureCodingDecode engine fragments fragmentSizes fragmentMap indices.length
          dataOut).dataOut data.length = data) ↔
      ∀ p (h : p < data.length),
        Covered indices k.toNat (fragmentSize data.length k.toNat) p ∨ dataOut p = data[p] := by
  obtain ⟨h, rfl, rfl⟩ := erasureCodingEngineCreate_eq_some hengine
  rw [Int.toNat_natCast]
  have hslots := slots_getD_length data 0
  have hstatus : (erasureCodingDecode engine fragments fragmentSizes fragmentMap indices.length
      dataOut).status = 0 := rfl
  nth_rewrite 2 [← hslots]
  simp only [hstatus, ne_eq, not_true_eq_false, false_or, slots_inj,
    erasureCodingDecode_dataOut hgathered h hdata]
  refine forall₂_congr fun p hp => ?_
  rw [List.getD_eq_getElem _ _ hp]
  by_cases hcovered : Covered indices engine.dataFragmentCount
      (fragmentSize data.length engine.dataFragmentCount) p
  · simp only [hcovered, if_true, true_or]
  · simp only [hcovered, if_false, false_or]

theorem decode_right_iff_two_plus_one :
    ∃ engine fragments fragmentSizes fragmentMap, erasureCodingEngineCreate 2 1 = some engine ∧
      slots (erasureCodingDecode engine fragments fragmentSizes fragmentMap 1
        (fun _ => 0)).dataOut 3 = [7, 8, 9] := by
  -- the fragment that is missing begins behind the object
  have hright := (decode_right_iff 2 1 _ rfl [7, 8, 9] (show 3 < 2 ^ 64 by norm_num) [0] _ _ _
    (gathered_of_forall_lt _ (by decide)) (fun _ => 0)).mpr (by decide)
  exact ⟨_, _, _, _, rfl, hright.resolve_left fun h => h rfl⟩

/-- With the data fragment 0 missing, decoding the fragments 1 and 2 of a one-byte object into a
zeroed buffer reports success and leaves the zeros. -/
theorem decode_two_plus_one_lost :
    ∃ engine fragments fragmentSizes fragmentMap, erasureCodingEngineCreate 2 1 = some engine ∧
      Gathered engine [1] [1, 2] fragments fragmentSizes fragmentMap ∧
      (erasureCodingDecode engine fragments fragmentSizes fragmentMap 2 (fun _ => 0)).status = 0 ∧
      slots (erasureCodingDecode engine fragments fragmentSizes fragmentMap 2
        (fun _ => 0)).dataOut 1 = [0] :=
  ⟨_, _, _, _, rfl, gathered_of_forall_lt [1] (by decide), rfl, by decide +kernel⟩

/-! ### The size of the result -/

/-- The size computation does not wrap for an object that fills its rows. -/
theorem sizeFits_of_dvd {n k : ℕ} (hn : n < 2 ^ 64) (hk : 0 < k) (hk' : k ≤ gatewayMaxFragments)
    (h : 64 * k ∣ n) : SizeFits n k := by
  obtain ⟨rows, rfl⟩ := h
  have hk₂₀ : k ≤ 20 := hk'
  have hdiv : (64 * k * rows + k - 1) / k = 64 * rows := by
    have hsum : 64 * k * rows + k - 1 = k * (64 * rows) + (k - 1) := by
      rw [Nat.mul_comm 64, Nat.mul_assoc]
      omega
    rw [hsum, Nat.mul_add_div hk, Nat.div_eq_of_lt (Nat.sub_lt hk one_pos), Nat.add_zero]
  have hle : 64 * rows ≤ 64 * k * rows := by
    rw [Nat.mul_assoc]
    exact Nat.mul_le_mul_left 64 (Nat.le_mul_of_pos_left rows hk)
  have hdvd : 64 * k * rows = 64 * (k * rows) := Nat.mul_assoc ..
  exact ⟨by omega, by omega⟩

/-- The padding is empty exactly for an object that fills its rows. -/
theorem mul_paddedFragmentSize_eq_iff {n k : ℕ} (hk : 0 < k) :
    k * paddedFragmentSize n k = n ↔ 64 * k ∣ n := by
  have hmul : k * paddedFragmentSize n k = 64 * k * ((n + 64 * k - 1) / (64 * k)) := by
    rw [paddedFragmentSize, ← Nat.mul_assoc, Nat.mul_comm k 64]
  constructor
  · intro h
    exact ⟨_, h.symm.trans hmul⟩
  · rintro ⟨rows, rfl⟩
    have hrows : (64 * k * rows + 64 * k - 1) / (64 * k) = rows := by
      have hsum : 64 * k * rows + 64 * k - 1 = 64 * k * rows + (64 * k - 1) := by omega
      rw [hsum, Nat.mul_add_div (by omega), Nat.div_eq_of_lt (by omega), Nat.add_zero]
    rw [hmul, hrows]

/-- **Decoding and the size of the object.** For every engine that `erasure_coding_engine_create`
admits, every object of `n ≥ 1` bytes and every list of fragments of its encoding that contains all
of them, `erasure_coding_decode` changes no byte from offset `n` on, whatever the memory held, and
reports the size `n`, if and only if `n` is a multiple of `64 * k`. -/
theorem decode_within_size_iff (k m : ℤ) (engine : ErasureCodingEngine)
    (hengine : erasureCodingEngineCreate k m = some engine) (data : List UInt8)
    (hpos : 1 ≤ data.length) (hdata : data.length < 2 ^ 64) (indices : List ℕ)
    (fragments : ℕ → List UInt8) (fragmentSizes : ℕ → ℕ) (fragmentMap : ℕ → ℤ)
    (hgathered : Gathered engine data indices fragments fragmentSizes fragmentMap)
    (hall : ∀ i < (k + m).toNat, i ∈ indices) :
    (∀ dataOut : Buffer,
      let decoded := erasureCodingDecode engine fragments fragmentSizes fragmentMap
        indices.length dataOut
      (∀ p, data.length ≤ p → decoded.dataOut p = dataOut p) ∧
        decoded.dataSizeOut = data.length) ↔
      64 * k.toNat ∣ data.length := by
  obtain ⟨h, rfl, rfl⟩ := erasureCodingEngineCreate_eq_some hengine
  simp only [← Nat.cast_add, Int.toNat_natCast] at hall ⊢
  set k := engine.dataFragmentCount with hk
  have hk' : k ≤ gatewayMaxFragments := (Nat.le_add_right _ _).trans h.total_le
  have hall' : ∀ i < k, i ∈ indices := fun i hi => hall i (hi.trans_le (Nat.le_add_right _ _))
  have hfirst : 0 < indices.length := List.length_pos_of_mem (hall' 0 h.data_pos)
  have hdataOut := erasureCodingDecode_dataOut_of_forall_mem hgathered h hdata hall'
  have hsizeOut := erasureCodingDecode_dataSizeOut hgathered hfirst
  by_cases hfits : SizeFits data.length k
  · obtain ⟨hlower, -⟩ := paddedFragmentSize_bounds (n := data.length) h.data_pos
    rw [← mul_paddedFragmentSize_eq_iff h.data_pos]
    simp only [hdataOut, hsizeOut, fragmentSize_eq h.data_pos hfits]
    constructor
    · intro hwithin
      by_contra hne
      -- the byte behind the object is padding, and overwrites whatever was there
      have hkept := (hwithin fun _ => 1).1 data.length le_rfl
      rw [if_pos (lt_of_le_of_ne hlower (Ne.symm hne)), List.getD_eq_default _ _ le_rfl] at hkept
      exact absurd hkept (by decide)
    · intro heq dataOut
      refine ⟨fun p hp => ?_, ?_⟩
      · rw [← hk, heq, if_neg (Nat.not_lt.mpr hp)]
      · rw [← hk, heq, Nat.mod_eq_of_lt hdata]
  · refine iff_of_false (fun hwithin => ?_) fun hdvd =>
      hfits (sizeFits_of_dvd hdata h.data_pos hk' hdvd)
    have hzero := (hwithin fun _ => 0).2
    rw [hsizeOut, fragmentSize_eq_zero hdata h.data_pos hk' hfits] at hzero
    omega

/-- A full row of 128 bytes on an engine with two data fragments and one parity fragment. -/
theorem decode_within_size_iff_full_row :
    ∃ engine fragments fragmentSizes fragmentMap, erasureCodingEngineCreate 2 1 = some engine ∧
      Gathered engine (List.replicate 128 7) [0, 1, 2] fragments fragmentSizes fragmentMap ∧
      (erasureCodingDecode engine fragments fragmentSizes fragmentMap 3
        (fun _ => 255)).dataOut 128 = 255 ∧
      (erasureCodingDecode engine fragments fragmentSizes fragmentMap 3
        (fun _ => 255)).dataSizeOut = 128 := by
  have hwithin := (decode_within_size_iff 2 1 _ rfl (List.replicate 128 7) (by simp) (by simp)
    [0, 1, 2] _ _ _ (gathered_of_forall_lt _ (by decide)) (by decide)).mpr (by simp) (fun _ => 255)
  exact ⟨_, _, _, _, rfl, gathered_of_forall_lt _ (by decide), hwithin.1 128 (by simp),
    hwithin.2.trans (by simp)⟩

/-- A one-byte object, replicated once and decoded from both fragments: the byte behind it is
overwritten, and the size reported is 64. -/
theorem decode_one_byte_overrun :
    ∃ engine fragments fragmentSizes fragmentMap, erasureCodingEngineCreate 1 1 = some engine ∧
      Gathered engine [7] [0, 1] fragments fragmentSizes fragmentMap ∧
      (erasureCodingDecode engine fragments fragmentSizes fragmentMap 2
        (fun _ => 255)).dataOut 1 = 0 ∧
      (erasureCodingDecode engine fragments fragmentSizes fragmentMap 2
        (fun _ => 255)).dataSizeOut = 64 :=
  ⟨_, _, _, _, rfl, gathered_of_forall_lt [7] (by decide), by decide +kernel, by decide +kernel⟩

end LightFS.Gateway
