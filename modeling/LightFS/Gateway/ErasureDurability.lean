import Mathlib.Data.Finset.Card
import LightFS.Gateway.ErasureCoding

/-!
# What the fragments of an object determine

The policies promise that any `k` of the `k + m` fragments of an object determine it. All parity
fragments are the same XOR of all data fragments, so together they make up for one missing data
fragment and no more. A data fragment beyond the end of the object holds only zeros, and missing
it costs nothing; so `k` fragments determine the objects of a size `n` exactly when at most one
of the missing data fragments begins before the end of the object (`fragments_determine_iff`).

## Main definitions

* `encodedFragment` — one fragment of the encoding of an object.
* `FragmentsDetermine` — a set of fragments determines the objects of a size.
* `lostFragments`, `LosesAtMostOne` — the missing data fragments with bytes of the object.

## Main results

* `fragments_determine_iff`.
-/

namespace LightFS.Gateway

open Library

/-- The fragment `i` of the encoding of an object, the allocations succeeding. -/
def encodedFragment (engine : ErasureCodingEngine) (data : List UInt8) (i : ℕ) :
    Option (List UInt8) :=
  (erasureCodingEncode (fun _ => true) engine data).bind (·.fragments[i]?)

/-- The fragments in `I` determine the objects of `n` bytes. -/
def FragmentsDetermine (engine : ErasureCodingEngine) (I : Finset ℕ) (n : ℕ) : Prop :=
  ∀ a b : List UInt8, a.length = n → b.length = n →
    (∀ i ∈ I, encodedFragment engine a i = encodedFragment engine b i) → a = b

/-- The data fragments missing from `I` that begin before the end of an object of `n` bytes. -/
def lostFragments (k : ℕ) (I : Finset ℕ) (n : ℕ) : Finset ℕ :=
  (Finset.range k).filter fun i => i ∉ I ∧ i * paddedFragmentSize n k < n

/-- At most one data fragment that holds bytes of the object is missing from `I`. -/
def LosesAtMostOne (k : ℕ) (I : Finset ℕ) (n : ℕ) : Prop := (lostFragments k I n).card ≤ 1

theorem losesAtMostOne_iff {k : ℕ} {I : Finset ℕ} {n : ℕ} :
    LosesAtMostOne k I n ↔ ∀ i < k, ∀ j < k, i ∉ I → j ∉ I →
      i * paddedFragmentSize n k < n → j * paddedFragmentSize n k < n → i = j := by
  rw [LosesAtMostOne, Finset.card_le_one]
  simp only [lostFragments, Finset.mem_filter, Finset.mem_range]
  constructor
  · intro h i hi j hj hiI hjI hin hjn
    exact h i ⟨hi, hiI, hin⟩ j ⟨hj, hjI, hjn⟩
  · rintro h i ⟨hi, hiI, hin⟩ j ⟨hj, hjI, hjn⟩
    exact h i hi j hj hiI hjI hin hjn

/-! ### The bytes of a fragment -/

section Bytes

variable {engine : ErasureCodingEngine} {data : List UInt8} {i : ℕ}

/-- The byte `b` of the data fragment `j` of an object, in fragments of a given size. -/
def objectByte (data : List UInt8) (size j b : ℕ) : UInt8 := data.getD (j * size + b) 0

theorem encodedFragment_of_lt (hi : i < engine.totalFragments) :
    encodedFragment engine data i =
      some (if i < engine.dataFragmentCount then
          dataFragment data (fragmentSize data.length engine.dataFragmentCount) i
        else parityFragment engine
          (dataFragment data (fragmentSize data.length engine.dataFragmentCount))
          (fragmentSize data.length engine.dataFragmentCount) i) := by
  simp [encodedFragment, erasureCodingEncode, hi]

/-- The fragments of an object whose size computation does not wrap. -/
theorem encodedFragment_eq (h : engine.Admitted)
    (hfits : SizeFits data.length engine.dataFragmentCount) (hi : i < engine.totalFragments) :
    encodedFragment engine data i =
      some (slots (fun b =>
        let size := paddedFragmentSize data.length engine.dataFragmentCount
        if i < engine.dataFragmentCount then objectByte data size i b
        else xorSum (fun j => objectByte data size j b) engine.dataFragmentCount)
        (paddedFragmentSize data.length engine.dataFragmentCount)) := by
  have hk : engine.dataFragmentCount ≤ gatewayMaxFragments :=
    (Nat.le_add_right _ _).trans h.total_le
  have hlength : data.length < 2 ^ 64 := by
    have := hfits.1
    have := h.data_pos
    omega
  have hdata : ∀ j < engine.dataFragmentCount,
      dataFragment data (paddedFragmentSize data.length engine.dataFragmentCount) j =
        slots (objectByte data (paddedFragmentSize data.length engine.dataFragmentCount) j)
          (paddedFragmentSize data.length engine.dataFragmentCount) :=
    fun j hj => dataFragment_eq (offset_lt hlength hk hj)
  rw [encodedFragment_of_lt hi, fragmentSize_eq h.data_pos hfits]
  split_ifs with hlt
  · rw [hdata i hlt]
  · rw [parityFragment_eq h (not_lt.mp hlt) hi hdata]

/-- The fragments of an object whose size computation wraps are empty. -/
theorem encodedFragment_eq_nil (h : engine.Admitted) (hlength : data.length < 2 ^ 64)
    (hfits : ¬ SizeFits data.length engine.dataFragmentCount) (hi : i < engine.totalFragments) :
    encodedFragment engine data i = some [] := by
  have hk : engine.dataFragmentCount ≤ gatewayMaxFragments :=
    (Nat.le_add_right _ _).trans h.total_le
  have hdata : ∀ j < engine.dataFragmentCount,
      dataFragment data 0 j = slots (fun _ => 0) 0 :=
    fun j _ => dataFragment_eq (by simp)
  rw [encodedFragment_of_lt hi, fragmentSize_eq_zero hlength h.data_pos hk hfits]
  split_ifs with hlt
  · rw [hdata i hlt, slots_zero]
  · rw [parityFragment_eq h (not_lt.mp hlt) hi hdata, slots_zero]

end Bytes

/-! ### Enough fragments -/

section Determine

variable {engine : ErasureCodingEngine} {I : Finset ℕ} {n : ℕ}

/-- Among `k` fragments that miss a data fragment there is a parity fragment. -/
theorem exists_parity_mem {k j : ℕ} (hcard : I.card = k) (hj : j < k) (hjI : j ∉ I) :
    ∃ q ∈ I, k ≤ q := by
  by_contra hnone
  push Not at hnone
  have hsub : insert j I ⊆ Finset.range k := by
    intro q hq
    rcases Finset.mem_insert.mp hq with rfl | hq
    · exact Finset.mem_range.mpr hj
    · exact Finset.mem_range.mpr (hnone q hq)
  have hle := Finset.card_le_card hsub
  rw [Finset.card_insert_of_notMem hjI, hcard, Finset.card_range] at hle
  omega

/-- A byte beyond the end of the object is zero. -/
theorem objectByte_of_le {data : List UInt8} {size j b : ℕ} (h : data.length ≤ j * size) :
    objectByte data size j b = 0 :=
  List.getD_eq_default _ _ (by omega)

/-- Objects of `n` bytes with the same bytes in all data fragments are equal. -/
theorem eq_of_objectByte_eq {k size : ℕ} {a b : List UInt8} (ha : a.length = n)
    (hb : b.length = n) (hsize : n ≤ k * size)
    (h : ∀ j < k, ∀ c < size, objectByte a size j c = objectByte b size j c) : a = b := by
  refine List.ext_getElem (ha.trans hb.symm) fun p hp hp' => ?_
  have hp : p < k * size := by omega
  have hpos : 0 < size := Nat.pos_of_ne_zero fun h0 => by simp [h0] at hp
  have hbyte := h (p / size) (Nat.div_lt_of_lt_mul (Nat.mul_comm k size ▸ hp)) (p % size)
    (Nat.mod_lt _ hpos)
  simp only [objectByte, Nat.mul_comm (p / size), Nat.div_add_mod] at hbyte
  rwa [List.getD_eq_getElem, List.getD_eq_getElem] at hbyte

/-- **Enough.** Missing at most one data fragment that holds bytes of the object. -/
theorem fragmentsDetermine_of_losesAtMostOne (h : engine.Admitted)
    (hI : I ⊆ Finset.range engine.totalFragments) (hcard : I.card = engine.dataFragmentCount)
    (hfits : SizeFits n engine.dataFragmentCount)
    (hloses : LosesAtMostOne engine.dataFragmentCount I n) : FragmentsDetermine engine I n := by
  intro a b ha hb hagree
  set k := engine.dataFragmentCount
  set size := paddedFragmentSize n k
  -- what the fragments in `I` say, byte by byte
  have hbyte : ∀ i ∈ I, ∀ c < size,
      (if i < k then objectByte a size i c else xorSum (fun j => objectByte a size j c) k) =
        if i < k then objectByte b size i c else xorSum (fun j => objectByte b size j c) k := by
    intro i hi
    have hlt := Finset.mem_range.mp (hI hi)
    have hfragment := hagree i hi
    rw [encodedFragment_eq h (ha ▸ hfits) hlt, encodedFragment_eq h (hb ▸ hfits) hlt, ha, hb,
      Option.some.injEq, slots_inj] at hfragment
    exact hfragment
  have hpresent : ∀ j < k, j ∈ I → ∀ c < size, objectByte a size j c = objectByte b size j c := by
    intro j hj hjI c hc
    simpa [hj] using hbyte j hjI c hc
  have hbeyond : ∀ j, n ≤ j * size → ∀ c, objectByte a size j c = objectByte b size j c :=
    fun j hj c => (objectByte_of_le (ha.trans_le hj)).trans (objectByte_of_le (hb.trans_le hj)).symm
  refine eq_of_objectByte_eq ha hb (paddedFragmentSize_bounds h.data_pos).1 fun j hj c hc => ?_
  by_cases hjI : j ∈ I
  · exact hpresent j hj hjI c hc
  by_cases hjn : n ≤ j * size
  · exact hbeyond j hjn c
  -- the missing fragment is what the parity and all the others leave
  obtain ⟨q, hqI, hq⟩ := exists_parity_mem hcard hj hjI
  have hparity := hbyte q hqI c hc
  rw [if_neg (not_lt.mpr hq), if_neg (not_lt.mpr hq)] at hparity
  refine (xorSum_eq_iff hj fun l hl hlj => ?_).mp hparity
  by_cases hlI : l ∈ I
  · exact hpresent l hl hlI c hc
  · refine hbeyond l (not_lt.mp fun hln => hlj ?_) c
    exact losesAtMostOne_iff.mp hloses l hl j hj hlI hjI hln (not_le.mp hjn)

/-! ### Too few fragments -/

/-- An object of `n` bytes that is zero but for the first byte of the fragments `i` and `j`. -/
def twoMarks (size i j n : ℕ) : List UInt8 :=
  slots (fun p => if p = i * size ∨ p = j * size then 1 else 0) n

theorem objectByte_twoMarks {size i j l c : ℕ} (hc : c < size) (hi : i * size < n)
    (hj : j * size < n) :
    objectByte (twoMarks size i j n) size l c = if c = 0 ∧ (l = i ∨ l = j) then 1 else 0 := by
  have hcancel (i : ℕ) : l * size + c = i * size ↔ c = 0 ∧ l = i := by
    constructor
    · intro heq
      have hmod := congrArg (· % size) heq
      have hdiv := congrArg (· / size) heq
      simp only [Nat.mul_comm _ size, Nat.mul_add_mod, Nat.mul_mod_right,
        Nat.mod_eq_of_lt hc] at hmod
      simp only [Nat.mul_comm _ size, Nat.mul_add_div (Nat.zero_lt_of_lt hc),
        Nat.div_eq_of_lt hc, Nat.mul_div_cancel_left _ (Nat.zero_lt_of_lt hc)] at hdiv
      exact ⟨hmod, hdiv⟩
    · rintro ⟨rfl, rfl⟩
      rfl
  have hmark : (l * size + c = i * size ∨ l * size + c = j * size) ↔
      c = 0 ∧ (l = i ∨ l = j) := by
    rw [hcancel, hcancel, and_or_left]
  rw [objectByte, twoMarks]
  rcases Nat.lt_or_ge (l * size + c) n with hlt | hge
  · rw [List.getD_eq_getElem _ _ (by simpa using hlt), getElem_slots]
    simp only [hmark]
  · rw [List.getD_eq_default _ _ (by simpa using hge), if_neg]
    rw [← hmark]
    omega

theorem objectByte_replicate_zero (n size l c : ℕ) :
    objectByte (List.replicate n 0) size l c = 0 := by
  rw [objectByte]
  rcases Nat.lt_or_ge (l * size + c) n with hlt | hge
  · rw [List.getD_eq_getElem _ _ (by simpa using hlt), List.getElem_replicate]
  · rw [List.getD_eq_default _ _ (by simpa using hge)]

/-- **Needed.** Two missing data fragments that hold bytes of the object can be changed together
without changing any fragment in `I`. -/
theorem losesAtMostOne_of_fragmentsDetermine (h : engine.Admitted)
    (hI : I ⊆ Finset.range engine.totalFragments)
    (hfits : SizeFits n engine.dataFragmentCount)
    (hdet : FragmentsDetermine engine I n) : LosesAtMostOne engine.dataFragmentCount I n := by
  rw [losesAtMostOne_iff]
  intro i hi j hj hiI hjI hin hjn
  by_contra hij
  set k := engine.dataFragmentCount
  set size := paddedFragmentSize n k
  have hzero : (List.replicate n (0 : UInt8)).length = n := List.length_replicate
  have hmarks : (twoMarks size i j n).length = n := length_slots ..
  -- the marks are in no fragment of `I`: the fragments `i` and `j` are missing, and in a parity
  -- fragment the two marks cancel
  have heq : List.replicate n 0 = twoMarks size i j n := by
    refine hdet _ _ hzero hmarks fun l hl => ?_
    have hlt := Finset.mem_range.mp (hI hl)
    rw [encodedFragment_eq h (hzero.symm ▸ hfits) hlt,
      encodedFragment_eq h (hmarks.symm ▸ hfits) hlt, hzero, hmarks, Option.some.injEq, slots_inj]
    intro c hc
    have hli : l ≠ i := fun e => hiI (e ▸ hl)
    have hlj : l ≠ j := fun e => hjI (e ▸ hl)
    have hxor : xorSum (fun l => objectByte (twoMarks size i j n) size l c) k = 0 := by
      refine xorSum_two hi hj hij ?_ fun l _ hli hlj => ?_
      · rw [objectByte_twoMarks hc hin hjn, objectByte_twoMarks hc hin hjn]
        simp
      · rw [objectByte_twoMarks hc hin hjn, if_neg (by simp [hli, hlj])]
    simp only [objectByte_replicate_zero, xorSum_eq_zero (fun _ _ => rfl), ite_self]
    split_ifs
    · rw [objectByte_twoMarks hc hin hjn, if_neg (by simp [hli, hlj])]
    · exact hxor.symm
  have hpos : 0 < size := by
    have := (paddedFragmentSize_bounds (n := n) h.data_pos).1
    refine Nat.pos_of_ne_zero fun h0 => ?_
    simp only [size, k] at h0
    rw [h0] at this
    omega
  have hbyte := congrArg (objectByte · size i 0) heq
  simp only [objectByte_replicate_zero, objectByte_twoMarks hpos hin hjn] at hbyte
  exact absurd hbyte (by simp)

/-- When the size computation wraps, the fragments are empty and determine nothing. -/
theorem sizeFits_of_fragmentsDetermine (h : engine.Admitted)
    (hI : I ⊆ Finset.range engine.totalFragments) (hn : n < 2 ^ 64)
    (hdet : FragmentsDetermine engine I n) : SizeFits n engine.dataFragmentCount := by
  by_contra hfits
  have hempty (x : UInt8) (l : ℕ) (hl : l ∈ I) :
      encodedFragment engine (List.replicate n x) l = some [] :=
    encodedFragment_eq_nil h (by simpa using hn) (by simpa using hfits)
      (Finset.mem_range.mp (hI hl))
  have heq : List.replicate n (0 : UInt8) = List.replicate n 1 :=
    hdet _ _ List.length_replicate List.length_replicate fun l hl =>
      (hempty 0 l hl).trans (hempty 1 l hl).symm
  rcases List.replicate_inj.mp heq with ⟨-, rfl | h01⟩
  · refine hfits ⟨?_, ?_⟩
    all_goals
      have hk : engine.dataFragmentCount ≤ 20 := (Nat.le_add_right _ _).trans h.total_le
      have hpos := h.data_pos
    · omega
    · rw [Nat.div_eq_of_lt (by omega)]
      norm_num
  · exact absurd h01 (by decide)

end Determine

/-- **What `k` fragments determine.** For every engine that `erasure_coding_engine_create` admits,
every set `I` of `k` of its `k + m` fragment indices and every size `n`: any two objects of `n`
bytes whose encodings agree on the fragments in `I` are equal, if and only if the `uint64_t` size
computation does not wrap and at most one of the data fragments missing from `I` begins before
the end of the object. -/
theorem fragments_determine_iff (k m : ℤ) (engine : ErasureCodingEngine)
    (hengine : erasureCodingEngineCreate k m = some engine) (I : Finset ℕ)
    (hI : I ⊆ Finset.range (k + m).toNat) (hcard : (I.card : ℤ) = k) (n : ℕ) (hn : n < 2 ^ 64) :
    FragmentsDetermine engine I n ↔ SizeFits n k.toNat ∧ LosesAtMostOne k.toNat I n := by
  obtain ⟨h, rfl, rfl⟩ := erasureCodingEngineCreate_eq_some hengine
  have hI' : I ⊆ Finset.range engine.totalFragments := hI
  have hcard' : I.card = engine.dataFragmentCount := by exact_mod_cast hcard
  constructor
  · intro hdet
    have hfits := sizeFits_of_fragmentsDetermine h hI' hn hdet
    exact ⟨hfits, losesAtMostOne_of_fragmentsDetermine h hI' hfits hdet⟩
  · rintro ⟨hfits, hloses⟩
    exact fragmentsDetermine_of_losesAtMostOne h hI' hcard' hfits hloses

theorem fragments_determine_iff_six_plus_three :
    ∃ engine, erasureCodingEngineCreate 6 3 = some engine ∧
      FragmentsDetermine engine {1, 2, 3, 4, 5, 6} 100 :=
  ⟨_, rfl, (fragments_determine_iff 6 3 _ rfl {1, 2, 3, 4, 5, 6} (by decide) (by decide) 100
    (by norm_num)).mpr ⟨⟨by decide, by decide⟩, Nat.le_of_eq rfl⟩⟩

/-- In the 6+3 policy two different objects of 65 bytes have the same fragments `2` to `7`: they
differ in the first byte of the missing fragments `0` and `1`. -/
theorem six_plus_three_two_lost :
    ∃ engine, erasureCodingEngineCreate 6 3 = some engine ∧
      List.replicate 65 0 ≠ twoMarks 64 0 1 65 ∧
      ∀ i ∈ ({2, 3, 4, 5, 6, 7} : Finset ℕ),
        encodedFragment engine (List.replicate 65 0) i =
          encodedFragment engine (twoMarks 64 0 1 65) i :=
  ⟨_, rfl, by decide, by decide +kernel⟩

end LightFS.Gateway
