import LightFS.Gateway.ManifestCache
import LightFS.Library.HornerHash

/-!
# The hash of the manifest cache in `int`

`make_index` (`src/gateway/gateway_manifest_cache.c`) multiplies and adds in `int` and masks the sum
afterwards. An operation whose result is not an `int` is undefined, so here `make_index` is a
function that may have no result (`makeIndexInt`). When it has one, it is the index of the other
modules (`makeIndexInt_eq_some_iff`), for which sums wrap.

The mask keeps a hash below `2 ^ 31`, and `hash * 31` needs one below `2 ^ 31 / 31`. For names in
ASCII no operation overflows if and only if the text of bucket and key, read as a number to the base
31, is below `2 ^ 31` (`isSome_makeIndexInt_iff_of_ascii`), which takes less than 8 characters
(`makeIndexInt_eq_none_of_ascii`). Bytes from 128 on are negative digits; the conditions for all
names are those of `make_index_in_int_iff`.

## Main definitions

* `hashChar`, `makeIndexInt`.
* `textValue` — the text as a number.
-/

namespace LightFS.Gateway

open Library Meta

/-- A value of type `int`. -/
def IsInt (v : ℤ) : Prop := -2 ^ 31 ≤ v ∧ v < 2 ^ 31

instance : DecidablePred IsInt := fun v => inferInstanceAs (Decidable (-2 ^ 31 ≤ v ∧ v < 2 ^ 31))

/-- The result of an operation on `int`. -/
def intResult (v : ℤ) : Option ℤ := if IsInt v then some v else none

/-- `(hash * 31 + c) & 0x7FFFFFFF`. -/
def hashChar (hash : ℤ) (c : UInt8) : Option ℤ := do
  let product ← intResult (hash * 31)
  let sum ← intResult (product + signedChar c)
  return (BitVec.ofInt 32 sum &&& 0x7FFFFFFF#32).toInt

/-- `make_index`, without a result when an operation overflows. -/
def makeIndexInt (bucket key : CString) (capacity : ℤ) : Option ℤ := do
  let hash ← bucket.bytes.foldlM hashChar 0
  let hash ← key.bytes.foldlM hashChar hash
  return hash.tmod capacity

/-- The hash of a text without mask and bound. -/
def textValue (text : List UInt8) : ℤ := text.foldl (fun v c => v * 31 + signedChar c) 0

/-- The hash of the cache. -/
def cacheHash : HornerHash where
  base := 31
  bound := 2 ^ 31
  digit := 128
  one_lt_base := by decide
  bound_pos := by decide
  digit_nonneg := by decide
  digit_mul_le := by decide

variable {bucket key : CString} {capacity index : ℤ} {text : List UInt8}

/-! ### The loops -/

/-- The mask keeps the low 31 bits, also of a sum that is wrapped. -/
theorem toInt_ofInt_and (v : ℤ) : (BitVec.ofInt 32 v &&& 0x7FFFFFFF#32).toInt = v % 2 ^ 31 := by
  have hand : (BitVec.ofInt 32 v &&& 0x7FFFFFFF#32).toNat =
      (BitVec.ofInt 32 v).toNat % 2 ^ 31 := by
    rw [BitVec.toNat_and]
    exact Nat.and_two_pow_sub_one_eq_mod _ 31
  rw [BitVec.toInt_eq_toNat_cond, hand, BitVec.toNat_ofInt, if_pos (by omega)]
  omega

theorem hashChar_eq (hash : ℤ) (c : UInt8) :
    hashChar hash c = cacheHash.step hash (signedChar c) := by
  simp only [hashChar, toInt_ofInt_and]
  rfl

/-- The two loops are one over the text of both names. -/
theorem makeIndexInt_eq (bucket key : CString) (capacity : ℤ) :
    makeIndexInt bucket key capacity =
      (cacheHash.checked ((bucket.bytes ++ key.bytes).map signedChar)).map (·.tmod capacity) := by
  have hloop : hashChar = fun hash c => cacheHash.step hash (signedChar c) := by
    funext hash c
    exact hashChar_eq hash c
  rw [HornerHash.checked, List.foldlM_map, List.foldlM_append, ← hloop, Option.map_eq_bind]
  exact (Option.bind_assoc ..).symm

theorem hashBytes_eq (text : List UInt8) :
    (hashBytes 0 text : ℤ) = cacheHash.hash (text.map signedChar) := by
  induction text using List.reverseRecOn with
  | nil => rfl
  | append_singleton text c ih =>
    rw [List.map_append, List.map_singleton, HornerHash.hash_concat, ← ih, hashBytes,
      List.foldl_append]
    exact Int.toNat_of_nonneg (Int.emod_nonneg _ (by decide))

theorem textValue_eq (text : List UInt8) :
    textValue text = cacheHash.value (text.map signedChar) := by
  rw [HornerHash.value, List.foldl_map]
  rfl

theorem neg_digit_le_signedChar : ∀ c ∈ text.map signedChar, -cacheHash.digit ≤ c := by
  intro c hc
  obtain ⟨b, -, rfl⟩ := List.mem_map.mp hc
  have hdigit : cacheHash.digit = 128 := rfl
  rw [signedChar, hdigit]
  split_ifs <;> omega

/-- The hash is the number of the text modulo `2 ^ 31`, whatever bucket and key it consists of. -/
theorem makeIndex_eq (bucket key : CString) (n : ℕ) :
    (makeIndex bucket key n : ℤ) = textValue (bucket.bytes ++ key.bytes) % 2 ^ 31 % n := by
  have hhash : hashBytes (hashBytes 0 bucket.bytes) key.bytes =
      hashBytes 0 (bucket.bytes ++ key.bytes) := by
    rw [hashBytes, hashBytes, hashBytes, List.foldl_append]
  rw [makeIndex, hhash, Int.natCast_emod, hashBytes_eq, HornerHash.hash_eq, ← textValue_eq]
  rfl

/-- **`make_index` with and without bounds.** It has a result if and only if no operation overflows,
and then it is the index of `makeIndex`. -/
theorem makeIndexInt_eq_some_iff (hcapacity : 1 ≤ capacity) :
    makeIndexInt bucket key capacity = some index ↔
      cacheHash.NoOverflow ((bucket.bytes ++ key.bytes).map signedChar) ∧
        (makeIndex bucket key capacity.toNat : ℤ) = index := by
  have hindex : (makeIndex bucket key capacity.toNat : ℤ) =
      (cacheHash.hash ((bucket.bytes ++ key.bytes).map signedChar)).tmod capacity := by
    rw [makeIndex_eq, Int.toNat_of_nonneg (by omega), textValue_eq,
      Int.tmod_eq_emod_of_nonneg (HornerHash.hash_nonneg _), HornerHash.hash_eq]
    rfl
  rw [makeIndexInt_eq, Option.map_eq_some_iff, hindex]
  constructor
  · rintro ⟨hash, hchecked, rfl⟩
    obtain ⟨hno, rfl⟩ := HornerHash.checked_eq_some_iff.mp hchecked
    exact ⟨hno, rfl⟩
  · rintro ⟨hno, rfl⟩
    exact ⟨_, HornerHash.checked_eq_some_iff.mpr ⟨hno, rfl⟩, rfl⟩

/-! ### Texts in ASCII -/

section Ascii

variable (hascii : ∀ c ∈ text, c.toNat < 128)

include hascii

theorem signedChar_nonneg : ∀ c ∈ text.map signedChar, 0 ≤ c := by
  intro c hc
  obtain ⟨b, hb, rfl⟩ := List.mem_map.mp hc
  rw [signedChar, if_pos (hascii b hb)]
  exact Int.natCast_nonneg _

theorem textValue_nonneg {pre : List UInt8} (hpre : pre <+: text) : 0 ≤ textValue pre := by
  rw [textValue_eq]
  exact HornerHash.value_nonneg (signedChar_nonneg fun c hc => hascii c (hpre.subset hc))

/-- A text of so many characters is no small number. -/
theorem pow_length_le_textValue (hnul : 0 ∉ text) (hne : text ≠ []) :
    31 ^ (text.length - 1) ≤ textValue text := by
  obtain ⟨c, cs, rfl⟩ := List.exists_cons_of_ne_nil hne
  have hcs := signedChar_nonneg fun x hx => hascii x (List.mem_cons_of_mem c hx)
  have hc : 1 ≤ signedChar c := by
    have hzero : c.toNat ≠ 0 := fun h => hnul (by
      rw [← UInt8.toNat_inj.mp (h.trans UInt8.toNat_zero.symm)]
      exact List.mem_cons_self)
    rw [signedChar, if_pos (hascii c List.mem_cons_self)]
    omega
  have hpow := HornerHash.pow_length_le_value (H := cacheHash) hc hcs
  rw [List.length_map] at hpow
  rw [textValue_eq, List.map_cons, List.length_cons, Nat.add_sub_cancel]
  exact hpow

end Ascii

/-! ### Overflow -/

/-- A text without overflow, as a condition on the number that it is. -/
theorem small_map_signedChar_iff : cacheHash.Small (text.map signedChar) ↔
    (∀ pre, pre <+: text.dropLast → 0 ≤ textValue pre) ∧
      textValue text.dropLast * 31 < 2 ^ 31 ∧ textValue text < 2 ^ 31 := by
  constructor
  · rintro ⟨hnonneg, hproduct, hvalue⟩
    rw [← List.map_dropLast] at hnonneg hproduct
    refine ⟨fun pre hpre => ?_, ?_, ?_⟩
    · rw [textValue_eq]
      exact hnonneg _ (hpre.map signedChar)
    · rwa [textValue_eq]
    · rwa [textValue_eq]
  · rintro ⟨hnonneg, hproduct, hvalue⟩
    rw [textValue_eq] at hproduct hvalue
    rw [List.map_dropLast] at hproduct
    refine ⟨fun pre hpre => ?_, hproduct, hvalue⟩
    rw [← List.map_dropLast] at hpre
    obtain ⟨front, hfront, rfl⟩ := List.prefix_map_iff.mp hpre
    rw [← textValue_eq]
    exact hnonneg front hfront

/-- **When the hash stays within `int`.** For all names and every capacity from 1 on, each sum
`hash * 31 + c` is an `int`, no operation overflows and the index is below the capacity if and only
if the value of the text of both names is below `2 ^ 31`, its last product is as well, and no value
before the last character is negative. -/
theorem make_index_in_int_iff (bucket key : CString) (hcapacity : 1 ≤ capacity) :
    ((∀ pre c, pre ++ [c] <+: bucket.bytes ++ key.bytes →
        IsInt (hashBytes 0 pre * 31 + signedChar c)) ∧
      ∃ index, makeIndexInt bucket key capacity = some index ∧ 0 ≤ index ∧ index < capacity) ↔
      (∀ pre, pre <+: (bucket.bytes ++ key.bytes).dropLast → 0 ≤ textValue pre) ∧
        textValue (bucket.bytes ++ key.bytes).dropLast * 31 < 2 ^ 31 ∧
        textValue (bucket.bytes ++ key.bytes) < 2 ^ 31 := by
  rw [← small_map_signedChar_iff, ← HornerHash.noOverflow_iff neg_digit_le_signedChar]
  constructor
  · rintro ⟨-, index, hindex, -⟩
    exact ((makeIndexInt_eq_some_iff hcapacity).mp hindex).1
  · intro hno
    refine ⟨fun pre c hpre => ?_, _, (makeIndexInt_eq_some_iff hcapacity).mpr ⟨hno, rfl⟩, ?_, ?_⟩
    · have hpre' := hpre.map signedChar
      rw [List.map_append] at hpre'
      rw [hashBytes_eq]
      exact (hno _ _ hpre').2
    · exact Int.natCast_nonneg _
    · have hlt : makeIndex bucket key capacity.toNat < capacity.toNat := Nat.mod_lt _ (by omega)
      omega

/-- The key `k1` of the bucket `b`, in a cache of 10 entries. -/
theorem make_index_in_int_iff_short :
    ∃ index, makeIndexInt (.ofString "b") (.ofString "k1") 10 = some index ∧
      0 ≤ index ∧ index < 10 := by
  refine ((make_index_in_int_iff (.ofString "b") (.ofString "k1") (by decide)).mpr
    ⟨fun pre hpre => ?_, by decide, by decide⟩).2
  have hascii : ∀ c ∈ ([98, 107] : List UInt8), c.toNat < 128 := by simp
  exact textValue_nonneg hascii hpre

/-- The names of `test_cache_insert_lookup`: with the sixth character of the bucket the sum is
larger than every `int`. -/
theorem make_index_overflows :
    [116, 101, 115, 116, 98] ++ [117] <+:
      (CString.ofString "testbucket").bytes ++ (CString.ofString "testkey").bytes ∧
    ¬ IsInt (hashBytes 0 [116, 101, 115, 116, 98] * 31 + signedChar 117) ∧
    makeIndexInt (.ofString "testbucket") (.ofString "testkey") 100 = none :=
  ⟨by decide, by decide, by decide⟩

/-! ### Names in ASCII -/

/-- For names in ASCII only the number of the whole text decides. -/
theorem isSome_makeIndexInt_iff_of_ascii (hcapacity : 1 ≤ capacity)
    (hascii : ∀ c ∈ bucket.bytes ++ key.bytes, c.toNat < 128) :
    (makeIndexInt bucket key capacity).isSome ↔
      textValue (bucket.bytes ++ key.bytes) < 2 ^ 31 := by
  have hno := HornerHash.noOverflow_iff_of_nonneg (H := cacheHash) (signedChar_nonneg hascii)
  rw [← textValue_eq] at hno
  refine Iff.trans ?_ hno
  rw [Option.isSome_iff_exists]
  constructor
  · rintro ⟨index, hindex⟩
    exact ((makeIndexInt_eq_some_iff hcapacity).mp hindex).1
  · intro h
    exact ⟨_, (makeIndexInt_eq_some_iff hcapacity).mpr ⟨h, rfl⟩⟩

/-- **Long names.** The hash of every text of 8 or more characters in ASCII overflows. -/
theorem makeIndexInt_eq_none_of_ascii (hcapacity : 1 ≤ capacity)
    (hascii : ∀ c ∈ bucket.bytes ++ key.bytes, c.toNat < 128)
    (hlength : 8 ≤ (bucket.bytes ++ key.bytes).length) :
    makeIndexInt bucket key capacity = none := by
  have hnul : 0 ∉ bucket.bytes ++ key.bytes :=
    List.not_mem_append bucket.nul_free key.nul_free
  have hne : bucket.bytes ++ key.bytes ≠ [] := List.ne_nil_of_length_pos (by omega)
  have hpow := pow_length_le_textValue hascii hnul hne
  have hseven : (31 : ℤ) ^ 7 ≤ 31 ^ ((bucket.bytes ++ key.bytes).length - 1) :=
    pow_le_pow_right₀ (by norm_num) (by omega)
  rw [← Option.not_isSome_iff_eq_none, isSome_makeIndexInt_iff_of_ascii hcapacity hascii]
  linarith

end LightFS.Gateway
