import Mathlib.Algebra.Order.Ring.Int
import Mathlib.Data.List.Basic
import LightFS.Library.CString

/-!
# Searching C strings

The functions of the C library that search a string for a character or a text, or read a signed
number from it. A position is an index, and `none` is the null pointer. `strchr` finds the place
where a string splits in two, `strstr` decides whether a text occurs (`isSome_strstr_iff`).

`atoll` is that of glibc, which reads as `strtoll` does: a number outside of the range of
`long long` is cut to its nearest end. `strtoull` negates modulo `2 ^ 64` instead, so the two agree
on the numbers in that range only (`ofInt_atoll_eq_strtoull_iff`).

## Main definitions

* `strchr`, `strstr`.
* `parsedNumber`, `atoll`.
-/

namespace LightFS.Library

/-! ### Characters -/

/-- `strchr`: the position of the first occurrence of a character. -/
def strchr (mem : List UInt8) (c : UInt8) : Option ℕ := mem.findIdx? (· = c)

theorem strchr_of_not_mem {mem : List UInt8} {c : UInt8} (h : c ∉ mem) : strchr mem c = none := by
  rw [strchr, List.findIdx?_eq_none_iff]
  intro b hb
  exact decide_eq_false fun hbc => h (hbc ▸ hb)

theorem strchr_append_of_not_mem {before : List UInt8} {c : UInt8} (h : c ∉ before)
    (mem : List UInt8) : strchr (before ++ mem) c = (strchr mem c).map (· + before.length) := by
  have hnone : before.findIdx? (· = c) = none := strchr_of_not_mem h
  rw [strchr, List.findIdx?_append, hnone, Option.none_or]
  rfl

theorem strchr_append_cons {before : List UInt8} {c : UInt8} (h : c ∉ before)
    (after : List UInt8) : strchr (before ++ c :: after) c = some before.length := by
  have hhead : strchr (c :: after) c = some 0 := by simp [strchr, List.findIdx?_cons]
  rw [strchr_append_of_not_mem h, hhead, Option.map_some, Nat.zero_add]

theorem forall_ne_of_not_mem {mem : List UInt8} {c : UInt8} (h : c ∉ mem) :
    ∀ b ∈ mem, decide (b ≠ c) = true := fun _ hb =>
  decide_eq_true fun hbc => h (hbc ▸ hb)

/-- A string is split by the first occurrence of a character. -/
theorem exists_split (mem : List UInt8) (c : UInt8) :
    c ∉ mem.takeWhile (· ≠ c) ∧
      (mem = mem.takeWhile (· ≠ c) ∨
        ∃ after, mem = mem.takeWhile (· ≠ c) ++ c :: after ∧
          mem.dropWhile (· ≠ c) = c :: after) := by
  have hsplit := List.takeWhile_append_dropWhile (p := (· ≠ c)) (l := mem)
  refine ⟨fun hmem => by simpa using List.mem_takeWhile_imp hmem, ?_⟩
  rcases hdrop : mem.dropWhile (· ≠ c) with _ | ⟨b, after⟩
  · left
    rw [hdrop, List.append_nil] at hsplit
    exact hsplit.symm
  · right
    have hb := List.head?_dropWhile_not (· ≠ c) mem
    rw [hdrop] at hb hsplit
    obtain rfl : b = c := by simpa using hb
    exact ⟨after, hsplit.symm, rfl⟩

/-! ### Texts -/

/-- `strstr`: the position of the first occurrence of a text. -/
def strstr : List UInt8 → List UInt8 → Option ℕ
  | [], text => if text = [] then some 0 else none
  | b :: mem, text => if text.isPrefixOf (b :: mem) then some 0 else (strstr mem text).map (· + 1)

theorem isSome_strstr_iff (mem text : List UInt8) : (strstr mem text).isSome ↔ text <:+: mem := by
  induction mem with
  | nil =>
    rw [strstr, List.infix_nil]
    split_ifs with h <;> simp [h]
  | cons b mem ih =>
    rw [strstr, List.infix_cons_iff, ← ih, ← List.isPrefixOf_iff_prefix]
    split_ifs with h
    · simp [h]
    · simp [h]

/-! ### Numbers -/

/-- The number at the start of a string: blanks, a sign and digits. -/
def parsedNumber (s : CString) : ℤ :=
  let mem := s.bytes.dropWhile isSpace
  let digits := if mem.head? = some 43 ∨ mem.head? = some 45 then mem.tail else mem
  if mem.head? = some 45 then -leadingDigits digits else leadingDigits digits

/-- `atoll`. -/
def atoll (s : CString) : ℤ := max (-2 ^ 63) (min (parsedNumber s) (2 ^ 63 - 1))

theorem toNat_ofInt (n : ℤ) : (UInt64.ofInt n).toNat = (n % 2 ^ 64).toNat := by
  rw [UInt64.ofInt, UInt64.toNat_ofNat']
  omega

theorem ofInt_eq_ofInt_iff (a b : ℤ) :
    UInt64.ofInt a = UInt64.ofInt b ↔ a % 2 ^ 64 = b % 2 ^ 64 := by
  rw [← UInt64.toNat_inj, toNat_ofInt, toNat_ofInt]
  omega

theorem ofInt_natCast (n : ℕ) : UInt64.ofInt n = UInt64.ofNat n := by
  rw [← UInt64.toNat_inj, toNat_ofInt, UInt64.toNat_ofNat']
  omega

/-- A sign and a number, as `strtoull` reads them. -/
private theorem ofInt_signed (minus : Prop) [Decidable minus] (n : ℕ) :
    (if 2 ^ 64 ≤ n then UInt64.ofNat (2 ^ 64 - 1)
      else if minus then -UInt64.ofNat n else UInt64.ofNat n) =
    UInt64.ofInt (if 2 ^ 64 ≤ (if minus then -(n : ℤ) else n).natAbs then 2 ^ 64 - 1
      else if minus then -(n : ℤ) else n) := by
  have habs : (if minus then -(n : ℤ) else n).natAbs = n := by
    split_ifs <;> simp only [Int.natAbs_neg, Int.natAbs_natCast]
  rw [habs]
  split_ifs
  · exact (ofInt_natCast (2 ^ 64 - 1)).symm
  · rw [UInt64.ofInt_neg, ofInt_natCast]
  · rw [ofInt_natCast]

/-- `strtoull` in terms of the number it reads. -/
theorem strtoull_eq (s : CString) :
    strtoull s = UInt64.ofInt
      (if 2 ^ 64 ≤ (parsedNumber s).natAbs then 2 ^ 64 - 1 else parsedNumber s) :=
  ofInt_signed _ _

/-- `atoll` and `strtoull` read the same number, up to `2 ^ 64`, exactly when it is a
`long long`. -/
theorem ofInt_atoll_eq_strtoull_iff (s : CString) :
    UInt64.ofInt (atoll s) = strtoull s ↔ -2 ^ 63 ≤ parsedNumber s ∧ parsedNumber s < 2 ^ 63 := by
  rw [strtoull_eq, ofInt_eq_ofInt_iff, atoll]
  generalize parsedNumber s = n
  split_ifs with hlarge
  · omega
  · omega

end LightFS.Library
