import Mathlib.Algebra.Order.Ring.Int
import Mathlib.Data.List.Induction
import Mathlib.Tactic.Linarith

/-!
# Horner hashes in bounded integers

A string is hashed digit by digit, `hash = (hash * base + c) % bound`, in an integer type that holds
the values from `-bound` to `bound - 1`. A product or a sum that the type does not hold has no
result (`HornerHash.checked`).

The remainder is taken behind the arithmetic and does not keep it inside the type. The hash is the
value of the polynomial with these digits at `base`, reduced (`hash_eq`), and hashing has a result
if and only if that value and the last product are inside and the value was never negative before
the last digit (`noOverflow_iff`): a negative value is reduced to one that is too large for the next
product.

## Main definitions

* `HornerHash`, `HornerHash.hash`, `HornerHash.checked`.
* `HornerHash.NoOverflow` — the type holds every product and every sum.
* `HornerHash.value` — the polynomial.
-/

namespace LightFS.Library

/-- The parameters of a hash. The digits, at least `-digit`, are small against the bound. -/
structure HornerHash where
  base : ℤ
  bound : ℤ
  digit : ℤ
  one_lt_base : 1 < base
  bound_pos : 0 < bound
  digit_nonneg : 0 ≤ digit
  digit_mul_le : digit * (base + 1) ≤ bound * (base - 1)

namespace HornerHash

variable (H : HornerHash)

/-- The type holds the value. -/
def Fits (v : ℤ) : Prop := -H.bound ≤ v ∧ v < H.bound

instance : DecidablePred H.Fits := fun v => inferInstanceAs (Decidable (-H.bound ≤ v ∧ v < H.bound))

/-- The result of an operation. -/
def result (v : ℤ) : Option ℤ := if H.Fits v then some v else none

/-- One digit. -/
def step (hash c : ℤ) : Option ℤ := do
  let product ← H.result (hash * H.base)
  let sum ← H.result (product + c)
  return sum % H.bound

/-- The hash of a string, none when an operation has no result. -/
def checked (cs : List ℤ) : Option ℤ := cs.foldlM H.step 0

/-- The hash when the operations may leave the type. -/
def hash (cs : List ℤ) : ℤ := cs.foldl (fun hash c => (hash * H.base + c) % H.bound) 0

/-- The polynomial with these digits. -/
def value (cs : List ℤ) : ℤ := cs.foldl (fun v c => v * H.base + c) 0

/-- The type holds the product and the sum of every digit. -/
def NoOverflow (cs : List ℤ) : Prop :=
  ∀ pre c, pre ++ [c] <+: cs →
    H.Fits (H.hash pre * H.base) ∧ H.Fits (H.hash pre * H.base + c)

variable {H} {cs : List ℤ} {c h h' : ℤ}

@[simp] theorem value_nil : H.value [] = 0 := rfl

theorem value_concat (cs : List ℤ) (c : ℤ) : H.value (cs ++ [c]) = H.value cs * H.base + c := by
  rw [value, List.foldl_append]
  rfl

theorem hash_concat (cs : List ℤ) (c : ℤ) :
    H.hash (cs ++ [c]) = (H.hash cs * H.base + c) % H.bound := by
  rw [hash, List.foldl_append]
  rfl

theorem checked_concat (cs : List ℤ) (c : ℤ) :
    H.checked (cs ++ [c]) = (H.checked cs).bind (H.step · c) := by
  rw [checked, List.foldlM_append]
  simp [checked]

/-- The hash is the reduced polynomial. -/
theorem hash_eq (cs : List ℤ) : H.hash cs = H.value cs % H.bound := by
  induction cs using List.reverseRecOn with
  | nil => rfl
  | append_singleton cs c ih =>
    rw [hash_concat, value_concat, ih, Int.add_emod, Int.mul_emod, Int.emod_emod, ← Int.mul_emod,
      ← Int.add_emod]

theorem hash_nonneg (cs : List ℤ) : 0 ≤ H.hash cs := by
  rw [hash_eq]
  exact Int.emod_nonneg _ H.bound_pos.ne'

/-! ### Operations with a result -/

theorem result_eq_some_iff {v : ℤ} : H.result v = some h ↔ H.Fits v ∧ v = h := by
  rw [result, Option.ite_none_right_eq_some, Option.some_inj]

theorem step_eq_some_iff : H.step h c = some h' ↔
    (H.Fits (h * H.base) ∧ H.Fits (h * H.base + c)) ∧ (h * H.base + c) % H.bound = h' := by
  constructor
  · intro hstep
    obtain ⟨product, hproduct, hstep⟩ := Option.bind_eq_some_iff.mp hstep
    obtain ⟨sum, hsum, hstep⟩ := Option.bind_eq_some_iff.mp hstep
    obtain ⟨hfits, rfl⟩ := result_eq_some_iff.mp hproduct
    obtain ⟨hfits', rfl⟩ := result_eq_some_iff.mp hsum
    exact ⟨⟨hfits, hfits'⟩, Option.some.inj hstep⟩
  · rintro ⟨⟨hfits, hfits'⟩, rfl⟩
    refine Option.bind_eq_some_iff.mpr ⟨_, result_eq_some_iff.mpr ⟨hfits, rfl⟩, ?_⟩
    exact Option.bind_eq_some_iff.mpr ⟨_, result_eq_some_iff.mpr ⟨hfits', rfl⟩, rfl⟩

theorem noOverflow_nil : H.NoOverflow [] := fun _ _ hpre =>
  absurd (List.prefix_nil.mp hpre) (by simp)

theorem noOverflow_concat : H.NoOverflow (cs ++ [c]) ↔
    H.NoOverflow cs ∧ H.Fits (H.hash cs * H.base) ∧ H.Fits (H.hash cs * H.base + c) := by
  constructor
  · intro h
    exact ⟨fun pre x hpre => h pre x (hpre.trans (List.prefix_append _ _)),
      h cs c (List.prefix_refl _)⟩
  · rintro ⟨h, hlast⟩ pre x hpre
    obtain heq | hpre := List.prefix_concat_iff.mp hpre
    · obtain ⟨rfl, hx⟩ := List.append_inj' heq rfl
      obtain rfl := List.singleton_inj.mp hx
      exact hlast
    · exact h pre x hpre

/-- There is a result if and only if every operation has one, and then it is the hash. -/
theorem checked_eq_some_iff : H.checked cs = some h ↔ H.NoOverflow cs ∧ H.hash cs = h := by
  induction cs using List.reverseRecOn generalizing h with
  | nil => exact ⟨fun h => ⟨noOverflow_nil, Option.some.inj h⟩, fun h => congrArg some h.2⟩
  | append_singleton cs c ih =>
    rw [checked_concat, Option.bind_eq_some_iff, noOverflow_concat, hash_concat]
    constructor
    · rintro ⟨prev, hprev, hstep⟩
      obtain ⟨hno, rfl⟩ := ih.mp hprev
      obtain ⟨hfits, hhash⟩ := step_eq_some_iff.mp hstep
      exact ⟨⟨hno, hfits⟩, hhash⟩
    · rintro ⟨⟨hno, hfits⟩, hhash⟩
      exact ⟨_, ih.mpr ⟨hno, rfl⟩, step_eq_some_iff.mpr ⟨hfits, hhash⟩⟩

/-! ### The values without overflow -/

/-- Every value before the last digit is at least zero; the last product and the last value are
below the bound. -/
structure Small (H : HornerHash) (cs : List ℤ) : Prop where
  nonneg : ∀ pre, pre <+: cs.dropLast → 0 ≤ H.value pre
  product_lt : H.value cs.dropLast * H.base < H.bound
  value_lt : H.value cs < H.bound

theorem small_nil : H.Small [] where
  nonneg pre hpre := by
    rw [List.prefix_nil.mp hpre]
    exact le_rfl
  product_lt := by
    rw [List.dropLast_nil, value_nil, zero_mul]
    exact H.bound_pos
  value_lt := H.bound_pos

theorem small_concat : H.Small (cs ++ [c]) ↔ (∀ pre, pre <+: cs → 0 ≤ H.value pre) ∧
    H.value cs * H.base < H.bound ∧ H.value cs * H.base + c < H.bound := by
  rw [← value_concat]
  constructor
  · intro h
    refine ⟨?_, ?_, h.value_lt⟩
    · simpa only [List.dropLast_concat] using h.nonneg
    · simpa only [List.dropLast_concat] using h.product_lt
  · rintro ⟨hnonneg, hproduct, hvalue⟩
    constructor
    · rwa [List.dropLast_concat]
    · rwa [List.dropLast_concat]
    · exact hvalue

theorem digit_le_bound : H.digit ≤ H.bound := by
  have hdigit := H.digit_mul_le
  have hbase := H.one_lt_base
  nlinarith [H.bound_pos, H.digit_nonneg]

/-- A value that is not negative before the last digit is at least that digit. -/
theorem Small.neg_digit_le (h : H.Small cs) (hcs : ∀ c ∈ cs, -H.digit ≤ c) :
    -H.digit ≤ H.value cs := by
  cases cs using List.reverseRecOn with
  | nil => exact neg_nonpos.mpr H.digit_nonneg
  | append_singleton cs c =>
    obtain ⟨hnonneg, -, -⟩ := small_concat.mp h
    have hc : -H.digit ≤ c := hcs c (List.mem_append_right _ List.mem_cons_self)
    have hproduct : 0 ≤ H.value cs * H.base :=
      mul_nonneg (hnonneg cs (List.prefix_refl _)) (zero_le_one.trans H.one_lt_base.le)
    rw [value_concat]
    linarith

theorem Small.value_nonneg (h : H.Small cs) (hvalue : 0 ≤ H.value cs) {pre : List ℤ}
    (hpre : pre <+: cs) : 0 ≤ H.value pre := by
  cases cs using List.reverseRecOn with
  | nil => rwa [List.prefix_nil.mp hpre]
  | append_singleton cs c =>
    obtain rfl | hpre := List.prefix_concat_iff.mp hpre
    · exact hvalue
    · exact (small_concat.mp h).1 pre hpre

/-- A value whose product fits leaves room for a digit. -/
theorem add_digit_lt {v : ℤ} (hv : v * H.base < H.bound) : v + H.digit < H.bound := by
  have hdigit := H.digit_mul_le
  have hbase := H.one_lt_base
  nlinarith [H.bound_pos, H.digit_nonneg]

/-- The products before one that fits fit as well. -/
theorem small_of_product_lt (hcs : ∀ c ∈ cs, -H.digit ≤ c)
    (hnonneg : ∀ pre, pre <+: cs → 0 ≤ H.value pre) (hproduct : H.value cs * H.base < H.bound) :
    H.Small cs := by
  have hroom := add_digit_lt hproduct
  cases cs using List.reverseRecOn with
  | nil => exact small_nil
  | append_singleton cs c =>
    have hc : -H.digit ≤ c := hcs c (List.mem_append_right _ List.mem_cons_self)
    have hdigit := H.digit_nonneg
    rw [value_concat] at hroom
    exact small_concat.mpr ⟨fun pre hpre => hnonneg pre (hpre.trans (List.prefix_append _ _)),
      by linarith, by linarith⟩

/-- A negative value is reduced to one whose product does not fit. -/
theorem bound_le_emod_mul {v : ℤ} (hv : -H.digit ≤ v) (hneg : v < 0) :
    H.bound ≤ v % H.bound * H.base := by
  have hdigit := H.digit_mul_le
  have hbase := H.one_lt_base
  have hle := H.digit_le_bound
  have hmod : v % H.bound = v + H.bound := by
    rw [← Int.add_emod_right, Int.emod_eq_of_lt (by linarith) (by linarith)]
  rw [hmod]
  nlinarith [H.bound_pos, H.digit_nonneg]

/-- **When a hash does not overflow.** -/
theorem noOverflow_iff (hcs : ∀ c ∈ cs, -H.digit ≤ c) : H.NoOverflow cs ↔ H.Small cs := by
  induction cs using List.reverseRecOn with
  | nil => exact iff_of_true noOverflow_nil small_nil
  | append_singleton cs c ih =>
    have hcs' : ∀ c ∈ cs, -H.digit ≤ c := fun x hx => hcs x (List.mem_append_left _ hx)
    have hc : -H.digit ≤ c := hcs c (List.mem_append_right _ List.mem_cons_self)
    rw [noOverflow_concat, ih hcs', small_concat]
    constructor
    · rintro ⟨hsmall, hproduct, hsum⟩
      -- a negative value does not get past the next product
      have hvalue : 0 ≤ H.value cs := by
        by_contra hneg
        have hle := bound_le_emod_mul (hsmall.neg_digit_le hcs') (not_le.mp hneg)
        rw [← hash_eq] at hle
        exact absurd hproduct.2 (not_lt.mpr hle)
      rw [hash_eq, Int.emod_eq_of_lt hvalue hsmall.value_lt] at hproduct hsum
      exact ⟨fun pre hpre => hsmall.value_nonneg hvalue hpre, hproduct.2, hsum.2⟩
    · rintro ⟨hnonneg, hproduct, hsum⟩
      have hvalue := hnonneg cs (List.prefix_refl _)
      have hsmall := small_of_product_lt hcs' hnonneg hproduct
      have hle : 0 ≤ H.value cs * H.base :=
        mul_nonneg hvalue (zero_le_one.trans H.one_lt_base.le)
      have hbound := H.digit_le_bound
      have hpos := H.bound_pos
      rw [hash_eq, Int.emod_eq_of_lt hvalue hsmall.value_lt]
      exact ⟨hsmall, ⟨by linarith, hproduct⟩, by linarith, hsum⟩

/-! ### Digits that are not negative -/

theorem value_nonneg (hcs : ∀ c ∈ cs, 0 ≤ c) : 0 ≤ H.value cs := by
  induction cs using List.reverseRecOn with
  | nil => exact le_rfl
  | append_singleton cs c ih =>
    rw [value_concat]
    have hc : 0 ≤ c := hcs c (List.mem_append_right _ List.mem_cons_self)
    have hvalue := ih fun x hx => hcs x (List.mem_append_left _ hx)
    exact add_nonneg (mul_nonneg hvalue (zero_le_one.trans H.one_lt_base.le)) hc

/-- Without negative digits only the value itself decides. -/
theorem noOverflow_iff_of_nonneg (hcs : ∀ c ∈ cs, 0 ≤ c) :
    H.NoOverflow cs ↔ H.value cs < H.bound := by
  rw [noOverflow_iff fun c hc => (neg_nonpos.mpr H.digit_nonneg).trans (hcs c hc)]
  refine ⟨Small.value_lt, fun hvalue => ?_⟩
  cases cs using List.reverseRecOn with
  | nil => exact small_nil
  | append_singleton cs c =>
    have hc : 0 ≤ c := hcs c (List.mem_append_right _ List.mem_cons_self)
    rw [value_concat] at hvalue
    exact small_concat.mpr ⟨fun pre hpre => value_nonneg fun x hx =>
      hcs x (List.mem_append_left _ (hpre.subset hx)), by linarith, hvalue⟩

/-- A string that does not start with zero has at least the value of its length. -/
theorem pow_length_le_value (hc : 1 ≤ c) (hcs : ∀ x ∈ cs, 0 ≤ x) :
    H.base ^ cs.length ≤ H.value (c :: cs) := by
  induction cs using List.reverseRecOn with
  | nil => simpa [value] using hc
  | append_singleton cs x ih =>
    have hx : 0 ≤ x := hcs x (List.mem_append_right _ List.mem_cons_self)
    have hpow := ih fun y hy => hcs y (List.mem_append_left _ hy)
    rw [← List.cons_append, value_concat, List.length_append, List.length_singleton, pow_succ]
    have hmul := mul_le_mul_of_nonneg_right hpow (zero_le_one.trans H.one_lt_base.le)
    linarith

end HornerHash

end LightFS.Library
