import Mathlib.Data.Nat.Digits.Defs
import LightFS.Library.CString

/-!
# Text in a byte buffer

C code builds texts with `snprintf(buf + pos, size, format, …)`: the formatted text is stored with
a terminating NUL, cut to the size, and its full length is returned. A buffer is modelled by the
memory from its start on (`Buffer`), so that a read behind its end is a read of some byte. This
file provides the store, `snprintf` and the pieces of formats, and the facts about texts that are
put one behind the other.

The length of a text of `2 ^ 31` bytes or more is not an `int`, and `snprintf` then returns `-1`
(`snprintfResult`). Code that compares the result with a size takes both as a failure.

## Main definitions

* `Buffer`, `Buffer.store`, `Buffer.snprintf`, `snprintfResult`.
* `literal`, `decimal`, `signedDecimal` — the pieces of a formatted text.
* `decimalValue` — the number that a text of digits stands for.

## Main results

* `Buffer.snprintf_of_lt` — a text that fits is stored whole.
* `Buffer.store_store` — a text that is continued at its NUL.
* `decimalValue_decimal` — a number is read back from its digits.
-/

namespace LightFS.Library

/-- The memory from the start of a buffer on. -/
abbrev Buffer := ℕ → UInt8

namespace Buffer

variable (buf : Buffer) {pos size : ℕ} {text a b : List UInt8}

/-- `memcpy(buf + pos, bytes, len)`. -/
def store (pos : ℕ) (bytes : List UInt8) : Buffer := fun i =>
  (if pos ≤ i then bytes[i - pos]? else none).getD (buf i)

/-- `snprintf(buf + pos, size, …)`, for the text that the format and its arguments give. -/
def snprintf (pos size : ℕ) (text : List UInt8) : Buffer :=
  if size = 0 then buf else buf.store pos (text.take (size - 1) ++ [0])

/-- `snprintf` writes only the bytes it is given. -/
theorem snprintf_apply_of_le (text : List UInt8) {i : ℕ} (h : pos + size ≤ i) :
    buf.snprintf pos size text i = buf i := by
  rw [snprintf]
  split_ifs with hsize
  · rfl
  · have hlength : (text.take (size - 1) ++ [0]).length ≤ i - pos := by
      rw [List.length_append, List.length_take, List.length_singleton]
      omega
    rw [store, if_pos (by omega), List.getElem?_eq_none hlength, Option.getD_none]

/-- A text that fits is stored whole. -/
theorem snprintf_of_lt (h : text.length < size) :
    buf.snprintf pos size text = buf.store pos (text ++ [0]) := by
  rw [snprintf, if_neg (by omega), List.take_of_length_le (by omega)]

/-- A store, byte by byte. -/
theorem store_apply (bytes : List UInt8) (i : ℕ) :
    buf.store pos bytes i =
      if h : pos ≤ i ∧ i - pos < bytes.length then bytes[i - pos] else buf i := by
  rw [store]
  split_ifs with hpos h h
  · rw [List.getElem?_eq_getElem h.2, Option.getD_some]
  · rw [List.getElem?_eq_none (not_lt.mp fun hlt => h ⟨hpos, hlt⟩), Option.getD_none]
  · exact absurd h.1 hpos
  · rfl

theorem store_zero_apply (bytes : List UInt8) (i : ℕ) :
    buf.store 0 bytes i = bytes[i]?.getD (buf i) := by
  rw [store, if_pos (Nat.zero_le i), Nat.sub_zero]

/-- A text is read back from the start of a buffer. -/
theorem store_text_apply (text : List UInt8) {i : ℕ} (h : i < text.length) :
    buf.store 0 (text ++ [0]) i = text[i] := by
  rw [store_zero_apply, List.getElem?_append_left h, List.getElem?_eq_getElem h, Option.getD_some]

/-- A text is continued where its NUL stands. -/
theorem store_store (a b : List UInt8) :
    (buf.store 0 (a ++ [0])).store a.length (b ++ [0]) = buf.store 0 (a ++ b ++ [0]) := by
  funext i
  rw [store_zero_apply, store]
  by_cases hi : a.length ≤ i
  · rw [if_pos hi, List.append_assoc a, List.getElem?_append_right hi]
    rcases hb : (b ++ [0])[i - a.length]? with _ | byte
    · -- behind the second text, so behind the first one, too
      have hlen : (b ++ [(0 : UInt8)]).length ≤ i - a.length := List.getElem?_eq_none_iff.mp hb
      have hfirst : (a ++ [(0 : UInt8)])[i]? = none := by
        rw [List.getElem?_eq_none_iff]
        simp only [List.length_append, List.length_singleton] at hlen ⊢
        omega
      rw [Option.getD_none, Option.getD_none, store_zero_apply, hfirst, Option.getD_none]
    · rw [Option.getD_some, Option.getD_some]
  · have hi : i < a.length := Nat.lt_of_not_le hi
    rw [if_neg (Nat.not_le.mpr hi), Option.getD_none, store_zero_apply, List.append_assoc a,
      List.getElem?_append_left hi, List.getElem?_append_left hi]

end Buffer

/-- What `snprintf` returns: the length of the text, as an `int`. -/
def snprintfResult (text : List UInt8) : ℤ := if text.length < 2 ^ 31 then text.length else -1

/-! ### Formats -/

/-- The bytes of a string literal, without its NUL. -/
def literal (s : String) : List UInt8 := s.toList.map fun c => UInt8.ofNat c.toNat

@[simp] theorem length_literal (s : String) : (literal s).length = s.toList.length :=
  List.length_map _

theorem length_ofString_le (s : String) : (CString.ofString s).bytes.length ≤ s.toList.length :=
  (List.takeWhile_prefix _).length_le.trans (List.length_map _).le

/-- `%u`. -/
def decimal (n : ℕ) : List UInt8 := (Nat.toDigits 10 n).map fun c => UInt8.ofNat c.toNat

theorem length_decimal_le {n k : ℕ} (hk : 0 < k) (hn : n < 10 ^ k) : (decimal n).length ≤ k := by
  rw [decimal, List.length_map]
  exact (Nat.length_toDigits_le_iff (by decide) hk).mpr hn

/-- A digit of a decimal number. -/
def isDigitByte (b : UInt8) : Bool := 48 ≤ b ∧ b ≤ 57

/-- The value of a text that is a decimal number. -/
def decimalValue (text : List UInt8) : Option ℕ :=
  if text ≠ [] ∧ text.all isDigitByte then
    some (text.foldl (fun n b => 10 * n + (b.toNat - 48)) 0)
  else none

/-- The digits that `%u` prints, as characters and as bytes. -/
theorem toNat_ofNat_of_mem_toDigits {n : ℕ} {c : Char} (hc : c ∈ Nat.toDigits 10 n) :
    (UInt8.ofNat c.toNat).toNat = c.toNat ∧ 48 ≤ c.toNat ∧ c.toNat ≤ 57 := by
  have hdigit := Nat.isDigit_of_mem_toDigits (by decide) (by decide) hc
  simp only [Char.isDigit, ge_iff_le, Bool.and_eq_true, decide_eq_true_eq] at hdigit
  have hlower : 48 ≤ c.toNat := UInt32.le_iff_toNat_le.mp hdigit.1
  have hupper : c.toNat ≤ 57 := UInt32.le_iff_toNat_le.mp hdigit.2
  exact ⟨UInt8.toNat_ofNat_of_lt' (show c.toNat < 2 ^ 8 by omega), hlower, hupper⟩

theorem isDigitByte_of_mem_decimal {n : ℕ} {b : UInt8} (h : b ∈ decimal n) :
    isDigitByte b = true := by
  obtain ⟨c, hc, rfl⟩ := List.mem_map.mp h
  obtain ⟨hbyte, hlower, hupper⟩ := toNat_ofNat_of_mem_toDigits hc
  rw [← hbyte] at hlower hupper
  exact decide_eq_true ⟨UInt8.le_iff_toNat_le.mpr hlower, UInt8.le_iff_toNat_le.mpr hupper⟩

theorem decimal_ne_nil (n : ℕ) : decimal n ≠ [] := by
  rw [decimal, Ne, List.map_eq_nil_iff]
  exact Nat.toDigits_ne_nil

/-- A number is read back from its digits. -/
theorem decimalValue_decimal (n : ℕ) : decimalValue (decimal n) = some n := by
  rw [decimalValue, if_pos ⟨decimal_ne_nil n, List.all_eq_true.mpr fun b hb =>
    isDigitByte_of_mem_decimal hb⟩, decimal, List.foldl_map]
  have hdigits := Nat.ofDigitChars_toDigits (n := n) (b := 10) (by decide) (by decide)
  rw [Nat.ofDigitChars] at hdigits
  refine congrArg some (Eq.trans ?_ hdigits)
  refine List.foldl_ext _ _ _ fun sofar c hc => ?_
  rw [(toNat_ofNat_of_mem_toDigits hc).1]
  rfl

theorem decimal_injective : Function.Injective decimal := by
  intro m n h
  have hvalue := decimalValue_decimal m
  rw [h, decimalValue_decimal] at hvalue
  exact (Option.some.inj hvalue).symm

theorem nul_notMem_decimal (n : ℕ) : 0 ∉ decimal n := fun h =>
  absurd (isDigitByte_of_mem_decimal h) (by decide)

/-- The string that `snprintf` leaves in an array of `size` bytes. -/
def formatted (size : ℕ) (text : List UInt8) : CString := .ofMemory (text.take (size - 1))

/-- A text that fits is the string in the array. -/
theorem bytes_formatted {size : ℕ} {text : List UInt8} (h : text.length < size)
    (hnul : 0 ∉ text) : (formatted size text).bytes = text := by
  rw [formatted, List.take_of_length_le (by omega)]
  exact List.takeWhile_eq_self_iff.mpr fun b hb => decide_eq_true fun h0 => hnul (h0 ▸ hb)

theorem length_formatted_le (size : ℕ) (text : List UInt8) :
    (formatted size text).length ≤ size - 1 :=
  (List.takeWhile_prefix _).length_le.trans (List.length_take_le _ _)

/-- Texts that differ early are no beginnings of each other. -/
theorem not_prefix_append {a b : List UInt8} (n : ℕ) (ha : n ≤ a.length) (hb : n ≤ b.length)
    (hne : a.take n ≠ b.take n) (rest : List UInt8) : ¬ a <+: b ++ rest := by
  rintro ⟨rest', h⟩
  refine hne ?_
  rw [← List.take_append_of_le_length ha, h, List.take_append_of_le_length hb]

/-- `%d`. -/
def signedDecimal (n : ℤ) : List UInt8 :=
  if n < 0 then literal "-" ++ decimal n.natAbs else decimal n.natAbs

end LightFS.Library
