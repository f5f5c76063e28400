import Mathlib.Algebra.Group.Nat.Defs
import Mathlib.Data.List.Infix
import Mathlib.Data.List.Lex
import Mathlib.Data.List.TakeWhile
import Mathlib.Order.Lattice

/-!
# C strings

A `const char *` is modelled by the bytes before its terminating NUL (`CString`), a
`char[cap + 1]` array that always holds a terminated string by such a string of at most `cap`
bytes (`CharArray cap`). Both carry the absence of NUL bytes, so a value of either type is a
string that C code can really see.

`strcmp` compares bytes as `unsigned char`, as the C standard prescribes. Strings are ordered
lexicographically by their bytes read as numbers, and `strcmp_eq_gt_iff`, `strcmp_eq_lt_iff`
identify the sign of `strcmp` with this order.

## Main definitions

* `CString`, `CString.ofMemory` — the string starting at a position of a byte memory.
* `CharArray`, `CharArray.strncpy`.
* `strcmp`, `strncmpEq`, and the linear order of `CString`.
* `strcasecmpEq`, `strtoull`.
-/

namespace LightFS.Library

/-- A NUL-terminated string, as the list of the bytes before the NUL. -/
@[ext] structure CString where
  /-- The bytes before the terminating NUL. -/
  bytes : List UInt8
  /-- No byte before the terminator is NUL. -/
  nul_free : 0 ∉ bytes

namespace CString

instance : Inhabited CString := ⟨⟨[], by simp⟩⟩

/-- `strlen`. -/
def length (s : CString) : ℕ := s.bytes.length

/-- The string at the start of a byte memory: everything before the first NUL. -/
def ofMemory (mem : List UInt8) : CString where
  bytes := mem.takeWhile (· ≠ 0)
  nul_free h := by simpa using List.mem_takeWhile_imp h

/-- The string read back from a memory that holds its bytes and a NUL. -/
theorem ofMemory_append (s : CString) (rest : List UInt8) :
    ofMemory (s.bytes ++ 0 :: rest) = s := by
  ext1
  have hs : ∀ x ∈ s.bytes, decide (x ≠ 0) = true := fun x hx =>
    decide_eq_true fun h => s.nul_free (h ▸ hx)
  change (s.bytes ++ 0 :: rest).takeWhile (· ≠ 0) = s.bytes
  rw [List.takeWhile_append_of_pos hs]
  simp

/-- A memory without a NUL is read to its end. -/
theorem bytes_ofMemory {mem : List UInt8} (h : 0 ∉ mem) : (ofMemory mem).bytes = mem :=
  List.takeWhile_eq_self_iff.mpr fun _ hb => decide_eq_true fun hzero => h (hzero ▸ hb)

/-- The bytes of a string as numbers, the values `strcmp` compares. -/
def ranks (s : CString) : List ℕ := s.bytes.map UInt8.toNat

theorem ranks_injective : Function.Injective ranks := by
  intro s t h
  ext1
  exact List.map_injective_iff.mpr (fun _ _ => UInt8.toNat_inj.mp) h

/-- Strings in lexicographic order of their bytes. -/
instance : LinearOrder CString := LinearOrder.lift' ranks ranks_injective

end CString

/-- `strcmp` on the bytes of two strings: the order of the first bytes that differ, a string
that ends first being smaller. -/
def strcmp : List UInt8 → List UInt8 → Ordering
  | [], [] => .eq
  | [], _ :: _ => .lt
  | _ :: _, [] => .gt
  | a :: as, b :: bs =>
    if a.toNat < b.toNat then .lt else if b.toNat < a.toNat then .gt else strcmp as bs

private theorem strcmp_eq_gt_iff_map (a b : List UInt8) :
    strcmp a b = .gt ↔ b.map UInt8.toNat < a.map UInt8.toNat := by
  induction a generalizing b with
  | nil => cases b <;> simp [strcmp]
  | cons x a ih =>
    cases b with
    | nil => simp [strcmp]
    | cons y b =>
      simp only [strcmp, List.map_cons, List.cons_lt_cons_iff]
      split_ifs with h₁ h₂
      · simp only [false_iff, not_or, not_and]
        exact ⟨by omega, fun h => by omega⟩
      · simp only [true_iff]
        exact Or.inl h₂
      · rw [ih]
        have hxy : y.toNat = x.toNat := by omega
        simp [hxy]

theorem strcmp_swap (a b : List UInt8) : (strcmp a b).swap = strcmp b a := by
  induction a generalizing b with
  | nil => cases b <;> rfl
  | cons x a ih =>
    cases b with
    | nil => rfl
    | cons y b =>
      simp only [strcmp]
      split_ifs <;> first | rfl | exact ih b | omega

/-- `strcmp(a, b) > 0` exactly when `b` comes before `a`. -/
theorem strcmp_eq_gt_iff (a b : CString) : strcmp a.bytes b.bytes = .gt ↔ b < a :=
  strcmp_eq_gt_iff_map a.bytes b.bytes

/-- `strcmp(a, b) < 0` exactly when `a` comes before `b`. -/
theorem strcmp_eq_lt_iff (a b : CString) : strcmp a.bytes b.bytes = .lt ↔ a < b := by
  rw [← strcmp_eq_gt_iff, ← strcmp_swap b.bytes]
  cases strcmp b.bytes a.bytes <;> simp

/-- `strcmp(a, b) == 0` exactly when the strings are equal. -/
theorem strcmp_eq_eq_iff (a b : List UInt8) : strcmp a b = .eq ↔ a = b := by
  induction a generalizing b with
  | nil => cases b <;> simp [strcmp]
  | cons x a ih =>
    cases b with
    | nil => simp [strcmp]
    | cons y b =>
      simp only [strcmp, List.cons.injEq]
      split_ifs with h₁ h₂
      · simp only [false_iff, not_and]
        rintro rfl
        omega
      · simp only [false_iff, not_and]
        rintro rfl
        omega
      · rw [ih]
        have hxy : x = y := UInt8.toNat_inj.mp (by omega)
        simp [hxy]

/-- `strncmp(a, b, n) == 0`: the strings agree on their first `n` bytes, a string that ends
earlier agreeing only with one that ends at the same place. -/
def strncmpEq (a b : CString) (n : ℕ) : Bool := a.bytes.take n = b.bytes.take n

/-- Comparing as many bytes as the second string has tests for a common beginning. -/
theorem strncmpEq_length_iff (a b : CString) :
    strncmpEq a b b.length = true ↔ b.bytes <+: a.bytes := by
  rw [strncmpEq, decide_eq_true_iff, CString.length, List.take_length,
    List.prefix_iff_eq_take, eq_comm]

/-- The string of a literal of the source. -/
def CString.ofString (s : String) : CString :=
  .ofMemory (s.toList.map fun c => UInt8.ofNat c.toNat)

/-- `tolower` in the C locale. -/
def toLower (b : UInt8) : UInt8 := if 65 ≤ b ∧ b ≤ 90 then b + 32 else b

/-- `strcasecmp(a, b) == 0`. -/
def strcasecmpEq (a b : CString) : Bool := a.bytes.map toLower = b.bytes.map toLower

/-- `isspace` in the C locale. -/
def isSpace (b : UInt8) : Bool := b = 32 ∨ 9 ≤ b ∧ b ≤ 13

/-- The value of the decimal digits at the start of a memory. -/
def leadingDigits (mem : List UInt8) : ℕ :=
  (mem.takeWhile fun b => 48 ≤ b ∧ b ≤ 57).foldl (fun n b => n * 10 + (b.toNat - 48)) 0

/-- `strtoull(s, NULL, 10)`: blanks, a sign and digits; too large a value is cut to the greatest
one, and a minus sign negates modulo `2 ^ 64`. -/
def strtoull (s : CString) : UInt64 :=
  let mem := s.bytes.dropWhile isSpace
  let digits := if mem.head? = some 43 ∨ mem.head? = some 45 then mem.tail else mem
  let value := leadingDigits digits
  if 2 ^ 64 ≤ value then UInt64.ofNat (2 ^ 64 - 1)
  else if mem.head? = some 45 then -UInt64.ofNat value
  else UInt64.ofNat value

/-- A `char[cap + 1]` array holding a terminated string of at most `cap` bytes. -/
@[ext] structure CharArray (cap : ℕ) extends CString where
  /-- The string and its NUL fit the array. -/
  length_le : bytes.length ≤ cap
deriving DecidableEq

namespace CharArray

variable {cap : ℕ}

theorem toCString_injective : Function.Injective fun s : CharArray cap => s.toCString := by
  intro a b h
  ext1
  exact congrArg CString.bytes h

/-- The zeroed array. -/
def empty : CharArray cap where
  bytes := []
  nul_free := by simp
  length_le := Nat.zero_le _

instance : Inhabited (CharArray cap) := ⟨empty⟩

/-- `strncpy(dst, src, cap)` into an array of `cap + 1` bytes whose last byte is NUL: the first
`cap` bytes of the source. -/
def strncpy (src : CString) : CharArray cap where
  bytes := src.bytes.take cap
  nul_free h := src.nul_free (List.mem_of_mem_take h)
  length_le := List.length_take_le _ _

/-- Copying a string that fits the array keeps it. -/
@[simp] theorem strncpy_toCString (s : CharArray cap) : strncpy s.toCString = s := by
  ext1
  exact List.take_of_length_le s.length_le

theorem strncpy_bytes_of_le {src : CString} (h : src.bytes.length ≤ cap) :
    (strncpy src : CharArray cap).bytes = src.bytes :=
  List.take_of_length_le h

/-- Bytes without a NUL that fit are copied as they are. -/
theorem bytes_strncpy_ofMemory {part : List UInt8} (hnul : 0 ∉ part) (h : part.length ≤ cap) :
    (strncpy (.ofMemory part) : CharArray cap).bytes = part := by
  rw [strncpy_bytes_of_le]
  · exact CString.bytes_ofMemory hnul
  · rwa [CString.bytes_ofMemory hnul]

end CharArray

end LightFS.Library
