import Mathlib.Data.List.OfFn
import Mathlib.Tactic.Ring
import LightFS.Library.CString

/-!
# Records in a byte buffer

Packed binary formats are written and read in C by a cursor moved by hand over a byte buffer:
`memcpy(cursor, &field, sizeof(field)); cursor += sizeof(field);`. This file provides the two
field encodings (`leBytes`, a little-endian integer; `CString.terminated`, a string with its
NUL), the writing cursor (`BufferWriter`), the reading functions, and the facts a round trip is
assembled from: writing fields one after the other writes their concatenation
(`BufferWriter.put_put`), and a field that stands at the cursor is read back with the cursor
left just behind it.

## Main definitions

* `leBytes`, `ofLeBytes`.
* `overwrite`, `BufferWriter`, `BufferWriter.put`, `readLe`.

## Main results

* `ofLeBytes_leBytes`.
* `drop_overwrite`, `length_overwrite`.
-/

namespace LightFS.Library

/-! ### Little-endian integers -/

/-- The `w` low bytes of `v`, least significant first. -/
def leBytes : ℕ → ℕ → List UInt8
  | 0, _ => []
  | w + 1, v => UInt8.ofNat v :: leBytes w (v / 256)

/-- The number whose little-endian bytes are given. -/
def ofLeBytes : List UInt8 → ℕ
  | [] => 0
  | b :: bs => b.toNat + 256 * ofLeBytes bs

@[simp] theorem length_leBytes (w v : ℕ) : (leBytes w v).length = w := by
  induction w generalizing v with
  | zero => rfl
  | succ w ih => simp only [leBytes, List.length_cons, ih]

/-- Reading back `w` little-endian bytes gives the number modulo `256 ^ w`. -/
theorem ofLeBytes_leBytes_mod (w v : ℕ) : ofLeBytes (leBytes w v) = v % 256 ^ w := by
  induction w generalizing v with
  | zero => simp [leBytes, ofLeBytes, Nat.mod_one]
  | succ w ih =>
    have hlow : (UInt8.ofNat v).toNat = v % 256 := by simp
    rw [leBytes, ofLeBytes, ih, hlow, pow_succ', Nat.mod_mul]

theorem ofLeBytes_leBytes {w v : ℕ} (h : v < 256 ^ w) : ofLeBytes (leBytes w v) = v := by
  rw [ofLeBytes_leBytes_mod, Nat.mod_eq_of_lt h]

theorem ofLeBytes_lt (bs : List UInt8) : ofLeBytes bs < 256 ^ bs.length := by
  induction bs with
  | nil => exact Nat.one_pos
  | cons b bs ih =>
    have hb : b.toNat < 256 := b.toNat_lt
    rw [ofLeBytes, List.length_cons, pow_succ']
    omega

theorem ofNat_ofLeBytes_leBytes_uint64 (v : UInt64) :
    UInt64.ofNat (ofLeBytes (leBytes 8 v.toNat)) = v := by
  rw [ofLeBytes_leBytes (by simpa using v.toNat_lt), UInt64.ofNat_toNat]

theorem ofNat_ofLeBytes_leBytes_uint32 (v : UInt32) :
    UInt32.ofNat (ofLeBytes (leBytes 4 v.toNat)) = v := by
  rw [ofLeBytes_leBytes (by simpa using v.toNat_lt), UInt32.ofNat_toNat]

/-! ### Strings with their terminator -/

/-- The bytes `memcpy(cursor, s, strlen(s) + 1)` writes. -/
def CString.terminated (s : CString) : List UInt8 := s.bytes ++ [0]

@[simp] theorem CString.length_terminated (s : CString) : s.terminated.length = s.length + 1 := by
  simp [CString.terminated, CString.length]

/-! ### Writing at a cursor -/

/-- `memcpy(buf + pos, bytes, len)`. A write that runs past the end of the buffer makes the
result longer than the buffer, so an overrun is visible in the length. -/
def overwrite (buf : List UInt8) (pos : ℕ) (bytes : List UInt8) : List UInt8 :=
  buf.take pos ++ bytes ++ buf.drop (pos + bytes.length)

theorem length_overwrite {buf bytes : List UInt8} {pos : ℕ}
    (h : pos + bytes.length ≤ buf.length) : (overwrite buf pos bytes).length = buf.length := by
  simp only [overwrite, List.length_append, List.length_take, List.length_drop]
  omega

/-- What stands at the position of a write: the written bytes, then the old contents. -/
theorem drop_overwrite {buf : List UInt8} {pos : ℕ} (hpos : pos ≤ buf.length)
    (bytes : List UInt8) :
    (overwrite buf pos bytes).drop pos = bytes ++ buf.drop (pos + bytes.length) := by
  have hlen : (buf.take pos).length = pos := List.length_take_of_le hpos
  rw [overwrite, List.append_assoc, List.drop_append_of_le_length hlen.ge, ← hlen,
    List.drop_eq_nil_of_le (by simp [hlen]), List.nil_append, hlen]

/-- A buffer with a write in it reaches at least to the end of the write. -/
theorem le_length_overwrite {buf : List UInt8} {pos : ℕ} (hpos : pos ≤ buf.length)
    (bytes : List UInt8) : pos + bytes.length ≤ (overwrite buf pos bytes).length := by
  rw [overwrite, List.length_append, List.length_append, List.length_take_of_le hpos]
  exact Nat.le_add_right _ _

/-- Behind a write the buffer is as it was. -/
theorem getElem?_overwrite_of_le {buf bytes : List UInt8} {pos p : ℕ} (hpos : pos ≤ buf.length)
    (hp : pos + bytes.length ≤ p) : (overwrite buf pos bytes)[p]? = buf[p]? := by
  have hlen : (buf.take pos ++ bytes).length = pos + bytes.length := by
    rw [List.length_append, List.length_take_of_le hpos]
  rw [overwrite, List.getElem?_append_right (hlen.trans_le hp), hlen, List.getElem?_drop,
    Nat.add_sub_cancel' hp]

/-- Two writes one behind the other are one write of both. -/
theorem overwrite_overwrite {buf : List UInt8} {pos : ℕ} (hpos : pos ≤ buf.length)
    (a b : List UInt8) :
    overwrite (overwrite buf pos a) (pos + a.length) b = overwrite buf pos (a ++ b) := by
  have hlen : (buf.take pos ++ a).length = pos + a.length := by
    rw [List.length_append, List.length_take_of_le hpos]
  have htake : (overwrite buf pos a).take (pos + a.length) = buf.take pos ++ a := by
    rw [overwrite, ← hlen, List.take_left]
  have hdrop : (overwrite buf pos a).drop (pos + a.length + b.length) =
      buf.drop (pos + (a ++ b).length) := by
    rw [← List.drop_drop, overwrite, ← hlen, List.drop_left, hlen, List.drop_drop,
      List.length_append, add_assoc]
  rw [overwrite, htake, hdrop, overwrite, List.append_assoc (buf.take pos)]

/-- A buffer and the cursor writing to it. -/
structure BufferWriter where
  /-- The bytes from the start of the buffer on. -/
  buf : List UInt8
  /-- The offset of the cursor. -/
  cursor : ℕ

namespace BufferWriter

/-- Write a field at the cursor and move the cursor behind it. -/
def put (w : BufferWriter) (field : List UInt8) : BufferWriter where
  buf := overwrite w.buf w.cursor field
  cursor := w.cursor + field.length

/-- Two fields put one after the other are one field. -/
theorem put_put {w : BufferWriter} (hw : w.cursor ≤ w.buf.length) (a b : List UInt8) :
    (w.put a).put b = w.put (a ++ b) := by
  simp only [put, overwrite_overwrite hw, List.length_append, add_assoc]

end BufferWriter

/-! ### Reading at a cursor -/

/-- `memcpy` of an integer field of `w` bytes at the cursor. -/
def readLe (buf : List UInt8) (pos w : ℕ) : ℕ := ofLeBytes ((buf.drop pos).take w)

/-- A field of known width that stands at the cursor is read back by taking its width. -/
theorem take_drop_of_drop_eq {buf field rest : List UInt8} {pos : ℕ}
    (h : buf.drop pos = field ++ rest) : (buf.drop pos).take field.length = field := by
  rw [h, List.take_left]

/-- Behind a field that stands at the cursor stands what followed it. -/
theorem drop_add_of_drop_eq {buf field rest : List UInt8} {pos : ℕ}
    (h : buf.drop pos = field ++ rest) : buf.drop (pos + field.length) = rest := by
  rw [← List.drop_drop, h, List.drop_left]

/-- A terminated string that stands at the cursor is read back whole. -/
theorem ofMemory_drop_of_drop_eq {buf rest : List UInt8} {pos : ℕ} {s : CString}
    (h : buf.drop pos = s.terminated ++ rest) : CString.ofMemory (buf.drop pos) = s := by
  rw [h, CString.terminated, List.append_assoc]
  exact CString.ofMemory_append s rest

/-- An integer field that stands at the cursor is read back, cut to its width. -/
theorem readLe_lt (buf : List UInt8) (pos w : ℕ) : readLe buf pos w < 256 ^ w :=
  Nat.lt_of_lt_of_le (ofLeBytes_lt _)
    (Nat.pow_le_pow_right (by omega) (List.length_take_le w _))

/-- An integer of 4 bytes is not changed by its type. -/
theorem toNat_ofNat_readLe (buf : List UInt8) (pos : ℕ) :
    (UInt32.ofNat (readLe buf pos 4)).toNat = readLe buf pos 4 :=
  UInt32.toNat_ofNat_of_lt' (readLe_lt buf pos 4)

theorem readLe_of_drop_eq {buf rest : List UInt8} {pos w v : ℕ}
    (h : buf.drop pos = leBytes w v ++ rest) : readLe buf pos w = ofLeBytes (leBytes w v) := by
  have hw : ((buf.drop pos).take w) = leBytes w v := by
    simpa using take_drop_of_drop_eq h
  rw [readLe, hw]

/-- The first field of a record. -/
theorem readLe_leBytes_append (w v : ℕ) (rest : List UInt8) :
    readLe (leBytes w v ++ rest) 0 w = ofLeBytes (leBytes w v) :=
  readLe_of_drop_eq rfl

/-- A field behind the first field of a record. -/
theorem readLe_leBytes_append_of_le {w pos : ℕ} (h : w ≤ pos) (v w' : ℕ) (rest : List UInt8) :
    readLe (leBytes w v ++ rest) pos w' = readLe rest (pos - w) w' := by
  rw [readLe, List.drop_append, List.drop_eq_nil_of_le (by simpa using h), length_leBytes,
    List.nil_append, readLe]

end LightFS.Library
