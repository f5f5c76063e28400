import Mathlib.Data.List.Perm.Basic
import Mathlib.Data.List.Perm.Lattice
import LightFS.Library.SlotArray

/-!
# XOR parity of blocks

Blocks are byte strings of one length, here written `slots f F` for the block whose byte `b` is
`f b`. The parity of `n` blocks is built by XOR-ing them one after the other into a zeroed block
(`foldl_xorInto`); its byte `b` is the XOR of the bytes `b` of all blocks (`xorSum`). The parity
fixes one block when the others are known (`xorSum_eq_iff`), and never two: changing two of them
by the same byte leaves the parity as it is (`xorSum_two`).

## Main definitions

* `xorSum`, `xorInto`, `xorBlocks`.

## Main results

* `xorSum_eq_iff`, `xorSum_two`, `foldl_xorInto`.
* `xorBlocks_eraseIdx` — a block is the XOR of the parity and the other blocks.
-/

namespace LightFS.Library

/-- The XOR of `f 0, …, f (n - 1)`. -/
def xorSum (f : ℕ → UInt8) : ℕ → UInt8
  | 0 => 0
  | n + 1 => xorSum f n ^^^ f n

/-- `for (b = 0; b < size; b++) parity[b] ^= block[b];`. -/
def xorInto (parity block : List UInt8) : List UInt8 := List.zipWith (· ^^^ ·) parity block

variable {f g : ℕ → UInt8} {i j n : ℕ}

theorem xorSum_congr (h : ∀ j < n, f j = g j) : xorSum f n = xorSum g n := by
  induction n with
  | zero => rfl
  | succ n ih =>
    rw [xorSum, xorSum, ih fun j hj => h j (by omega), h n (by omega)]

theorem xorSum_eq_zero (h : ∀ j < n, f j = 0) : xorSum f n = 0 := by
  induction n with
  | zero => rfl
  | succ n ih => rw [xorSum, ih fun j hj => h j (by omega), h n (by omega), UInt8.xor_zero]

/-- Equal parities of blocks that agree except at `i` mean that they agree at `i` too. -/
theorem xorSum_eq_iff (hi : i < n) (h : ∀ j < n, j ≠ i → f j = g j) :
    xorSum f n = xorSum g n ↔ f i = g i := by
  induction n with
  | zero => omega
  | succ n ih =>
    rw [xorSum, xorSum]
    rcases Nat.lt_succ_iff_lt_or_eq.mp hi with hlt | rfl
    · rw [h n (by omega) (by omega), UInt8.xor_left_inj, ih hlt fun j hj => h j (by omega)]
    · rw [xorSum_congr fun j hj => h j (by omega) (by omega), UInt8.xor_right_inj]

/-- The parity of one non-zero byte is that byte. -/
theorem xorSum_one (hi : i < n) (h : ∀ l < n, l ≠ i → f l = 0) : xorSum f n = f i := by
  induction n with
  | zero => omega
  | succ n ih =>
    rw [xorSum]
    rcases Nat.lt_succ_iff_lt_or_eq.mp hi with hlt | rfl
    · rw [h n (by omega) (by omega), UInt8.xor_zero, ih hlt fun l hl => h l (by omega)]
    · rw [xorSum_eq_zero fun l hl => h l (by omega) (by omega), UInt8.zero_xor]

/-- The parity does not see the same byte at two places. -/
theorem xorSum_two (hi : i < n) (hj : j < n) (hij : i ≠ j) (heq : f i = f j)
    (h : ∀ l < n, l ≠ i → l ≠ j → f l = 0) : xorSum f n = 0 := by
  induction n with
  | zero => omega
  | succ n ih =>
    rw [xorSum]
    rcases Nat.lt_succ_iff_lt_or_eq.mp hi with hi' | rfl
    · rcases Nat.lt_succ_iff_lt_or_eq.mp hj with hj' | rfl
      · rw [h n (by omega) (by omega) (by omega), UInt8.xor_zero,
          ih hi' hj' fun l hl => h l (by omega)]
      · rw [xorSum_one hi' fun l hl hli => h l (by omega) hli (by omega), heq, UInt8.xor_self]
    · rw [xorSum_one (show j < i by omega) fun l hl hlj => h l (by omega) (by omega) hlj, heq,
        UInt8.xor_self]

/-! ### Blocks -/

theorem xorInto_slots (f g : ℕ → UInt8) (F : ℕ) :
    xorInto (slots f F) (slots g F) = slots (fun b => f b ^^^ g b) F := by
  rw [xorInto, slots, slots, List.zipWith_map, List.zipWith_self, slots]

/-- XOR-ing `n` blocks into a zeroed block. -/
theorem foldl_xorInto (block : ℕ → ℕ → UInt8) (F n : ℕ) :
    (List.range n).foldl (fun parity j => xorInto parity (slots (block j) F))
      (List.replicate F 0) = slots (fun b => xorSum (fun j => block j b) n) F := by
  induction n with
  | zero => simp [xorSum, slots]
  | succ n ih =>
    rw [List.range_succ, List.foldl_append, ih, List.foldl_cons, List.foldl_nil, xorInto_slots]
    rfl

/-! ### The XOR of a list of blocks -/

/-- The XOR of blocks of `F` bytes. -/
def xorBlocks (F : ℕ) (blocks : List (List UInt8)) : List UInt8 :=
  blocks.foldl xorInto (List.replicate F 0)

theorem xorInto_right_comm (a b c : List UInt8) :
    xorInto (xorInto a b) c = xorInto (xorInto a c) b := by
  refine List.ext_getElem ?_ fun i h h' => ?_
  · simp only [xorInto, List.length_zipWith]
    omega
  · simp only [xorInto, List.getElem_zipWith, UInt8.xor_assoc]
    exact congrArg _ (UInt8.xor_comm _ _)

theorem length_xorInto {a b : List UInt8} (h : a.length = b.length) :
    (xorInto a b).length = a.length := by
  rw [xorInto, List.length_zipWith, ← h, Nat.min_self]

/-- A block that is XOR-ed in twice is gone. -/
theorem xorInto_xorInto {a b : List UInt8} (h : a.length = b.length) :
    xorInto (xorInto a b) b = a := by
  refine List.ext_getElem ?_ fun i hi hi' => ?_
  · rw [length_xorInto (by rw [length_xorInto h, h]), length_xorInto h]
  · simp only [xorInto, List.getElem_zipWith, UInt8.xor_assoc, UInt8.xor_self, UInt8.xor_zero]

theorem xorInto_zero {a : List UInt8} {F : ℕ} (h : a.length = F) :
    xorInto (List.replicate F 0) a = a := by
  refine List.ext_getElem ?_ fun i hi hi' => ?_
  · rw [length_xorInto (by rw [List.length_replicate, h]), List.length_replicate, h]
  · simp only [xorInto, List.getElem_zipWith, List.getElem_replicate, UInt8.zero_xor]

instance : RightCommutative xorInto := ⟨xorInto_right_comm⟩

/-- The order of the blocks does not matter. -/
theorem xorBlocks_perm {F : ℕ} {blocks blocks' : List (List UInt8)} (h : blocks.Perm blocks') :
    xorBlocks F blocks = xorBlocks F blocks' :=
  h.foldl_eq _

theorem length_foldl_xorInto {F : ℕ} {blocks : List (List UInt8)} {a : List UInt8}
    (hblocks : ∀ b ∈ blocks, b.length = F) (ha : a.length = F) :
    (blocks.foldl xorInto a).length = F := by
  induction blocks generalizing a with
  | nil => exact ha
  | cons b blocks ih =>
    refine ih (fun c hc => hblocks c (List.mem_cons_of_mem b hc)) ?_
    rw [length_xorInto (ha.trans (hblocks b List.mem_cons_self).symm), ha]

/-- Blocks that are all XOR-ed in twice are gone. -/
theorem foldl_xorInto_twice {F : ℕ} {blocks : List (List UInt8)} {a : List UInt8}
    (hblocks : ∀ b ∈ blocks, b.length = F) (ha : a.length = F) :
    blocks.foldl xorInto (blocks.foldl xorInto a) = a := by
  induction blocks generalizing a with
  | nil => rfl
  | cons b blocks ih =>
    have hb : b.length = F := hblocks b List.mem_cons_self
    have hrest : ∀ c ∈ blocks, c.length = F := fun c hc => hblocks c (List.mem_cons_of_mem b hc)
    have hmove := (List.perm_append_singleton b blocks).foldl_eq (f := xorInto) (xorInto a b)
    rw [List.foldl_append, List.foldl_cons, List.foldl_nil, List.foldl_cons] at hmove
    rw [List.foldl_cons, List.foldl_cons, hmove, xorInto_xorInto (ha.trans hb.symm), ih hrest ha]

/-- A block is the XOR of the parity of all blocks and the other blocks. -/
theorem xorBlocks_eraseIdx {F : ℕ} {blocks : List (List UInt8)}
    (hblocks : ∀ b ∈ blocks, b.length = F) {i : ℕ} (hi : i < blocks.length) :
    xorBlocks F (xorBlocks F blocks :: blocks.eraseIdx i) = blocks[i] := by
  have hlen : blocks[i].length = F := hblocks _ (List.getElem_mem hi)
  have hrest : ∀ b ∈ blocks.eraseIdx i, b.length = F := fun b hb =>
    hblocks b (List.mem_of_mem_eraseIdx hb)
  have hparity : xorBlocks F blocks = (blocks.eraseIdx i).foldl xorInto blocks[i] := by
    rw [← xorBlocks_perm (List.getElem_cons_eraseIdx_perm hi), xorBlocks, List.foldl_cons,
      xorInto_zero hlen]
  have hparityLen : (xorBlocks F blocks).length = F :=
    length_foldl_xorInto hblocks (List.length_replicate)
  rw [xorBlocks, List.foldl_cons, xorInto_zero hparityLen, hparity, foldl_xorInto_twice hrest hlen]

end LightFS.Library
