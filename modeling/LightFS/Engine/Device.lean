import LightFS.Engine.Mkfs

/-!
# The device of a volume

`init_spdk_bdev` (`src/engine/src/config.c`) opens the device and derives the number of segments
from its size. `storage_engine_mkfs_volume` (`src/engine/src/storage_engine.c`) then writes zeros
over the JOURNAL and DATA segments of the pool, one after the other, so that a mount finds no
records of a former volume. Here the device has bytes, and a write of zeros is refused, fails or is
done.

Every such write is inside the device: the size in bytes is computed modulo `2 ^ 64`, which can only
make it smaller. The writes touch nothing but JOURNAL and DATA segments of the pool, and when they
are through, every segment in a JOURNAL or DATA queue is zero (`mkfs_on_device`). The result of
`spdk_bdev_write` is not looked at: if a write is refused, no callback comes, and the loop that
waits for it does not end. SPDK refuses a write whose offset or length is not a multiple of the
block size, and neither `load_config` nor `init_spdk_bdev` compares the segment size with it.

## Main definitions

* `Bdev`, `initSpdkBdev`.
* `ZeroWrite`, `zeroOnDevice`, `zeroPoolOnDevice` — the loop of `zeroSegments` with the device.

## Main results

* `segments_in_device`, `zeroOnDevice_eq_zeroSegments`, `fillOpenQueues_invariant`.
* `mkfs_on_device`.
-/

namespace LightFS.Engine

open Library

variable {layout : SegmentLayout}

/-! ### Opening the device -/

/-- A bdev: the size of a block, the number of blocks, and its bytes. -/
structure Bdev where
  blockSize : ℕ
  numBlocks : ℕ
  contents : ℕ → UInt8

namespace Bdev

/-- The size in bytes. -/
def size (dev : Bdev) : ℕ := dev.numBlocks * dev.blockSize

/-- The bytes from `offset` on are replaced. -/
def overwrite (dev : Bdev) (offset n : ℕ) (bytes : ℕ → UInt8) : Bdev :=
  { dev with contents := fun j =>
      if offset ≤ j ∧ j < offset + n then bytes j else dev.contents j }

end Bdev

/-- `INT_MAX`. -/
def intMax : ℕ := 2 ^ 31 - 1

/-- `num_segments` in `init_spdk_bdev`. The size in bytes is a `uint64_t`. -/
def numSegments (dev : Bdev) (segment : SegmentConfig) : ℕ :=
  let all : ℕ := dev.size % 2 ^ 64 / segment.segmentSize
  if 0 < segment.maxSegments ∧ segment.maxSegments < all then segment.maxSegments.toNat else all

/-- The end of `init_spdk_bdev`, which completes the section `segment` from the size of the
device. -/
def deriveSegments (dev : Bdev) (segment : SegmentConfig) : Except (List UInt8) SegmentConfig :=
  if segment.segmentSize = 0 then
    .error (literal "config: segment.segment_size is 0 after load_config")
  else
    let numSegments := numSegments dev segment
    if numSegments = 0 ∨ intMax < numSegments then
      .error (literal "config: derived max_segments=" ++ decimal numSegments ++
        literal " invalid (bdev bytes / segment_size); adjust segment_size or device capacity")
    else .ok ⟨numSegments, segment.segmentSize⟩

/-- `init_spdk_bdev`, for what `spdk_bdev_get_by_name` and `spdk_bdev_open_ext` return. An error is
the text that is logged. -/
def initSpdkBdev (name : CString) (getByName : Option Bdev) (openExt : ℤ)
    (segment : SegmentConfig) : Except (List UInt8) SegmentConfig :=
  match getByName with
  | none => .error (literal "Failed to find bdev: " ++ name.bytes)
  | some dev =>
    if openExt ≠ 0 then
      .error (literal "Failed to open bdev: " ++ name.bytes ++ literal ", rc=" ++
        signedDecimal openExt)
    else deriveSegments dev segment

/-- **The segments fit on the device**, whose size is taken modulo `2 ^ 64`. There is at least one,
and not more than the configuration allows. -/
theorem segments_in_device {dev : Bdev} {segment segment' : SegmentConfig}
    (hok : deriveSegments dev segment = .ok segment') :
    segment'.segmentSize = segment.segmentSize ∧ 0 < segment'.segmentSize ∧
      1 ≤ segment'.maxSegments ∧ segment'.maxSegments ≤ intMax ∧
      (0 < segment.maxSegments → segment'.maxSegments ≤ segment.maxSegments) ∧
      segment'.maxSegments.toNat * segment'.segmentSize ≤ dev.size % 2 ^ 64 := by
  dsimp only [deriveSegments] at hok
  split_ifs at hok with hzero hrange
  obtain rfl := Except.ok.inj hok
  have hle : numSegments dev segment ≤ dev.size % 2 ^ 64 / segment.segmentSize ∧
      (0 < segment.maxSegments → (numSegments dev segment : ℤ) ≤ segment.maxSegments) := by
    dsimp only [numSegments]
    split_ifs <;> omega
  dsimp only
  refine ⟨rfl, Nat.pos_of_ne_zero hzero, by omega, by omega, hle.2, ?_⟩
  calc numSegments dev segment * segment.segmentSize
      ≤ dev.size % 2 ^ 64 / segment.segmentSize * segment.segmentSize :=
        Nat.mul_le_mul_right _ hle.1
    _ ≤ dev.size % 2 ^ 64 := Nat.div_mul_le_self _ _

/-! ### Writing zeros -/

/-- What becomes of a write of zeros. A write that fails leaves some bytes in its place, and one
that is refused has no callback. -/
inductive ZeroWrite where
  | refused
  | failed (left : ℕ → UInt8)
  | done

/-- The write is done. -/
def ZeroWrite.isDone : ZeroWrite → Bool
  | .done => true
  | _ => false

/-- The loop of `zeroSegments` with the device. There is no result when it waits for a callback that
does not come. -/
def zeroOnDevice (write : ℕ → ZeroWrite) : List ℕ → Allocator layout → Bdev →
    Option (Except (List UInt8) (Allocator layout) × Bdev)
  | [], a, dev => some (.ok a, dev)
  | i :: is, a, dev =>
    if (a.segments i).type ≠ layout.journal ∧ (a.segments i).type ≠ layout.data then
      zeroOnDevice write is a dev
    else
      let offset := i * a.segmentSize % 2 ^ 64
      match write i with
      | .refused => none
      | .failed left =>
        some (.error (literal "Failed to zero segment " ++ signedDecimal i),
          dev.overwrite offset a.segmentSize left)
      | .done =>
        zeroOnDevice write is
          { a with segments := Function.update a.segments i ((a.segments i).clear layout) }
          (dev.overwrite offset a.segmentSize fun _ => 0)

/-- The block that zeroes the pool, with a device and a buffer. -/
def zeroPoolOnDevice (write : ℕ → ZeroWrite) (a : Allocator layout) (dev : Bdev) :
    Option (Except (List UInt8) (Allocator layout) × Bdev) :=
  zeroOnDevice write (List.range' layout.poolStart a.pool) a dev

/-- The segments that are zeroed. -/
def Allocator.IsLog (a : Allocator layout) (i : ℕ) : Prop :=
  (a.segments i).type = layout.journal ∨ (a.segments i).type = layout.data

/-- The byte is in the segment. -/
def InSegment (segmentSize i j : ℕ) : Prop := i * segmentSize ≤ j ∧ j < (i + 1) * segmentSize

variable {a a₀ a' : Allocator layout} {dev dev' : Bdev} {write : ℕ → ZeroWrite} {is : List ℕ}
  {result : Except (List UInt8) (Allocator layout)}

theorem Segment.type_clear (seg : Segment) : (seg.clear layout).type = seg.type := by
  rw [Segment.clear]
  split_ifs <;> rfl

/-- Clearing a segment leaves the types. -/
theorem isLog_clear (i k : ℕ) :
    Allocator.IsLog { a with
      segments := Function.update a.segments i ((a.segments i).clear layout) } k ↔ a.IsLog k := by
  rw [Allocator.IsLog, Allocator.IsLog]
  dsimp only
  by_cases hk : k = i
  · rw [hk, Function.update_self, Segment.type_clear]
  · rw [Function.update_of_ne hk]

/-- The allocator is that of the loop without the device. -/
theorem zeroOnDevice_eq_zeroSegments (hrun : zeroOnDevice write is a dev = some (result, dev')) :
    result = zeroSegments (fun i => (write i).isDone) is a := by
  induction is generalizing a dev with
  | nil => exact (congrArg Prod.fst (Option.some.inj hrun)).symm
  | cons i is ih =>
    rw [zeroOnDevice] at hrun
    rw [zeroSegments]
    split_ifs at hrun with hskip
    · rw [if_pos hskip]
      exact ih hrun
    · rw [if_neg hskip]
      cases hwrite : write i with
      | refused =>
        rw [hwrite] at hrun
        cases hrun
      | failed left =>
        rw [hwrite] at hrun
        exact (congrArg Prod.fst (Option.some.inj hrun)).symm
      | done =>
        rw [hwrite] at hrun
        exact ih hrun

/-- The first element with `P` behind elements with `Q`, in a list with one more element. -/
theorem exists_split_cons_iff {P Q : ℕ → Prop} {i : ℕ} :
    (∃ before k after, i :: is = before ++ k :: after ∧ P k ∧ ∀ k' ∈ before, Q k') ↔
      P i ∨ Q i ∧ ∃ before k after, is = before ++ k :: after ∧ P k ∧ ∀ k' ∈ before, Q k' := by
  constructor
  · rintro ⟨_ | ⟨i', before⟩, k, after, heq, hk, hbefore⟩
    · obtain ⟨rfl, -⟩ := List.cons.inj heq
      exact .inl hk
    · obtain ⟨rfl, htail⟩ := List.cons.inj heq
      exact .inr ⟨hbefore i List.mem_cons_self, before, k, after, htail, hk,
        fun k' hk' => hbefore k' (List.mem_cons_of_mem _ hk')⟩
  · rintro (hi | ⟨hi, before, k, after, rfl, hk, hbefore⟩)
    · exact ⟨[], i, is, rfl, hi, fun _ h => absurd h List.not_mem_nil⟩
    · exact ⟨i :: before, k, after, rfl, hk, List.forall_mem_cons.mpr ⟨hi, hbefore⟩⟩

/-- The same for a list of consecutive numbers. -/
theorem exists_split_range'_iff {P Q : ℕ → Prop} {start n : ℕ} :
    (∃ before i after, List.range' start n = before ++ i :: after ∧ P i ∧ ∀ k ∈ before, Q k) ↔
      ∃ i ∈ List.range' start n, P i ∧ ∀ k ∈ List.range' start n, k < i → Q k := by
  constructor
  · rintro ⟨before, i, after, heq, hi, hbefore⟩
    obtain ⟨m, hm, rfl, hafter⟩ := List.range'_eq_append_iff.mp heq
    obtain ⟨rfl, -, -⟩ := List.range'_eq_cons_iff.mp hafter.symm
    refine ⟨_, ?_, hi, fun k hk hlt => hbefore k ?_⟩
    · rw [heq]
      exact List.mem_append_right _ List.mem_cons_self
    · rw [List.mem_range'_1] at hk ⊢
      omega
  · rintro ⟨i, hmem, hi, hbefore⟩
    rw [List.mem_range'_1] at hmem
    refine ⟨List.range' start (i - start), i, List.range' (i + 1) (start + n - (i + 1)), ?_, hi,
      fun k hk => ?_⟩
    · refine List.range'_eq_append_iff.mpr ⟨i - start, by omega, rfl, ?_⟩
      exact (List.range'_eq_cons_iff.mpr ⟨by omega, by omega, by congr 1; omega⟩).symm
    · rw [List.mem_range'_1] at hk
      refine hbefore k ?_ (by omega)
      rw [List.mem_range'_1]
      omega

/-- **When the loop does not end.** -/
theorem zeroOnDevice_eq_none_iff : zeroOnDevice write is a dev = none ↔
    ∃ before i after, is = before ++ i :: after ∧ (a.IsLog i ∧ write i = .refused) ∧
      ∀ k ∈ before, a.IsLog k → write k = .done := by
  induction is generalizing a dev with
  | nil => simp [zeroOnDevice]
  | cons i is ih =>
    rw [exists_split_cons_iff, zeroOnDevice]
    by_cases hskip : (a.segments i).type ≠ layout.journal ∧ (a.segments i).type ≠ layout.data
    · have hlog : ¬ a.IsLog i := not_or.mpr hskip
      rw [if_pos hskip, ih]
      simp [hlog]
    · have hlog : a.IsLog i := by
        rw [Allocator.IsLog]
        tauto
      rw [if_neg hskip]
      cases hwrite : write i with
      | refused => simp [hlog]
      | failed left => simp [hlog]
      | done =>
        dsimp only
        rw [ih]
        simp [isLog_clear]

/-- The offset of a write is that of its segment, if it is a 64-bit number. -/
theorem mem_write_iff {segmentSize i j : ℕ} (hi : i * segmentSize < 2 ^ 64) :
    i * segmentSize % 2 ^ 64 ≤ j ∧ j < i * segmentSize % 2 ^ 64 + segmentSize ↔
      InSegment segmentSize i j := by
  rw [Nat.mod_eq_of_lt hi, InSegment, Nat.succ_mul]

/-- Bytes outside the segments that are zeroed stay as they are. -/
theorem contents_of_zeroOnDevice (hrun : zeroOnDevice write is a dev = some (result, dev'))
    (his : ∀ i ∈ is, i * a.segmentSize < 2 ^ 64) {j : ℕ}
    (hj : ∀ i ∈ is, a.IsLog i → ¬ InSegment a.segmentSize i j) :
    dev'.contents j = dev.contents j := by
  induction is generalizing a dev with
  | nil =>
    obtain ⟨-, rfl⟩ := Prod.mk.inj (Option.some.inj hrun)
    rfl
  | cons i is ih =>
    obtain ⟨hi, his⟩ := List.forall_mem_cons.mp his
    obtain ⟨hji, hj⟩ := List.forall_mem_cons.mp hj
    rw [zeroOnDevice] at hrun
    split_ifs at hrun with hskip
    · exact ih hrun his hj
    have hlog : a.IsLog i := by
      rw [Allocator.IsLog]
      tauto
    have hout (bytes : ℕ → UInt8) : (dev.overwrite (i * a.segmentSize % 2 ^ 64) a.segmentSize
        bytes).contents j = dev.contents j :=
      if_neg fun hmem => hji hlog ((mem_write_iff hi).mp hmem)
    cases hwrite : write i with
    | refused =>
      rw [hwrite] at hrun
      cases hrun
    | failed left =>
      rw [hwrite] at hrun
      obtain ⟨-, rfl⟩ := Prod.mk.inj (Option.some.inj hrun)
      exact hout left
    | done =>
      rw [hwrite] at hrun
      refine (ih hrun his fun k hk hlogk => hj k hk ?_).trans (hout _)
      exact (isLog_clear i k).mp hlogk

/-- When the loop is through, the segments are zero. -/
theorem contents_eq_zero_of_zeroOnDevice (hrun : zeroOnDevice write is a dev = some (.ok a', dev'))
    (his : ∀ i ∈ is, i * a.segmentSize < 2 ^ 64) {j : ℕ}
    (hj : dev.contents j = 0 ∨ ∃ i ∈ is, a.IsLog i ∧ InSegment a.segmentSize i j) :
    dev'.contents j = 0 := by
  induction is generalizing a dev with
  | nil =>
    obtain ⟨-, rfl⟩ := Prod.mk.inj (Option.some.inj hrun)
    exact hj.resolve_right fun ⟨i, hi, _⟩ => absurd hi List.not_mem_nil
  | cons i is ih =>
    obtain ⟨hi, his⟩ := List.forall_mem_cons.mp his
    rw [zeroOnDevice] at hrun
    split_ifs at hrun with hskip
    · refine ih hrun his (hj.imp_right ?_)
      rintro ⟨k, hk, hlog, hmem⟩
      rcases List.mem_cons.mp hk with rfl | hk
      · exact absurd hlog (not_or.mpr hskip)
      · exact ⟨k, hk, hlog, hmem⟩
    cases hwrite : write i with
    | refused =>
      rw [hwrite] at hrun
      cases hrun
    | failed left =>
      rw [hwrite] at hrun
      cases congrArg Prod.fst (Option.some.inj hrun)
    | done =>
      rw [hwrite] at hrun
      refine ih hrun his ?_
      -- a byte of this segment is zero now, the others are as before
      by_cases hmem : InSegment a.segmentSize i j
      · exact .inl (if_pos ((mem_write_iff hi).mpr hmem))
      · refine hj.imp (fun hzero => ?_) ?_
        · exact (if_neg fun h => hmem ((mem_write_iff hi).mp h)).trans hzero
        · rintro ⟨k, hk, hlog, hmemk⟩
          rcases List.mem_cons.mp hk with rfl | hk
          · exact absurd hmemk hmem
          · exact ⟨k, hk, (isLog_clear i k).mpr hlog, hmemk⟩

/-! ### Formatting -/

section Passes

variable {Inv : Allocator layout → Prop} (hassign : ∀ {a : Allocator layout} {idx : ℕ}, Inv a →
  layout.poolStart ≤ idx → (idx : ℤ) < a.maxSegments → (a.segments idx).status = .empty →
  ∀ key, Inv (a.assign idx key))

include hassign

theorem openSegment_invariant {next next' : ℕ} {key : ℕ × ℕ} (ha : Inv a)
    (hstart : layout.poolStart ≤ next) (h : a.openSegment next key = some (next', a')) :
    Inv a' ∧ layout.poolStart ≤ next' := by
  obtain ⟨idx, hfind, heq⟩ := Option.map_eq_some_iff.mp h
  obtain ⟨rfl, rfl⟩ := Prod.mk.inj heq
  obtain ⟨hidx, hlt, hempty⟩ := of_findSlot_eq_some hfind
  exact ⟨hassign ha (hstart.trans hidx) (by omega) (of_decide_eq_true hempty) key, by omega⟩

theorem fillMetadata_invariant {error : ℕ → List UInt8} {shards : List ℕ} {next : ℕ} (ha : Inv a)
    (hstart : layout.poolStart ≤ next) (h : fillMetadata error shards next a = .ok a') :
    Inv a' := by
  induction shards generalizing next a with
  | nil => exact Except.ok.inj h ▸ ha
  | cons s shards ih =>
    rw [fillMetadata] at h
    split at h
    · cases h
    · rename_i hopen
      obtain ⟨hinv, hnext⟩ := openSegment_invariant hassign ha hstart hopen
      exact ih hinv hnext h

theorem fillQueue_invariant {key : ℕ × ℕ} {need next : ℕ} (ha : Inv a)
    (hstart : layout.poolStart ≤ next) :
    Inv (fillQueue key need next a).2 ∧ layout.poolStart ≤ (fillQueue key need next a).1 := by
  induction need generalizing next a with
  | zero => exact ⟨ha, hstart⟩
  | succ need ih =>
    rw [fillQueue]
    split
    · exact ⟨ha, hstart⟩
    · rename_i hopen
      obtain ⟨hinv, hnext⟩ := openSegment_invariant hassign ha hstart hopen
      exact ih hinv hnext

theorem fillQueues_invariant {keys : List (ℕ × ℕ)} {next : ℕ} (ha : Inv a)
    (hstart : layout.poolStart ≤ next) : Inv (fillQueues keys next a) := by
  induction keys generalizing next a with
  | nil => exact ha
  | cons key keys ih =>
    obtain ⟨hinv, hnext⟩ := fillQueue_invariant hassign ha hstart
    exact ih hinv hnext

/-- **The invariant rule of the passes.** They keep what opening one empty segment of the pool
keeps. -/
theorem fillOpenQueues_invariant {n : ℕ} (ha : Inv a₀) (h : fillOpenQueues n a₀ = .ok a) :
    Inv a := by
  obtain ⟨a₁, hfirst, h⟩ := exists_of_bind_eq_ok h
  obtain ⟨a₂, hsecond, h⟩ := exists_of_bind_eq_ok h
  rw [← Except.ok.inj h]
  refine fillQueues_invariant hassign ?_ le_rfl
  have ha₁ := fillMetadata_invariant hassign ha le_rfl hfirst
  exact fillMetadata_invariant hassign ha₁ le_rfl hsecond

end Passes

/-- The segment is in the pool, not empty, and of the type. -/
structure Allocator.Holds (a : Allocator layout) (type id : ℕ) : Prop where
  start_le : layout.poolStart ≤ id
  lt_maxSegments : (id : ℤ) < a.maxSegments
  status_ne_empty : (a.segments id).status ≠ .empty
  type_eq : (a.segments id).type = type

/-- A segment that is opened has the type of its queue. -/
theorem Allocator.holds_assign {idx : ℕ} (hstart : layout.poolStart ≤ idx)
    (hlt : (idx : ℤ) < a.maxSegments) (key : ℕ × ℕ) : (a.assign idx key).Holds key.2 idx := by
  have hseg : (a.assign idx key).segments idx = { a.segments idx with
      status := .opened, type := key.2 } := Function.update_self ..
  refine ⟨hstart, hlt, ?_, ?_⟩ <;> rw [hseg]
  exact SegmentStatus.noConfusion

/-- The segment that is opened was empty, so the others keep their types. -/
theorem Allocator.Holds.assign {type id idx : ℕ} (h : a.Holds type id)
    (hempty : (a.segments idx).status = .empty) (key : ℕ × ℕ) :
    (a.assign idx key).Holds type id := by
  have hne : id ≠ idx := fun heq => h.status_ne_empty (heq ▸ hempty)
  have hseg : (a.assign idx key).segments id = a.segments id := Function.update_of_ne hne ..
  refine ⟨h.start_le, h.lt_maxSegments, ?_, ?_⟩ <;> rw [hseg]
  · exact h.status_ne_empty
  · exact h.type_eq

/-- An allocator in the passes over the pool of `a₀`. A queue that overflows is empty, which does no
harm here. -/
structure Filling (a₀ a : Allocator layout) : Prop where
  maxSegments : a.maxSegments = a₀.maxSegments
  segmentSize : a.segmentSize = a₀.segmentSize
  entries : ∀ key, ∀ id ∈ (a.openQueues key).entries, a.Holds key.2 id

theorem Allocator.Fresh.filling (h : a₀.Fresh) : Filling a₀ a₀ where
  maxSegments := rfl
  segmentSize := rfl
  entries key id hid := by
    rw [(a₀.openQueues key).entries_eq_nil (h.openQueues key)] at hid
    exact absurd hid List.not_mem_nil

theorem Filling.assign (h : Filling a₀ a) {idx : ℕ} (hstart : layout.poolStart ≤ idx)
    (hlt : (idx : ℤ) < a.maxSegments) (hempty : (a.segments idx).status = .empty) (key : ℕ × ℕ) :
    Filling a₀ (a.assign idx key) where
  maxSegments := h.maxSegments
  segmentSize := h.segmentSize
  entries key' id hid := by
    have hold (hid : id ∈ (a.openQueues key').entries) := (h.entries key' id hid).assign hempty key
    by_cases hkey : key' = key
    · subst hkey
      dsimp only [Allocator.assign] at hid
      rw [Function.update_self] at hid
      obtain hid | rfl := RingQueue.mem_entries_push hid
      · exact hold hid
      · exact Allocator.holds_assign hstart hlt key'
    · dsimp only [Allocator.assign] at hid
      rw [Function.update_of_ne hkey] at hid
      exact hold hid

theorem filling_of_fillOpenQueues {n : ℕ} (hfresh : a₀.Fresh) (h : fillOpenQueues n a₀ = .ok a) :
    Filling a₀ a :=
  fillOpenQueues_invariant (fun ha => ha.assign) hfresh.filling h

/-- **Formatting on a device.** The device was opened, `allocator_mkfs` has stored the segment size
that it was given, and the queues are filled. Then every segment that is zeroed is inside the
device. The zeroing returns unless a write is refused behind writes that are done. If it returns,
the allocator is that of the model without a device, the bytes outside these segments are unchanged,
and after a success every segment in a JOURNAL or DATA queue is zero. -/
theorem mkfs_on_device (calls : FormatCalls layout) (shard : ShardConfig) (name : CString)
    (dev : Bdev) (configured segment : SegmentConfig) (a' a₀ a : Allocator layout)
    (hinit : initSpdkBdev name (some dev) 0 configured = .ok segment)
    (hmkfs : calls.allocatorMkfs a' segment.maxSegments segment.segmentSize = some a₀)
    (hsize : a₀.segmentSize = segment.segmentSize)
    (hfill : fillOpenQueues shard.numShards a₀ = .ok a) (write : ℕ → ZeroWrite) :
    let zeroed i := layout.metaSegmentSlotB < i ∧ (i : ℤ) < segment.maxSegments ∧ a.IsLog i
    (∀ i, zeroed i → (i + 1) * segment.segmentSize ≤ dev.size) ∧
    (zeroPoolOnDevice write a dev = none ↔
      ∃ i, zeroed i ∧ write i = .refused ∧ ∀ k < i, zeroed k → write k = .done) ∧
    ∀ result dev', zeroPoolOnDevice write a dev = some (result, dev') →
      result = zeroPool (some fun i => (write i).isDone) a ∧
      (∀ j, (∀ i, zeroed i → ¬ InSegment segment.segmentSize i j) →
        dev'.contents j = dev.contents j) ∧
      (result.isOk → ∀ key, key.2 = layout.journal ∨ key.2 = layout.data →
        ∀ id ∈ (a.openQueues key).entries, ∀ j, InSegment segment.segmentSize id j →
          dev'.contents j = 0) := by
  intro zeroed
  have hderive : deriveSegments dev configured = .ok segment := hinit
  obtain ⟨-, hpos, hfirst, -, -, hfit⟩ := segments_in_device hderive
  have hmax₀ := calls.maxSegments_of_allocatorMkfs hmkfs
  have hfilling := filling_of_fillOpenQueues (calls.fresh_of_allocatorMkfs hmkfs) hfill
  have hS : a.segmentSize = segment.segmentSize := hfilling.segmentSize.trans hsize
  -- the segments of the loop
  have hpool (i : ℕ) : i ∈ List.range' layout.poolStart a.pool ↔
      layout.metaSegmentSlotB < i ∧ (i : ℤ) < segment.maxSegments := by
    rw [List.mem_range'_1, Allocator.pool, hfilling.maxSegments, hmax₀, SegmentLayout.poolStart]
    omega
  have hbound (i : ℕ) (hi : (i : ℤ) < segment.maxSegments) :
      (i + 1) * segment.segmentSize ≤ dev.size % 2 ^ 64 := by
    refine (Nat.mul_le_mul_right _ ?_).trans hfit
    omega
  have his : ∀ i ∈ List.range' layout.poolStart a.pool, i * a.segmentSize < 2 ^ 64 := by
    intro i hi
    rw [hS]
    calc i * segment.segmentSize < (i + 1) * segment.segmentSize :=
          Nat.mul_lt_mul_of_pos_right (Nat.lt_succ_self i) hpos
      _ ≤ dev.size % 2 ^ 64 := hbound i ((hpool i).mp hi).2
      _ < 2 ^ 64 := Nat.mod_lt _ (Nat.two_pow_pos 64)
  refine ⟨fun i hi => (hbound i hi.2.1).trans (Nat.mod_le _ _), ?_, fun result dev' hrun => ?_⟩
  · rw [zeroPoolOnDevice, zeroOnDevice_eq_none_iff, exists_split_range'_iff]
    simp only [hpool]
    constructor
    · rintro ⟨i, ⟨hstart, hlt⟩, ⟨hlog, hrefused⟩, hbefore⟩
      exact ⟨i, ⟨hstart, hlt, hlog⟩, hrefused, fun k hk hzeroed =>
        hbefore k ⟨hzeroed.1, hzeroed.2.1⟩ hk hzeroed.2.2⟩
    · rintro ⟨i, ⟨hstart, hlt, hlog⟩, hrefused, hbefore⟩
      exact ⟨i, ⟨hstart, hlt⟩, ⟨hlog, hrefused⟩, fun k hk hki hlogk =>
        hbefore k hki ⟨hk.1, hk.2, hlogk⟩⟩
  · refine ⟨zeroOnDevice_eq_zeroSegments hrun, fun j hj => ?_, fun hok key hkey id hid j hmem => ?_⟩
    · refine contents_of_zeroOnDevice hrun his fun i hi hlog => ?_
      rw [hS]
      exact hj i ⟨((hpool i).mp hi).1, ((hpool i).mp hi).2, hlog⟩
    · cases result with
      | error message => cases hok
      | ok a'' =>
        obtain ⟨hstart, hlt, -, htype⟩ := hfilling.entries key id hid
        rw [hfilling.maxSegments, hmax₀] at hlt
        have hlog : a.IsLog id := by rwa [Allocator.IsLog, htype]
        refine contents_eq_zero_of_zeroOnDevice hrun his (.inr ⟨id, (hpool id).mpr ?_, hlog, ?_⟩)
        · exact ⟨hstart, hlt⟩
        · rwa [hS]

/-- Ten segments of 4096 bytes, with a former contents. -/
def usedBdev : Bdev where
  blockSize := 512
  numBlocks := 80
  contents := fun _ => 7

/-- Two shards on a device with room for ten segments. -/
theorem mkfs_on_device_ten_segments :
    ∃ a dev', fillOpenQueues twoShards.numShards (smallAllocator 10 4096) = .ok a ∧
      zeroPoolOnDevice (fun _ => .done) a usedBdev =
        some (zeroPool (some fun _ => true) a, dev') ∧
      (∀ j, InSegment 4096 6 j → dev'.contents j = 0) := by
  have hinit : initSpdkBdev (.ofString "Nvme0n1") (some usedBdev) 0 ⟨0, 4096⟩ =
    .ok ⟨10, 4096⟩ := rfl
  have hfill : fillOpenQueues twoShards.numShards (smallAllocator 10 4096) = .ok _ := rfl
  obtain ⟨-, hreturns, hrun⟩ := mkfs_on_device smallCalls twoShards (.ofString "Nvme0n1") usedBdev
    ⟨0, 4096⟩ ⟨10, 4096⟩ (smallAllocator 0 0) _ _ hinit rfl rfl hfill fun _ => .done
  obtain ⟨⟨result, dev'⟩, hsome⟩ := Option.ne_none_iff_exists'.mp fun hnone => by
    obtain ⟨_, _, hrefused, _⟩ := hreturns.mp hnone
    cases hrefused
  obtain ⟨rfl, -, hzero⟩ := hrun result dev' hsome
  exact ⟨_, dev', hfill, hsome, hzero rfl (0, 1) (.inr rfl) 6 List.mem_cons_self⟩

end LightFS.Engine
