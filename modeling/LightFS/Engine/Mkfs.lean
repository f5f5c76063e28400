import LightFS.Engine.CoreAffinity
import LightFS.Library.Handout
import LightFS.Library.RingQueue
import LightFS.Library.SlotArray

/-!
# Formatting a volume

`storage_engine_mkfs_volume` (`src/engine/src/storage_engine.c`) opens empty segments and puts them
into the queues of the shards, in three passes over the segment array. The first opens as many
METADATA segments as there are shards and gives them all to shard 0, the second opens one METADATA
segment for each shard, and the third fills the other queues of all shards up to their high-water
mark, shard after shard. An array without an empty segment is an error in the first two passes; the
third stops filling the queue and goes on.

The passes only ever take the next segment of the pool, so what they do is to hand out the segments
behind `META_SEGMENT_SLOT_B` in order: `Handed` says how an allocator results from the list of the
queues that were served, one step extends that list by one queue (`Handed.openSegment`), and the
passes by their queues (`Handed.fillMetadata`, `Handed.fillQueues`). Each segment is therefore in
one queue only (`mkfs_hands_out_once`). The third pass serves the queues in line until the pool is
empty, which leaves the last shards with nothing on a volume that is too small for the marks of
those in front (`every_shard_has_segments_iff`).

The allocator itself, the device and the superblock are outside this repository. Their constants
are a `SegmentLayout`; their calls are `FormatCalls`, with what is assumed of them. An error is the
text that is logged, and stands for the result `-1`; the allocator is not used after it.

## Main definitions

* `Allocator`, `Allocator.openSegment` — the allocator, and the next segment for a queue.
* `fillMetadata`, `fillQueue`, `fillQueues`, `fillOpenQueues` — the passes.
* `zeroSegments`, `storageEngineMkfsVolume`.
* `Handed` — an allocator that has handed out segments.
-/

namespace LightFS.Engine

open Library

/-! ### The allocator -/

/-- The constants of the allocator. -/
structure SegmentLayout where
  /-- `META_SEGMENT_SLOT_B`, the last segment that the allocator keeps for itself. -/
  metaSegmentSlotB : ℕ
  maxOpenSegments : ℕ
  /-- `SEGMENT_TYPE_COUNT`, and the types that the engine names. -/
  segmentTypeCount : ℕ
  metadata : ℕ
  data : ℕ
  journal : ℕ
  metadata_lt : metadata < segmentTypeCount
  data_mem : 1 ≤ data ∧ data < segmentTypeCount
  journal_mem : 1 ≤ journal ∧ journal < segmentTypeCount
  data_ne_metadata : data ≠ metadata
  journal_ne_metadata : journal ≠ metadata

/-- The first segment of the pool. -/
def SegmentLayout.poolStart (layout : SegmentLayout) : ℕ := layout.metaSegmentSlotB + 1

/-- `SEGMENT_STATUS_EMPTY`, `SEGMENT_STATUS_OPEN` and the statuses that the engine does not name. -/
inductive SegmentStatus where
  | empty
  | opened
  | other
  deriving DecidableEq

/-- `segment_t`. -/
structure Segment where
  status : SegmentStatus
  type : ℕ
  firstCommitSeq : ℕ
  lastCommitSeq : ℕ

/-- `open_segment_queue_t`. The mark `refill_high` is given as the `int` that it is converted to. -/
structure OpenSegmentQueue (maxOpenSegments : ℕ) extends RingQueue ℕ maxOpenSegments where
  refillHigh : ℤ

variable {layout : SegmentLayout}

/-- The allocator. The queue `per_shard[s].open_queues[type]` is `openQueues (s, type)`. -/
structure Allocator (layout : SegmentLayout) where
  maxSegments : ℤ
  segmentSize : ℕ
  segments : ℕ → Segment
  usedSegments : ℕ
  isPersistDirty : Bool
  openQueues : ℕ × ℕ → OpenSegmentQueue layout.maxOpenSegments

namespace Allocator

/-- The number of segments behind `META_SEGMENT_SLOT_B`. -/
def pool (a : Allocator layout) : ℕ := a.maxSegments.toNat - layout.poolStart

/-- A segment is opened and put into a queue. -/
def assign (a : Allocator layout) (idx : ℕ) (key : ℕ × ℕ) : Allocator layout :=
  { a with
    segments := Function.update a.segments idx
      { a.segments idx with status := .opened, type := key.2 }
    usedSegments := a.usedSegments + 1
    isPersistDirty := true
    openQueues := Function.update a.openQueues key
      { a.openQueues key with toRingQueue := (a.openQueues key).push idx } }

/-- The body of the loops: the first empty segment from `next` on goes to a queue. Also returns
where the next search starts. -/
def openSegment (a : Allocator layout) (next : ℕ) (key : ℕ × ℕ) : Option (ℕ × Allocator layout) :=
  (findSlot (fun seg => seg.status = .empty) a.segments next (a.maxSegments.toNat - next)).map
    fun idx => (idx + 1, a.assign idx key)

/-- What `allocator_mkfs` leaves: the segments of the pool are empty, and so are the queues. -/
structure Fresh (a : Allocator layout) : Prop where
  segments : ∀ j, layout.poolStart ≤ j → (j : ℤ) < a.maxSegments → (a.segments j).status = .empty
  openQueues : ∀ key, (a.openQueues key).head = (a.openQueues key).tail

end Allocator

/-! ### The passes -/

/-- The loops of step 1, for the shards whose METADATA queues are served. -/
def fillMetadata (error : ℕ → List UInt8) :
    List ℕ → ℕ → Allocator layout → Except (List UInt8) (Allocator layout)
  | [], _, a => .ok a
  | s :: shards, next, a =>
    match a.openSegment next (s, layout.metadata) with
    | none => .error (error s)
    | some (next, a) => fillMetadata error shards next a

/-- `target` in step 2. -/
def OpenSegmentQueue.target {maxOpenSegments : ℕ} (queue : OpenSegmentQueue maxOpenSegments) : ℤ :=
  if maxOpenSegments ≤ queue.refillHigh then maxOpenSegments - 1 else queue.refillHigh

/-- `need` in step 2. The number of entries is a `uint16_t`. -/
def OpenSegmentQueue.need {maxOpenSegments : ℕ} (queue : OpenSegmentQueue maxOpenSegments) : ℤ :=
  queue.target - (queue.length % 2 ^ 16 : ℕ)

/-- The inner loop of step 2, which is left when there is no empty segment. -/
def fillQueue (key : ℕ × ℕ) : ℕ → ℕ → Allocator layout → ℕ × Allocator layout
  | 0, next, a => (next, a)
  | need + 1, next, a =>
    match a.openSegment next key with
    | none => (next, a)
    | some (next, a) => fillQueue key need next a

/-- The outer loops of step 2, for the queues in the order in which they are filled. -/
def fillQueues : List (ℕ × ℕ) → ℕ → Allocator layout → Allocator layout
  | [], _, a => a
  | key :: keys, next, a =>
    let (next, a) := fillQueue key (a.openQueues key).need.toNat next a
    fillQueues keys next a

namespace SegmentLayout

variable (layout)

/-- The types from 1 up to `bound` whose queues are filled in step 2. -/
def fillTypes (bound : ℕ) : List ℕ := (List.range' 1 (bound - 1)).filter (· ≠ layout.metadata)

/-- The queues of the first `n` shards in the order of step 2. -/
def fillOrder (n : ℕ) : List (ℕ × ℕ) :=
  (List.range n).flatMap fun s => (layout.fillTypes layout.segmentTypeCount).map (Prod.mk s)

end SegmentLayout

/-- Steps 1 and 2 for `n` shards. Each pass starts at the first segment of the pool. -/
def fillOpenQueues (n : ℕ) (a : Allocator layout) : Except (List UInt8) (Allocator layout) := do
  let start := layout.poolStart
  let a ← fillMetadata (fun _ => literal "No segments left for superblock metadata")
    (List.replicate n 0) start a
  let a ← fillMetadata
    (fun s => literal "No segments left for shard " ++ signedDecimal s ++ literal " metadata")
    (List.range n) start a
  return fillQueues (layout.fillOrder n) start a

/-! ### The volume -/

/-- What is cleared in a segment when zeros were written to it. -/
def Segment.clear (layout : SegmentLayout) (seg : Segment) : Segment :=
  if seg.type = layout.journal then { seg with firstCommitSeq := 0, lastCommitSeq := 0 }
  else if seg.type = layout.data then { seg with lastCommitSeq := 0 }
  else seg

/-- The loop that zeroes the JOURNAL and DATA segments, where `written i` is the outcome of the
write to segment `i`. -/
def zeroSegments (written : ℕ → Bool) :
    List ℕ → Allocator layout → Except (List UInt8) (Allocator layout)
  | [], a => .ok a
  | i :: is, a =>
    if (a.segments i).type ≠ layout.journal ∧ (a.segments i).type ≠ layout.data then
      zeroSegments written is a
    else if written i then
      zeroSegments written is
        { a with segments := Function.update a.segments i ((a.segments i).clear layout) }
    else .error (literal "Failed to zero segment " ++ signedDecimal i)

/-- The block that zeroes the pool: nothing is written if there is no device or no buffer. -/
def zeroPool (zeroWrites : Option (ℕ → Bool)) (a : Allocator layout) :
    Except (List UInt8) (Allocator layout) :=
  match zeroWrites with
  | none => .ok a
  | some written => zeroSegments written (List.range' layout.poolStart a.pool) a

/-- The calls that formatting makes, with `none` for a result other than `0`. -/
structure FormatCalls (layout : SegmentLayout) where
  allocatorMkfs : Allocator layout → ℤ → ℕ → Option (Allocator layout)
  /-- The outcomes of the writes of zeros, if there are a device and a buffer. -/
  zeroWrites : Option (ℕ → Bool)
  allocatorPersistSync : Allocator layout → Option (Allocator layout)
  superblockInitMkfs : Allocator layout → ℕ → Option (Allocator layout)
  maxSegments_of_allocatorMkfs : ∀ {a maxSegments segmentSize a'},
    allocatorMkfs a maxSegments segmentSize = some a' → a'.maxSegments = maxSegments
  fresh_of_allocatorMkfs : ∀ {a maxSegments segmentSize a'},
    allocatorMkfs a maxSegments segmentSize = some a' → a'.Fresh
  openQueues_of_allocatorPersistSync : ∀ {a a'},
    allocatorPersistSync a = some a' → a'.openQueues = a.openQueues
  /-- Writing the superblock takes METADATA segments only. -/
  openQueues_of_superblockInitMkfs : ∀ {a n a'}, superblockInitMkfs a n = some a' →
    ∀ s type, type ≠ layout.metadata → a'.openQueues (s, type) = a.openQueues (s, type)

/-- The section `segment` of the configuration. -/
structure SegmentConfig where
  maxSegments : ℤ
  segmentSize : ℕ

/-- The result of a call, with the text that is logged if it fails. -/
def orError {α : Type*} (message : String) : Option α → Except (List UInt8) α
  | none => .error (literal message)
  | some result => .ok result

/-- `storage_engine_mkfs_volume`. Returns the number of shards and the allocator. -/
def storageEngineMkfsVolume (calls : FormatCalls layout) (shard : ShardConfig)
    (segment : SegmentConfig) (a : Allocator layout) :
    Except (List UInt8) (ℕ × Allocator layout) := do
  let n := shard.numShards
  let a ← orError "Failed to mkfs space allocator"
    (calls.allocatorMkfs a segment.maxSegments segment.segmentSize)
  let a ← fillOpenQueues n a
  let a ← zeroPool calls.zeroWrites a
  let a ← orError "Failed to persist allocator metadata after mkfs queue filling"
    (calls.allocatorPersistSync a)
  let a ← orError "Failed to write initial superblock (mkfs)" (calls.superblockInitMkfs a n)
  return (n, a)

/-! ### Handing out the pool -/

/-- The allocator `a₀` after the segments of its pool went, in order, to the queues `keys`. -/
structure Handed (a₀ : Allocator layout) (keys : List (ℕ × ℕ)) (a : Allocator layout) : Prop where
  maxSegments : a.maxSegments = a₀.maxSegments
  length_le : keys.length ≤ a₀.pool
  opened : ∀ j key, layout.poolStart ≤ j → keys[j - layout.poolStart]? = some key →
    (a.segments j).status = .opened ∧ (a.segments j).type = key.2
  untouched : ∀ j, layout.poolStart + keys.length ≤ j → a.segments j = a₀.segments j
  usedSegments : a.usedSegments = a₀.usedSegments + keys.length
  entries : ∀ key, (a.openQueues key).entries = handed layout.poolStart keys key
  refillHigh : ∀ key, (a.openQueues key).refillHigh = (a₀.openQueues key).refillHigh

variable {a₀ a : Allocator layout} {keys : List (ℕ × ℕ)} {key : ℕ × ℕ} {next : ℕ}

theorem Allocator.Fresh.handed (h : a₀.Fresh) : Handed a₀ [] a₀ where
  maxSegments := rfl
  length_le := Nat.zero_le _
  opened := fun j key _ hkey => absurd hkey (by simp)
  untouched := fun _ _ => rfl
  usedSegments := rfl
  entries := fun key => (a₀.openQueues key).entries_eq_nil (h.openQueues key)
  refillHigh := fun _ => rfl

namespace Handed

theorem length_openQueues (h : Handed a₀ keys a) (key : ℕ × ℕ) :
    (a.openQueues key).length = keys.count key := by
  rw [← RingQueue.length_entries, h.entries, length_handed]

/-- The segments behind those that were handed out are empty. -/
theorem status_eq_empty (h : Handed a₀ keys a) (hfresh : a₀.Fresh) {j : ℕ}
    (hj : layout.poolStart + keys.length ≤ j) (hmax : (j : ℤ) < a₀.maxSegments) :
    (a.segments j).status = .empty := by
  rw [h.untouched j hj]
  exact hfresh.segments j (by omega) hmax

/-- Those that were handed out are not. -/
theorem status_ne_empty (h : Handed a₀ keys a) {j : ℕ} (hstart : layout.poolStart ≤ j)
    (hj : j < layout.poolStart + keys.length) : (a.segments j).status ≠ .empty := by
  have hkey := List.getElem?_eq_getElem (l := keys) (i := j - layout.poolStart) (by omega)
  rw [(h.opened j _ hstart hkey).1]
  exact SegmentStatus.noConfusion

/-- The next segment of the pool goes to a queue that is not full. -/
theorem assign (h : Handed a₀ keys a) (hpool : keys.length < a₀.pool)
    (hroom : keys.count key + 1 < layout.maxOpenSegments) :
    Handed a₀ (keys ++ [key]) (a.assign (layout.poolStart + keys.length) key) := by
  have hlength : (keys ++ [key]).length = keys.length + 1 := List.length_append
  constructor
  case maxSegments => exact h.maxSegments
  case length_le => rwa [hlength]
  case opened =>
    intro j key' hj hkey'
    dsimp only [Allocator.assign]
    obtain hlt | hge := Nat.lt_or_ge (j - layout.poolStart) keys.length
    · rw [List.getElem?_append_left hlt] at hkey'
      rw [Function.update_of_ne (by omega)]
      exact h.opened j key' hj hkey'
    · -- the last one
      rw [List.getElem?_append_right hge] at hkey'
      obtain ⟨hlast, hlastKey⟩ := List.getElem?_eq_some_iff.mp hkey'
      rw [List.getElem_singleton] at hlastKey
      rw [List.length_singleton] at hlast
      obtain rfl : j = layout.poolStart + keys.length := by omega
      rw [Function.update_self, hlastKey]
      exact ⟨rfl, rfl⟩
  case untouched =>
    intro j hj
    rw [hlength] at hj
    dsimp only [Allocator.assign]
    rw [Function.update_of_ne (by omega)]
    exact h.untouched j (by omega)
  case usedSegments =>
    dsimp only [Allocator.assign]
    rw [h.usedSegments, hlength, Nat.add_assoc]
  case entries =>
    intro key'
    dsimp only [Allocator.assign]
    rw [handed_concat]
    by_cases hkey : key = key'
    · subst hkey
      rw [Function.update_self, if_pos rfl, RingQueue.entries_push, h.entries]
      rwa [h.length_openQueues]
    · rw [Function.update_of_ne (Ne.symm hkey), if_neg hkey, List.append_nil, h.entries]
  case refillHigh =>
    intro key'
    dsimp only [Allocator.assign]
    by_cases hkey : key' = key
    · subst hkey
      rw [Function.update_self]
      exact h.refillHigh key'
    · rw [Function.update_of_ne hkey]
      exact h.refillHigh key'

end Handed

/-- A pass whose next search starts at `next`: the segments in front were handed out. -/
structure InPass (a₀ : Allocator layout) (keys : List (ℕ × ℕ)) (next : ℕ)
    (a : Allocator layout) : Prop extends Handed a₀ keys a where
  start_le : layout.poolStart ≤ next
  next_le : next ≤ layout.poolStart + keys.length

/-- A pass begins at the first segment of the pool. -/
theorem Handed.inPass (h : Handed a₀ keys a) : InPass a₀ keys layout.poolStart a :=
  { h with
    start_le := Nat.le_refl _
    next_le := Nat.le_add_right _ _ }

namespace InPass

variable (h : InPass a₀ keys next a)

include h

/-- Nothing is left of the pool. -/
theorem openSegment_eq_none (hlast : a₀.pool ≤ keys.length) : a.openSegment next key = none := by
  have hnone : findSlot (fun seg => seg.status = .empty) a.segments next
      (a.maxSegments.toNat - next) = none := by
    refine findSlot_of_forall fun j hj hlt => decide_eq_false ?_
    rw [h.maxSegments] at hlt
    rw [Allocator.pool] at hlast
    exact h.status_ne_empty (h.start_le.trans hj) (by omega)
  rw [Allocator.openSegment, hnone, Option.map_none]

/-- **One segment.** As long as there are segments in the pool, the next one goes to the queue. -/
theorem openSegment (key : ℕ × ℕ) (hfresh : a₀.Fresh) (hpool : keys.length < a₀.pool)
    (hroom : keys.count key + 1 < layout.maxOpenSegments) :
    ∃ next' a', a.openSegment next key = some (next', a') ∧
      InPass a₀ (keys ++ [key]) next' a' := by
  have hmax : ((layout.poolStart + keys.length : ℕ) : ℤ) < a₀.maxSegments := by
    rw [Allocator.pool] at hpool
    omega
  have hfind : findSlot (fun seg => seg.status = .empty) a.segments next
      (a.maxSegments.toNat - next) = some (layout.poolStart + keys.length) := by
    refine findSlot_of_first h.next_le ?_ ?_ fun j hj hlt => decide_eq_false ?_
    · rw [h.maxSegments]
      omega
    · exact decide_eq_true (h.status_eq_empty hfresh (Nat.le_refl _) hmax)
    · exact h.status_ne_empty (h.start_le.trans hj) hlt
  rw [Allocator.openSegment, hfind, Option.map_some]
  exact ⟨_, _, rfl, { h.toHanded.assign hpool hroom with
    start_le := by omega
    next_le := by
      rw [List.length_append, List.length_singleton]
      omega }⟩

/-- **The first two passes.** If they do not fail, they serve all their queues. -/
theorem fillMetadata {error : ℕ → List UInt8} {shards : List ℕ} {a' : Allocator layout}
    (hfresh : a₀.Fresh)
    (hroom : ∀ key, (keys ++ shards.map (·, layout.metadata)).count key < layout.maxOpenSegments)
    (hok : fillMetadata error shards next a = .ok a') :
    Handed a₀ (keys ++ shards.map (·, layout.metadata)) a' := by
  induction shards generalizing keys next a with
  | nil =>
    obtain rfl : a = a' := Except.ok.inj hok
    rw [List.map_nil, List.append_nil]
    exact h.toHanded
  | cons s shards ih =>
    rw [List.map_cons, List.append_cons] at hroom ⊢
    have hcount := hroom (s, layout.metadata)
    rw [List.count_append, List.count_append, List.count_singleton_self] at hcount
    rw [Engine.fillMetadata] at hok
    obtain hpool | hlast := Nat.lt_or_ge keys.length a₀.pool
    · obtain ⟨next', b, hopen, hb⟩ :=
        h.openSegment (s, layout.metadata) hfresh hpool (by omega)
      rw [hopen] at hok
      exact ih hb hroom hok
    · rw [h.openSegment_eq_none hlast] at hok
      cases hok

/-- The inner loop of the third pass serves its queue while there are segments. -/
theorem fillQueue (key : ℕ × ℕ) (need : ℕ) (hfresh : a₀.Fresh)
    (hroom : keys.count key + need < layout.maxOpenSegments) :
    InPass a₀ (keys ++ (List.replicate need key).take (a₀.pool - keys.length))
      (fillQueue key need next a).1 (fillQueue key need next a).2 := by
  induction need generalizing keys next a with
  | zero =>
    rw [List.replicate_zero, List.take_nil, List.append_nil]
    exact h
  | succ need ih =>
    rw [Engine.fillQueue]
    obtain hpool | hlast := Nat.lt_or_ge keys.length a₀.pool
    · obtain ⟨next', b, hopen, hb⟩ := h.openSegment key hfresh hpool (by omega)
      have hcount : (keys ++ [key]).count key = keys.count key + 1 := by
        rw [List.count_append, List.count_singleton_self]
      have hleft : a₀.pool - keys.length = a₀.pool - (keys ++ [key]).length + 1 := by
        rw [List.length_append, List.length_singleton]
        omega
      rw [hopen, hleft, List.replicate_succ, List.take_succ_cons, List.append_cons]
      exact ih hb (by omega)
    · rw [h.openSegment_eq_none hlast, Nat.sub_eq_zero_of_le hlast, List.take_zero,
        List.append_nil]
      exact h

end InPass

/-- How many segments the third pass puts into a queue if there are enough. -/
def Allocator.want (a : Allocator layout) (key : ℕ × ℕ) : ℕ := (a.openQueues key).target.toNat

theorem Allocator.want_lt (a : Allocator layout) (key : ℕ × ℕ) :
    a.want key < layout.maxOpenSegments := by
  have hpos := (a.openQueues key).head.pos
  rw [want, OpenSegmentQueue.target]
  split_ifs <;> omega

/-- An empty queue needs all of it. -/
theorem Handed.toNat_need (h : Handed a₀ keys a) (hkey : key ∉ keys) :
    (a.openQueues key).need.toNat = a₀.want key := by
  have htarget : (a.openQueues key).target = (a₀.openQueues key).target := by
    rw [OpenSegmentQueue.target, OpenSegmentQueue.target, h.refillHigh]
  rw [OpenSegmentQueue.need, h.length_openQueues, List.count_eq_zero_of_not_mem hkey, htarget,
    Allocator.want, Nat.zero_mod, Nat.cast_zero, Int.sub_zero]

/-- **The third pass.** It serves the queues in line, each up to its mark, while there are
segments. -/
theorem InPass.fillQueues (h : InPass a₀ keys next a) (hfresh : a₀.Fresh)
    {queues : List (ℕ × ℕ)} (hnodup : queues.Nodup) (hnew : ∀ key ∈ queues, key ∉ keys) :
    Handed a₀ (keys ++ (portions a₀.want queues).take (a₀.pool - keys.length))
      (fillQueues queues next a) := by
  induction queues generalizing keys next a with
  | nil =>
    rw [portions_nil, List.take_nil, List.append_nil]
    exact h.toHanded
  | cons key queues ih =>
    obtain ⟨hkey, hnodup⟩ := List.nodup_cons.mp hnodup
    have hfirst : key ∉ keys := hnew key List.mem_cons_self
    have hfill := h.fillQueue key (a₀.want key) hfresh (by
      rw [List.count_eq_zero_of_not_mem hfirst, Nat.zero_add]
      exact a₀.want_lt key)
    rw [Engine.fillQueues, h.toNat_need hfirst, portions_cons, List.take_append,
      ← List.append_assoc]
    have hrest := ih hfill hnodup fun key' hkey' => by
      rw [List.mem_append, not_or]
      refine ⟨hnew key' (List.mem_cons_of_mem _ hkey'), fun hmem => ?_⟩
      obtain rfl := List.eq_of_mem_replicate (List.mem_of_mem_take hmem)
      exact hkey hkey'
    -- what is left for the queues behind does not depend on whether the first one was filled
    have hleft : a₀.pool - (keys ++
        (List.replicate (a₀.want key) key).take (a₀.pool - keys.length)).length =
        a₀.pool - keys.length - (List.replicate (a₀.want key) key).length := by
      rw [List.length_append, List.length_take]
      omega
    rw [hleft] at hrest
    exact hrest

/-! ### The queues that are served -/

namespace SegmentLayout

variable (layout)

/-- The queues of the first two passes for `n` shards. -/
def metadataOrder (n : ℕ) : List (ℕ × ℕ) :=
  (List.replicate n 0 ++ List.range n).map (·, layout.metadata)

variable {layout}

theorem mem_fillTypes {bound type : ℕ} :
    type ∈ layout.fillTypes bound ↔ (1 ≤ type ∧ type < bound) ∧ type ≠ layout.metadata := by
  rw [fillTypes, List.mem_filter, List.mem_range'_1, decide_eq_true_eq]
  omega

theorem mem_fillOrder {n : ℕ} : key ∈ layout.fillOrder n ↔
    key.1 < n ∧ key.2 ∈ layout.fillTypes layout.segmentTypeCount := by
  obtain ⟨s, type⟩ := key
  simp only [fillOrder, List.mem_flatMap, List.mem_range, List.mem_map, Prod.mk.injEq]
  constructor
  · rintro ⟨s', hs', type', htype', rfl, rfl⟩
    exact ⟨hs', htype'⟩
  · rintro ⟨hs, htype⟩
    exact ⟨s, hs, type, htype, rfl, rfl⟩

theorem nodup_fillTypes (bound : ℕ) : (layout.fillTypes bound).Nodup :=
  List.Nodup.filter _ List.nodup_range'

theorem nodup_fillOrder (n : ℕ) : (layout.fillOrder n).Nodup := by
  rw [fillOrder, List.nodup_flatMap]
  refine ⟨fun s _ => (nodup_fillTypes _).map (Prod.mk_right_injective s), ?_⟩
  refine List.Pairwise.imp (fun hne => ?_) List.nodup_range
  intro key hkey hkey'
  obtain ⟨_, _, rfl⟩ := List.mem_map.mp hkey
  obtain ⟨_, _, heq⟩ := List.mem_map.mp hkey'
  exact hne (congrArg Prod.fst heq).symm

theorem count_metadataOrder (n s : ℕ) : (layout.metadataOrder n).count (s, layout.metadata) =
    (if s = 0 then n else 0) + if s < n then 1 else 0 := by
  have hinj : Function.Injective fun s : ℕ => (s, layout.metadata) :=
    Prod.mk_left_injective layout.metadata
  rw [metadataOrder, List.count_map_of_injective _ _ hinj, List.count_append, List.count_replicate]
  congr 1
  · rcases s with _ | s
    · rfl
    · rfl
  · rw [List.Nodup.count List.nodup_range]
    simp only [List.mem_range]

theorem metadata_of_mem_metadataOrder {n : ℕ} (h : key ∈ layout.metadataOrder n) :
    key.2 = layout.metadata := by
  obtain ⟨s, -, rfl⟩ := List.mem_map.mp h
  rfl

/-- Shard 0 has the most METADATA segments, one more than there are shards. -/
theorem count_metadataOrder_le (n : ℕ) (key : ℕ × ℕ) :
    (layout.metadataOrder n).count key ≤ n + 1 := by
  obtain ⟨s, type⟩ := key
  by_cases htype : type = layout.metadata
  · rw [htype, count_metadataOrder]
    split_ifs <;> omega
  · rw [List.count_eq_zero_of_not_mem fun h => htype (metadata_of_mem_metadataOrder h)]
    exact Nat.zero_le _

theorem length_metadataOrder (n : ℕ) : (layout.metadataOrder n).length = 2 * n := by
  rw [metadataOrder, List.length_map, List.length_append, List.length_replicate,
    List.length_range, Nat.two_mul]

end SegmentLayout

/-- The queues that are served when the pool `a` is handed out for `n` shards. -/
def Allocator.served (a : Allocator layout) (n : ℕ) : List (ℕ × ℕ) :=
  layout.metadataOrder n ++ (portions a.want (layout.fillOrder n)).take (a.pool - 2 * n)

/-- **The passes hand out the pool.** -/
theorem handed_of_fillOpenQueues {n : ℕ} (hfresh : a₀.Fresh)
    (hcap : n + 1 < layout.maxOpenSegments) (hok : fillOpenQueues n a₀ = .ok a) :
    Handed a₀ (a₀.served n) a := by
  obtain ⟨a₁, hfirst, hok⟩ := exists_of_bind_eq_ok hok
  obtain ⟨a₂, hsecond, hok⟩ := exists_of_bind_eq_ok hok
  obtain rfl : fillQueues (layout.fillOrder n) layout.poolStart a₂ = a := Except.ok.inj hok
  have horder : layout.metadataOrder n = (List.replicate n 0).map (·, layout.metadata) ++
      (List.range n).map (·, layout.metadata) := List.map_append
  have hroom : ∀ key, (layout.metadataOrder n).count key < layout.maxOpenSegments := fun key =>
    Nat.lt_of_le_of_lt (SegmentLayout.count_metadataOrder_le n key) hcap
  have h₁ := hfresh.handed.inPass.fillMetadata hfresh (fun key => by
    refine Nat.lt_of_le_of_lt ?_ (hroom key)
    rw [horder, List.nil_append, List.count_append]
    exact Nat.le_add_right _ _) hfirst
  have h₂ := h₁.inPass.fillMetadata hfresh (fun key => by
    rw [List.nil_append, ← horder]
    exact hroom key) hsecond
  rw [List.nil_append, ← horder] at h₂
  have h₃ := h₂.inPass.fillQueues hfresh (SegmentLayout.nodup_fillOrder n) fun key hkey hmem =>
    (SegmentLayout.mem_fillTypes.mp (SegmentLayout.mem_fillOrder.mp hkey).2).2
      (SegmentLayout.metadata_of_mem_metadataOrder hmem)
  rw [SegmentLayout.length_metadataOrder] at h₃
  exact h₃

theorem mem_served {n : ℕ} (h : key ∈ a₀.served n) :
    key.1 < n ∧ key.2 < layout.segmentTypeCount := by
  obtain h | h := List.mem_append.mp h
  · obtain ⟨s, hs, rfl⟩ := List.mem_map.mp h
    refine ⟨?_, layout.metadata_lt⟩
    obtain hs | hs := List.mem_append.mp hs
    · obtain ⟨hn, rfl⟩ := List.mem_replicate.mp hs
      exact Nat.pos_of_ne_zero hn
    · exact List.mem_range.mp hs
  · have hfill := SegmentLayout.mem_fillOrder.mp
      ((mem_portions _).mp (List.mem_of_mem_take h)).1
    exact ⟨hfill.1, (SegmentLayout.mem_fillTypes.mp hfill.2).1.2⟩

theorem count_served_metadata (a₀ : Allocator layout) (n s : ℕ) :
    (a₀.served n).count (s, layout.metadata) =
      (if s = 0 then n else 0) + if s < n then 1 else 0 := by
  rw [Allocator.served, List.count_append, SegmentLayout.count_metadataOrder,
    List.count_eq_zero_of_not_mem, Nat.add_zero]
  intro h
  have hfill := SegmentLayout.mem_fillOrder.mp ((mem_portions _).mp (List.mem_of_mem_take h)).1
  exact (SegmentLayout.mem_fillTypes.mp hfill.2).2 rfl

variable {calls : FormatCalls layout} {shard : ShardConfig} {segment : SegmentConfig}
  {a' : Allocator layout} {n : ℕ}

/-- **mkfs hands out each segment once.** -/
theorem mkfs_hands_out_once (calls : FormatCalls layout) (shard : ShardConfig)
    (segment : SegmentConfig) (a' : Allocator layout)
    (hmkfs : calls.allocatorMkfs a' segment.maxSegments segment.segmentSize = some a₀)
    (hcap : shard.numShards + 1 < layout.maxOpenSegments)
    (hok : fillOpenQueues shard.numShards a₀ = .ok a) :
    (∀ key key' (i i' id : ℕ), (a.openQueues key).entries[i]? = some id →
      (a.openQueues key').entries[i']? = some id → key = key' ∧ i = i') ∧
    (∀ key, ∀ id ∈ (a.openQueues key).entries,
      layout.metaSegmentSlotB < id ∧ (id : ℤ) < segment.maxSegments ∧
        (a.segments id).status = .opened ∧ (a.segments id).type = key.2) ∧
    (∀ id : ℕ, layout.metaSegmentSlotB < id → (id : ℤ) < segment.maxSegments →
      (∀ key, id ∉ (a.openQueues key).entries) → (a.segments id).status = .empty) ∧
    (∀ key, ¬ (key.1 < shard.numShards ∧ key.2 < layout.segmentTypeCount) →
      (a.openQueues key).entries = []) ∧
    a.usedSegments = a₀.usedSegments +
      ∑ key ∈ Finset.range shard.numShards ×ˢ Finset.range layout.segmentTypeCount,
        (a.openQueues key).entries.length ∧
    (a.openQueues (0, layout.metadata)).entries.length = shard.numShards + 1 ∧
    ∀ s, 0 < s → s < shard.numShards →
      (a.openQueues (s, layout.metadata)).entries.length = 1 := by
  have hfresh := calls.fresh_of_allocatorMkfs hmkfs
  have hmax := calls.maxSegments_of_allocatorMkfs hmkfs
  have hhanded := handed_of_fillOpenQueues hfresh hcap hok
  have hpositive : 0 < shard.numShards := shard.numShards_mem.1
  refine ⟨fun key key' i i' id hi hi' => ?_, fun key id hid => ?_, fun id hstart hlt hnone => ?_,
    fun key hkey => ?_, ?_, ?_, fun s hs hlt => ?_⟩
  · rw [hhanded.entries] at hi hi'
    exact handed_unique hi hi'
  · rw [hhanded.entries] at hid
    obtain ⟨hstart, hat⟩ := mem_handed.mp hid
    have hlt := (List.getElem?_eq_some_iff.mp hat).1
    have hpool := hhanded.length_le
    rw [Allocator.pool, hmax] at hpool
    refine ⟨hstart, by omega, hhanded.opened id key hstart hat⟩
  · rw [← hmax] at hlt
    refine hhanded.status_eq_empty hfresh (Nat.not_lt.mp fun hbefore => ?_) hlt
    have hfirst : layout.poolStart ≤ id := hstart
    have hindex : id - layout.poolStart < (a₀.served shard.numShards).length := by omega
    have hmem := mem_handed.mpr ⟨hfirst, List.getElem?_eq_getElem hindex⟩
    rw [← hhanded.entries] at hmem
    exact hnone _ hmem
  · refine List.eq_nil_of_length_eq_zero ?_
    rw [hhanded.entries, length_handed]
    exact List.count_eq_zero_of_not_mem fun hmem => hkey (mem_served hmem)
  · simp only [hhanded.entries]
    rw [sum_length_handed, hhanded.usedSegments]
    intro key hkey
    rw [Finset.mem_product, Finset.mem_range, Finset.mem_range]
    exact mem_served hkey
  · rw [hhanded.entries, length_handed, count_served_metadata, if_pos rfl, if_pos hpositive]
  · rw [hhanded.entries, length_handed, count_served_metadata, if_neg (Nat.ne_of_gt hs),
      if_pos hlt]

/-- Two segments in front of the pool, and rings of four slots. -/
def smallLayout : SegmentLayout where
  metaSegmentSlotB := 1
  maxOpenSegments := 4
  segmentTypeCount := 4
  metadata := 3
  data := 1
  journal := 2
  metadata_lt := Nat.lt_succ_self 3
  data_mem := ⟨Nat.le_refl 1, Nat.lt_of_sub_eq_succ rfl⟩
  journal_mem := ⟨Nat.le_of_sub_eq_zero rfl, Nat.lt_of_sub_eq_succ rfl⟩
  data_ne_metadata := fun h => nomatch h
  journal_ne_metadata := fun h => nomatch h

/-- An allocator whose queues are filled up to one segment. -/
def smallAllocator (maxSegments : ℤ) (segmentSize : ℕ) : Allocator smallLayout where
  maxSegments
  segmentSize
  segments := fun _ => ⟨.empty, 0, 0, 0⟩
  usedSegments := 2
  isPersistDirty := false
  openQueues := fun _ => ⟨⟨fun _ => 0, ⟨0, Nat.succ_pos 3⟩, ⟨0, Nat.succ_pos 3⟩⟩, 1⟩

/-- Calls that succeed. -/
def smallCalls : FormatCalls smallLayout where
  allocatorMkfs := fun _ maxSegments segmentSize => some (smallAllocator maxSegments segmentSize)
  zeroWrites := some fun _ => true
  allocatorPersistSync := fun a => some { a with isPersistDirty := false }
  superblockInitMkfs := fun a _ => some a
  maxSegments_of_allocatorMkfs := fun h => by rw [← Option.some.inj h]; rfl
  fresh_of_allocatorMkfs := fun h => by
    rw [← Option.some.inj h]
    exact ⟨fun _ _ _ => rfl, fun _ => rfl⟩
  openQueues_of_allocatorPersistSync := fun h => by rw [← Option.some.inj h]
  openQueues_of_superblockInitMkfs := fun h _ _ _ => by rw [Option.some.inj h]

/-- Two shards. -/
def twoShards : ShardConfig where
  numShards := 2
  bgCore := 2
  coreMap := [0, 1]
  numShards_mem := ⟨Nat.le_of_sub_eq_zero rfl, Nat.le_of_sub_eq_zero rfl⟩
  length_coreMap := rfl

/-- Two shards on ten segments, of which all are handed out. -/
theorem mkfs_hands_out_once_two_shards :
    ∃ a, fillOpenQueues twoShards.numShards (smallAllocator 10 4096) = .ok a ∧
      (a.openQueues (0, 3)).entries = [2, 3, 4] ∧
      (a.openQueues (0, 3)).entries.length = twoShards.numShards + 1 := by
  have hok : fillOpenQueues twoShards.numShards (smallAllocator 10 4096) = .ok _ := rfl
  have hall := mkfs_hands_out_once smallCalls twoShards ⟨10, 4096⟩ (smallAllocator 0 0) rfl
    (by decide) hok
  exact ⟨_, hok, rfl, hall.2.2.2.2.2.1⟩

/-! ### Queues that stay empty -/

theorem openQueues_of_zeroSegments {written : ℕ → Bool} {is : List ℕ}
    (hok : zeroSegments written is a = .ok a') : a'.openQueues = a.openQueues := by
  induction is generalizing a with
  | nil => exact congrArg Allocator.openQueues (Except.ok.inj hok).symm
  | cons i is ih =>
    rw [zeroSegments] at hok
    split_ifs at hok
    · exact ih hok
    · have hrest := ih hok
      exact hrest

theorem openQueues_of_zeroPool {zeroWrites : Option (ℕ → Bool)}
    (hok : zeroPool zeroWrites a = .ok a') : a'.openQueues = a.openQueues := by
  rcases zeroWrites with _ | written
  · exact congrArg Allocator.openQueues (Except.ok.inj hok).symm
  · exact openQueues_of_zeroSegments hok

theorem eq_some_of_orError {α : Type*} {message : String} {result : Option α} {x : α}
    (h : orError message result = .ok x) : result = some x := by
  rcases result with _ | y
  · cases h
  · exact congrArg some (Except.ok.inj h)

/-- After the queues are filled, formatting takes segments from METADATA queues only. -/
theorem exists_of_storageEngineMkfsVolume
    (hok : storageEngineMkfsVolume calls shard segment a' = .ok (n, a)) :
    ∃ a₀ a₁, calls.allocatorMkfs a' segment.maxSegments segment.segmentSize = some a₀ ∧
      fillOpenQueues shard.numShards a₀ = .ok a₁ ∧
      ∀ s type, type ≠ layout.metadata → a.openQueues (s, type) = a₁.openQueues (s, type) := by
  obtain ⟨a₀, hmkfs, hok⟩ := exists_of_bind_eq_ok hok
  obtain ⟨a₁, hfill, hok⟩ := exists_of_bind_eq_ok hok
  obtain ⟨a₂, hzero, hok⟩ := exists_of_bind_eq_ok hok
  obtain ⟨a₃, hpersist, hok⟩ := exists_of_bind_eq_ok hok
  obtain ⟨a₄, hsuperblock, hok⟩ := exists_of_bind_eq_ok hok
  obtain rfl : a₄ = a := congrArg Prod.snd (Except.ok.inj hok)
  refine ⟨a₀, a₁, eq_some_of_orError hmkfs, hfill, fun s type htype => ?_⟩
  rw [calls.openQueues_of_superblockInitMkfs (eq_some_of_orError hsuperblock) s type htype,
    calls.openQueues_of_allocatorPersistSync (eq_some_of_orError hpersist),
    openQueues_of_zeroPool hzero]

namespace SegmentLayout

variable (layout)

/-- The type whose queue is the last of DATA and JOURNAL to be filled. -/
def lastType : ℕ := max layout.data layout.journal

/-- The queues that are filled before the last DATA or JOURNAL queue of the last of `n` shards. -/
def filledBefore (n : ℕ) : List (ℕ × ℕ) :=
  layout.fillOrder (n - 1) ++ (layout.fillTypes layout.lastType).map (Prod.mk (n - 1))

variable {layout}

theorem lastType_mem (layout : SegmentLayout) :
    layout.lastType ∈ layout.fillTypes layout.segmentTypeCount := by
  rw [mem_fillTypes, lastType]
  have := layout.data_mem
  have := layout.journal_mem
  have := layout.data_ne_metadata
  have := layout.journal_ne_metadata
  omega

theorem fillTypes_split {bound type : ℕ} (h : type ∈ layout.fillTypes bound) :
    ∃ rest, layout.fillTypes bound = layout.fillTypes type ++ type :: rest := by
  obtain ⟨⟨hpos, hlt⟩, hne⟩ := mem_fillTypes.mp h
  have hrange : List.range' 1 (bound - 1) =
      List.range' 1 (type - 1) ++ type :: List.range' (type + 1) (bound - type - 1) := by
    rw [← List.range'_succ, show bound - 1 = type - 1 + (bound - type - 1 + 1) by omega,
      ← List.range'_append_1, Nat.add_sub_cancel' hpos]
  rw [fillTypes, hrange, List.filter_append, List.filter_cons_of_pos (by simpa using hne)]
  exact ⟨_, rfl⟩

theorem fillOrder_succ (n : ℕ) : layout.fillOrder (n + 1) =
    layout.fillOrder n ++ (layout.fillTypes layout.segmentTypeCount).map (Prod.mk n) := by
  rw [fillOrder, List.range_succ, List.flatMap_append, List.flatMap_singleton]
  rfl

theorem fillOrder_split {n : ℕ} (hn : 0 < n) :
    ∃ rest, layout.fillOrder n = layout.filledBefore n ++ (n - 1, layout.lastType) :: rest := by
  obtain ⟨rest, hrest⟩ := fillTypes_split layout.lastType_mem
  refine ⟨rest.map (Prod.mk (n - 1)), ?_⟩
  obtain ⟨m, rfl⟩ := Nat.exists_eq_add_of_lt hn
  rw [Nat.zero_add, fillOrder_succ, hrest, List.map_append, List.map_cons, filledBefore,
    Nat.add_sub_cancel, List.append_assoc]

/-- Every DATA and JOURNAL queue is filled before the last one, or is the last one. -/
theorem mem_filledBefore_or {n s type : ℕ} (hs : s < n)
    (htype : type = layout.data ∨ type = layout.journal) :
    (s, type) ∈ layout.filledBefore n ∨ (s, type) = (n - 1, layout.lastType) := by
  have hfill : type ∈ layout.fillTypes layout.segmentTypeCount := by
    rw [mem_fillTypes]
    obtain rfl | rfl := htype
    · exact ⟨layout.data_mem, layout.data_ne_metadata⟩
    · exact ⟨layout.journal_mem, layout.journal_ne_metadata⟩
  obtain ⟨⟨hpos, -⟩, hne⟩ := mem_fillTypes.mp hfill
  have hle : type ≤ layout.lastType := by
    rw [lastType]
    omega
  rw [filledBefore, List.mem_append]
  by_cases hshard : s < n - 1
  · exact Or.inl (Or.inl (mem_fillOrder.mpr ⟨hshard, hfill⟩))
  · obtain rfl : s = n - 1 := by omega
    obtain rfl | hlt := Nat.eq_or_lt_of_le hle
    · exact Or.inr rfl
    · refine Or.inl (Or.inr (List.mem_map_of_mem (mem_fillTypes.mpr ⟨⟨hpos, hlt⟩, hne⟩)))

end SegmentLayout

theorem Allocator.want_pos (hcap : 1 < layout.maxOpenSegments)
    (hrefill : 1 ≤ (a₀.openQueues key).refillHigh) : 0 < a₀.want key := by
  rw [want, OpenSegmentQueue.target]
  split_ifs <;> omega

/-- A queue has entries if it was served. -/
theorem Handed.entries_ne_nil_iff (h : Handed a₀ keys a) :
    (a.openQueues key).entries ≠ [] ↔ key ∈ keys := by
  rw [← List.length_pos_iff, h.entries, length_handed, List.count_pos_iff]

/-- The METADATA queues aside, a queue is served if its turn comes before the end of the pool. -/
theorem mem_served_iff {n s type : ℕ} (htype : type ≠ layout.metadata) :
    (s, type) ∈ a₀.served n ↔
      (s, type) ∈ (portions a₀.want (layout.fillOrder n)).take (a₀.pool - 2 * n) := by
  rw [Allocator.served, List.mem_append]
  exact or_iff_right fun h => htype (SegmentLayout.metadata_of_mem_metadataOrder h)

/-- The DATA and JOURNAL queues of all shards are served if the last one of them is. -/
theorem forall_mem_served_iff {n : ℕ} (hn : 0 < n) (hwant : ∀ key, 0 < a₀.want key) :
    (∀ s < n, (s, layout.data) ∈ a₀.served n ∧ (s, layout.journal) ∈ a₀.served n) ↔
      ((layout.filledBefore n).map a₀.want).sum < a₀.pool - 2 * n := by
  obtain ⟨rest, horder⟩ := layout.fillOrder_split hn
  have hnodup := layout.nodup_fillOrder n
  rw [horder] at hnodup
  have hlast : (n - 1, layout.lastType) ∉ layout.filledBefore n := fun hmem =>
    List.disjoint_of_nodup_append hnodup hmem List.mem_cons_self
  have hmem := mem_take_portions_iff (a₀.pool - 2 * n) rest (hwant _) hlast
  simp only [mem_served_iff layout.data_ne_metadata, mem_served_iff layout.journal_ne_metadata]
  rw [horder, ← hmem]
  constructor
  · intro h
    obtain ⟨hdata, hjournal⟩ := h (n - 1) (by omega)
    obtain heq | heq : layout.lastType = layout.data ∨ layout.lastType = layout.journal :=
      max_choice layout.data layout.journal
    · rwa [← heq] at hdata
    · rwa [← heq] at hjournal
  · intro h s hs
    have hserved : ∀ type, type = layout.data ∨ type = layout.journal → (s, type) ∈
        (portions a₀.want (layout.filledBefore n ++ (n - 1, layout.lastType) :: rest)).take
          (a₀.pool - 2 * n) := by
      intro type htype
      obtain hbefore | heq := SegmentLayout.mem_filledBefore_or hs htype
      · exact mem_take_portions (hwant _) hbefore (Nat.le_of_lt (hmem.mp h))
      · rwa [heq]
    exact ⟨hserved _ (Or.inl rfl), hserved _ (Or.inr rfl)⟩

/-- **When every shard can use the volume.** If formatting succeeds, every shard has DATA and
JOURNAL segments just when the pool is larger than what the METADATA queues take and the queues want
that are filled before the last one. -/
theorem every_shard_has_segments_iff (calls : FormatCalls layout) (shard : ShardConfig)
    (segment : SegmentConfig) (a' : Allocator layout)
    (hmkfs : calls.allocatorMkfs a' segment.maxSegments segment.segmentSize = some a₀)
    (hcap : shard.numShards + 1 < layout.maxOpenSegments)
    (hrefill : ∀ key, 1 ≤ (a₀.openQueues key).refillHigh)
    (hok : storageEngineMkfsVolume calls shard segment a' = .ok (n, a)) :
    (∀ s < shard.numShards, (a.openQueues (s, layout.data)).entries ≠ [] ∧
      (a.openQueues (s, layout.journal)).entries ≠ []) ↔
      ((layout.metaSegmentSlotB + 1 + 2 * shard.numShards +
        ((layout.filledBefore shard.numShards).map a₀.want).sum : ℕ) : ℤ) <
          segment.maxSegments := by
  obtain ⟨b₀, a₁, hmkfs', hfill, hqueues⟩ := exists_of_storageEngineMkfsVolume hok
  obtain rfl : b₀ = a₀ := Option.some.inj (hmkfs'.symm.trans hmkfs)
  have hhanded := handed_of_fillOpenQueues (calls.fresh_of_allocatorMkfs hmkfs) hcap hfill
  have hwant : ∀ key, 0 < b₀.want key := fun key =>
    Allocator.want_pos (by omega) (hrefill key)
  simp only [hqueues _ _ layout.data_ne_metadata, hqueues _ _ layout.journal_ne_metadata,
    hhanded.entries_ne_nil_iff]
  rw [forall_mem_served_iff shard.numShards_mem.1 hwant, Allocator.pool,
    calls.maxSegments_of_allocatorMkfs hmkfs, SegmentLayout.poolStart]
  omega

/-- Two shards on ten segments: the last JOURNAL queue gets the last segment. -/
theorem every_shard_has_segments_iff_ten :
    ∃ n a, storageEngineMkfsVolume smallCalls twoShards ⟨10, 4096⟩ (smallAllocator 0 0) =
        .ok (n, a) ∧ (a.openQueues (1, 2)).entries = [9] ∧
      ∀ s < 2, (a.openQueues (s, 1)).entries ≠ [] ∧ (a.openQueues (s, 2)).entries ≠ [] := by
  have hok : storageEngineMkfsVolume smallCalls twoShards ⟨10, 4096⟩ (smallAllocator 0 0) =
    .ok (_, _) := rfl
  refine ⟨_, _, hok, rfl, ?_⟩
  exact (every_shard_has_segments_iff smallCalls twoShards ⟨10, 4096⟩ (smallAllocator 0 0) rfl
    (by decide) (fun _ => Int.le_refl 1) hok).mpr (by decide)

/-- Two shards on eight segments: formatting succeeds, and shard 1 has METADATA segments only. -/
theorem shard_without_segments :
    twoShards.numShards + 1 < smallLayout.maxOpenSegments ∧
    (∀ key, 1 ≤ ((smallAllocator 8 4096).openQueues key).refillHigh) ∧
    ∃ a, storageEngineMkfsVolume smallCalls twoShards ⟨8, 4096⟩ (smallAllocator 0 0) = .ok (2, a) ∧
      (a.openQueues (0, 1)).entries = [6] ∧ (a.openQueues (0, 2)).entries = [7] ∧
      (a.openQueues (1, 1)).entries = [] ∧ (a.openQueues (1, 2)).entries = [] := by
  refine ⟨by decide, fun _ => Int.le_refl 1, _, rfl, ?_⟩
  exact ⟨rfl, rfl, rfl, rfl⟩

end LightFS.Engine
