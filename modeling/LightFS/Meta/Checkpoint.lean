import Mathlib.Algebra.Order.BigOperators.Group.List
import LightFS.Library.ByteCursor
import LightFS.Meta.ShardMap

/-!
# Checkpoints of a shard

The checkpoint of a shard (`src/meta/meta_checkpoint.c`): a 32-byte header and one packed record
per entry, written to and read back from one static buffer with cursors moved by hand. A record
holds six fields of the manifest; its fragment count and fragment locations are not written.

The writer is compared with the bytes of the format (`checkpointBytes`), the reader with an
overlay of maps: a checkpoint read back overlays the target shard by the written one, on the six
fields (`checkpoint_read_write`), and the fragments are kept only where there were none
(`checkpoint_keeps_fragments_iff`). All checkpoints share the buffer, so a read loads the one
written last, whatever id it is given (`checkpoint_read_by_id_iff`). The writer does not look at the
size of the buffer: it stays inside exactly when the records fit
(`metaCheckpointWrite_inside_iff`).

## Main definitions

* `CheckpointStore`, `metaCheckpointWrite`, `metaCheckpointRead`.
* `CheckpointCall`, `checkpointMachine` — checkpoints written one after the other.
* `entryBytes`, `headerBytes`, `checkpointBytes`, `checkpointSize`.
* `ObjectManifest.serialized` — what a record keeps of a manifest.

## Main results

* `metaCheckpointWrite_eq`, `readEntries_eq`.
* `checkpoint_read_write`, `checkpoint_keeps_fragments_iff`.
* `checkpoint_read_by_id_iff` — what a read by the id of a checkpoint loads.
* `metaCheckpointWrite_inside_iff`.
-/

namespace LightFS.Meta

open Library

/-- `CHECKPOINT_HEADER_MAGIC`. -/
abbrev checkpointHeaderMagic : ℕ := 0x4D434B50

/-- The size of `g_checkpoint_buffer`. -/
abbrev checkpointBufferSize : ℕ := 1024 * 1024

/-- The two static variables `g_checkpoint_buffer` and `g_checkpoint_id_counter`. -/
structure CheckpointStore where
  buffer : List UInt8
  idCounter : UInt64

/-- The static variables as the program starts. -/
def CheckpointStore.initial : CheckpointStore where
  buffer := List.replicate checkpointBufferSize 0
  idCounter := 0

/-! ### Writing -/

/-- The five stores to the `checkpoint_header_t` at the start of the buffer. -/
def writeHeader (buffer : List UInt8) (shard : MetaShard) (sequence : UInt64) : BufferWriter :=
  (((((BufferWriter.mk buffer 0).put (leBytes 8 checkpointHeaderMagic)).put
    (leBytes 8 sequence.toNat)).put
    (leBytes 8 shard.shardId.toNat)).put
    (leBytes 4 shard.entryCount)).put
    (leBytes 4 0)

/-- One round of the writing loop. -/
def writeEntry (w : BufferWriter) (manifest : ObjectManifest) : BufferWriter :=
  (((((w.put manifest.bucket.terminated).put
    manifest.key.terminated).put
    (leBytes 8 manifest.size.toNat)).put
    (leBytes 4 manifest.checksum.toNat)).put
    (leBytes 8 manifest.writeSequence.toNat)).put
    (leBytes 4 manifest.datacenterId.toNat)

/-- The writing loop from slot `i` over `n` slots. -/
def writeEntries (entries : ℕ → ObjectManifest) : ℕ → ℕ → BufferWriter → BufferWriter
  | _, 0, w => w
  | i, n + 1, w => writeEntries entries (i + 1) n (writeEntry w (entries i))

/-- What `meta_checkpoint_write` leaves behind. -/
structure CheckpointWritten where
  store : CheckpointStore
  /-- `*checkpoint_blob_id_out`. -/
  blobId : UInt64
  /-- The returned length. -/
  totalLength : ℕ

/-- `meta_checkpoint_write`. Nothing compares the cursor with the end of the buffer; a checkpoint
that does not fit makes the modelled buffer longer than the real one. -/
def metaCheckpointWrite (store : CheckpointStore) (shard : MetaShard) (sequence : UInt64) :
    CheckpointWritten :=
  let w := writeEntries shard.entries 0 shard.entryCount
    (writeHeader store.buffer shard sequence)
  { store := { buffer := w.buf, idCounter := store.idCounter + 1 }
    blobId := store.idCounter + 1
    totalLength := w.cursor }

/-! ### Reading -/

/-- One round of the reading loop: the manifest, all its other fields zero, and the cursor behind
its record. -/
def readEntry (buffer : List UInt8) (cursor : ℕ) : ObjectManifest × ℕ :=
  let bucket := CString.ofMemory (buffer.drop cursor)
  let cursor := cursor + (bucket.length + 1)
  let key := CString.ofMemory (buffer.drop cursor)
  let cursor := cursor + (key.length + 1)
  ({ ObjectManifest.zero with
      bucket := .strncpy bucket
      key := .strncpy key
      size := .ofNat (readLe buffer cursor 8)
      checksum := .ofNat (readLe buffer (cursor + 8) 4)
      writeSequence := .ofNat (readLe buffer (cursor + 12) 8)
      datacenterId := .ofNat (readLe buffer (cursor + 20) 4) }, cursor + 24)

/-- The reading loop over `n` records. -/
def readEntries (alloc : AllocOutcome) (buffer : List UInt8) :
    ℕ → ℕ → MetaShard → MetaShard × ℕ
  | 0, cursor, shard => (shard, cursor)
  | n + 1, cursor, shard =>
    readEntries alloc buffer n (readEntry buffer cursor).2
      (metaShardInsert alloc shard (readEntry buffer cursor).1).1

/-- What `meta_checkpoint_read` leaves behind. -/
structure CheckpointRead where
  shard : MetaShard
  /-- The offset of the cursor at the return. -/
  cursor : ℕ
  /-- The returned status. -/
  status : ℤ

/-- `meta_checkpoint_read`. The blob id is not used. -/
def metaCheckpointRead (alloc : AllocOutcome) (store : CheckpointStore) (shard : MetaShard)
    (_checkpointBlobId : UInt64) : CheckpointRead :=
  if readLe store.buffer 0 8 ≠ checkpointHeaderMagic then
    { shard := shard, cursor := 0, status := -1 }
  else
    let r := readEntries alloc store.buffer (readLe store.buffer 24 4) 32 shard
    { shard := r.1, cursor := r.2, status := 0 }

/-! ### The format -/

/-- The record of a manifest. -/
def entryBytes (m : ObjectManifest) : List UInt8 :=
  m.bucket.terminated ++ (m.key.terminated ++ (leBytes 8 m.size.toNat ++
    (leBytes 4 m.checksum.toNat ++ (leBytes 8 m.writeSequence.toNat ++
      leBytes 4 m.datacenterId.toNat))))

/-- The header of a checkpoint. -/
def headerBytes (shard : MetaShard) (sequence : UInt64) : List UInt8 :=
  leBytes 8 checkpointHeaderMagic ++ (leBytes 8 sequence.toNat ++
    (leBytes 8 shard.shardId.toNat ++ (leBytes 4 shard.entryCount ++ leBytes 4 0)))

/-- The whole checkpoint of a shard. -/
def checkpointBytes (shard : MetaShard) (sequence : UInt64) : List UInt8 :=
  headerBytes shard sequence ++ shard.contents.flatMap entryBytes

/-- The size of the checkpoint of a shard. -/
def checkpointSize (shard : MetaShard) : ℕ :=
  32 + (shard.contents.map fun m => m.bucket.length + m.key.length + 26).sum

/-- What the record of a manifest keeps of it: the fragments are gone. -/
def ObjectManifest.serialized (m : ObjectManifest) : ObjectManifest :=
  { m with
    fragmentCount := 0
    fragments := none
    fragments_length := ObjectManifest.length_of_mem_none }

@[simp] theorem length_entryBytes (m : ObjectManifest) :
    (entryBytes m).length = m.bucket.length + m.key.length + 26 := by
  simp only [entryBytes, List.length_append, CString.length_terminated, length_leBytes]
  omega

@[simp] theorem length_headerBytes (shard : MetaShard) (sequence : UInt64) :
    (headerBytes shard sequence).length = 32 := by
  simp [headerBytes]

theorem length_checkpointBytes (shard : MetaShard) (sequence : UInt64) :
    (checkpointBytes shard sequence).length = checkpointSize shard := by
  simp [checkpointBytes, checkpointSize, List.length_flatMap]

/-! ### The writer writes the format -/

theorem writeEntry_put {w : BufferWriter} (hw : w.cursor ≤ w.buf.length) (bytes : List UInt8)
    (m : ObjectManifest) : writeEntry (w.put bytes) m = w.put (bytes ++ entryBytes m) := by
  simp only [writeEntry, BufferWriter.put_put hw, entryBytes, List.append_assoc]

theorem writeEntries_put {w : BufferWriter} (hw : w.cursor ≤ w.buf.length)
    (entries : ℕ → ObjectManifest) (i n : ℕ) (bytes : List UInt8) :
    writeEntries entries i n (w.put bytes) =
      w.put (bytes ++ (slots (fun j => entries (i + j)) n).flatMap entryBytes) := by
  induction n generalizing i bytes with
  | zero => simp [writeEntries]
  | succ n ih =>
    rw [writeEntries, writeEntry_put hw, ih, slots_offset_succ, List.flatMap_cons,
      List.append_assoc]

/-- The writer puts the bytes of the format at the start of the buffer and returns their
number. -/
theorem metaCheckpointWrite_eq (store : CheckpointStore) (shard : MetaShard) (sequence : UInt64) :
    (metaCheckpointWrite store shard sequence).store.buffer =
        overwrite store.buffer 0 (checkpointBytes shard sequence) ∧
      (metaCheckpointWrite store shard sequence).totalLength = checkpointSize shard := by
  have hw : (BufferWriter.mk store.buffer 0).cursor ≤ store.buffer.length := Nat.zero_le _
  have hheader : writeHeader store.buffer shard sequence =
      (BufferWriter.mk store.buffer 0).put (headerBytes shard sequence) := by
    simp only [writeHeader, BufferWriter.put_put hw, headerBytes, List.append_assoc]
  have hslots : (fun j => shard.entries (0 + j)) = shard.entries := by simp
  simp only [metaCheckpointWrite, hheader, writeEntries_put hw, hslots]
  refine ⟨rfl, ?_⟩
  rw [← length_checkpointBytes shard sequence, BufferWriter.put, Nat.zero_add]
  rfl

/-! ### The reader reads the format -/

/-- A record that stands at the cursor is read back, without the fragments, and the cursor ends
behind it. -/
theorem readEntry_eq {buffer rest : List UInt8} {cursor : ℕ} {m : ObjectManifest}
    (h : buffer.drop cursor = entryBytes m ++ rest) :
    readEntry buffer cursor = (m.serialized, cursor + (entryBytes m).length) := by
  simp only [entryBytes, List.append_assoc] at h
  have hbucket := ofMemory_drop_of_drop_eq h
  have h₁ := drop_add_of_drop_eq h
  have hkey := ofMemory_drop_of_drop_eq h₁
  have h₂ := drop_add_of_drop_eq h₁
  have hsize := readLe_of_drop_eq h₂
  have h₃ := drop_add_of_drop_eq h₂
  have hchecksum := readLe_of_drop_eq h₃
  have h₄ := drop_add_of_drop_eq h₃
  have hsequence := readLe_of_drop_eq h₄
  have h₅ := drop_add_of_drop_eq h₄
  have hdatacenter := readLe_of_drop_eq h₅
  simp only [CString.length_terminated, length_leBytes, Nat.add_assoc, Nat.reduceAdd] at *
  simp only [readEntry, hbucket, Nat.add_assoc, hkey, hsize, hchecksum, hsequence, hdatacenter,
    Nat.reduceAdd]
  rw [Prod.mk.injEq]
  refine ⟨?_, by rw [length_entryBytes]; omega⟩
  simp only [CharArray.strncpy_toCString, ofNat_ofLeBytes_leBytes_uint64,
    ofNat_ofLeBytes_leBytes_uint32]
  rfl

/-- **The reading loop.** Records that stand at the cursor are upserted one after the other, and
the cursor ends behind them. -/
theorem readEntries_eq {buffer rest : List UInt8} {cursor : ℕ} (l : List ObjectManifest)
    (h : buffer.drop cursor = l.flatMap entryBytes ++ rest) (shard : MetaShard) :
    (readEntries .success buffer l.length cursor shard).1 =
        shardMachine.run shard ((l.map (·.serialized)).map .insert) ∧
      (readEntries .success buffer l.length cursor shard).2 =
        cursor + (l.flatMap entryBytes).length := by
  induction l generalizing cursor shard with
  | nil => exact ⟨rfl, rfl⟩
  | cons m l ih =>
    rw [List.flatMap_cons, List.append_assoc] at h
    obtain ⟨hshard, hcursor⟩ :=
      ih (drop_add_of_drop_eq h) (metaShardInsert .success shard m.serialized).1
    rw [List.length_cons, readEntries, readEntry_eq h, List.flatMap_cons, List.length_append,
      ← Nat.add_assoc]
    exact ⟨hshard, hcursor⟩

/-! ### Round trip -/

/-- Inserting manifests one after the other overlays the live entries by them. -/
theorem contents_run_inserts (shard : MetaShard) (l : List ObjectManifest) :
    (shardMachine.run shard (l.map .insert)).contents =
      overlay ObjectManifest.name shard.contents l := by
  induction l generalizing shard with
  | nil => rfl
  | cons m l ih =>
    rw [List.map_cons, Machine.run_cons, ih, overlay_cons]
    exact congrArg (overlay _ · l) (contents_metaShardInsert shard m)

/-- Inserting a manifest that the shard holds changes nothing. -/
theorem metaShardInsert_of_mem {shard : MetaShard}
    (hnodup : KeysNodup ObjectManifest.name shard.contents) {m : ObjectManifest}
    (hm : m ∈ shard.contents) : (metaShardInsert .success shard m).1 = shard := by
  rw [metaShardInsert, findEntry_eq]
  cases h : shard.contents.findIdx?
      fun e => decide (e.name = (m.bucket.toCString, m.key.toCString)) with
  | none => exact absurd (List.mem_map_of_mem hm) (notMem_keys_iff_findIdx?_eq_none.mpr h)
  | some i =>
    obtain ⟨hlt, hname, -⟩ := List.findIdx?_eq_some_iff_getElem.mp h
    have hentry : shard.entries i = m := by
      have hi : shard.contents[i] = m :=
        hnodup.eq_of_key_eq (List.getElem_mem hlt) hm (of_decide_eq_true hname)
      simpa [MetaShard.contents] using hi
    simp only [AllocOutcome.success, copyManifest_true, ← hentry, Function.update_eq_self]

/-- Inserting only manifests that the shard holds changes nothing. -/
theorem run_inserts_eq_self {shard : MetaShard}
    (hnodup : KeysNodup ObjectManifest.name shard.contents) {l : List ObjectManifest}
    (hl : ∀ m ∈ l, m ∈ shard.contents) : shardMachine.run shard (l.map .insert) = shard := by
  refine Machine.run_invariant (P := (· = shard)) ?_ rfl
  rintro _ op hop rfl
  obtain ⟨m, hm, rfl⟩ := List.mem_map.mp hop
  exact metaShardInsert_of_mem hnodup (hl m hm)

/-- An entry takes at least 26 bytes, and at most 1305 when both names have their full length. -/
theorem checkpointSize_bounds (shard : MetaShard) :
    32 + shard.entryCount * 26 ≤ checkpointSize shard ∧
      checkpointSize shard ≤ 32 + shard.entryCount * 1305 := by
  have hlen : (shard.contents.map fun m => m.bucket.length + m.key.length + 26).length =
      shard.entryCount := by
    rw [List.length_map, MetaShard.contents, length_slots]
  have hlower := List.card_nsmul_le_sum
    (shard.contents.map fun m => m.bucket.length + m.key.length + 26) 26 (by simp)
  have hupper := List.sum_le_card_nsmul
    (shard.contents.map fun m => m.bucket.length + m.key.length + 26) 1305 (by
      simp only [List.mem_map, forall_exists_index, and_imp, forall_apply_eq_imp_iff₂]
      intro m _
      have hbucket : m.bucket.length ≤ 255 := m.bucket.length_le
      have hkey : m.key.length ≤ 1024 := m.key.length_le
      omega)
  rw [hlen] at hlower hupper
  exact ⟨Nat.add_le_add_left hlower 32, Nat.add_le_add_left hupper 32⟩

/-- A shard whose checkpoint fits the buffer has few entries. -/
theorem entryCount_lt_of_fits {shard : MetaShard}
    (hfits : checkpointSize shard ≤ checkpointBufferSize) : shard.entryCount < 2 ^ 32 := by
  have hbound := (checkpointSize_bounds shard).1
  unfold checkpointBufferSize at hfits
  omega

/-- Reading a buffer that begins with the checkpoint of a shard. -/
theorem metaCheckpointRead_eq {store : CheckpointStore} {shard : MetaShard} {sequence : UInt64}
    {rest : List UInt8} (hbuffer : store.buffer = checkpointBytes shard sequence ++ rest)
    (hcount : shard.entryCount < 2 ^ 32) (target : MetaShard) (blobId : UInt64) :
    metaCheckpointRead .success store target blobId =
      { shard := shardMachine.run target ((shard.contents.map (·.serialized)).map .insert)
        cursor := checkpointSize shard
        status := 0 } := by
  have h₀ : store.buffer.drop 0 = checkpointBytes shard sequence ++ rest := hbuffer
  rw [checkpointBytes, headerBytes] at h₀
  simp only [List.append_assoc] at h₀
  have hmagic : readLe store.buffer 0 8 = checkpointHeaderMagic :=
    (readLe_of_drop_eq h₀).trans (ofLeBytes_leBytes (by decide))
  have h₃ := drop_add_of_drop_eq (drop_add_of_drop_eq (drop_add_of_drop_eq h₀))
  have h₅ := drop_add_of_drop_eq (drop_add_of_drop_eq h₃)
  simp only [length_leBytes, Nat.zero_add, Nat.reduceAdd] at h₃ h₅
  have hentries : readLe store.buffer 24 4 = shard.contents.length := by
    rw [readLe_of_drop_eq h₃, ofLeBytes_leBytes (by simpa using hcount)]
    exact (length_slots ..).symm
  obtain ⟨hshard, hcursor⟩ := readEntries_eq shard.contents h₅ target
  have hsize : 32 + (shard.contents.flatMap entryBytes).length = checkpointSize shard := by
    rw [← length_checkpointBytes shard sequence, checkpointBytes, List.length_append,
      length_headerBytes]
  simp only [metaCheckpointRead, hmagic, hentries, hshard, hcursor, hsize, ne_eq,
    not_true_eq_false, ↓reduceIte]

/-- Writing a checkpoint that fits, then reading it. -/
theorem metaCheckpointRead_write (store : CheckpointStore) {shard : MetaShard}
    (hfits : checkpointSize shard ≤ checkpointBufferSize) (sequence : UInt64)
    (target : MetaShard) (blobId : UInt64) :
    metaCheckpointRead .success (metaCheckpointWrite store shard sequence).store target blobId =
      { shard := shardMachine.run target ((shard.contents.map (·.serialized)).map .insert)
        cursor := checkpointSize shard
        status := 0 } :=
  metaCheckpointRead_eq ((metaCheckpointWrite_eq store shard sequence).1.trans
    (drop_overwrite (Nat.zero_le _) _)) (entryCount_lt_of_fits hfits) target blobId

theorem keysNodup_map_serialized {l : List ObjectManifest}
    (hl : KeysNodup ObjectManifest.name l) :
    KeysNodup ObjectManifest.name (l.map (·.serialized)) := by
  rw [KeysNodup, List.map_map]
  exact hl

theorem lookupKey_map_serialized (name : CString × CString) (l : List ObjectManifest) :
    lookupKey ObjectManifest.name name (l.map (·.serialized)) =
      (lookupKey ObjectManifest.name name l).map (·.serialized) := by
  rw [lookupKey, List.find?_map]
  rfl

/-- **Checkpoints round trip.** For shards `S` and `T` that runs of calls reach and a checkpoint of
`S` that fits the buffer: reading it into `T` succeeds with the cursor at the length the writer
returned and overlays `T` by the records of `S` — the entries of `T` keep their order, each
replaced when `S` has its name, and the entries of `S` with new names follow in the order of `S`;
an empty `T` becomes `S` record by record; the write stays inside the buffer; and reading a
second time changes nothing. -/
theorem checkpoint_read_write (shardId parentId targetId targetParentId : UInt32)
    (bucketName targetBucketName : Option CString) (ops targetOps : List ShardOp)
    (store : CheckpointStore) (sequence blobId blobId' : UInt64)
    (hfits : checkpointSize (shardMachine.run (metaShardCreate shardId parentId bucketName) ops) ≤
      checkpointBufferSize) :
    let S := shardMachine.run (metaShardCreate shardId parentId bucketName) ops
    let T := shardMachine.run (metaShardCreate targetId targetParentId targetBucketName) targetOps
    let written := metaCheckpointWrite store S sequence
    let read := metaCheckpointRead .success written.store T blobId
    read.status = 0 ∧ read.cursor = written.totalLength ∧
    read.shard.contents =
      (T.contents.map fun t =>
        ((lookupKey ObjectManifest.name t.name S.contents).map (·.serialized)).getD t) ++
      (S.contents.filter fun m => m.name ∉ T.contents.map (·.name)).map (·.serialized) ∧
    (T.contents = [] → read.shard.contents = S.contents.map (·.serialized)) ∧
    (store.buffer.length = checkpointBufferSize →
      written.store.buffer.length = checkpointBufferSize) ∧
    (metaCheckpointRead .success written.store read.shard blobId').shard = read.shard := by
  intro S T written read
  have hS : KeysNodup ObjectManifest.name (S.contents.map (·.serialized)) :=
    keysNodup_map_serialized (represents_run shardId parentId bucketName ops).1.keysNodup
  have hT : KeysNodup ObjectManifest.name T.contents :=
    (represents_run targetId targetParentId targetBucketName targetOps).1.keysNodup
  have hread := metaCheckpointRead_write store hfits sequence
  have hcontents : read.shard.contents =
      overlay ObjectManifest.name T.contents (S.contents.map (·.serialized)) := by
    rw [← contents_run_inserts]
    exact congrArg (·.shard.contents) (hread T blobId)
  have hoverlay : read.shard.contents =
      (T.contents.map fun t =>
        ((lookupKey ObjectManifest.name t.name S.contents).map (·.serialized)).getD t) ++
      (S.contents.filter fun m => m.name ∉ T.contents.map (·.name)).map (·.serialized) := by
    rw [hcontents, overlay_eq hT hS, List.filter_map]
    simp only [lookupKey_map_serialized]
    exact congrArg (_ ++ List.map _ ·) (List.filter_congr fun m _ => decide_eq_decide.mpr Iff.rfl)
  refine ⟨?_, ?_, hoverlay, ?_, ?_, ?_⟩
  · exact congrArg (·.status) (hread T blobId)
  · rw [(metaCheckpointWrite_eq store S sequence).2]
    exact congrArg (·.cursor) (hread T blobId)
  · intro hempty
    simp [hoverlay, hempty]
  · intro hbuffer
    rw [(metaCheckpointWrite_eq store S sequence).1, length_overwrite, hbuffer]
    rw [length_checkpointBytes, hbuffer, Nat.zero_add]
    exact hfits
  · rw [hread read.shard blobId']
    refine run_inserts_eq_self ?_ fun m hm => ?_
    · rw [hcontents]
      exact hT.overlay
    · rw [hcontents]
      exact mem_overlay_of_mem hT hS hm

/-- An object of bucket `b` with a one-byte key, a size and at most one fragment. -/
def storedObject (key : UInt8) (size : UInt64) (location : Option BlobLocation) :
    ObjectManifest where
  bucket := .strncpy (.ofMemory [98])
  key := .strncpy (.ofMemory [key])
  size := size
  checksum := 7
  writeSequence := 3
  datacenterId := 1
  fragmentCount := if location.isSome then 1 else 0
  fragments := location.map ([·])
  fragments_length := by cases location <;> simp

theorem checkpoint_read_write_two_objects :
    checkpointSize (shardMachine.run (metaShardCreate 1 0 none)
      [.insert (storedObject 97 10 none), .insert (storedObject 99 20 none)]) ≤
        checkpointBufferSize ∧
    (metaCheckpointRead .success (metaCheckpointWrite .initial (shardMachine.run
      (metaShardCreate 1 0 none) [.insert (storedObject 97 10 none),
        .insert (storedObject 99 20 none)]) 5).store
      (shardMachine.run (metaShardCreate 2 0 none)
        [.insert (storedObject 97 30 none)]) 1).status = 0 :=
  ⟨by decide, (checkpoint_read_write 1 0 2 0 none none
    [.insert (storedObject 97 10 none), .insert (storedObject 99 20 none)]
    [.insert (storedObject 97 30 none)] .initial 5 1 1 (by decide)).1⟩

/-! ### Fragments -/

/-- The lookup in a fresh shard after reading the checkpoint of a shard. -/
theorem metaShardLookup_metaCheckpointRead (store : CheckpointStore) {shard : MetaShard}
    (hnodup : KeysNodup ObjectManifest.name shard.contents)
    (hfits : checkpointSize shard ≤ checkpointBufferSize) (sequence blobId : UInt64)
    (targetId targetParentId : UInt32) (targetBucketName : Option CString)
    (bucket key : CString) :
    metaShardLookup (metaCheckpointRead .success (metaCheckpointWrite store shard sequence).store
        (metaShardCreate targetId targetParentId targetBucketName) blobId).shard bucket key =
      (metaShardLookup shard bucket key).map (·.serialized) := by
  rw [metaCheckpointRead_write store hfits, metaShardLookup_eq, contents_run_inserts,
    contents_metaShardCreate, overlay_eq keysNodup_nil (keysNodup_map_serialized hnodup),
    metaShardLookup_eq, ← lookupKey_map_serialized]
  simp

/-- A record keeps the fragments of a manifest exactly when there are none. -/
theorem serialized_keeps_fragments_iff (m : ObjectManifest) :
    (m.serialized.fragmentCount = m.fragmentCount ∧ m.serialized.locations = m.locations) ↔
      m.fragmentCount = 0 := by
  constructor
  · rintro ⟨hcount, -⟩
    exact hcount.symm
  · intro hzero
    refine ⟨hzero.symm, ?_⟩
    rw [ObjectManifest.locations, ObjectManifest.locations]
    cases hfragments : m.fragments with
    | none => rfl
    | some l =>
      have hlength := m.fragments_length l hfragments
      rw [hzero] at hlength
      exact (List.length_eq_zero_iff.mp hlength).symm

/-- **A checkpoint keeps the fragments only of shards without fragments.** For every shard that a
run of calls reaches and whose checkpoint fits the buffer: every manifest is looked up in a fresh
shard, after reading the checkpoint into it, with the fragment count and the locations it had, if
and only if every manifest of the shard has no fragments. -/
theorem checkpoint_keeps_fragments_iff (shardId parentId targetId targetParentId : UInt32)
    (bucketName targetBucketName : Option CString) (ops : List ShardOp)
    (store : CheckpointStore) (sequence blobId : UInt64)
    (hfits : checkpointSize (shardMachine.run (metaShardCreate shardId parentId bucketName) ops) ≤
      checkpointBufferSize) :
    let S := shardMachine.run (metaShardCreate shardId parentId bucketName) ops
    let T := (metaCheckpointRead .success (metaCheckpointWrite store S sequence).store
      (metaShardCreate targetId targetParentId targetBucketName) blobId).shard
    (∀ bucket key m, metaShardLookup S bucket key = some m →
      ∃ m', metaShardLookup T bucket key = some m' ∧ m'.fragmentCount = m.fragmentCount ∧
        m'.locations = m.locations) ↔
      ∀ m ∈ S.contents, m.fragmentCount = 0 := by
  intro S T
  have hnodup : KeysNodup ObjectManifest.name S.contents :=
    (represents_run shardId parentId bucketName ops).1.keysNodup
  have hlookup (bucket key : CString) : metaShardLookup T bucket key =
      (metaShardLookup S bucket key).map (·.serialized) :=
    metaShardLookup_metaCheckpointRead store hnodup hfits sequence blobId targetId targetParentId
      targetBucketName bucket key
  have hmem (bucket key : CString) (m : ObjectManifest) :
      metaShardLookup S bucket key = some m ↔ m ∈ S.contents ∧ m.name = (bucket, key) := by
    rw [metaShardLookup_eq, lookupKey_eq_some_iff hnodup]
  constructor
  · intro h m hm
    obtain ⟨m', hm', hkeeps⟩ := h _ _ m ((hmem _ _ m).mpr ⟨hm, rfl⟩)
    rw [hlookup, (hmem _ _ m).mpr ⟨hm, rfl⟩] at hm'
    obtain rfl : m.serialized = m' := Option.some.inj hm'
    exact (serialized_keeps_fragments_iff m).mp hkeeps
  · intro h bucket key m hm
    refine ⟨m.serialized, by rw [hlookup, hm]; rfl, ?_⟩
    exact (serialized_keeps_fragments_iff m).mpr (h m ((hmem bucket key m).mp hm).1)

theorem checkpoint_keeps_fragments_iff_one_object :
    let S := shardMachine.run (metaShardCreate 1 0 none) [.insert (storedObject 97 10 none)]
    checkpointSize S ≤ checkpointBufferSize ∧
    ∃ m', metaShardLookup (metaCheckpointRead .success (metaCheckpointWrite .initial S 5).store
      (metaShardCreate 2 0 none) 1).shard (.ofMemory [98]) (.ofMemory [97]) = some m' ∧
      m'.fragmentCount = 0 ∧ m'.locations = [] :=
  ⟨by decide, (checkpoint_keeps_fragments_iff 1 0 2 0 none none
    [.insert (storedObject 97 10 none)] .initial 5 1 (by decide)).mpr (by decide)
    (.ofMemory [98]) (.ofMemory [97]) (storedObject 97 10 none) (by decide)⟩

/-- An object with one fragment comes back from a checkpoint without it. -/
theorem checkpoint_loses_fragment :
    let S := shardMachine.run (metaShardCreate 1 0 none)
      [.insert (storedObject 97 10 (some ⟨4, 512, 10, 7⟩))]
    checkpointSize S ≤ checkpointBufferSize ∧
    (metaShardLookup S (.ofMemory [98]) (.ofMemory [97])).map
      (fun m => (m.fragmentCount, m.locations)) = some (1, [⟨4, 512, 10, 7⟩]) ∧
    (metaShardLookup (metaCheckpointRead .success (metaCheckpointWrite .initial S 5).store
      (metaShardCreate 2 0 none) 1).shard (.ofMemory [98]) (.ofMemory [97])).map
      (fun m => (m.fragmentCount, m.locations)) = some (0, []) := by
  intro S
  have hfits : checkpointSize S ≤ checkpointBufferSize := by decide
  refine ⟨hfits, by decide, ?_⟩
  rw [metaCheckpointRead_write _ hfits]
  decide

/-! ### Checkpoint ids -/

/-- A call of `meta_checkpoint_write`: the calls that made the shard, and the sequence. -/
structure CheckpointCall where
  shardId : UInt32
  parentId : UInt32
  bucketName : Option CString
  ops : List ShardOp
  sequence : UInt64

/-- The shard that a call writes. -/
def CheckpointCall.shard (call : CheckpointCall) : MetaShard :=
  shardMachine.run (metaShardCreate call.shardId call.parentId call.bucketName) call.ops

/-- The static variables under calls of `meta_checkpoint_write`, which return checkpoint ids. -/
def checkpointMachine : Machine CheckpointStore CheckpointCall UInt64 where
  step store call :=
    let written := metaCheckpointWrite store call.shard call.sequence
    (written.store, written.blobId)

/-- Whatever the id, reading loads the last checkpoint that was written. -/
theorem metaCheckpointRead_run (store : CheckpointStore) (calls : List CheckpointCall)
    (last : CheckpointCall) (hfits : checkpointSize last.shard ≤ checkpointBufferSize)
    (target : MetaShard) (blobId : UInt64) :
    metaCheckpointRead .success (checkpointMachine.run store (calls ++ [last])) target blobId =
      { shard := shardMachine.run target ((last.shard.contents.map (·.serialized)).map .insert)
        cursor := checkpointSize last.shard
        status := 0 } := by
  rw [Machine.run_append]
  exact metaCheckpointRead_write _ hfits _ target blobId

/-- **The id of a checkpoint is not used.** For checkpoints that fit the buffer: whenever a read
with the id that a call returned, into any shard, succeeds, it overlays that shard by the records
the call wrote, if and only if the last call before the read wrote the same records. -/
theorem checkpoint_read_by_id_iff (before : List CheckpointCall) (call : CheckpointCall)
    (later : List CheckpointCall)
    (hfits : ∀ c ∈ before ++ call :: later, checkpointSize c.shard ≤ checkpointBufferSize) :
    let id := (checkpointMachine.step (checkpointMachine.run .initial before) call).2
    let store := checkpointMachine.run .initial (before ++ call :: later)
    let last := (call :: later).getLast (List.cons_ne_nil call later)
    (∀ (targetId parentId : UInt32) (bucketName : Option CString) (ops : List ShardOp),
      let T := shardMachine.run (metaShardCreate targetId parentId bucketName) ops
      let read := metaCheckpointRead .success store T id
      read.status = 0 → read.shard.contents =
        overlay ObjectManifest.name T.contents (call.shard.contents.map (·.serialized))) ↔
      last.shard.contents.map (·.serialized) = call.shard.contents.map (·.serialized) := by
  intro id store last
  have hnodup (c : CheckpointCall) :
      KeysNodup ObjectManifest.name (c.shard.contents.map (·.serialized)) :=
    keysNodup_map_serialized (represents_run c.shardId c.parentId c.bucketName c.ops).1.keysNodup
  have hcalls : before ++ call :: later = (before ++ (call :: later).dropLast) ++ [last] := by
    rw [List.append_assoc, List.dropLast_append_getLast]
  have hread (T : MetaShard) : metaCheckpointRead .success store T id =
      { shard := shardMachine.run T ((last.shard.contents.map (·.serialized)).map .insert)
        cursor := checkpointSize last.shard
        status := 0 } := by
    have hlast : last ∈ before ++ call :: later :=
      List.mem_append_right before (List.getLast_mem _)
    rw [← metaCheckpointRead_run .initial _ last (hfits last hlast), ← hcalls]
  constructor
  · intro h
    -- A fresh shard ends up with nothing but the records read.
    have hfresh := h 0 0 none [] (congrArg (·.status) (hread _))
    rw [hread, contents_run_inserts, Machine.run_nil, contents_metaShardCreate] at hfresh
    simpa [overlay_eq keysNodup_nil (hnodup _)] using hfresh
  · intro hsame targetId parentId bucketName ops T read _
    have hcontents : read.shard.contents =
        overlay ObjectManifest.name T.contents (last.shard.contents.map (·.serialized)) := by
      rw [← contents_run_inserts]
      exact congrArg (·.shard.contents) (hread T)
    rw [hcontents, hsame]

/-- A call that writes a shard with one object. -/
def oneObjectCheckpoint (shardId : UInt32) (key : UInt8) : CheckpointCall where
  shardId := shardId
  parentId := 0
  bucketName := none
  ops := [.insert (storedObject key 10 none)]
  sequence := 5

/-- A shard is written twice, another one before. -/
theorem checkpoint_read_by_id_iff_written_twice :
    (metaCheckpointRead .success (checkpointMachine.run .initial
      [oneObjectCheckpoint 1 97, oneObjectCheckpoint 2 99, oneObjectCheckpoint 2 99])
      (metaShardCreate 3 0 none) 2).shard.contents =
        overlay ObjectManifest.name [] [(storedObject 99 10 none).serialized] :=
  (checkpoint_read_by_id_iff [oneObjectCheckpoint 1 97] (oneObjectCheckpoint 2 99)
    [oneObjectCheckpoint 2 99] (by decide)).mpr rfl 3 0 none [] (by
      exact congrArg (·.status) (metaCheckpointRead_run .initial
        [oneObjectCheckpoint 1 97, oneObjectCheckpoint 2 99] (oneObjectCheckpoint 2 99)
        (by decide) _ _))

/-- Shard 1 is written and returns id 1, then shard 2 is written. Reading id 1 succeeds and loads
the object of shard 2. -/
theorem checkpoint_read_loads_other_shard :
    let first := oneObjectCheckpoint 1 97
    let second := oneObjectCheckpoint 2 99
    let read := metaCheckpointRead .success (checkpointMachine.run .initial [first, second])
      (metaShardCreate 3 0 none) 1
    (checkpointMachine.step .initial first).2 = 1 ∧
    first.shard.contents.map (·.name) = [(.ofMemory [98], .ofMemory [97])] ∧
    read.status = 0 ∧
    read.shard.contents.map (·.name) = [(.ofMemory [98], .ofMemory [99])] := by
  intro first second read
  have hread := metaCheckpointRead_run .initial [first] second (by decide)
    (metaShardCreate 3 0 none) 1
  refine ⟨by decide, by decide, congrArg (·.status) hread, ?_⟩
  have hcontents := congrArg (·.shard.contents.map (·.name)) hread
  exact hcontents.trans (by decide)

/-! ### The end of the buffer -/

/-- The `int` that `meta_checkpoint_write` returns. -/
def CheckpointWritten.returned (written : CheckpointWritten) : ℤ :=
  (written.totalLength : ℤ).bmod (2 ^ 32)

theorem CheckpointWritten.returned_of_lt {written : CheckpointWritten}
    (h : written.totalLength < 2 ^ 31) : written.returned = written.totalLength :=
  Int.bmod_eq_of_le (by omega) (by omega)

/-- The buffer reaches at least to the end of what was written. -/
theorem checkpointSize_le_length_buffer (store : CheckpointStore) (shard : MetaShard)
    (sequence : UInt64) :
    checkpointSize shard ≤ (metaCheckpointWrite store shard sequence).store.buffer.length := by
  rw [(metaCheckpointWrite_eq store shard sequence).1, ← length_checkpointBytes shard sequence,
    ← Nat.zero_add (checkpointBytes ..).length]
  exact le_length_overwrite (Nat.zero_le _) _

/-- A checkpoint that does not fit is written past the end of the buffer, and its length is
returned. -/
theorem metaCheckpointWrite_of_large (store : CheckpointStore) {shard : MetaShard}
    (hlarge : checkpointBufferSize < checkpointSize shard) (hlt : checkpointSize shard < 2 ^ 31)
    (sequence : UInt64) :
    checkpointBufferSize < (metaCheckpointWrite store shard sequence).returned ∧
      checkpointBufferSize < (metaCheckpointWrite store shard sequence).store.buffer.length := by
  have hlength := (metaCheckpointWrite_eq store shard sequence).2
  refine ⟨?_, hlarge.trans_le (checkpointSize_le_length_buffer store shard sequence)⟩
  rw [CheckpointWritten.returned_of_lt (hlength.trans_lt hlt), hlength]
  exact Int.ofNat_lt.mpr hlarge

/-- A shard with at least 40330 different objects does not fit: each takes 26 bytes or more. -/
theorem metaCheckpointWrite_numbered {n : ℕ} (hlarge : 40330 ≤ n) (hle : n ≤ 1025 * 256)
    (store : CheckpointStore) (sequence : UInt64) :
    let shard := shardMachine.run (metaShardCreate 1 0 none)
      (((List.range n).map numberedManifest).map .insert)
    let written := metaCheckpointWrite store shard sequence
    checkpointBufferSize < written.returned ∧
      checkpointBufferSize < written.store.buffer.length := by
  intro shard written
  have hcontents : shard.contents = (List.range n).map numberedManifest := by
    rw [contents_run_inserts, contents_metaShardCreate,
      overlay_eq keysNodup_nil (nodup_numberedManifest hle)]
    simp
  have hcount : shard.entryCount = n := by
    rw [← length_slots shard.entries shard.entryCount, ← MetaShard.contents, hcontents,
      List.length_map, List.length_range]
  obtain ⟨hlower, hupper⟩ := checkpointSize_bounds shard
  rw [hcount] at hlower hupper
  exact metaCheckpointWrite_of_large store
    (lt_of_lt_of_le (by unfold checkpointBufferSize; omega) hlower) (by omega) sequence

/-- **The writer stays inside its buffer** — it returns a negative status and the buffer keeps its
size, or it returns at most the size of the buffer and every byte from there on is as before — if
and only if the header, the names and the fixed fields of all entries fit the buffer. -/
theorem metaCheckpointWrite_inside_iff (store : CheckpointStore)
    (hstore : store.buffer.length = checkpointBufferSize) (shard : MetaShard)
    (sequence : UInt64) :
    let written := metaCheckpointWrite store shard sequence
    ((written.returned < 0 ∧ written.store.buffer.length ≤ checkpointBufferSize) ∨
      (0 ≤ written.returned ∧ written.returned ≤ checkpointBufferSize ∧
        ∀ p : ℕ, written.returned ≤ p → written.store.buffer[p]? = store.buffer[p]?)) ↔
      checkpointSize shard ≤ checkpointBufferSize := by
  intro written
  obtain ⟨hbuffer, hlength⟩ : written.store.buffer =
      overwrite store.buffer 0 (checkpointBytes shard sequence) ∧
        written.totalLength = checkpointSize shard := metaCheckpointWrite_eq store shard sequence
  have hend : checkpointSize shard ≤ written.store.buffer.length :=
    checkpointSize_le_length_buffer store shard sequence
  constructor
  · rintro (⟨-, hkept⟩ | ⟨-, hreturned, hkept⟩)
    · exact hend.trans hkept
    · -- the first byte behind the buffer is as before, so there is none
      have hnone : written.store.buffer[checkpointBufferSize]? = none :=
        (hkept checkpointBufferSize hreturned).trans (List.getElem?_eq_none hstore.le)
      exact hend.trans (List.getElem?_eq_none_iff.mp hnone)
  · intro hfits
    rw [CheckpointWritten.returned_of_lt (by unfold checkpointBufferSize at hfits; omega), hlength]
    refine .inr ⟨Int.natCast_nonneg _, Int.ofNat_le.mpr hfits, fun p hp => ?_⟩
    rw [hbuffer]
    refine getElem?_overwrite_of_le (Nat.zero_le _) ?_
    rw [Nat.zero_add, length_checkpointBytes]
    exact Int.ofNat_le.mp hp

theorem metaCheckpointWrite_inside_iff_two_objects :
    let written := metaCheckpointWrite .initial (shardMachine.run (metaShardCreate 1 0 none)
      [.insert (storedObject 97 10 none), .insert (storedObject 99 20 none)]) 5
    (written.returned < 0 ∧ written.store.buffer.length ≤ checkpointBufferSize) ∨
      (0 ≤ written.returned ∧ written.returned ≤ checkpointBufferSize ∧
        ∀ p : ℕ, written.returned ≤ p →
          written.store.buffer[p]? = CheckpointStore.initial.buffer[p]?) :=
  (metaCheckpointWrite_inside_iff .initial (List.length_replicate ..) _ 5).mpr (by decide)

/-- 40330 different objects: the writer returns more than the size of the buffer and has written
past its end. -/
theorem metaCheckpointWrite_past_end :
    let shard := shardMachine.run (metaShardCreate 1 0 none)
      (((List.range 40330).map numberedManifest).map .insert)
    let written := metaCheckpointWrite .initial shard 5
    checkpointBufferSize < written.returned ∧
      checkpointBufferSize < written.store.buffer.length :=
  metaCheckpointWrite_numbered le_rfl (by omega) .initial 5

end LightFS.Meta
