import LightFS.Library.Heap
import LightFS.Library.Machine
import LightFS.Meta.Shard

/-!
# The fragment arrays of a shard

The entries of a shard (`src/meta/meta_shard.c`) point to fragment arrays, which the shard allocates
when an entry is inserted and releases when the entry is deleted or the shard destroyed. The records
are modelled here with their pointers, on a heap: `meta_shard_insert` copies the caller's array, and
`meta_shard_lookup` hands out the pointer of the entry. The array of entries and the shard itself
have one owner throughout, and are not on the heap; the array has a length, and an access behind its
end has no result.

Two things go wrong. An insert over an entry that is there does not release the array of the old
one. And of a caller with a pointer and a count of zero the shard keeps the caller's pointer, which
it then releases as its own. In every life of a shard, from its creation over any inserts, lookups
and deletes with any outcome of their allocations to its destruction, these are the only two
(`shard_lifetime`): the behaviour is defined if and only if no such entry is deleted, or left at the
end, and what is not released are the arrays of the entries that were inserted over. The replies are
those of the model without memory. The array of an entry with fragments, handed out by a lookup,
stays as it is until the entry is deleted, also if there is an insert over it
(`looked_up_array_stays`).

## Main definitions

* `ManifestRecord`, `ShardRecord`, and in `InMemory` the functions of the source.
* `ShardCall`, `ShardCall.make`, `lifetime`; `ShardCall.apply`, `callMachine`.
* `slotOf`, `Records`, `Owns`.

## Main results

* `spec_metaShardInsert`, `Owns.make`, `Owns.destroy`.
* `shard_lifetime`, `looked_up_array_stays`.
-/

namespace LightFS.Meta

open Library

/-! ### The code -/

/-- `object_manifest_t`, with the address of the fragment array. -/
structure ManifestRecord where
  bucket : CharArray metaMaxBucketLength
  key : CharArray metaMaxKeyLength
  size : UInt64
  checksum : UInt32
  writeSequence : UInt64
  datacenterId : UInt32
  fragmentCount : UInt32
  fragments : Option ℕ

/-- The record of a manifest whose array is at this address. -/
def ObjectManifest.record (m : ObjectManifest) (fragments : Option ℕ) : ManifestRecord where
  bucket := m.bucket
  key := m.key
  size := m.size
  checksum := m.checksum
  writeSequence := m.writeSequence
  datacenterId := m.datacenterId
  fragmentCount := m.fragmentCount
  fragments := fragments

/-- A zeroed record. -/
def ManifestRecord.zero : ManifestRecord := ObjectManifest.zero.record none

/-- The entries of `struct meta_shard`: the array as it was allocated, the number of slots that are
in use, and the number of slots that the shard takes it to have. -/
structure ShardRecord where
  entries : List ManifestRecord
  entryCount : ℕ
  entryCapacity : ℕ

/-- Programs over fragment arrays. -/
abbrev FragmentM (α : Type) : Type := HeapM (List BlobLocation) α

namespace InMemory

/-- `meta_shard_create`, its allocations succeeding. -/
def metaShardCreate : ShardRecord where
  entries := List.replicate shardDefaultCapacity .zero
  entryCount := 0
  entryCapacity := shardDefaultCapacity

/-- Read a slot of the array of entries. -/
def loadEntry (entries : List ManifestRecord) (i : ℕ) : FragmentM ManifestRecord :=
  match entries[i]? with
  | some entry => pure entry
  | none => fault

/-- Write a slot of the array of entries. -/
def storeEntry (entries : List ManifestRecord) (i : ℕ) (entry : ManifestRecord) :
    FragmentM (List ManifestRecord) :=
  match entries[i]? with
  | some _ => pure (entries.set i entry)
  | none => fault

/-- The test of `find_entry`. -/
def recordMatches (bucket key : CString) (entry : ManifestRecord) : Bool :=
  strcmp entry.bucket.bytes bucket.bytes == .eq && strcmp entry.key.bytes key.bytes == .eq

/-- The loop of `find_entry`, from slot `i` over `n` slots. -/
def findEntryFrom (entries : List ManifestRecord) (bucket key : CString) :
    ℕ → ℕ → FragmentM (Option ℕ)
  | _, 0 => pure none
  | i, n + 1 => do
    let entry ← loadEntry entries i
    if recordMatches bucket key entry then pure (some i)
    else findEntryFrom entries bucket key (i + 1) n

/-- `find_entry`. -/
def findEntry (shard : ShardRecord) (bucket key : CString) : FragmentM (Option ℕ) :=
  findEntryFrom shard.entries bucket key 0 shard.entryCount

/-- The first elements of an array. -/
def readFragments (count : UInt32) (p : ℕ) : FragmentM (List BlobLocation) :=
  load (fun l => if count.toNat ≤ l.length then some (l.take count.toNat) else none) p

/-- `memcpy` to the start of an array, which has to have room. -/
def writeFragments (q : ℕ) (l : List BlobLocation) : FragmentM Unit := do
  let array ← load some q
  if l.length ≤ array.length then store q (l ++ array.drop l.length) else fault

/-- The pointer of the stored record: to a copy of the array, if there is one with elements; null,
if there is no memory for it; else the pointer of the manifest. -/
def copyFragments (succeeds : Bool) (manifest : ManifestRecord) : FragmentM (Option ℕ) :=
  match manifest.fragments with
  | some p =>
    if 0 < manifest.fragmentCount then do
      match ← malloc succeeds (List.replicate manifest.fragmentCount.toNat ⟨0, 0, 0, 0⟩) with
      | some q => do
        let l ← readFragments manifest.fragmentCount p
        writeFragments q l
        pure (some q)
      | none => pure none
    else pure (some p)
  | none => pure none

/-- A manifest is stored in a slot, with an array of its own. -/
def storeRecord (succeeds : Bool) (shard : ShardRecord) (index : ℕ) (manifest : ManifestRecord) :
    FragmentM ShardRecord := do
  let fragments ← copyFragments succeeds manifest
  let entries ← storeEntry shard.entries index { manifest with fragments }
  pure { shard with entries }

/-- The array of entries is reallocated with twice the capacity, if it is full. What is behind the
old entries is not read before it is written. -/
def growIfFull (shard : ShardRecord) : ShardRecord :=
  if shard.entryCapacity ≤ shard.entryCount then
    let newCapacity := shard.entryCapacity * 2
    { shard with
      entries := shard.entries ++ List.replicate (newCapacity - shard.entries.length) .zero
      entryCapacity := newCapacity }
  else shard

/-- `meta_shard_insert`. -/
def metaShardInsert (alloc : AllocOutcome) (shard : ShardRecord) (manifest : ManifestRecord) :
    FragmentM (ShardRecord × ℤ) := do
  match ← findEntry shard manifest.bucket.toCString manifest.key.toCString with
  | some index =>
    let shard ← storeRecord alloc.malloc shard index manifest
    pure (shard, 0)
  | none =>
    if shard.entryCapacity ≤ shard.entryCount ∧ ¬ alloc.realloc then pure (shard, -1)
    else
      let shard := growIfFull shard
      let index := shard.entryCount
      let shard ← storeRecord alloc.malloc { shard with entryCount := index + 1 } index manifest
      pure (shard, 0)

/-- `meta_shard_lookup`. -/
def metaShardLookup (shard : ShardRecord) (bucket key : CString) :
    FragmentM (Option ManifestRecord) := do
  match ← findEntry shard bucket key with
  | none => pure none
  | some index =>
    let entry ← loadEntry shard.entries index
    pure (some entry)

/-- The loop of `meta_shard_delete`, from slot `i` over `n` slots. -/
def shiftEntries (entries : List ManifestRecord) : ℕ → ℕ → FragmentM (List ManifestRecord)
  | _, 0 => pure entries
  | i, n + 1 => do
    let entry ← loadEntry entries (i + 1)
    let entries ← storeEntry entries i entry
    shiftEntries entries (i + 1) n

/-- `meta_shard_delete`. -/
def metaShardDelete (shard : ShardRecord) (bucket key : CString) :
    FragmentM (ShardRecord × ℤ) := do
  match ← findEntry shard bucket key with
  | none => pure (shard, -1)
  | some index =>
    let entry ← loadEntry shard.entries index
    free entry.fragments
    let entries ← shiftEntries shard.entries index (shard.entryCount - 1 - index)
    pure ({ shard with entries, entryCount := shard.entryCount - 1 }, 0)

/-- The loop of `meta_shard_destroy`, from slot `i` over `n` slots. -/
def freeFragments (entries : List ManifestRecord) : ℕ → ℕ → FragmentM Unit
  | _, 0 => pure ()
  | i, n + 1 => do
    let entry ← loadEntry entries i
    free entry.fragments
    freeFragments entries (i + 1) n

/-- `meta_shard_destroy`. -/
def metaShardDestroy (shard : ShardRecord) : FragmentM Unit :=
  freeFragments shard.entries 0 shard.entryCount

end InMemory

/-! ### The life of a shard -/

/-- A call on a shard that has to do with fragment arrays. The other functions of a shard read
names, counts and flags. -/
inductive ShardCall where
  | insert (alloc : AllocOutcome) (manifest : ObjectManifest)
  | lookup (bucket key : CString)
  | delete (bucket key : CString)

/-- What a caller sees: a status, or the record without its address and the elements of its
array. -/
inductive ShardReply where
  | status (rc : ℤ)
  | found (manifest : Option (ManifestRecord × List BlobLocation))

/-- The caller of an insert has an array of its own. -/
def placeFragments (m : ObjectManifest) : FragmentM (Option ℕ) :=
  match m.fragments with
  | some l => malloc true l
  | none => pure none

/-- The caller of a lookup reads the array it is given, if it has elements. -/
def readRecord (r : ManifestRecord) : FragmentM (List BlobLocation) :=
  match r.fragments with
  | some p => if 0 < r.fragmentCount then InMemory.readFragments r.fragmentCount p else pure []
  | none => pure []

/-- A call, with what its caller does: the caller of an insert releases its own array
afterwards. -/
def ShardCall.make (shard : ShardRecord) : ShardCall → FragmentM (ShardRecord × ShardReply)
  | insert alloc manifest => do
    let p ← placeFragments manifest
    let r ← InMemory.metaShardInsert alloc shard (manifest.record p)
    free p
    pure (r.1, .status r.2)
  | lookup bucket key => do
    match ← InMemory.metaShardLookup shard bucket key with
    | none => pure (shard, .found none)
    | some r =>
      let l ← readRecord r
      pure (shard, .found (some ({ r with fragments := none }, l)))
  | delete bucket key => do
    let r ← InMemory.metaShardDelete shard bucket key
    pure (r.1, .status r.2)

/-- Calls one after the other. -/
def makeCalls (shard : ShardRecord) : List ShardCall → FragmentM (ShardRecord × List ShardReply)
  | [] => pure (shard, [])
  | call :: calls => do
    let r ← call.make shard
    let r' ← makeCalls r.1 calls
    pure (r'.1, r.2 :: r'.2)

/-- A shard from its creation to its destruction. -/
def lifetime (calls : List ShardCall) : FragmentM (List ShardReply) := do
  let r ← makeCalls InMemory.metaShardCreate calls
  InMemory.metaShardDestroy r.1
  pure r.2

/-- The call on the model without memory. -/
def ShardCall.apply (shard : MetaShard) : ShardCall → MetaShard × ShardReply
  | insert alloc manifest =>
    let r := metaShardInsert alloc shard manifest
    (r.1, .status r.2)
  | lookup bucket key =>
    (shard, .found ((metaShardLookup shard bucket key).map fun m => (m.record none, m.locations)))
  | delete bucket key =>
    let r := metaShardDelete shard bucket key
    (r.1, .status r.2)

def callMachine : Machine MetaShard ShardCall ShardReply := ⟨ShardCall.apply⟩

/-- The array that an entry has of its own. -/
def ObjectManifest.ownArray (m : ObjectManifest) : List (List BlobLocation) :=
  match m.fragments with
  | some (x :: l) => [x :: l]
  | _ => []

/-- The arrays of the entries that a call inserts over. -/
def ShardCall.replaced (shard : MetaShard) : ShardCall → List (List BlobLocation)
  | insert _ manifest =>
    ((findEntry shard manifest.bucket.toCString manifest.key.toCString).map
      fun i => (shard.entries i).ownArray).getD []
  | _ => []

/-- The arrays of all entries that are inserted over. -/
def replacedArrays (shard : MetaShard) : List ShardCall → List (List BlobLocation)
  | [] => []
  | call :: calls => call.replaced shard ++ replacedArrays (call.apply shard).1 calls

/-- The entry has the pointer of a caller: one to an array without elements. -/
def ObjectManifest.Borrowed (m : ObjectManifest) : Prop := m.fragments = some []

/-- The call deletes no entry with the pointer of a caller. -/
def ShardCall.FreesOwn (shard : MetaShard) : ShardCall → Prop
  | delete bucket key => ∀ m ∈ metaShardLookup shard bucket key, ¬ m.Borrowed
  | _ => True

/-! ### Owners -/

/-- An entry: its pointer and its manifest. -/
abbrev Owner : Type := Option ℕ × ObjectManifest

/-- The block that an entry owns. -/
def Owner.blocks (o : Owner) : List (ℕ × List BlobLocation) :=
  o.1.toList.flatMap fun p => o.2.ownArray.map (p, ·)

/-- The array of a caller. -/
def callerBlocks (p : Option ℕ) (m : ObjectManifest) : List (ℕ × List BlobLocation) :=
  p.toList.flatMap fun p => m.fragments.toList.map (p, ·)

/-- A slot of an array of entries. -/
def slotOf (entries : List ManifestRecord) (i : ℕ) : ManifestRecord := entries.getD i .zero

/-- The records are those of the model without memory, with the pointers of the owners, and all of
them are in the array. -/
structure Records (r : ShardRecord) (shard : MetaShard) (owners : List Owner) : Prop where
  entryCount : r.entryCount = shard.entryCount
  entryCapacity : r.entryCapacity = shard.entryCapacity
  length_entries : r.entries.length = r.entryCapacity
  entryCount_le : r.entryCount ≤ r.entryCapacity
  entryCapacity_pos : 0 < r.entryCapacity
  records : slots (slotOf r.entries) r.entryCount = owners.map fun o => o.2.record o.1
  contents : shard.contents = owners.map Prod.snd

/-- An entry has a pointer if its manifest has an array. -/
def Owner.Points (o : Owner) : Prop := o.1.isSome = o.2.fragments.isSome

/-- The shard owns the arrays of its entries, a pointer that was a caller's is dead, and nothing
else is allocated but the arrays that are lost. -/
structure Owns (h : Heap (List BlobLocation)) (r : ShardRecord) (shard : MetaShard)
    (owners : List Owner) (lost : List (ℕ × List BlobLocation)) : Prop
    extends Records r shard owners where
  points : ∀ o ∈ owners, Owner.Points o
  dead : ∀ o ∈ owners, o.2.Borrowed → ∀ p ∈ o.1, h.Dead p
  holds : h.Holds (owners.flatMap Owner.blocks ++ lost)

theorem ownArray_of_borrowed {m : ObjectManifest} (h : m.Borrowed) : m.ownArray = [] := by
  rw [ObjectManifest.ownArray, show m.fragments = some [] from h]

/-- The arrays of a manifest with elements. -/
theorem ownArray_eq_toList {m : ObjectManifest} (h : ¬ m.Borrowed) :
    m.ownArray = m.fragments.toList := by
  rw [ObjectManifest.Borrowed] at h
  rw [ObjectManifest.ownArray]
  rcases hm : m.fragments with _ | _ | ⟨x, l⟩
  · rfl
  · exact absurd hm h
  · rfl

/-- A manifest with an array is borrowed if and only if its count is zero. -/
theorem borrowed_iff {m : ObjectManifest} :
    m.Borrowed ↔ m.fragments.isSome ∧ ¬ 0 < m.fragmentCount := by
  have hlength := m.fragments_length
  rw [ObjectManifest.Borrowed, UInt32.lt_iff_toNat_lt]
  rcases hm : m.fragments with _ | l
  · simp
  · have hl : l.length = m.fragmentCount.toNat := hlength l hm
    simp [← hl]

/-! ### The array of entries -/

section Array

variable {entries : List ManifestRecord} {i n : ℕ}

theorem loadEntry_eq (h : i < entries.length) :
    InMemory.loadEntry entries i = pure (slotOf entries i) := by
  rw [InMemory.loadEntry, slotOf, List.getElem?_eq_getElem h, List.getD_eq_getElem _ _ h]

theorem storeEntry_eq (h : i < entries.length) (entry : ManifestRecord) :
    InMemory.storeEntry entries i entry = pure (entries.set i entry) := by
  rw [InMemory.storeEntry, List.getElem?_eq_getElem h]

theorem slotOf_set (h : i < entries.length) (entry : ManifestRecord) :
    slotOf (entries.set i entry) = Function.update (slotOf entries) i entry := by
  funext j
  rw [slotOf, Function.update_apply, List.getD_eq_getElem?_getD, List.getElem?_set, if_pos h]
  split_ifs with hj hj' hj'
  · rfl
  · exact absurd hj.symm hj'
  · exact absurd hj'.symm hj
  · exact (List.getD_eq_getElem?_getD ..).symm

/-- A longer array has the same slots. -/
theorem slotOf_append_replicate (k : ℕ) :
    slotOf (entries ++ List.replicate k .zero) = slotOf entries := by
  funext j
  rw [slotOf, slotOf]
  obtain hlt | hge := Nat.lt_or_ge j entries.length
  · rw [List.getD_append _ _ _ _ hlt]
  · rw [List.getD_append_right _ _ _ _ hge, List.getD_eq_default _ _ hge]
    rw [List.getD_eq_getElem?_getD, List.getElem?_getD_replicate_default_eq]

/-- The loop of `find_entry` inside the array. -/
theorem findEntryFrom_eq (bucket key : CString) (h : i + n ≤ entries.length) :
    InMemory.findEntryFrom entries bucket key i n =
      pure (findSlot (InMemory.recordMatches bucket key) (slotOf entries) i n) := by
  induction n generalizing i with
  | zero => rfl
  | succ n ih =>
    rw [InMemory.findEntryFrom, loadEntry_eq (by omega), pure_bind, ih (by omega), findSlot]
    split_ifs <;> rfl

/-- The loop of `meta_shard_delete` inside the array. -/
theorem shiftEntries_eq (h : i + n < entries.length) : ∃ entries',
    InMemory.shiftEntries entries i n = pure entries' ∧ entries'.length = entries.length ∧
      slotOf entries' = shiftDown (slotOf entries) i n := by
  induction n generalizing i entries with
  | zero => exact ⟨entries, rfl, rfl, rfl⟩
  | succ n ih =>
    have hlength : (entries.set i (slotOf entries (i + 1))).length = entries.length :=
      List.length_set
    have hinside : i + 1 + n < (entries.set i (slotOf entries (i + 1))).length := by
      rw [hlength]
      omega
    obtain ⟨entries', hrun, hlength', hslots⟩ := ih hinside
    rw [slotOf_set (by omega)] at hslots
    refine ⟨entries', ?_, hlength'.trans hlength, hslots⟩
    rw [InMemory.shiftEntries, loadEntry_eq (by omega), pure_bind, storeEntry_eq (by omega),
      pure_bind]
    exact hrun

end Array

namespace Records

variable {r : ShardRecord} {shard : MetaShard} {owners : List Owner}

theorem length_owners (h : Records r shard owners) : owners.length = shard.entryCount := by
  have hlength := congrArg List.length h.contents
  rw [MetaShard.contents, length_slots, List.length_map] at hlength
  exact hlength.symm

/-- The slots in use are in the array. -/
theorem inside (h : Records r shard owners) : 0 + r.entryCount ≤ r.entries.length := by
  rw [h.length_entries, Nat.zero_add]
  exact h.entryCount_le

/-- Both searches find the same entry. -/
theorem findEntry_eq (h : Records r shard owners) (bucket key : CString) :
    InMemory.findEntry r bucket key = pure (findEntry shard bucket key) := by
  rw [InMemory.findEntry, findEntryFrom_eq bucket key h.inside, findSlot_eq, h.records, findEntry,
    findSlot_eq, ← MetaShard.contents, h.contents, List.findIdx?_map, List.findIdx?_map]
  rfl

theorem lt_length (h : Records r shard owners) {i : ℕ} (hi : i < shard.entryCount) :
    i < r.entries.length := by
  have hinside := h.inside
  have hcount := h.entryCount
  omega

/-- The entry that is found. -/
theorem exists_owner (h : Records r shard owners) {bucket key : CString} {i : ℕ}
    (hi : findEntry shard bucket key = some i) : ∃ o, owners[i]? = some o ∧
      InMemory.loadEntry r.entries i = pure (o.2.record o.1) ∧ shard.entries i = o.2 ∧
      o.2.name = (bucket, key) := by
  have hlt : i < shard.entryCount := (findSlot_eq_some_iff.mp hi).1
  have howner : i < owners.length := h.length_owners ▸ hlt
  have hslot : slotOf r.entries i = owners[i].2.record owners[i].1 := by
    have hrecord := congrArg (·[i]?) h.records
    simpa [slots, h.entryCount, hlt, howner] using hrecord
  have hentry : shard.entries i = owners[i].2 := by
    have hcontents := congrArg (·[i]?) h.contents
    simpa [MetaShard.contents, slots, hlt, howner] using hcontents
  have hmatch := (findSlot_eq_some_iff.mp hi).2.1
  rw [hentry, entryMatches_eq] at hmatch
  refine ⟨owners[i], List.getElem?_eq_getElem howner, ?_, hentry, of_decide_eq_true hmatch⟩
  rw [loadEntry_eq (h.lt_length hlt), hslot]

/-- Both lookups find the same entry. -/
theorem metaShardLookup_eq (h : Records r shard owners) (bucket key : CString) :
    (metaShardLookup shard bucket key = none ∧
      InMemory.metaShardLookup r bucket key = pure none) ∨
    ∃ o ∈ owners, o.2.name = (bucket, key) ∧ metaShardLookup shard bucket key = some o.2 ∧
      InMemory.metaShardLookup r bucket key = pure (some (o.2.record o.1)) := by
  rw [InMemory.metaShardLookup, metaShardLookup, h.findEntry_eq, pure_bind]
  rcases hi : findEntry shard bucket key with _ | i
  · exact .inl ⟨rfl, rfl⟩
  · obtain ⟨o, ho, hload, hentry, hname⟩ := h.exists_owner hi
    refine .inr ⟨o, List.mem_of_getElem? ho, hname, ?_, ?_⟩
    · rw [Option.map_some, hentry]
    · dsimp only
      rw [hload, pure_bind]

/-- An array that is full is made longer before an insert. -/
theorem growIfFull (h : Records r shard owners) :
    (InMemory.growIfFull r).entryCapacity =
        (if shard.entryCapacity ≤ shard.entryCount then shard.entryCapacity * 2
        else shard.entryCapacity) ∧
      r.entryCount < (InMemory.growIfFull r).entryCapacity ∧
      (InMemory.growIfFull r).entries.length = (InMemory.growIfFull r).entryCapacity ∧
      (InMemory.growIfFull r).entryCount = r.entryCount ∧
      slotOf (InMemory.growIfFull r).entries = slotOf r.entries := by
  have hle := h.entryCount_le
  have hpos := h.entryCapacity_pos
  rw [InMemory.growIfFull, ← h.entryCapacity, ← h.entryCount]
  split_ifs with hfull
  · refine ⟨rfl, by dsimp only; omega, ?_, rfl, slotOf_append_replicate _⟩
    dsimp only
    rw [List.length_append, List.length_replicate, h.length_entries]
    omega
  · exact ⟨rfl, Nat.not_le.mp hfull, h.length_entries, rfl, rfl⟩

/-- The records when another one is stored over one of them. -/
theorem set (h : Records r shard owners) {i : ℕ} (hi : i < owners.length) (q : Option ℕ)
    (m : ObjectManifest) :
    Records { r with entries := r.entries.set i (m.record q) }
      { shard with entries := Function.update shard.entries i m } (owners.set i (q, m)) where
  entryCount := h.entryCount
  entryCapacity := h.entryCapacity
  length_entries := List.length_set.trans h.length_entries
  entryCount_le := h.entryCount_le
  entryCapacity_pos := h.entryCapacity_pos
  records := by
    rw [slotOf_set (h.lt_length (h.length_owners ▸ hi)), List.map_set, ← h.records]
    exact slots_update ..
  contents := by
    rw [List.map_set, ← h.contents]
    exact slots_update ..

/-- The records when another one is stored behind them. -/
theorem append (h : Records r shard owners) {grown : ShardRecord}
    (hgrown : InMemory.growIfFull r = grown) (q : Option ℕ) (m : ObjectManifest) :
    Records { grown with
        entries := grown.entries.set grown.entryCount (m.record q)
        entryCount := grown.entryCount + 1 }
      { shard with
        entryCapacity :=
          if shard.entryCapacity ≤ shard.entryCount then shard.entryCapacity * 2
          else shard.entryCapacity
        entries := Function.update shard.entries shard.entryCount m
        entryCount := shard.entryCount + 1 } (owners ++ [(q, m)]) := by
  obtain ⟨hcapacity, hroom, hlength, hcount, hslot⟩ := h.growIfFull
  rw [hgrown] at hcapacity hroom hlength hcount hslot
  constructor
  case entryCount => exact congrArg (· + 1) (hcount.trans h.entryCount)
  case entryCapacity => exact hcapacity
  case length_entries => exact List.length_set.trans hlength
  case entryCount_le => rwa [hcount]
  case entryCapacity_pos => exact Nat.zero_lt_of_lt hroom
  case records =>
    dsimp only
    rw [slotOf_set (by rwa [hcount, hlength]), hslot, hcount, List.map_append, ← h.records]
    exact slots_update_succ ..
  case contents =>
    rw [List.map_append, ← h.contents]
    exact slots_update_succ ..

/-- The records when those behind one of them are moved to the front. -/
theorem eraseIdx (h : Records r shard owners) {i : ℕ} (hi : i < owners.length) : ∃ entries,
    InMemory.shiftEntries r.entries i (r.entryCount - 1 - i) = pure entries ∧
      Records { r with entries, entryCount := r.entryCount - 1 }
        { shard with
          entries := shiftDown shard.entries i (shard.entryCount - 1 - i)
          entryCount := shard.entryCount - 1 } (owners.eraseIdx i) := by
  have hlive : i < shard.entryCount := h.length_owners ▸ hi
  have hcount := h.entryCount
  have hinside := h.inside
  obtain ⟨entries, hshift, hlength, hslots⟩ :=
    shiftEntries_eq (show i + (r.entryCount - 1 - i) < r.entries.length by omega)
  refine ⟨entries, hshift, congrArg (· - 1) hcount, h.entryCapacity,
    hlength.trans h.length_entries, (Nat.sub_le _ _).trans h.entryCount_le, h.entryCapacity_pos,
    ?_, ?_⟩
  · dsimp only
    rw [← List.eraseIdx_map, ← h.records, hslots]
    exact slots_shiftDown _ (hcount ▸ hlive)
  · rw [← List.eraseIdx_map, ← h.contents]
    exact slots_shiftDown _ hlive

end Records

/-! ### Inserting -/

theorem returns_writeFragments {q : ℕ} {l array : List BlobLocation}
    {more : List (ℕ × List BlobLocation)} (hl : l.length = array.length) :
    Returns ((q, array) :: more) (InMemory.writeFragments q l) () ((q, l) :: more) := by
  refine Returns.bind (returns_load List.mem_cons_self rfl) ?_
  rw [if_pos hl.le, List.drop_of_length_le hl.ge, List.append_nil]
  exact returns_store _ (.refl _)

/-- The pointer of a stored record, and the block it owns. -/
theorem spec_copyFragments (succeeds : Bool) {m : ObjectManifest} {p : Option ℕ}
    (hp : Owner.Points (p, m)) :
    Spec (callerBlocks p m) (InMemory.copyFragments succeeds (m.record p)) fun q owned =>
      owned = Owner.blocks (q, copyManifest succeeds m) ++ callerBlocks p m ∧
        Owner.Points (q, copyManifest succeeds m) ∧
        ((copyManifest succeeds m).Borrowed → q = p) := by
  have hpoints : p.isSome = m.fragments.isSome := hp
  rcases hm : m.fragments with _ | l <;> rw [hm] at hpoints
  · obtain rfl := Option.not_isSome_iff_eq_none.mp (Bool.eq_false_iff.mp hpoints)
    have hcopy : copyManifest succeeds m = m := by simp [copyManifest, hm]
    rw [hcopy]
    exact Spec.pure ⟨rfl, hp, fun _ => rfl⟩
  · obtain ⟨p, rfl⟩ := Option.isSome_iff_exists.mp hpoints
    have hcaller : callerBlocks (some p) m = [(p, l)] := by simp [callerBlocks, hm]
    rw [hcaller]
    by_cases hcount : 0 < m.fragmentCount
    · have hown : ¬ m.Borrowed := fun h => (borrowed_iff.mp h).2 hcount
      have hcode : InMemory.copyFragments succeeds (m.record (some p)) = (do
          match ← malloc succeeds (List.replicate m.fragmentCount.toNat ⟨0, 0, 0, 0⟩) with
          | some q => do
            let l ← InMemory.readFragments m.fragmentCount p
            InMemory.writeFragments q l
            pure (some q)
          | none => pure none) := if_pos hcount
      rw [hcode]
      cases succeeds
      · have hcopy : (copyManifest false m).fragments = none := by simp [copyManifest, hm, hcount]
        refine Returns.bind (returns_malloc_false _) (Spec.pure ⟨rfl, ?_, fun h => ?_⟩)
        · rw [Owner.Points, hcopy]
          rfl
        · exact absurd (hcopy.symm.trans h) (Option.some_ne_none []).symm
      · rw [copyManifest_true]
        have hl : l.length = m.fragmentCount.toNat := m.fragments_length l hm
        refine Spec.bind_malloc fun q => ?_
        refine Returns.bind
          (returns_load (c := l) (List.mem_cons_of_mem _ List.mem_cons_self) ?_) ?_
        · rw [if_pos hl.ge, ← hl, List.take_length]
        · refine Returns.bind (returns_writeFragments (hl.trans List.length_replicate.symm))
            (Spec.pure ⟨?_, ?_, ?_⟩)
          · simp [Owner.blocks, ownArray_eq_toList hown, hm]
          · rw [Owner.Points, hm]
            rfl
          · exact fun h => absurd h hown
    · have hborrowed : m.Borrowed := borrowed_iff.mpr ⟨by rw [hm]; rfl, hcount⟩
      have hcopy : copyManifest succeeds m = m := by simp [copyManifest, hcount]
      have hcode : InMemory.copyFragments succeeds (m.record (some p)) = pure (some p) :=
        if_neg hcount
      rw [hcode, hcopy]
      refine Spec.pure ⟨?_, hp, fun _ => rfl⟩
      simp [Owner.blocks, ownArray_of_borrowed hborrowed]

/-- The record that is stored, and the block it owns. -/
theorem spec_storeRecord (succeeds : Bool) {r : ShardRecord} {i : ℕ} (hi : i < r.entries.length)
    {m : ObjectManifest} {p : Option ℕ} (hp : Owner.Points (p, m)) :
    Spec (callerBlocks p m) (InMemory.storeRecord succeeds r i (m.record p)) fun r' owned => ∃ q,
      r' = { r with entries := r.entries.set i ((copyManifest succeeds m).record q) } ∧
      owned = Owner.blocks (q, copyManifest succeeds m) ++ callerBlocks p m ∧
      Owner.Points (q, copyManifest succeeds m) ∧
      ((copyManifest succeeds m).Borrowed → q = p) := by
  have hrecord : ∀ q, (copyManifest succeeds m).record q = m.record q := fun q => by
    unfold copyManifest
    split_ifs <;> rfl
  refine Spec.bind (spec_copyFragments succeeds hp) ?_
  rintro q _ ⟨rfl, hq, hborrowed⟩
  rw [storeEntry_eq hi, pure_bind]
  exact Spec.pure ⟨q, by rw [hrecord]; rfl, rfl, hq, hborrowed⟩

/-- What a call does to the owners: the array of an entry stays with it, or is lost because of an
insert, or the entry is deleted. -/
structure Made (shard : MetaShard) (call : ShardCall) (owners owners' : List Owner)
    (lost : List (ℕ × List BlobLocation)) : Prop where
  lost_eq : lost.map Prod.snd = call.replaced shard
  kept : ∀ o ∈ owners, o ∈ owners' ∨ o.blocks ⊆ lost ∨
    call = .delete o.2.bucket.toCString o.2.key.toCString

/-- What an insert does: the new entry owns the block that was made. -/
structure Inserted (shard : MetaShard) (call : ShardCall) (p : Option ℕ)
    (owners owners' : List Owner) (made lost : List (ℕ × List BlobLocation)) : Prop
    extends Made shard call owners owners' lost where
  perm : (made ++ owners.flatMap Owner.blocks).Perm (owners'.flatMap Owner.blocks ++ lost)
  owner_cases : ∀ o ∈ owners', o ∈ owners ∨ Owner.Points o ∧ (o.2.Borrowed → o.1 = p)

theorem map_snd_blocks {o : Owner} (ho : Owner.Points o) :
    o.blocks.map Prod.snd = o.2.ownArray := by
  have hpoints : o.1.isSome = o.2.fragments.isSome := ho
  rcases hp : o.1 with _ | p <;> rw [hp] at hpoints
  · have hnone : o.2.fragments = none :=
      Option.not_isSome_iff_eq_none.mp (Bool.eq_false_iff.mp hpoints.symm)
    simp [Owner.blocks, hp, ObjectManifest.ownArray, hnone]
  · simp [Owner.blocks, hp, Function.comp_def]

section Insert

variable {r : ShardRecord} {shard : MetaShard} {owners : List Owner} {m : ObjectManifest}
  {p : Option ℕ}

/-- An insert makes the records that the model without memory has. -/
theorem spec_metaShardInsert (alloc : AllocOutcome) (hr : Records r shard owners)
    (hpoints : ∀ o ∈ owners, o.Points) (hp : Owner.Points (p, m)) :
    Spec (callerBlocks p m) (InMemory.metaShardInsert alloc r (m.record p)) fun result owned =>
      result.2 = (metaShardInsert alloc shard m).2 ∧ ∃ owners' made lost,
        Records result.1 (metaShardInsert alloc shard m).1 owners' ∧
        owned = made ++ callerBlocks p m ∧
        Inserted shard (.insert alloc m) p owners owners' made lost := by
  have hfind : InMemory.findEntry r (m.record p).bucket.toCString (m.record p).key.toCString =
      pure (findEntry shard m.bucket.toCString m.key.toCString) := hr.findEntry_eq _ _
  rw [InMemory.metaShardInsert, hfind, pure_bind, metaShardInsert]
  rcases hi : findEntry shard m.bucket.toCString m.key.toCString with _ | i
  · dsimp only
    rw [hr.entryCapacity, hr.entryCount]
    by_cases hfull : shard.entryCapacity ≤ shard.entryCount ∧ ¬ alloc.realloc
    · rw [if_pos hfull, if_pos hfull]
      refine Spec.pure ⟨rfl, owners, [], [], hr, rfl, ⟨?_, fun o ho => .inl ho⟩, ?_,
        fun o ho => .inl ho⟩
      · simp [ShardCall.replaced, hi]
      · simp
    · rw [if_neg hfull, if_neg hfull]
      obtain ⟨-, hroom, hlength, hcount, -⟩ := hr.growIfFull
      generalize hgrown : InMemory.growIfFull r = grown at hroom hlength hcount ⊢
      have hinside : grown.entryCount < grown.entries.length := by rwa [hcount, hlength]
      refine Spec.bind (spec_storeRecord alloc.malloc
        (r := { grown with entryCount := grown.entryCount + 1 }) hinside hp) ?_
      rintro _ _ ⟨q, rfl, rfl, hq, hborrowed⟩
      refine Spec.pure ⟨rfl, owners ++ [(q, copyManifest alloc.malloc m)], _, [],
        hr.append hgrown q _, rfl, ⟨?_, fun o ho => .inl (List.mem_append_left _ ho)⟩, ?_,
        fun o ho => ?_⟩
      · simp [ShardCall.replaced, hi]
      · rw [List.append_nil]
        exact (perm_flatMap_append_singleton Owner.blocks owners _).symm
      · rcases List.mem_append.mp ho with ho | ho
        · exact .inl ho
        · rw [List.mem_singleton.mp ho]
          exact .inr ⟨hq, hborrowed⟩
  · obtain ⟨o, ho, -, hentry, -⟩ := hr.exists_owner hi
    obtain ⟨hlt, -⟩ := List.getElem?_eq_some_iff.mp ho
    have hinside : i < r.entries.length := hr.lt_length (hr.length_owners ▸ hlt)
    refine Spec.bind (spec_storeRecord alloc.malloc hinside hp) ?_
    rintro _ _ ⟨q, rfl, rfl, hq, hborrowed⟩
    refine Spec.pure ⟨rfl, owners.set i (q, copyManifest alloc.malloc m), _, o.blocks,
      hr.set hlt q _, rfl, ⟨?_, fun o' ho' => ?_⟩, perm_flatMap_set Owner.blocks ho _,
      fun o' ho' => ?_⟩
    · rw [map_snd_blocks (hpoints o (List.mem_of_getElem? ho))]
      simp [ShardCall.replaced, hi, hentry]
    · rcases eq_or_mem_eraseIdx ho ho' with rfl | hrest
      · exact .inr (.inl (List.Subset.refl _))
      · refine .inl ((List.set_perm_cons_eraseIdx hlt _).mem_iff.mpr ?_)
        exact List.mem_cons_of_mem _ hrest
    · rcases List.mem_or_eq_of_mem_set ho' with ho' | rfl
      · exact .inl ho'
      · exact .inr ⟨hq, hborrowed⟩

end Insert

/-! ### Reading and releasing -/

/-- The array of an entry is released with its pointer. -/
theorem returns_free_owner {o : Owner} (hpoints : o.Points) (hown : ¬ o.2.Borrowed) :
    Returns o.blocks (free o.1) () [] := by
  have hsome : o.1.isSome = o.2.fragments.isSome := hpoints
  rw [Owner.blocks, ownArray_eq_toList hown]
  rcases hp : o.1 with _ | p <;> rw [hp] at hsome
  · exact returns_free_none
  · obtain ⟨l, hl⟩ := Option.isSome_iff_exists.mp hsome.symm
    rw [hl]
    exact returns_free (List.Perm.refl _)

/-- The pointer of a caller that is dead cannot be released again. -/
theorem free_borrowed {h : Heap (List BlobLocation)} {o : Owner} (hpoints : o.Points)
    (hborrowed : o.2.Borrowed) (hdead : ∀ p ∈ o.1, h.Dead p) : free o.1 h = none := by
  have hsome : o.1.isSome = o.2.fragments.isSome := hpoints
  rw [show o.2.fragments = some [] from hborrowed] at hsome
  obtain ⟨p, hp⟩ := Option.isSome_iff_exists.mp hsome
  rw [hp]
  exact (hdead p hp).free

/-- The array of a caller is released with its pointer. -/
theorem returns_free_caller {p : Option ℕ} {m : ObjectManifest} (hp : Owner.Points (p, m)) :
    Returns (callerBlocks p m) (free p) () [] := by
  have hsome : p.isSome = m.fragments.isSome := hp
  rcases p with _ | p
  · exact returns_free_none
  · obtain ⟨l, hl⟩ := Option.isSome_iff_exists.mp hsome.symm
    rw [callerBlocks, hl]
    exact returns_free (List.Perm.refl _)

theorem spec_placeFragments (m : ObjectManifest) :
    Spec [] (placeFragments m) fun p owned => owned = callerBlocks p m ∧ Owner.Points (p, m) := by
  rw [placeFragments]
  rcases hm : m.fragments with _ | l
  · exact Spec.pure ⟨rfl, by rw [Owner.Points, hm]; rfl⟩
  · intro h rest hh
    refine ⟨some h.next, _, _, rfl, ⟨rfl, by rw [Owner.Points, hm]; rfl⟩, ?_⟩
    rw [callerBlocks, hm]
    exact hh.malloc l

/-- Reading a record gives the locations of its manifest. -/
theorem returns_readRecord {o : Owner} (hpoints : o.Points) {pre : List (ℕ × List BlobLocation)}
    (hpre : o.blocks ⊆ pre) : Returns pre (readRecord (o.2.record o.1)) o.2.locations pre := by
  have hsome : o.1.isSome = o.2.fragments.isSome := hpoints
  rw [readRecord, ObjectManifest.locations]
  rcases hm : o.2.fragments with _ | l <;> rw [hm] at hsome
  · have hp : o.1 = none := Option.not_isSome_iff_eq_none.mp (Bool.eq_false_iff.mp hsome)
    simp only [ObjectManifest.record, hp]
    exact Spec.pure ⟨rfl, rfl⟩
  · obtain ⟨p, hp⟩ := Option.isSome_iff_exists.mp hsome
    have hl : l.length = o.2.fragmentCount.toNat := o.2.fragments_length l hm
    simp only [ObjectManifest.record, hp]
    by_cases hcount : 0 < o.2.fragmentCount
    · have hown : ¬ o.2.Borrowed := fun h => (borrowed_iff.mp h).2 hcount
      rw [if_pos hcount]
      refine returns_load (b := l) (hpre ?_) ?_
      · simp [Owner.blocks, hp, ownArray_eq_toList hown, hm]
      · rw [if_pos hl.ge, ← hl, List.take_length]
        rfl
    · have hborrowed : o.2.Borrowed := borrowed_iff.mpr ⟨by rw [hm]; rfl, hcount⟩
      obtain rfl : l = [] := Option.some.inj (hm.symm.trans hborrowed)
      rw [if_neg hcount]
      exact Spec.pure ⟨rfl, rfl⟩

theorem keepsDead_findEntryFrom (entries : List ManifestRecord) (bucket key : CString) (i n : ℕ) :
    KeepsDead (InMemory.findEntryFrom entries bucket key i n) := by
  induction n generalizing i with
  | zero => exact .pure _
  | succ n ih =>
    refine KeepsDead.bind ?_ fun entry => ?_
    · unfold InMemory.loadEntry
      split
      · exact .pure _
      · exact .fault
    · split_ifs
      · exact .pure _
      · exact ih (i + 1)

theorem keepsDead_copyFragments (succeeds : Bool) (manifest : ManifestRecord) :
    KeepsDead (InMemory.copyFragments succeeds manifest) := by
  have hwrite : ∀ q l, KeepsDead (InMemory.writeFragments q l) := fun q l => by
    refine (KeepsDead.load _ _).bind fun array => ?_
    split_ifs
    · exact .store _ _
    · exact .fault
  unfold InMemory.copyFragments
  split
  · split_ifs
    · refine (KeepsDead.malloc _ _).bind fun q => ?_
      split
      · exact (KeepsDead.load _ _).bind fun l => (hwrite _ _).bind fun _ => .pure _
      · exact .pure _
    · exact .pure _
  · exact .pure _

/-- No insert brings a dead address back. -/
theorem keepsDead_metaShardInsert (alloc : AllocOutcome) (r : ShardRecord)
    (manifest : ManifestRecord) : KeepsDead (InMemory.metaShardInsert alloc r manifest) := by
  have hstore : ∀ r i, KeepsDead (InMemory.storeRecord alloc.malloc r i manifest) := fun r i => by
    refine (keepsDead_copyFragments _ _).bind fun fragments => KeepsDead.bind ?_ fun _ => .pure _
    unfold InMemory.storeEntry
    split
    · exact .pure _
    · exact .fault
  refine (keepsDead_findEntryFrom _ _ _ _ _).bind fun index => ?_
  split
  · exact (hstore _ _).bind fun _ => .pure _
  · split_ifs
    · exact .pure _
    · exact (hstore _ _).bind fun _ => .pure _

theorem keepsDead_placeFragments (m : ObjectManifest) : KeepsDead (placeFragments m) := by
  unfold placeFragments
  split
  · exact .malloc _ _
  · exact .pure _

theorem keepsDead_readRecord (r : ManifestRecord) : KeepsDead (readRecord r) := by
  unfold readRecord
  split
  · split_ifs
    · exact .load _ _
    · exact .pure _
  · exact .pure _

/-! ### Calls -/

namespace Owns

variable {h : Heap (List BlobLocation)} {r : ShardRecord} {shard : MetaShard} {owners : List Owner}
  {lost : List (ℕ × List BlobLocation)}

theorem create (shardId parentShardId : UInt32) (bucketName : Option CString) :
    Owns .empty InMemory.metaShardCreate (metaShardCreate shardId parentShardId bucketName) []
      [] where
  entryCount := rfl
  entryCapacity := rfl
  length_entries := List.length_replicate
  entryCount_le := Nat.zero_le _
  entryCapacity_pos := by decide
  records := rfl
  contents := rfl
  points := fun _ ho => absurd ho List.not_mem_nil
  dead := fun _ ho => absurd ho List.not_mem_nil
  holds := .empty

/-- The pointer of the caller is dead after an insert. -/
theorem insert (hown : Owns h r shard owners lost) (alloc : AllocOutcome) (m : ObjectManifest) :
    ∃ r' h' owners' lost', (ShardCall.insert alloc m).make r h =
        some ((r', .status (metaShardInsert alloc shard m).2), h') ∧
      Owns h' r' (metaShardInsert alloc shard m).1 owners' (lost' ++ lost) ∧
      Made shard (.insert alloc m) owners owners' lost' := by
  have hh : h.Holds ([] ++ (owners.flatMap Owner.blocks ++ lost)) := hown.holds
  obtain ⟨p, h₁, _, hplace, ⟨rfl, hp⟩, hh₁⟩ := spec_placeFragments m hh
  obtain ⟨⟨r', rc⟩, h₂, _, hinsert, ⟨hrc, owners', made, lost', hr', rfl, hins⟩, hh₂⟩ :=
    spec_metaShardInsert alloc hown.toRecords hown.points hp hh₁
  have hbefore : h₂.Holds (callerBlocks p m ++
      (made ++ (owners.flatMap Owner.blocks ++ lost))) := by
    refine hh₂.of_perm ?_
    rw [← List.append_assoc (callerBlocks p m)]
    exact List.perm_append_comm.append_right _
  obtain ⟨_, h₃, _, hfree, ⟨-, rfl⟩, hh₃⟩ := returns_free_caller hp hbefore
  have hholds : h₃.Holds (owners'.flatMap Owner.blocks ++ (lost' ++ lost)) := by
    refine hh₃.of_perm ?_
    rw [List.nil_append, ← List.append_assoc, ← List.append_assoc]
    exact hins.perm.append_right _
  have hcaller : ∀ q ∈ p, h₃.Dead q := by
    rintro q rfl
    have hsome : (some q).isSome = m.fragments.isSome := hp
    obtain ⟨l, hl⟩ := Option.isSome_iff_exists.mp hsome.symm
    rw [callerBlocks, hl] at hbefore
    exact hbefore.dead_of_free hfree
  refine ⟨r', h₃, owners', lost', ?_, ⟨hr', fun o ho => ?_, fun o ho hborrowed q hq => ?_, hholds⟩,
    hins.toMade⟩
  · rw [ShardCall.make, run_bind hplace, run_bind hinsert, run_bind hfree, ← hrc]
    rfl
  · rcases hins.owner_cases o ho with ho | ⟨ho, -⟩
    · exact hown.points o ho
    · exact ho
  · rcases hins.owner_cases o ho with ho | ⟨-, ho⟩
    · have hq₁ := keepsDead_placeFragments m hplace q (hown.dead o ho hborrowed q hq)
      exact KeepsDead.free p hfree q (keepsDead_metaShardInsert _ _ _ hinsert q hq₁)
    · exact hcaller q (ho hborrowed ▸ hq)

/-- A lookup leaves the owners alone. -/
theorem lookup (hown : Owns h r shard owners lost) (bucket key : CString) :
    ∃ h', (ShardCall.lookup bucket key).make r h =
        some ((r, ((ShardCall.lookup bucket key).apply shard).2), h') ∧
      Owns h' r shard owners lost := by
  rw [ShardCall.make, ShardCall.apply]
  rcases hown.metaShardLookup_eq bucket key with ⟨hnone, hcode⟩ | ⟨o, hmem, -, hsome, hcode⟩
  · rw [hcode, hnone]
    exact ⟨h, rfl, hown⟩
  · have hblocks : o.blocks ⊆ owners.flatMap Owner.blocks ++ lost := fun b hb =>
      List.mem_append_left _ (List.mem_flatMap.mpr ⟨o, hmem, hb⟩)
    have hholds : h.Holds ((owners.flatMap Owner.blocks ++ lost) ++ []) := by
      rw [List.append_nil]
      exact hown.holds
    obtain ⟨_, h', _, hrun, ⟨rfl, rfl⟩, hh'⟩ :=
      returns_readRecord (hown.points o hmem) hblocks hholds
    rw [List.append_nil] at hh'
    have hdead : ∀ q, h.Dead q → h'.Dead q := keepsDead_readRecord _ hrun
    refine ⟨h', ?_, ⟨hown.toRecords, hown.points,
      fun o ho hborrowed q hq => hdead q (hown.dead o ho hborrowed q hq), hh'⟩⟩
    rw [hcode, hsome, pure_bind]
    dsimp only
    rw [run_bind hrun]
    rfl

/-- A delete releases the array of its entry. -/
theorem delete (hown : Owns h r shard owners lost) (bucket key : CString)
    (hfrees : (ShardCall.delete bucket key).FreesOwn shard) :
    ∃ r' h' owners', (ShardCall.delete bucket key).make r h =
        some ((r', .status (metaShardDelete shard bucket key).2), h') ∧
      Owns h' r' (metaShardDelete shard bucket key).1 owners' lost ∧
      Made shard (.delete bucket key) owners owners' [] := by
  rw [ShardCall.make, InMemory.metaShardDelete, metaShardDelete, hown.findEntry_eq, pure_bind]
  rcases hi : findEntry shard bucket key with _ | i
  · exact ⟨r, h, owners, rfl, hown, rfl, fun o ho => .inl ho⟩
  · obtain ⟨o, ho, hload, hentry, hname⟩ := hown.exists_owner hi
    obtain ⟨hlt, -⟩ := List.getElem?_eq_some_iff.mp ho
    have hmem : o ∈ owners := List.mem_of_getElem? ho
    have hlookup : metaShardLookup shard bucket key = some o.2 := by
      rw [metaShardLookup, hi, Option.map_some, hentry]
    have hbefore : h.Holds (o.blocks ++ ((owners.eraseIdx i).flatMap Owner.blocks ++ lost)) := by
      refine hown.holds.of_perm ?_
      rw [← List.append_assoc]
      exact (perm_flatMap_eraseIdx Owner.blocks ho).append_right _
    obtain ⟨_, h', _, hfree, ⟨-, rfl⟩, hh'⟩ :=
      returns_free_owner (hown.points o hmem) (hfrees o.2 hlookup) hbefore
    obtain ⟨entries, hshift, hrecords⟩ := hown.eraseIdx hlt
    refine ⟨{ r with entries, entryCount := r.entryCount - 1 }, h', owners.eraseIdx i, ?_,
      ⟨hrecords, fun o' ho' => ?_, fun o' ho' hborrowed q hq => ?_, hh'⟩, rfl, fun o' ho' => ?_⟩
    · dsimp only
      rw [hload, pure_bind, hshift]
      exact (run_bind ((run_bind hfree _).trans rfl) _).trans rfl
    · exact hown.points o' (List.mem_of_mem_eraseIdx ho')
    · exact KeepsDead.free _ hfree q
        (hown.dead o' (List.mem_of_mem_eraseIdx ho') hborrowed q hq)
    · rcases eq_or_mem_eraseIdx ho ho' with rfl | hrest
      · obtain ⟨rfl, rfl⟩ := Prod.mk.inj hname
        exact .inr (.inr rfl)
      · exact .inl hrest

/-- A call that releases no pointer of a caller answers like the model without memory, and keeps the
account of the arrays. -/
theorem make (hown : Owns h r shard owners lost) {call : ShardCall} (hfrees : call.FreesOwn shard) :
    ∃ r' h' owners' lost', call.make r h = some ((r', (call.apply shard).2), h') ∧
      Owns h' r' (call.apply shard).1 owners' (lost' ++ lost) ∧
      Made shard call owners owners' lost' := by
  rcases call with ⟨alloc, m⟩ | ⟨bucket, key⟩ | ⟨bucket, key⟩
  · exact hown.insert alloc m
  · obtain ⟨h', hrun, hown'⟩ := hown.lookup bucket key
    exact ⟨r, h', owners, [], hrun, hown', rfl, fun o ho => .inl ho⟩
  · obtain ⟨r', h', owners', hrun, hown', hmade⟩ := hown.delete bucket key hfrees
    exact ⟨r', h', owners', [], hrun, hown', hmade⟩

/-- A call that releases a pointer of a caller has no result. -/
theorem make_eq_none (hown : Owns h r shard owners lost) {call : ShardCall}
    (hfrees : ¬ call.FreesOwn shard) : call.make r h = none := by
  rcases call with ⟨alloc, m⟩ | ⟨bucket, key⟩ | ⟨bucket, key⟩
  · exact absurd trivial hfrees
  · exact absurd trivial hfrees
  · simp only [ShardCall.FreesOwn, not_forall, not_not] at hfrees
    obtain ⟨m, hm, hborrowed⟩ := hfrees
    rw [metaShardLookup] at hm
    rcases hi : findEntry shard bucket key with _ | i <;> rw [hi] at hm
    · cases hm
    · obtain ⟨o, ho, hload, hentry, -⟩ := hown.exists_owner hi
      obtain rfl : o.2 = m := hentry.symm.trans (Option.some.inj hm)
      rw [ShardCall.make, InMemory.metaShardDelete, hown.findEntry_eq, hi, pure_bind]
      dsimp only
      rw [hload, pure_bind]
      refine run_bind_none (run_bind_none ?_ _) _
      have hmem := List.mem_of_getElem? ho
      exact free_borrowed (hown.points o hmem) hborrowed (hown.dead o hmem hborrowed)

/-- Calls one after the other. -/
theorem makeCalls (hown : Owns h r shard owners lost) {calls : List ShardCall}
    (hmeets : callMachine.Meets ShardCall.FreesOwn shard calls) : ∃ r' h' owners' lost',
      Meta.makeCalls r calls h = some ((r', callMachine.results shard calls), h') ∧
      Owns h' r' (callMachine.run shard calls) owners' (lost' ++ lost) ∧
      (lost'.map Prod.snd).Perm (replacedArrays shard calls) := by
  induction calls generalizing h r shard owners lost with
  | nil => exact ⟨r, h, owners, [], rfl, hown, .nil⟩
  | cons call calls ih =>
    obtain ⟨r₁, h₁, owners₁, lost₁, hrun₁, hown₁, hmade⟩ := hown.make hmeets.1
    obtain ⟨r₂, h₂, owners₂, lost₂, hrun₂, hown₂, hlost⟩ := ih hown₁ hmeets.2
    refine ⟨r₂, h₂, owners₂, lost₂ ++ lost₁, ?_, ?_, ?_⟩
    · rw [Meta.makeCalls, run_bind hrun₁, run_bind hrun₂]
      rfl
    · rw [List.append_assoc]
      exact hown₂
    · rw [List.map_append, hmade.lost_eq]
      exact (hlost.append_right _).trans List.perm_append_comm

theorem makeCalls_eq_none (hown : Owns h r shard owners lost) {calls : List ShardCall}
    (hmeets : ¬ callMachine.Meets ShardCall.FreesOwn shard calls) :
    Meta.makeCalls r calls h = none := by
  induction calls generalizing h r shard owners lost with
  | nil => exact absurd trivial hmeets
  | cons call calls ih =>
    rw [Meta.makeCalls]
    by_cases hfrees : call.FreesOwn shard
    · obtain ⟨r₁, h₁, owners₁, lost₁, hrun₁, hown₁, -⟩ := hown.make hfrees
      rw [run_bind hrun₁]
      exact run_bind_none (ih hown₁ fun hrest => hmeets ⟨hfrees, hrest⟩) _
    · exact run_bind_none (hown.make_eq_none hfrees) _

/-- Calls that have a result are those that release no pointer of a caller. -/
theorem meets_of_makeCalls (hown : Owns h r shard owners lost) {calls : List ShardCall}
    {result : (ShardRecord × List ShardReply) × Heap (List BlobLocation)}
    (hrun : Meta.makeCalls r calls h = some result) :
    callMachine.Meets ShardCall.FreesOwn shard calls := by
  by_contra hmeets
  rw [hown.makeCalls_eq_none hmeets] at hrun
  cases hrun

end Owns

/-! ### The destruction -/

section Destroy

variable {entries : List ManifestRecord} {owners : List Owner} {i n : ℕ}

/-- The entries from `i` on are those of the owners. -/
theorem exists_owners_of_slots (hslots : slots (fun j => slotOf entries (i + j)) (n + 1) =
      owners.map fun o => o.2.record o.1) : ∃ o rest, owners = o :: rest ∧
    slotOf entries i = o.2.record o.1 ∧
    slots (fun j => slotOf entries (i + 1 + j)) n = rest.map fun o => o.2.record o.1 := by
  rw [slots_offset_succ] at hslots
  obtain ⟨o, rest, rfl, ho, hrest⟩ := List.map_eq_cons_iff.mp hslots.symm
  exact ⟨o, rest, rfl, ho.symm, hrest.symm⟩

/-- The loop releases the arrays of all entries. -/
theorem returns_freeFragments (hinside : i + n ≤ entries.length)
    (hslots : slots (fun j => slotOf entries (i + j)) n = owners.map fun o => o.2.record o.1)
    (hpoints : ∀ o ∈ owners, o.Points) (hown : ∀ o ∈ owners, ¬ o.2.Borrowed) :
    Returns (owners.flatMap Owner.blocks) (InMemory.freeFragments entries i n) () [] := by
  induction n generalizing i owners with
  | zero =>
    obtain rfl : owners = [] := List.map_eq_nil_iff.mp hslots.symm
    exact Spec.pure ⟨rfl, rfl⟩
  | succ n ih =>
    obtain ⟨o, rest, rfl, ho, hrest⟩ := exists_owners_of_slots hslots
    have hfree := returns_free_owner (hpoints o List.mem_cons_self) (hown o List.mem_cons_self)
    rw [InMemory.freeFragments, loadEntry_eq (by omega), pure_bind, ho, List.flatMap_cons]
    refine Returns.bind (hfree.frame _) ?_
    exact ih (by omega) hrest (fun o ho => hpoints o (List.mem_cons_of_mem _ ho))
      fun o ho => hown o (List.mem_cons_of_mem _ ho)

/-- The loop has no result if it comes to a pointer of a caller. -/
theorem freeFragments_eq_none {h : Heap (List BlobLocation)} {lost : List (ℕ × List BlobLocation)}
    (hinside : i + n ≤ entries.length)
    (hslots : slots (fun j => slotOf entries (i + j)) n = owners.map fun o => o.2.record o.1)
    (hpoints : ∀ o ∈ owners, o.Points)
    (hdead : ∀ o ∈ owners, o.2.Borrowed → ∀ p ∈ o.1, h.Dead p)
    (hholds : h.Holds (owners.flatMap Owner.blocks ++ lost))
    (hborrowed : ∃ o ∈ owners, o.2.Borrowed) :
    InMemory.freeFragments entries i n h = none := by
  induction n generalizing i owners h with
  | zero =>
    obtain rfl : owners = [] := List.map_eq_nil_iff.mp hslots.symm
    obtain ⟨o, ho, -⟩ := hborrowed
    exact absurd ho List.not_mem_nil
  | succ n ih =>
    obtain ⟨o, rest, rfl, ho, hrest⟩ := exists_owners_of_slots hslots
    have hpoints' := hpoints o List.mem_cons_self
    rw [InMemory.freeFragments, loadEntry_eq (by omega), pure_bind, ho]
    by_cases hfirst : o.2.Borrowed
    · exact run_bind_none (free_borrowed hpoints' hfirst (hdead o List.mem_cons_self hfirst)) _
    · rw [List.flatMap_cons, List.append_assoc] at hholds
      obtain ⟨_, h', _, hfree, ⟨-, rfl⟩, hholds'⟩ := returns_free_owner hpoints' hfirst hholds
      refine (run_bind hfree _).trans (ih (by omega) hrest
        (fun o ho => hpoints o (List.mem_cons_of_mem _ ho)) (fun o ho hb p hp => ?_) hholds' ?_)
      · exact KeepsDead.free _ hfree p (hdead o (List.mem_cons_of_mem _ ho) hb p hp)
      · obtain ⟨o', ho', hb⟩ := hborrowed
        rcases List.mem_cons.mp ho' with rfl | ho'
        · exact absurd hb hfirst
        · exact ⟨o', ho', hb⟩

end Destroy

namespace Owns

variable {h : Heap (List BlobLocation)} {r : ShardRecord} {shard : MetaShard} {owners : List Owner}
  {lost : List (ℕ × List BlobLocation)}

/-- The arrays that are lost are all that is left. -/
theorem destroy (hown : Owns h r shard owners lost) (hall : ∀ m ∈ shard.contents, ¬ m.Borrowed) :
    ∃ h', InMemory.metaShardDestroy r h = some ((), h') ∧ h'.Holds lost := by
  rw [hown.contents, List.forall_mem_map] at hall
  obtain ⟨_, h', _, hrun, ⟨-, rfl⟩, hholds⟩ :=
    returns_freeFragments (i := 0) hown.inside (by simpa using hown.records) hown.points hall
      hown.holds
  exact ⟨h', hrun, hholds⟩

theorem destroy_eq_none (hown : Owns h r shard owners lost)
    (hborrowed : ¬ ∀ m ∈ shard.contents, ¬ m.Borrowed) : InMemory.metaShardDestroy r h = none := by
  rw [hown.contents, List.forall_mem_map] at hborrowed
  push Not at hborrowed
  exact freeFragments_eq_none hown.inside (by simpa using hown.records) hown.points hown.dead
    hown.holds hborrowed

end Owns

/-- **The memory of a shard.** For all inserts, lookups and deletes on a shard from its creation to
its destruction, and all outcomes of the allocations of the inserts: the behaviour is defined if and
only if no entry with the pointer of a caller is deleted or there at the end. If it is, the replies
are those of the model without memory, and the arrays that are never released are those of the
entries that were inserted over. -/
theorem shard_lifetime (shardId parentShardId : UInt32) (bucketName : Option CString)
    (calls : List ShardCall) :
    let shard := metaShardCreate shardId parentShardId bucketName
    let releasesOwn := callMachine.Meets ShardCall.FreesOwn shard calls ∧
      ∀ m ∈ (callMachine.run shard calls).contents, ¬ m.Borrowed
    match lifetime calls .empty with
    | none => ¬ releasesOwn
    | some (replies, h) => releasesOwn ∧ replies = callMachine.results shard calls ∧
      ∃ lost, h.Holds lost ∧ (lost.map Prod.snd).Perm (replacedArrays shard calls) := by
  intro shard releasesOwn
  have hcreate := Owns.create shardId parentShardId bucketName
  by_cases hmeets : callMachine.Meets ShardCall.FreesOwn shard calls
  · obtain ⟨r, h, owners, lost, hrun, hown, hlost⟩ := hcreate.makeCalls hmeets
    rw [List.append_nil] at hown
    rw [lifetime, run_bind hrun]
    by_cases hall : ∀ m ∈ (callMachine.run shard calls).contents, ¬ m.Borrowed
    · obtain ⟨h', hdestroy, hholds⟩ := hown.destroy hall
      rw [run_bind hdestroy]
      exact ⟨⟨hmeets, hall⟩, rfl, lost, hholds, hlost⟩
    · rw [run_bind_none (hown.destroy_eq_none hall)]
      exact fun hown => hall hown.2
  · rw [lifetime, run_bind_none (hcreate.makeCalls_eq_none hmeets)]
    exact fun hown => hmeets hown.1

/-! ### Pointers that were handed out -/

/-- The array is that of the entry with these names, or lost. -/
def Kept (owners : List Owner) (lost : List (ℕ × List BlobLocation)) (bucket key : CString)
    (block : ℕ × List BlobLocation) : Prop :=
  block ∈ lost ∨ ∃ o ∈ owners, o.2.name = (bucket, key) ∧ block ∈ o.blocks

/-- Calls other than the delete of an entry keep its array. -/
theorem Kept.blocks_eq {h : Heap (List BlobLocation)} {r : ShardRecord} {shard : MetaShard}
    {owners : List Owner} {lost : List (ℕ × List BlobLocation)} {bucket key : CString}
    {block : ℕ × List BlobLocation} (hkept : Kept owners lost bucket key block)
    (hown : Owns h r shard owners lost) {calls : List ShardCall}
    (hcalls : ShardCall.delete bucket key ∉ calls)
    {r' : ShardRecord} {replies : List ShardReply} {h' : Heap (List BlobLocation)}
    (hrun : makeCalls r calls h = some ((r', replies), h')) : h'.blocks block.1 = some block.2 := by
  have hmeets := hown.meets_of_makeCalls hrun
  induction calls generalizing h r shard owners lost replies with
  | nil =>
    obtain ⟨-, rfl⟩ := Prod.mk.inj (Option.some.inj hrun)
    refine (hown.holds.blocks_eq_some _ _).mpr ?_
    rcases hkept with hlost | ⟨o, ho, -, hblock⟩
    · exact List.mem_append_right _ hlost
    · exact List.mem_append_left _ (List.mem_flatMap.mpr ⟨o, ho, hblock⟩)
  | cons call calls ih =>
    obtain ⟨r₁, h₁, owners₁, lost₁, hrun₁, hown₁, hmade⟩ := hown.make hmeets.1
    obtain ⟨hcall, hrest⟩ := not_or.mp (List.mem_cons.not.mp hcalls)
    have hkept₁ : Kept owners₁ (lost₁ ++ lost) bucket key block := by
      rcases hkept with hlost | ⟨o, ho, hname, hblock⟩
      · exact .inl (List.mem_append_right _ hlost)
      · rcases hmade.kept o ho with ho | hlost | rfl
        · exact .inr ⟨o, ho, hname, hblock⟩
        · exact .inl (List.mem_append_left _ (hlost hblock))
        · obtain ⟨rfl, rfl⟩ := Prod.mk.inj hname
          exact absurd rfl hcall
    rw [makeCalls, run_bind hrun₁] at hrun
    obtain ⟨⟨⟨r₂, replies₂⟩, h₂⟩, hrun₂, heq⟩ := Option.bind_eq_some_iff.mp hrun
    obtain ⟨hr, rfl⟩ := Prod.mk.inj (Option.some.inj heq)
    obtain ⟨rfl, -⟩ := Prod.mk.inj hr
    exact ih hkept₁ hown₁ hrest hrun₂ hmeets.2

/-- **An array that was handed out.** After any inserts, lookups and deletes on a new shard, a
lookup that finds an entry with a pointer and a positive count gives out the address of an array
that is allocated and has so many elements. Whatever such calls follow, as long as the entry is not
deleted, the array at this address stays as it is, also if there are inserts over the entry. -/
theorem looked_up_array_stays {calls later : List ShardCall} {bucket key : CString}
    {r r' : ShardRecord} {replies replies' : List ShardReply} {h h₁ h' : Heap (List BlobLocation)}
    (hrun : makeCalls InMemory.metaShardCreate calls .empty = some ((r, replies), h))
    {manifest : ManifestRecord}
    (hlookup : InMemory.metaShardLookup r bucket key h = some (some manifest, h₁))
    {p : ℕ} (hp : manifest.fragments = some p) (hcount : 0 < manifest.fragmentCount)
    (hlater : ShardCall.delete bucket key ∉ later)
    (hrun' : makeCalls r later h₁ = some ((r', replies'), h')) :
    ∃ l, l.length = manifest.fragmentCount.toNat ∧ h₁.blocks p = some l ∧ h'.blocks p = some l := by
  have hcreate := Owns.create 0 0 none
  obtain ⟨_, _, owners, lost, hrun₁, hown, -⟩ :=
    hcreate.makeCalls (hcreate.meets_of_makeCalls hrun)
  obtain ⟨hr, rfl⟩ := Prod.mk.inj (Option.some.inj (hrun.symm.trans hrun₁))
  obtain ⟨rfl, -⟩ := Prod.mk.inj hr
  rcases hown.metaShardLookup_eq bucket key with ⟨-, hcode⟩ | ⟨o, hmem, hname, -, hcode⟩
  · rw [hcode] at hlookup
    cases (Prod.mk.inj (Option.some.inj hlookup)).1
  rw [hcode] at hlookup
  obtain ⟨hmanifest, rfl⟩ := Prod.mk.inj (Option.some.inj hlookup)
  obtain rfl := Option.some.inj hmanifest
  -- an entry with a positive count has an array of its own
  have hpointer : o.1 = some p := hp
  have hown' : ¬ o.2.Borrowed := fun hborrowed => (borrowed_iff.mp hborrowed).2 hcount
  have hsome : o.1.isSome = o.2.fragments.isSome := hown.points o hmem
  rw [hpointer] at hsome
  obtain ⟨l, hl⟩ := Option.isSome_iff_exists.mp hsome.symm
  have hblock : (p, l) ∈ o.blocks := by
    simp [Owner.blocks, hpointer, ownArray_eq_toList hown', hl]
  have hkept : Kept owners (lost ++ []) bucket key (p, l) := .inr ⟨o, hmem, hname, hblock⟩
  refine ⟨l, o.2.fragments_length l hl, ?_, hkept.blocks_eq hown hlater hrun'⟩
  exact (hown.holds.blocks_eq_some _ _).mpr
    (List.mem_append_left _ (List.mem_flatMap.mpr ⟨o, hmem, hblock⟩))

/-- An entry with one fragment is looked up, and there is an insert over it. -/
theorem looked_up_array_stays_inserted_over : ∃ r r' replies replies' h h' manifest,
    makeCalls InMemory.metaShardCreate [.insert .success oneFragment] .empty =
        some ((r, replies), h) ∧
      InMemory.metaShardLookup r oneFragment.bucket.toCString oneFragment.key.toCString h =
        some (some manifest, h) ∧
      manifest.fragments = some 1 ∧ 0 < manifest.fragmentCount ∧
      makeCalls r [.insert .success oneFragment] h = some ((r', replies'), h') ∧
      h'.blocks 1 = some oneFragment.locations := by
  obtain ⟨r, r', replies, replies', h, h', manifest, hrun, hlookup, hp, hcount, hl, hrun'⟩ :
      ∃ r r' replies replies' h h' manifest,
        makeCalls InMemory.metaShardCreate [.insert .success oneFragment] .empty =
          some ((r, replies), h) ∧
        InMemory.metaShardLookup r oneFragment.bucket.toCString oneFragment.key.toCString h =
          some (some manifest, h) ∧
        manifest.fragments = some 1 ∧ manifest.fragmentCount = 1 ∧
        h.blocks 1 = some oneFragment.locations ∧
        makeCalls r [.insert .success oneFragment] h = some ((r', replies'), h') :=
    ⟨_, _, _, _, _, _, _, rfl, rfl, rfl, rfl, rfl, rfl⟩
  have hpos : 0 < manifest.fragmentCount := by
    rw [hcount]
    decide
  obtain ⟨l, -, hbefore, hafter⟩ := looked_up_array_stays hrun hlookup hp hpos (by simp) hrun'
  obtain rfl := Option.some.inj (hl.symm.trans hbefore)
  exact ⟨r, r', replies, replies', h, h', manifest, hrun, hlookup, hp, hpos, hrun', hafter⟩

end LightFS.Meta
