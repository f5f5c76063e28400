import LightFS.Library.OrderedMap
import LightFS.Library.SlotArray
import LightFS.Meta.Types

/-!
# The metadata shard

The in-memory index of one shard (`src/meta/meta_shard.c`): a growable array of manifests with
an upsert, a lookup, a delete that closes the gap, and a listing by bucket, prefix and marker.
The B-tree handle and the key range of the C record are never read and are left out.

The array is modelled slot by slot, with the loops of the source; `MetaShard.contents` is its
live part, and the `contents_*` lemmas say what each operation does to it as a list.

An insert that has no memory for the fragments of a manifest stores it without them and reports
success; that this is the only way an insert is done by halves is
`metaShardInsert_all_or_nothing_iff`.

## Main definitions

* `MetaShard`, `metaShardCreate`, `findEntry`, `metaShardInsert`, `metaShardLookup`,
  `metaShardDelete`, `metaShardList`, `metaShardSplit`.
* `MetaShard.contents`, `MetaShard.WellFormed`.
* `InsertRefused` — the inserts that return `-1`.

## Main results

* `contents_metaShardInsert`, `contents_metaShardDelete`, `metaShardLookup_eq`,
  `metaShardList_eq`.
* `MetaShard.WellFormed.insert`, `MetaShard.WellFormed.delete`.
* `metaShardInsert_all_or_nothing_iff`.
-/

namespace LightFS.Meta

open Library

/-- `SHARD_DEFAULT_CAPACITY`. -/
abbrev shardDefaultCapacity : ℕ := 1024

/-- `struct meta_shard`. The slots from `entryCount` on hold whatever earlier operations left. -/
structure MetaShard where
  shardId : UInt32
  parentShardId : UInt32
  bucketName : CharArray metaMaxBucketLength
  hasLoadingChild : Bool
  entries : ℕ → ObjectManifest
  entryCount : ℕ
  entryCapacity : ℕ

/-- The outcome of the two allocations `meta_shard_insert` can make. -/
structure AllocOutcome where
  realloc : Bool
  malloc : Bool

/-- Both allocations succeed. -/
def AllocOutcome.success : AllocOutcome := ⟨true, true⟩

/-- `meta_shard_create`, its allocations succeeding; `none` for a null bucket name. -/
def metaShardCreate (shardId parentShardId : UInt32) (bucketName : Option CString) :
    MetaShard where
  shardId := shardId
  parentShardId := parentShardId
  bucketName := match bucketName with
    | some b => .strncpy b
    | none => .empty
  hasLoadingChild := false
  entries := fun _ => .zero
  entryCount := 0
  entryCapacity := shardDefaultCapacity

/-- The test of `find_entry`: both names of the entry are equal to the given ones. -/
def entryMatches (bucket key : CString) (entry : ObjectManifest) : Bool :=
  strcmp entry.bucket.bytes bucket.bytes == .eq && strcmp entry.key.bytes key.bytes == .eq

/-- `find_entry`: the slot of the first entry with these names, `none` for `-1`. -/
def findEntry (shard : MetaShard) (bucket key : CString) : Option ℕ :=
  findSlot (entryMatches bucket key) shard.entries 0 shard.entryCount

/-- The record stored for a manifest: a copy of it, with a copy of its fragment array of its
own when there is one. A failed `malloc` leaves the copied count beside a null pointer. -/
def copyManifest (malloc : Bool) (manifest : ObjectManifest) : ObjectManifest :=
  if manifest.fragments.isSome ∧ 0 < manifest.fragmentCount then
    if malloc then manifest else { manifest with fragments := none, fragments_length := by simp }
  else manifest

/-- `meta_shard_insert`, returning the shard and the status. The capacity doubles when the
array is full. The `int` product cannot overflow on an array whose `realloc` succeeded: a
wrapped capacity asks for more than any allocation gives. -/
def metaShardInsert (alloc : AllocOutcome) (shard : MetaShard) (manifest : ObjectManifest) :
    MetaShard × ℤ :=
  match findEntry shard manifest.bucket.toCString manifest.key.toCString with
  | some index =>
    ({ shard with entries :=
        Function.update shard.entries index (copyManifest alloc.malloc manifest) }, 0)
  | none =>
    if shard.entryCapacity ≤ shard.entryCount ∧ ¬ alloc.realloc then (shard, -1)
    else
      ({ shard with
        entryCapacity :=
          if shard.entryCapacity ≤ shard.entryCount then shard.entryCapacity * 2
          else shard.entryCapacity
        entries :=
          Function.update shard.entries shard.entryCount (copyManifest alloc.malloc manifest)
        entryCount := shard.entryCount + 1 }, 0)

/-- `meta_shard_lookup`: the manifest written to `manifest_out`, `none` for `-1`. -/
def metaShardLookup (shard : MetaShard) (bucket key : CString) : Option ObjectManifest :=
  (findEntry shard bucket key).map shard.entries

/-- `meta_shard_delete`, returning the shard and the status. -/
def metaShardDelete (shard : MetaShard) (bucket key : CString) : MetaShard × ℤ :=
  match findEntry shard bucket key with
  | none => (shard, -1)
  | some index =>
    ({ shard with
      entries := shiftDown shard.entries index (shard.entryCount - 1 - index)
      entryCount := shard.entryCount - 1 }, 0)

/-! ### Listing -/

/-- The filter of the listing loop: the bucket is equal and the key starts with the prefix. -/
def listMatches (bucket : CString) (prefix_ : Option CString) (entry : ObjectManifest) : Bool :=
  strcmp entry.bucket.bytes bucket.bytes == .eq &&
    match prefix_ with
    | none => true
    | some p => p.length == 0 || strncmpEq entry.key.toCString p p.length

/-- The first slot of the listing: the first entry whose key is greater than a non-empty
marker. When there is none, `start` keeps its initial value `0`. -/
def listStart (shard : MetaShard) (marker : Option CString) : ℕ :=
  match marker with
  | none => 0
  | some m =>
    if m.length = 0 then 0
    else (findSlot (fun e => strcmp e.key.bytes m.bytes == .gt) shard.entries 0
      shard.entryCount).getD 0

/-- The listing loop from slot `i` over `n` slots with room for `room` more keys. Each key is
copied to a 64-byte buffer. -/
def listLoop (p : ObjectManifest → Bool) (entries : ℕ → ObjectManifest) :
    ℕ → ℕ → ℕ → List (CharArray 63)
  | _, 0, _ => []
  | _, _ + 1, 0 => []
  | i, n + 1, room + 1 =>
    if p (entries i) then
      .strncpy (entries i).key.toCString :: listLoop p entries (i + 1) n room
    else listLoop p entries (i + 1) n (room + 1)

/-- `meta_shard_list`: the strings written to `keys_out`. -/
def metaShardList (shard : MetaShard) (bucket : CString) (prefix_ marker : Option CString)
    (maxKeys : ℤ) : List (CharArray 63) :=
  listLoop (listMatches bucket prefix_) shard.entries (listStart shard marker)
    (shard.entryCount - listStart shard marker) maxKeys.toNat

/-! ### Splitting -/

/-- `meta_shard_split`, its allocations succeeding: the parent and the child, `none` when the split
is refused. -/
def metaShardSplit (shard : MetaShard) (newShardId : UInt32) : Option (MetaShard × MetaShard) :=
  if shard.hasLoadingChild then none
  else if shard.entryCount / 2 = 0 then none
  else
    let child := metaShardCreate newShardId shard.shardId (some shard.bucketName.toCString)
    some ({ shard with hasLoadingChild := true }, { child with hasLoadingChild := true })

/-- `meta_shard_child_activated`. -/
def metaShardChildActivated (shard : MetaShard) : MetaShard :=
  { shard with hasLoadingChild := false }

/-! ### The live entries -/

namespace MetaShard

/-- The live entries of a shard, in slot order. -/
def contents (shard : MetaShard) : List ObjectManifest := slots shard.entries shard.entryCount

/-- The invariant of a shard: distinct names, and a live part that fits the array. -/
structure WellFormed (shard : MetaShard) : Prop where
  keysNodup : KeysNodup ObjectManifest.name shard.contents
  count_le : shard.entryCount ≤ shard.entryCapacity
  capacity_pos : 0 < shard.entryCapacity

end MetaShard

theorem entryMatches_eq (bucket key : CString) :
    entryMatches bucket key = fun e => decide (e.name = (bucket, key)) := by
  funext e
  rw [Bool.eq_iff_iff, decide_eq_true_iff, entryMatches, Bool.and_eq_true, beq_iff_eq, beq_iff_eq,
    strcmp_eq_eq_iff, strcmp_eq_eq_iff, ObjectManifest.name, Prod.mk.injEq, CString.ext_iff,
    CString.ext_iff]

/-- `find_entry` on the live entries. -/
theorem findEntry_eq (shard : MetaShard) (bucket key : CString) :
    findEntry shard bucket key =
      shard.contents.findIdx? fun e => decide (e.name = (bucket, key)) := by
  rw [findEntry, findSlot_eq, entryMatches_eq, MetaShard.contents]

/-- With `malloc` succeeding the stored record is the manifest. -/
@[simp] theorem copyManifest_true (manifest : ObjectManifest) :
    copyManifest true manifest = manifest := by
  simp [copyManifest]

@[simp] theorem contents_metaShardCreate (shardId parentShardId : UInt32)
    (bucketName : Option CString) :
    (metaShardCreate shardId parentShardId bucketName).contents = [] := rfl

theorem metaShardCreate_wellFormed (shardId parentShardId : UInt32)
    (bucketName : Option CString) :
    (metaShardCreate shardId parentShardId bucketName).WellFormed where
  keysNodup := keysNodup_nil
  count_le := Nat.zero_le _
  capacity_pos := Nat.succ_pos _

/-- The copy has the names of the manifest. -/
@[simp] theorem name_copyManifest (malloc : Bool) (manifest : ObjectManifest) :
    (copyManifest malloc manifest).name = manifest.name := by
  unfold copyManifest
  split_ifs <;> rfl

/-- The record stored is the manifest itself exactly when `malloc` succeeds or is not called. -/
theorem copyManifest_eq_self_iff {malloc : Bool} {manifest : ObjectManifest} :
    copyManifest malloc manifest = manifest ↔
      malloc = true ∨ ¬ (manifest.fragments.isSome ∧ 0 < manifest.fragmentCount) := by
  unfold copyManifest
  split_ifs with hfragments hmalloc
  · exact iff_of_true rfl (.inl hmalloc)
  · refine iff_of_false (fun h => ?_) (not_or.mpr ⟨hmalloc, not_not.mpr hfragments⟩)
    have hsome := hfragments.1
    rw [← congrArg ObjectManifest.fragments h] at hsome
    exact Bool.false_ne_true hsome
  · exact iff_of_true rfl (.inr hfragments)

/-- An insert is refused: the pair of names is new, and the array is full and does not grow. -/
def InsertRefused (alloc : AllocOutcome) (shard : MetaShard) (manifest : ObjectManifest) : Prop :=
  manifest.name ∉ shard.contents.map ObjectManifest.name ∧
    shard.entryCapacity ≤ shard.entryCount ∧ alloc.realloc = false

section Insert

variable {alloc : AllocOutcome} {shard : MetaShard} {manifest : ObjectManifest}

/-- A refused insert returns `-1` and changes nothing. -/
theorem metaShardInsert_of_refused (h : InsertRefused alloc shard manifest) :
    metaShardInsert alloc shard manifest = (shard, -1) := by
  obtain ⟨hnew, hfull, hrealloc⟩ := h
  have hfind : findEntry shard manifest.bucket.toCString manifest.key.toCString = none :=
    (findEntry_eq ..).trans (notMem_keys_iff_findIdx?_eq_none.mp hnew)
  rw [metaShardInsert, hfind]
  exact if_pos ⟨hfull, by rw [hrealloc]; exact Bool.false_ne_true⟩

/-- Every other insert upserts the copy of the manifest and returns `0`. -/
theorem metaShardInsert_of_not_refused (h : ¬ InsertRefused alloc shard manifest) :
    (metaShardInsert alloc shard manifest).1.contents =
        upsert ObjectManifest.name (copyManifest alloc.malloc manifest) shard.contents ∧
      (metaShardInsert alloc shard manifest).2 = 0 := by
  rw [metaShardInsert, findEntry_eq]
  cases hfind : shard.contents.findIdx?
      fun e => decide (e.name = (manifest.bucket.toCString, manifest.key.toCString)) with
  | some index =>
    refine ⟨?_, rfl⟩
    rw [upsert_of_findIdx?_eq_some (by rw [name_copyManifest]; exact hfind)]
    exact slots_update ..
  | none =>
    have hnew : manifest.name ∉ shard.contents.map ObjectManifest.name :=
      notMem_keys_iff_findIdx?_eq_none.mpr hfind
    have hgrows : ¬ (shard.entryCapacity ≤ shard.entryCount ∧ ¬ alloc.realloc) := fun hfull =>
      h ⟨hnew, hfull.1, Bool.eq_false_of_not_eq_true hfull.2⟩
    simp only [if_neg hgrows, and_true]
    rw [upsert_of_notMem (by rwa [name_copyManifest])]
    exact slots_update_succ ..

/-- The names after an insert that is not refused. -/
theorem names_metaShardInsert (h : ¬ InsertRefused alloc shard manifest) :
    (metaShardInsert alloc shard manifest).1.contents.map ObjectManifest.name =
      if manifest.name ∈ shard.contents.map ObjectManifest.name then
        shard.contents.map ObjectManifest.name
      else shard.contents.map ObjectManifest.name ++ [manifest.name] := by
  rw [(metaShardInsert_of_not_refused h).1]
  split_ifs with hmem
  · exact map_key_upsert_of_mem (by rwa [name_copyManifest])
  · rw [upsert_of_notMem (by rwa [name_copyManifest]), List.map_append, List.map_singleton,
      name_copyManifest]

/-- The capacity after an insert that is not refused: a new pair of names doubles that of a full
array. -/
theorem entryCapacity_metaShardInsert (h : ¬ InsertRefused alloc shard manifest) :
    (metaShardInsert alloc shard manifest).1.entryCapacity =
      if manifest.name ∈ shard.contents.map ObjectManifest.name then shard.entryCapacity
      else if shard.entryCount < shard.entryCapacity then shard.entryCapacity
      else shard.entryCapacity * 2 := by
  rw [metaShardInsert, findEntry_eq]
  cases hfind : shard.contents.findIdx?
      fun e => decide (e.name = (manifest.bucket.toCString, manifest.key.toCString)) with
  | some index =>
    refine (if_pos ?_).symm
    by_contra hnew
    cases hfind.symm.trans (notMem_keys_iff_findIdx?_eq_none.mp hnew)
  | none =>
    have hnew : manifest.name ∉ shard.contents.map ObjectManifest.name :=
      notMem_keys_iff_findIdx?_eq_none.mpr hfind
    have hgrows : ¬ (shard.entryCapacity ≤ shard.entryCount ∧ ¬ alloc.realloc) := fun hfull =>
      h ⟨hnew, hfull.1, Bool.eq_false_of_not_eq_true hfull.2⟩
    simp only [if_neg hgrows, if_neg hnew, ← not_le, ite_not]

end Insert

theorem not_insertRefused_success (shard : MetaShard) (manifest : ObjectManifest) :
    ¬ InsertRefused .success shard manifest := by
  rintro ⟨-, -, hrealloc⟩
  cases hrealloc

/-- An insert whose allocations succeed upserts the manifest and returns `0`. -/
theorem metaShardInsert_success (shard : MetaShard) (manifest : ObjectManifest) :
    (metaShardInsert .success shard manifest).1.contents =
        upsert ObjectManifest.name manifest shard.contents ∧
      (metaShardInsert .success shard manifest).2 = 0 := by
  simpa [AllocOutcome.success] using
    metaShardInsert_of_not_refused (not_insertRefused_success shard manifest)

theorem contents_metaShardInsert (shard : MetaShard) (manifest : ObjectManifest) :
    (metaShardInsert .success shard manifest).1.contents =
      upsert ObjectManifest.name manifest shard.contents :=
  (metaShardInsert_success shard manifest).1

theorem MetaShard.WellFormed.insert {shard : MetaShard} (h : shard.WellFormed)
    (manifest : ObjectManifest) : (metaShardInsert .success shard manifest).1.WellFormed := by
  have hnodup :
      KeysNodup ObjectManifest.name (metaShardInsert .success shard manifest).1.contents := by
    rw [contents_metaShardInsert]
    exact h.keysNodup.upsert
  have hcount := h.count_le
  have hpos := h.capacity_pos
  refine ⟨hnodup, ?_, ?_⟩ <;> unfold metaShardInsert <;> split <;>
    simp only [AllocOutcome.success, not_true_eq_false, and_false, ↓reduceIte] <;>
    first
      | assumption
      | (split_ifs <;> omega)

theorem metaShardLookup_eq (shard : MetaShard) (bucket key : CString) :
    metaShardLookup shard bucket key =
      lookupKey ObjectManifest.name (bucket, key) shard.contents := by
  rw [metaShardLookup, findEntry_eq]
  cases h : shard.contents.findIdx? fun e => decide (e.name = (bucket, key)) with
  | none => exact (lookupKey_eq_none_iff.mpr (notMem_keys_iff_findIdx?_eq_none.mpr h)).symm
  | some index =>
    obtain ⟨hlt, -⟩ := List.findIdx?_eq_some_iff_getElem.mp h
    rw [lookupKey_of_findIdx?_eq_some h, List.getElem?_eq_getElem hlt]
    exact congrArg some (getElem_slots ..).symm

/-- **Inserts under failing allocations.** An insert returns `0` and the manifest is then found as
it was inserted, or returns `-1` and every lookup is as before, if and only if the `malloc` for the
fragments succeeds or is not called: because the manifest has no fragments, or because the insert
is refused before. -/
theorem metaShardInsert_all_or_nothing_iff (alloc : AllocOutcome) (shard : MetaShard)
    (manifest : ObjectManifest) :
    (((metaShardInsert alloc shard manifest).2 = 0 ∧
        metaShardLookup (metaShardInsert alloc shard manifest).1 manifest.bucket.toCString
          manifest.key.toCString = some manifest) ∨
      ((metaShardInsert alloc shard manifest).2 = -1 ∧ ∀ bucket key,
        metaShardLookup (metaShardInsert alloc shard manifest).1 bucket key =
          metaShardLookup shard bucket key)) ↔
      (alloc.malloc = true ∨ ¬ (manifest.fragments.isSome ∧ 0 < manifest.fragmentCount)) ∨
        InsertRefused alloc shard manifest := by
  by_cases hrefused : InsertRefused alloc shard manifest
  · rw [metaShardInsert_of_refused hrefused]
    exact iff_of_true (.inr ⟨rfl, fun _ _ => rfl⟩) (.inr hrefused)
  · obtain ⟨hcontents, hstatus⟩ := metaShardInsert_of_not_refused hrefused
    have hlookup : metaShardLookup (metaShardInsert alloc shard manifest).1
        manifest.bucket.toCString manifest.key.toCString =
          some (copyManifest alloc.malloc manifest) := by
      rw [metaShardLookup_eq, hcontents, lookupKey_upsert, name_copyManifest]
      exact if_pos rfl
    rw [hlookup, hstatus, Option.some_inj, copyManifest_eq_self_iff]
    simp [hrefused]

/-- A manifest with one fragment. -/
def oneFragment : ObjectManifest where
  bucket := .empty
  key := .empty
  size := 4
  checksum := 0
  writeSequence := 0
  datacenterId := 0
  fragmentCount := 1
  fragments := some [⟨1, 0, 4, 0⟩]
  fragments_length := by simp

/-- The `malloc` for the fragments fails: the insert returns `0`, and the manifest found counts one
fragment and has none. -/
theorem metaShardInsert_loses_fragments :
    let result := metaShardInsert ⟨true, false⟩ (metaShardCreate 1 0 none) oneFragment
    result.2 = 0 ∧
      (metaShardLookup result.1 oneFragment.bucket.toCString oneFragment.key.toCString).map
        (fun found => (found.fragmentCount, found.fragments)) = some (1, none) := by
  decide

/-- A delete removes the entry with these names, and fails exactly when there is none. -/
theorem metaShardDelete_eq (shard : MetaShard) (bucket key : CString) :
    (metaShardDelete shard bucket key).1.contents =
        eraseKey ObjectManifest.name (bucket, key) shard.contents ∧
      (metaShardDelete shard bucket key).2 =
        if (bucket, key) ∈ shard.contents.map ObjectManifest.name then 0 else -1 := by
  rw [metaShardDelete, findEntry_eq]
  cases h : shard.contents.findIdx? fun e => decide (e.name = (bucket, key)) with
  | none =>
    have hnot := notMem_keys_iff_findIdx?_eq_none.mpr h
    refine ⟨?_, (if_neg hnot).symm⟩
    refine (List.eraseP_of_forall_not fun e he => ?_).symm
    simpa using fun heq => hnot (List.mem_map.mpr ⟨e, he, heq⟩)
  | some index =>
    obtain ⟨hlt, hname, -⟩ := List.findIdx?_eq_some_iff_getElem.mp h
    have hmem : (bucket, key) ∈ shard.contents.map ObjectManifest.name :=
      List.mem_map.mpr ⟨_, List.getElem_mem hlt, by simpa using hname⟩
    refine ⟨?_, (if_pos hmem).symm⟩
    rw [eraseKey_of_findIdx?_eq_some h]
    exact slots_shiftDown _ (by simpa [MetaShard.contents] using hlt)

theorem MetaShard.WellFormed.delete {shard : MetaShard} (h : shard.WellFormed)
    (bucket key : CString) : (metaShardDelete shard bucket key).1.WellFormed := by
  have hnodup : KeysNodup ObjectManifest.name (metaShardDelete shard bucket key).1.contents := by
    rw [(metaShardDelete_eq shard bucket key).1]
    exact h.keysNodup.eraseKey
  have hcount := h.count_le
  refine ⟨hnodup, ?_, ?_⟩ <;> unfold metaShardDelete <;> split
  · exact hcount
  · exact (Nat.sub_le _ _).trans hcount
  · exact h.capacity_pos
  · exact h.capacity_pos

/-! ### The listing on the live entries -/

theorem listLoop_eq (p : ObjectManifest → Bool) (entries : ℕ → ObjectManifest) (i n room : ℕ) :
    listLoop p entries i n room =
      (((slots (fun j => entries (i + j)) n).filter p).take room).map
        fun e => .strncpy e.key.toCString := by
  induction n generalizing i room with
  | zero => simp [listLoop]
  | succ n ih =>
    cases room with
    | zero => simp [listLoop]
    | succ room =>
      rw [listLoop, ih, ih, slots_offset_succ]
      by_cases h : p (entries i) = true <;> simp [h]

theorem slots_add (entries : ℕ → ObjectManifest) (i n : ℕ) :
    slots (fun j => entries (i + j)) (n - i) = (slots entries n).drop i := by
  refine List.ext_getElem (by simp) fun j h₁ h₂ => ?_
  rw [getElem_slots, List.getElem_drop, getElem_slots]

/-- The listing on the live entries: from its first slot on, the entries that match, at most
`max_keys` of them, each key cut to 63 bytes. -/
theorem metaShardList_eq (shard : MetaShard) (bucket : CString) (prefix_ marker : Option CString)
    (maxKeys : ℤ) :
    metaShardList shard bucket prefix_ marker maxKeys =
      ((((shard.contents.drop (listStart shard marker)).filter
        (listMatches bucket prefix_)).take maxKeys.toNat).map
          fun e => .strncpy e.key.toCString) := by
  rw [metaShardList, listLoop_eq, slots_add, MetaShard.contents]

/-! ### Many objects -/

/-- The letter `a`, `n` times, as far as the array goes. -/
def repeatedLetter (cap n : ℕ) : CharArray cap where
  bytes := List.replicate (min n cap) 97
  nul_free := by simp [List.mem_replicate]
  length_le := by simp

/-- An object for each number: the lengths of its bucket and of its key are the digits of the
number to the base 1025. -/
def numberedManifest (n : ℕ) : ObjectManifest :=
  { ObjectManifest.zero with
    bucket := repeatedLetter metaMaxBucketLength (n / 1025)
    key := repeatedLetter metaMaxKeyLength (n % 1025) }

theorem repeatedLetter_inj {cap m n : ℕ} (hm : m ≤ cap) (hn : n ≤ cap)
    (h : repeatedLetter cap m = repeatedLetter cap n) : m = n := by
  have hlength := congrArg (fun a : CharArray cap => a.bytes.length) h
  simpa [repeatedLetter, hm, hn] using hlength

/-- As long as the buckets fit, different numbers have different names. -/
theorem nodup_numberedManifest {count : ℕ} (h : count ≤ 1025 * 256) :
    KeysNodup ObjectManifest.name ((List.range count).map numberedManifest) := by
  rw [KeysNodup, List.map_map]
  refine List.nodup_range.map_on fun m hm n hn heq => ?_
  obtain ⟨hbucket, hkey⟩ := Prod.mk.inj heq
  have hlt : ∀ i ∈ List.range count, i / 1025 ≤ metaMaxBucketLength := fun i hi => by
    have := List.mem_range.mp hi
    simp only [metaMaxBucketLength]
    omega
  have hdiv := repeatedLetter_inj (hlt m hm) (hlt n hn) (CharArray.toCString_injective hbucket)
  have hmod := repeatedLetter_inj (Nat.le_of_lt_succ (Nat.mod_lt _ (by decide)))
    (Nat.le_of_lt_succ (Nat.mod_lt _ (by decide))) (CharArray.toCString_injective hkey)
  rw [← Nat.div_add_mod m 1025, hdiv, hmod, Nat.div_add_mod]

end LightFS.Meta
