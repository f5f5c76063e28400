import LightFS.Library.Machine
import LightFS.Meta.Shard

/-!
# Write sequences of the metadata server

The metadata server (`src/meta/meta_server.c`) stamps every manifest of a pushed batch with the
next value of its sequence counter and its datacenter id, in the caller's own array, and upserts it
into its shard. What the server is for: a log of stamped manifests, in which a read finds the last
entry for a pair of names (`logMachine`). The code simulates the log (`serverMachine_simulates`),
so the sequences along every run are `1, 2, 3, …`, every read returns the last push of its pair,
and the sequence stored for a pair never decreases (`metaServer_sequences`).

When an allocation fails in the middle of a batch, the call fails and nothing of it is undone: not
even the counter is as before (`metaServerPush_failed_unchanged_iff`).

The bucket registry of the server is used by none of these functions and is left out.

## Main definitions

* `MetaServer`, `metaServerCreate`, `metaServerPushManifestBatch`, `metaServerGetManifest`.
* `ServerOp`, `ServerResult`, `serverMachine`.
* `stampFrom`, `lastFor`, `logMachine` — the log.
* `BatchFits`, `MetaShard.Takes` — the array of the shard takes a batch.

## Main results

* `serverMachine_simulates`, `metaServer_sequences`.
* `pushLoop_status`, `metaServerPush_failed_unchanged_iff`.
-/

namespace LightFS.Meta

open Library

/-- `meta_server_config_t`; the split threshold and the checkpoint interval are never read. -/
structure MetaServerConfig where
  serverId : UInt32
  datacenterId : UInt32

/-- `struct meta_server`. -/
structure MetaServer where
  config : MetaServerConfig
  writeSequenceCounter : UInt64
  shard : MetaShard

/-- `meta_server_create`, its allocations succeeding. -/
def metaServerCreate (config : MetaServerConfig) : MetaServer where
  config := config
  writeSequenceCounter := 0
  shard := metaShardCreate config.serverId 0 (some (.ofString ""))

/-- A manifest with the two fields the server sets. -/
def ObjectManifest.stamp (manifest : ObjectManifest) (writeSequence : UInt64)
    (datacenterId : UInt32) : ObjectManifest :=
  { manifest with writeSequence := writeSequence, datacenterId := datacenterId }

@[simp] theorem ObjectManifest.name_stamp (manifest : ObjectManifest) (writeSequence : UInt64)
    (datacenterId : UInt32) : (manifest.stamp writeSequence datacenterId).name = manifest.name :=
  rfl

/-- What `meta_server_push_manifest_batch` leaves: the server, the caller's array and the
status. -/
structure PushResult where
  server : MetaServer
  manifests : List ObjectManifest
  status : ℤ

/-- The loop of `meta_server_push_manifest_batch` from the entry `i` on, with the outcome of the
allocations for each entry. An insert that fails leaves the counter counted up and the entry
stamped. -/
def pushLoop (alloc : ℕ → AllocOutcome) : ℕ → MetaServer → List ObjectManifest → PushResult
  | _, server, [] => ⟨server, [], 0⟩
  | i, server, manifest :: rest =>
    let writeSequence := server.writeSequenceCounter + 1
    let stamped := manifest.stamp writeSequence server.config.datacenterId
    let result := metaShardInsert (alloc i) server.shard stamped
    let server := { server with writeSequenceCounter := writeSequence, shard := result.1 }
    if result.2 ≠ 0 then ⟨server, stamped :: rest, -1⟩
    else
      let pushed := pushLoop alloc (i + 1) server rest
      { pushed with manifests := stamped :: pushed.manifests }

section PushLoop

variable {alloc : ℕ → AllocOutcome} {i : ℕ} {manifest : ObjectManifest}
  {rest : List ObjectManifest}

/-- The loop ends at an entry that is refused, which it has already counted and stamped. -/
theorem pushLoop_of_refused {server : MetaServer}
    (h : InsertRefused (alloc i) server.shard manifest) :
    pushLoop alloc i server (manifest :: rest) =
      ⟨{ server with writeSequenceCounter := server.writeSequenceCounter + 1 },
        manifest.stamp (server.writeSequenceCounter + 1) server.config.datacenterId :: rest,
        -1⟩ := by
  have hinsert : metaShardInsert (alloc i) server.shard (manifest.stamp
      (server.writeSequenceCounter + 1) server.config.datacenterId) = (server.shard, -1) :=
    metaShardInsert_of_refused h
  rw [pushLoop]
  dsimp only
  rw [hinsert]
  exact if_pos (show (-1 : ℤ) ≠ 0 by decide)

/-- The loop goes on behind an entry that is not refused. -/
theorem pushLoop_of_not_refused {server : MetaServer}
    (h : ¬ InsertRefused (alloc i) server.shard manifest) :
    let stamped := manifest.stamp (server.writeSequenceCounter + 1) server.config.datacenterId
    let pushed := pushLoop alloc (i + 1)
      { server with
        writeSequenceCounter := server.writeSequenceCounter + 1
        shard := (metaShardInsert (alloc i) server.shard stamped).1 } rest
    pushLoop alloc i server (manifest :: rest) =
      { pushed with manifests := stamped :: pushed.manifests } := by
  intro stamped pushed
  have hstamped : ¬ InsertRefused (alloc i) server.shard stamped := h
  rw [pushLoop]
  exact if_neg (not_not.mpr (metaShardInsert_of_not_refused hstamped).2)

end PushLoop

/-- `meta_server_push_manifest_batch`, on the first `count` manifests of the array. -/
def metaServerPushManifestBatch (alloc : ℕ → AllocOutcome) (server : MetaServer)
    (manifests : List ObjectManifest) : PushResult :=
  if manifests.length = 0 then ⟨server, manifests, -1⟩ else pushLoop alloc 0 server manifests

/-- `meta_server_get_manifest`: the manifest written to `manifest_out`, `none` for `-1`. -/
def metaServerGetManifest (server : MetaServer) (bucket key : CString) : Option ObjectManifest :=
  metaShardLookup server.shard bucket key

/-! ### Runs -/

/-- A call on the server. -/
inductive ServerOp where
  | push (manifests : List ObjectManifest)
  | get (bucket key : CString)

/-- What a call leaves to its caller: the batch as it was rewritten and the status, or the manifest
that was found. -/
inductive ServerResult where
  | pushed (manifests : List ObjectManifest) (status : ℤ)
  | found (manifest : Option ObjectManifest)

/-- The manifests a call pushes. -/
def ServerOp.manifests : ServerOp → List ObjectManifest
  | .push manifests => manifests
  | .get _ _ => []

/-- The manifests a push has rewritten. -/
def ServerResult.manifests : ServerResult → List ObjectManifest
  | .pushed manifests _ => manifests
  | .found _ => []

/-- The server, its allocations succeeding. -/
def serverMachine : Machine MetaServer ServerOp ServerResult where
  step
    | server, .push manifests =>
      let result := metaServerPushManifestBatch (fun _ => .success) server manifests
      (result.server, .pushed result.manifests result.status)
    | server, .get bucket key => (server, .found (metaServerGetManifest server bucket key))

/-! ### The log -/

/-- The manifests stamped with the sequences from `n + 1` on. -/
def stampFrom (datacenterId : UInt32) : ℕ → List ObjectManifest → List ObjectManifest
  | _, [] => []
  | n, manifest :: rest =>
    manifest.stamp (.ofNat (n + 1)) datacenterId :: stampFrom datacenterId (n + 1) rest

/-- The last entry of a log for a pair of names. -/
def lastFor (name : CString × CString) (log : List ObjectManifest) : Option ObjectManifest :=
  (log.filter fun m => m.name = name).getLast?

/-- A log of stamped manifests. -/
def logMachine (datacenterId : UInt32) :
    Machine (List ObjectManifest) ServerOp ServerResult where
  step
    | log, .push manifests =>
      let stamped := stampFrom datacenterId log.length manifests
      (log ++ stamped, .pushed stamped (if manifests = [] then -1 else 0))
    | log, .get bucket key => (log, .found (lastFor (bucket, key) log))

section Log

variable {datacenterId : UInt32} {n : ℕ} {name : CString × CString}

@[simp] theorem length_stampFrom (manifests : List ObjectManifest) :
    (stampFrom datacenterId n manifests).length = manifests.length := by
  induction manifests generalizing n with
  | nil => rfl
  | cons manifest rest ih => rw [stampFrom, List.length_cons, ih, List.length_cons]

theorem stampFrom_append (a b : List ObjectManifest) :
    stampFrom datacenterId n (a ++ b) =
      stampFrom datacenterId n a ++ stampFrom datacenterId (n + a.length) b := by
  induction a generalizing n with
  | nil => rfl
  | cons manifest a ih =>
    rw [List.cons_append, stampFrom, stampFrom, ih, List.cons_append, List.length_cons,
      Nat.add_assoc, Nat.add_comm 1]

/-- The sequences of a log that is short enough for the counter. -/
theorem writeSequence_stampFrom (manifests : List ObjectManifest)
    (h : n + manifests.length < 2 ^ 64) :
    (stampFrom datacenterId n manifests).map (·.writeSequence.toNat) =
      List.range' (n + 1) manifests.length := by
  induction manifests generalizing n with
  | nil => rfl
  | cons manifest rest ih =>
    rw [List.length_cons] at h ⊢
    have hstamp : (UInt64.ofNat (n + 1)).toNat = n + 1 :=
      UInt64.toNat_ofNat_of_lt' (show n + 1 < 2 ^ 64 by omega)
    rw [stampFrom, List.map_cons, ih (by omega), List.range'_succ]
    exact congrArg (· :: _) hstamp

theorem datacenterId_of_mem_stampFrom {manifests : List ObjectManifest} {m : ObjectManifest}
    (h : m ∈ stampFrom datacenterId n manifests) : m.datacenterId = datacenterId := by
  induction manifests generalizing n with
  | nil => exact absurd h List.not_mem_nil
  | cons manifest rest ih =>
    rcases List.mem_cons.mp h with rfl | h
    · rfl
    · exact ih h

theorem lastFor_append (log log' : List ObjectManifest) :
    lastFor name (log ++ log') = (lastFor name log').or (lastFor name log) := by
  rw [lastFor, List.filter_append, List.getLast?_append]
  rfl

theorem lastFor_singleton (manifest : ObjectManifest) :
    lastFor name [manifest] = if manifest.name = name then some manifest else none := by
  rw [lastFor, List.filter_singleton]
  by_cases h : manifest.name = name <;> simp [h]

theorem mem_of_lastFor {log : List ObjectManifest} {manifest : ObjectManifest}
    (h : lastFor name log = some manifest) : manifest ∈ log :=
  (List.mem_filter.mp (List.mem_of_getLast? h)).1

/-- The log of a run, and the entries the run has added to it. -/
theorem run_logMachine (log : List ObjectManifest) (ops : List ServerOp) :
    (logMachine datacenterId).run log ops =
        log ++ stampFrom datacenterId log.length (ops.flatMap ServerOp.manifests) ∧
      ((logMachine datacenterId).results log ops).flatMap ServerResult.manifests =
        stampFrom datacenterId log.length (ops.flatMap ServerOp.manifests) := by
  induction ops generalizing log with
  | nil => exact ⟨(List.append_nil log).symm, rfl⟩
  | cons op ops ih =>
    cases op with
    | push manifests =>
      obtain ⟨hrun, hresults⟩ := ih (log ++ stampFrom datacenterId log.length manifests)
      rw [List.length_append, length_stampFrom] at hrun hresults
      rw [List.flatMap_cons, ServerOp.manifests, stampFrom_append, ← List.append_assoc]
      refine ⟨hrun, ?_⟩
      rw [Machine.results_cons, List.flatMap_cons]
      exact congrArg _ hresults
    | get bucket key => exact ih log

end Log

/-! ### The simulation -/

/-- The server has pushed the entries of the log. -/
structure MetaServer.Logged (datacenterId : UInt32) (server : MetaServer)
    (log : List ObjectManifest) : Prop where
  datacenterId_eq : server.config.datacenterId = datacenterId
  counter_eq : server.writeSequenceCounter = .ofNat log.length
  lookup_eq : ∀ name,
    lookupKey ObjectManifest.name name server.shard.contents = lastFor name log

theorem metaServerCreate_logged (config : MetaServerConfig) :
    (metaServerCreate config).Logged config.datacenterId [] where
  datacenterId_eq := rfl
  counter_eq := rfl
  lookup_eq _ := rfl

section Push

variable {datacenterId : UInt32} {server : MetaServer} {log : List ObjectManifest}

/-- One round of the loop. -/
theorem MetaServer.Logged.push (h : server.Logged datacenterId log) (manifest : ObjectManifest) :
    let stamped := manifest.stamp (.ofNat (log.length + 1)) datacenterId
    MetaServer.Logged datacenterId { server with
      writeSequenceCounter := server.writeSequenceCounter + 1
      shard := (metaShardInsert .success server.shard stamped).1 } (log ++ [stamped]) where
  datacenterId_eq := h.datacenterId_eq
  counter_eq := by
    rw [List.length_append, List.length_singleton, h.counter_eq, UInt64.ofNat_add]
    rfl
  lookup_eq name := by
    rw [contents_metaShardInsert, lookupKey_upsert, lastFor_append, lastFor_singleton, h.lookup_eq]
    simp only [eq_comm]
    split_ifs <;> rfl

/-- The loop appends the stamped batch to the log. -/
theorem MetaServer.Logged.pushLoop (h : server.Logged datacenterId log) (i : ℕ)
    (manifests : List ObjectManifest) :
    let pushed := pushLoop (fun _ => .success) i server manifests
    pushed.server.Logged datacenterId (log ++ stampFrom datacenterId log.length manifests) ∧
      pushed.manifests = stampFrom datacenterId log.length manifests ∧ pushed.status = 0 := by
  induction manifests generalizing i server log with
  | nil => exact ⟨(List.append_nil log).symm ▸ h, rfl, rfl⟩
  | cons manifest rest ih =>
    have hsequence : server.writeSequenceCounter + 1 = .ofNat (log.length + 1) := by
      rw [h.counter_eq, UInt64.ofNat_add]
      rfl
    have hround := h.push manifest
    obtain ⟨hserver, hmanifests, hstatus⟩ := ih hround (i + 1)
    rw [List.length_append, List.length_singleton] at hserver hmanifests
    dsimp only
    rw [pushLoop_of_not_refused (not_insertRefused_success _ _), hsequence, h.datacenterId_eq,
      stampFrom]
    rw [hsequence] at hserver hmanifests hstatus
    refine ⟨?_, ?_, hstatus⟩
    · rw [List.append_assoc] at hserver
      exact hserver
    · exact congrArg _ hmanifests

end Push

/-- **The server is a log.** Every call returns what the log returns. -/
theorem serverMachine_simulates (datacenterId : UInt32) :
    serverMachine.Simulates (logMachine datacenterId) (MetaServer.Logged datacenterId) where
  result_eq {server log} op h := by
    cases op with
    | push manifests =>
      cases manifests with
      | nil => rfl
      | cons manifest rest =>
        obtain ⟨-, hmanifests, hstatus⟩ := h.pushLoop 0 (manifest :: rest)
        exact congrArg₂ ServerResult.pushed hmanifests hstatus
    | get bucket key =>
      exact congrArg ServerResult.found ((metaShardLookup_eq ..).trans (h.lookup_eq _))
  step_rel {server log} op h := by
    cases op with
    | push manifests =>
      cases manifests with
      | nil =>
        show MetaServer.Logged datacenterId server (log ++ [])
        rwa [List.append_nil]
      | cons manifest rest => exact (h.pushLoop 0 (manifest :: rest)).1
    | get bucket key => exact h

/-! ### Sequences -/

/-- The entries pushed in a run of a new server, as the callers' arrays hold them after it. -/
def pushedEntries (config : MetaServerConfig) (ops : List ServerOp) : List ObjectManifest :=
  (serverMachine.results (metaServerCreate config) ops).flatMap ServerResult.manifests

theorem pushedEntries_eq (config : MetaServerConfig) (ops : List ServerOp) :
    pushedEntries config ops =
      stampFrom config.datacenterId 0 (ops.flatMap ServerOp.manifests) := by
  rw [pushedEntries, (serverMachine_simulates config.datacenterId).results_eq
    (metaServerCreate_logged config)]
  exact (run_logMachine [] ops).2

/-- A read returns the last entry that was pushed for the pair. -/
theorem metaServerGetManifest_run (config : MetaServerConfig) (ops : List ServerOp)
    (bucket key : CString) :
    metaServerGetManifest (serverMachine.run (metaServerCreate config) ops) bucket key =
      lastFor (bucket, key) (pushedEntries config ops) := by
  have hrel := (serverMachine_simulates config.datacenterId).run_rel
    (metaServerCreate_logged config) ops
  rw [(run_logMachine [] ops).1, List.nil_append, List.length_nil, ← pushedEntries_eq] at hrel
  exact (metaShardLookup_eq ..).trans (hrel.lookup_eq _)

/-- Behind a part of a log whose sequences increase, the last entry for a pair is the one of that
part or has a larger sequence. -/
theorem exists_lastFor_append {log log' : List ObjectManifest} {name : CString × CString}
    {m : ObjectManifest}
    (hsorted : ((log ++ log').map (·.writeSequence.toNat)).Pairwise (· < ·))
    (hlast : lastFor name log = some m) :
    ∃ m', lastFor name (log ++ log') = some m' ∧ m.writeSequence ≤ m'.writeSequence := by
  rw [lastFor_append]
  rcases hlater : lastFor name log' with _ | m'
  · exact ⟨m, hlast, UInt64.le_refl _⟩
  · refine ⟨m', rfl, ?_⟩
    rw [List.map_append] at hsorted
    exact ((List.pairwise_append.mp hsorted).2.2 _ (List.mem_map_of_mem (mem_of_lastFor hlast)) _
      (List.mem_map_of_mem (mem_of_lastFor hlater))).le

/-- **Write sequences.** In every run of pushes and reads on a new server with fewer than `2 ^ 64`
manifests in all, the callers' arrays hold the manifests they held before, stamped with the
sequences `1, 2, 3, …` in the order of the pushes and with the server's datacenter id. After it a
read returns the last entry that was pushed for its pair, and if it returned an entry at some
earlier moment of the run, it now returns one with no smaller sequence. -/
theorem metaServer_sequences (config : MetaServerConfig) (ops : List ServerOp)
    (hcount : (ops.flatMap ServerOp.manifests).length < 2 ^ 64) :
    pushedEntries config ops =
        stampFrom config.datacenterId 0 (ops.flatMap ServerOp.manifests) ∧
      (pushedEntries config ops).map (·.writeSequence.toNat) =
        List.range' 1 (ops.flatMap ServerOp.manifests).length ∧
      (∀ m ∈ pushedEntries config ops, m.datacenterId = config.datacenterId) ∧
      (∀ bucket key,
        metaServerGetManifest (serverMachine.run (metaServerCreate config) ops) bucket key =
          lastFor (bucket, key) (pushedEntries config ops)) ∧
      ∀ earlier later, ops = earlier ++ later → ∀ bucket key m,
        metaServerGetManifest (serverMachine.run (metaServerCreate config) earlier) bucket key =
          some m →
        ∃ m', metaServerGetManifest (serverMachine.run (metaServerCreate config) ops) bucket key =
          some m' ∧ m.writeSequence ≤ m'.writeSequence := by
  have hsequences : (pushedEntries config ops).map (·.writeSequence.toNat) =
      List.range' 1 (ops.flatMap ServerOp.manifests).length := by
    rw [pushedEntries_eq, writeSequence_stampFrom _ (by omega)]
  refine ⟨pushedEntries_eq config ops, hsequences, fun m hm => ?_,
    metaServerGetManifest_run config ops, ?_⟩
  · rw [pushedEntries_eq] at hm
    exact datacenterId_of_mem_stampFrom hm
  · rintro earlier later rfl bucket key m hget
    rw [metaServerGetManifest_run] at hget ⊢
    have hsplit : pushedEntries config (earlier ++ later) = pushedEntries config earlier ++
        stampFrom config.datacenterId (earlier.flatMap ServerOp.manifests).length
          (later.flatMap ServerOp.manifests) := by
      rw [pushedEntries_eq, pushedEntries_eq, List.flatMap_append, stampFrom_append, Nat.zero_add]
    rw [hsplit]
    refine exists_lastFor_append ?_ hget
    rw [← hsplit, hsequences]
    exact List.pairwise_lt_range' ..

/-- A batch with the same names twice, read back. -/
theorem metaServer_sequences_same_names_twice :
    ∃ m, metaServerGetManifest (serverMachine.run (metaServerCreate ⟨1, 7⟩)
        [.push [.zero, .zero], .get (.ofString "") (.ofString ""), .push [.zero]])
        (.ofString "") (.ofString "") = some m ∧
      m.writeSequence = 3 ∧ m.datacenterId = 7 := by
  obtain ⟨hentries, -, -, hget, -⟩ := metaServer_sequences ⟨1, 7⟩
    [.push [.zero, .zero], .get (.ofString "") (.ofString ""), .push [.zero]]
    (show 3 < 2 ^ 64 by decide)
  rw [hget, hentries]
  exact ⟨_, rfl, rfl, rfl⟩

/-! ### Failing batches -/

/-- The array takes the batch from its entry `i` on: every `realloc` that the loop makes succeeds.
It makes one for a new pair of names when the array is full; the capacity doubles then. -/
def BatchFits (alloc : ℕ → AllocOutcome) :
    ℕ → List (CString × CString) → ℕ → List ObjectManifest → Prop
  | _, _, _, [] => True
  | i, names, capacity, manifest :: rest =>
    (manifest.name ∈ names ∧ BatchFits alloc (i + 1) names capacity rest) ∨
      (manifest.name ∉ names ∧ (names.length < capacity ∨ (alloc i).realloc = true) ∧
        BatchFits alloc (i + 1) (names ++ [manifest.name])
          (if names.length < capacity then capacity else capacity * 2) rest)

/-- The array of a shard takes a batch. -/
def MetaShard.Takes (shard : MetaShard) (alloc : ℕ → AllocOutcome) (i : ℕ)
    (manifests : List ObjectManifest) : Prop :=
  BatchFits alloc i (shard.contents.map ObjectManifest.name) shard.entryCapacity manifests

section Failing

variable {alloc : ℕ → AllocOutcome} {i : ℕ} {manifest : ObjectManifest}
  {rest : List ObjectManifest}

/-- A pair that is stored needs no room. -/
theorem batchFits_cons_of_mem {names : List (CString × CString)} (h : manifest.name ∈ names)
    (capacity : ℕ) :
    BatchFits alloc i names capacity (manifest :: rest) ↔
      BatchFits alloc (i + 1) names capacity rest := by
  simp only [BatchFits, h, true_and, not_true_eq_false, false_and, or_false]

theorem batchFits_cons_of_notMem {names : List (CString × CString)} (h : manifest.name ∉ names)
    (capacity : ℕ) :
    BatchFits alloc i names capacity (manifest :: rest) ↔
      (names.length < capacity ∨ (alloc i).realloc = true) ∧
        BatchFits alloc (i + 1) (names ++ [manifest.name])
          (if names.length < capacity then capacity else capacity * 2) rest := by
  simp only [BatchFits, h, false_and, false_or, not_false_eq_true, true_and]

/-- An array takes a batch if the first entry is not refused and the array it leaves takes the
rest. -/
theorem takes_cons_iff {shard : MetaShard} {stamped : ObjectManifest}
    (hname : stamped.name = manifest.name) :
    shard.Takes alloc i (manifest :: rest) ↔ ¬ InsertRefused (alloc i) shard stamped ∧
      (metaShardInsert (alloc i) shard stamped).1.Takes alloc (i + 1) rest := by
  have hlength : (shard.contents.map ObjectManifest.name).length = shard.entryCount := by
    rw [List.length_map, MetaShard.contents, length_slots]
  by_cases hrefused : InsertRefused (alloc i) shard stamped
  · refine iff_of_false (fun htakes => ?_) (fun h => h.1 hrefused)
    obtain ⟨hnew, hfull, hrealloc⟩ := hrefused
    rw [MetaShard.Takes, batchFits_cons_of_notMem (hname ▸ hnew), hlength, hrealloc] at htakes
    exact htakes.1.elim (not_lt.mpr hfull) Bool.false_ne_true
  · rw [and_iff_right hrefused, MetaShard.Takes, MetaShard.Takes, names_metaShardInsert hrefused,
      entryCapacity_metaShardInsert hrefused]
    by_cases hmem : stamped.name ∈ shard.contents.map ObjectManifest.name
    · rw [if_pos hmem, if_pos hmem, batchFits_cons_of_mem (hname ▸ hmem)]
    · rw [if_neg hmem, if_neg hmem, batchFits_cons_of_notMem (hname ▸ hmem), hlength, hname]
      refine and_iff_right ?_
      by_contra hroom
      rw [not_or, not_lt, Bool.not_eq_true] at hroom
      exact hrefused ⟨hmem, hroom⟩

theorem add_ofNat_ne_self (c : UInt64) {n : ℕ} (hpos : 0 < n) (hlt : n < 2 ^ 64) :
    c + .ofNat n ≠ c := by
  intro hsame
  have hnat := congrArg UInt64.toNat hsame
  have hc := c.toNat_lt
  rw [UInt64.toNat_add, UInt64.toNat_ofNat_of_lt' hlt] at hnat
  omega

/-- The loop returns `0` when the array takes the batch and `-1` when it does not; then it has
counted at least one entry. -/
theorem pushLoop_status (alloc : ℕ → AllocOutcome) (i : ℕ) (server : MetaServer)
    (manifests : List ObjectManifest) :
    (server.shard.Takes alloc i manifests → (pushLoop alloc i server manifests).status = 0) ∧
      (¬ server.shard.Takes alloc i manifests →
        (pushLoop alloc i server manifests).status = -1 ∧ ∃ n, 0 < n ∧ n ≤ manifests.length ∧
          (pushLoop alloc i server manifests).server.writeSequenceCounter =
            server.writeSequenceCounter + .ofNat n) := by
  induction manifests generalizing i server with
  | nil => exact ⟨fun _ => rfl, fun h => absurd trivial h⟩
  | cons manifest rest ih =>
    have hcons : server.shard.Takes alloc i (manifest :: rest) ↔ _ := takes_cons_iff
      (manifest.name_stamp (server.writeSequenceCounter + 1) server.config.datacenterId)
    by_cases hrefused : InsertRefused (alloc i) server.shard manifest
    · rw [pushLoop_of_refused hrefused]
      refine ⟨fun htakes => absurd hrefused (hcons.mp htakes).1, fun _ => ⟨rfl, 1, ?_⟩⟩
      exact ⟨Nat.one_pos, Nat.succ_pos _, rfl⟩
    · rw [pushLoop_of_not_refused hrefused, hcons.trans (and_iff_right hrefused)]
      obtain ⟨hfits, hfails⟩ := ih (i + 1) { server with
        writeSequenceCounter := server.writeSequenceCounter + 1
        shard := (metaShardInsert (alloc i) server.shard (manifest.stamp
          (server.writeSequenceCounter + 1) server.config.datacenterId)).1 }
      refine ⟨hfits, fun hnot => ?_⟩
      obtain ⟨hstatus, n, hpos, hle, hcounter⟩ := hfails hnot
      refine ⟨hstatus, n + 1, Nat.succ_pos _, Nat.succ_le_succ hle, hcounter.trans ?_⟩
      rw [UInt64.ofNat_add, UInt64.add_assoc, UInt64.add_comm 1]
      rfl

end Failing

/-- **Failed batches.** A batch that fails leaves the counter and all reads as they were if and only
if it is empty or does not fail: if the array of the shard takes it. -/
theorem metaServerPush_failed_unchanged_iff (alloc : ℕ → AllocOutcome) (server : MetaServer)
    (manifests : List ObjectManifest) (hcount : manifests.length < 2 ^ 31) :
    let pushed := metaServerPushManifestBatch alloc server manifests
    (pushed.status = -1 →
      pushed.server.writeSequenceCounter = server.writeSequenceCounter ∧
        ∀ bucket key, metaServerGetManifest pushed.server bucket key =
          metaServerGetManifest server bucket key) ↔
      server.shard.Takes alloc 0 manifests := by
  intro pushed
  by_cases hempty : manifests.length = 0
  · obtain rfl := List.eq_nil_of_length_eq_zero hempty
    exact iff_of_true (fun _ => ⟨rfl, fun _ _ => rfl⟩) trivial
  · have hpushed : pushed = pushLoop alloc 0 server manifests := if_neg hempty
    obtain ⟨hfits, hfails⟩ := pushLoop_status alloc 0 server manifests
    rw [hpushed]
    constructor
    · intro hunchanged
      by_contra hnot
      obtain ⟨hstatus, n, hpos, hle, hcounter⟩ := hfails hnot
      exact add_ofNat_ne_self _ hpos (by omega) (hcounter.symm.trans (hunchanged hstatus).1)
    · intro htakes hstatus
      rw [hfits htakes] at hstatus
      cases hstatus

theorem metaServerPush_failed_unchanged_iff_empty_batch :
    (metaServerPushManifestBatch (fun _ => ⟨false, false⟩) (metaServerCreate ⟨1, 7⟩)
      []).server.writeSequenceCounter = 0 :=
  ((metaServerPush_failed_unchanged_iff (fun _ => ⟨false, false⟩) (metaServerCreate ⟨1, 7⟩) []
    (by decide)).mpr trivial rfl).1

/-- An array that does not grow takes new pairs of names only as far as it has room. -/
theorem not_batchFits_of_nodup {alloc : ℕ → AllocOutcome} (halloc : ∀ i, (alloc i).realloc = false)
    {names : List (CString × CString)} {manifests : List ObjectManifest} {capacity : ℕ} (i : ℕ)
    (hnodup : (names ++ manifests.map ObjectManifest.name).Nodup)
    (hle : names.length ≤ capacity) (hlt : capacity < names.length + manifests.length) :
    ¬ BatchFits alloc i names capacity manifests := by
  induction manifests generalizing names i with
  | nil => exact absurd hlt (not_lt.mpr hle)
  | cons manifest rest ih =>
    have hnew : manifest.name ∉ names := fun hmem =>
      (List.nodup_append.mp hnodup).2.2 _ hmem _ List.mem_cons_self rfl
    rw [batchFits_cons_of_notMem hnew, halloc]
    rintro ⟨hroom, hrest⟩
    have hroom : names.length < capacity := hroom.resolve_right Bool.false_ne_true
    rw [if_pos hroom] at hrest
    refine ih (i + 1) ?_ ?_ ?_ hrest
    · rwa [List.append_assoc]
    · rw [List.length_append, List.length_singleton]
      exact hroom
    · simp only [List.length_append, List.length_cons, List.length_nil] at hlt ⊢
      omega

/-- A batch of 1025 different objects for a new server, whose array has 1024 slots and does not
grow: the batch fails, and the counter has moved. -/
theorem metaServerPush_fails_half_done :
    let server := metaServerCreate ⟨1, 7⟩
    let pushed := metaServerPushManifestBatch (fun _ => ⟨false, true⟩) server
      ((List.range 1025).map numberedManifest)
    pushed.status = -1 ∧ pushed.server.writeSequenceCounter ≠ server.writeSequenceCounter := by
  intro server pushed
  have hnot : ¬ server.shard.Takes (fun _ => ⟨false, true⟩) 0
      ((List.range 1025).map numberedManifest) := by
    have hnames : server.shard.contents.map ObjectManifest.name = [] := rfl
    rw [MetaShard.Takes, hnames]
    refine not_batchFits_of_nodup (fun _ => rfl) 0 ?_ (Nat.zero_le _) ?_
    · rw [List.nil_append]
      exact nodup_numberedManifest (by omega)
    · rw [List.length_map, List.length_range]
      exact Nat.lt_succ_self 1024
  have hpushed : pushed = pushLoop (fun _ => ⟨false, true⟩) 0 server
      ((List.range 1025).map numberedManifest) := if_neg (by simp)
  obtain ⟨hstatus, n, hpos, hle, hcounter⟩ := (pushLoop_status _ _ _ _).2 hnot
  rw [List.length_map, List.length_range] at hle
  rw [hpushed, hcounter]
  exact ⟨hstatus, add_ofNat_ne_self _ hpos (by omega)⟩

end LightFS.Meta
