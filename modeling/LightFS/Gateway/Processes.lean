import LightFS.Gateway.CacheChains
import LightFS.Gateway.MetaBatch

/-!
# Gateways of one process

A process can have several gateways (`src/gateway/gateway.c`). Each has a cache, a batch and a
placement engine of its own; the counter of the fragment router (`gateway_fragment_router.c`) is
static and shared. The calls on the gateways come in any order.

A get reads the manifest cache of its gateway and nothing else. If it succeeds, it reports the size
of the object last acknowledged by that very gateway under the names, whatever the other gateways
have acknowledged since and whether the object was deleted; and its data are zeros
(`get_reports_last_put`). The router numbers the fragments of all gateways consecutively, so that no
two have one segment id, and no manifest keeps where any fragment went (`segments_numbered`).

## Main definitions

* `GatewayProcess`, `processMachine` — the gateways with the shared counter.
* `historyOf`, `lastPut` — what the callers of a gateway have seen.
* `sentFragments` — the fragments that the router has sent.

## Main results

* `gatewayMachine_step` — what one call can do.
* `get_reports_last_put`, `segments_numbered`.
-/

namespace LightFS.Gateway

open Library Meta

/-! ### Processes -/

/-- The gateways `κ` of a process and the static counter of the router. The counter that a gateway
has as a field is the one of its last call. -/
structure GatewayProcess (κ : Type*) where
  fakeSegment : UInt64
  gateways : κ → GatewayState

/-- The gateway as a call finds it. -/
def GatewayProcess.current {κ : Type*} (p : GatewayProcess κ) (g : κ) : GatewayState :=
  { p.gateways g with fakeSegment := p.fakeSegment }

/-- The calls on the gateways. -/
def processMachine {κ : Type*} [DecidableEq κ] :
    Machine (GatewayProcess κ) (κ × GatewayOp) GatewayResult where
  step p call :=
    let r := gatewayMachine.step (p.current call.1) call.2
    (⟨r.1.fakeSegment, Function.update p.gateways call.1 r.1⟩, r.2)

/-- The calls of a run with what they returned. -/
def observed {κ : Type*} [DecidableEq κ] (p : GatewayProcess κ) (calls : List (κ × GatewayOp)) :
    List ((κ × GatewayOp) × GatewayResult) :=
  calls.zip (processMachine.results p calls)

/-- What the callers of one gateway have seen. -/
def historyOf {κ : Type*} [DecidableEq κ] (g : κ) (seen : List ((κ × GatewayOp) × GatewayResult)) :
    List (GatewayOp × GatewayResult) :=
  seen.filterMap fun call => if call.1.1 = g then some (call.1.2, call.2) else none

/-- The object that a call has put under a pair of names, if it returned `0`. -/
def putData (name : CString × CString) : GatewayOp × GatewayResult → Option (List UInt8)
  | (.put _ request, .status 0) =>
    if (request.bucket.toCString, request.key.toCString) = name then request.data else none
  | _ => none

/-- The object last acknowledged under a pair of names. -/
def lastPut (name : CString × CString) (history : List (GatewayOp × GatewayResult)) :
    Option (List UInt8) :=
  history.reverse.findSome? (putData name)

/-- The fragments that a call hands to the router, with the locations they get. -/
def routedBy (gateway : GatewayState) : GatewayOp → List Fragment
  | .put calloc request =>
    match preparePut calloc gateway request with
    | none => []
    | some (_, _, fragments) => (fragmentRouterSend gateway.fakeSegment fragments).1
  | _ => []

/-- The fragments that the router sends in a run. -/
def sentFragments {κ : Type*} [DecidableEq κ] :
    GatewayProcess κ → List (κ × GatewayOp) → List Fragment
  | _, [] => []
  | p, call :: calls =>
    routedBy (p.current call.1) call.2 ++ sentFragments (processMachine.step p call).1 calls

/-! ### One call -/

section Step

variable (gateway : GatewayState) (op : GatewayOp)

/-- What a call does to the cache and the batch. -/
inductive CacheEffect (result : GatewayResult) (gateway' : GatewayState) : Prop
  /-- A put that was acknowledged stores a manifest with the size and no location. -/
  | put (calloc : ℕ → Bool) (request : GatewayPutRequest) (data : List UInt8)
      (manifest : ObjectManifest) (hop : op = .put calloc request)
      (hdata : request.data = some data)
      (hresult : result = .status 0) (hsize : manifest.size = UInt64.ofNat data.length)
      (hfragments : manifest.fragments = none)
      (hcache : gateway'.cache = manifestCacheInsert gateway.cache request.bucket.toCString
        request.key.toCString manifest)
      (hbatch : gateway'.metaBatch = gateway.metaBatch.add manifest)
  /-- A delete invalidates an entry. -/
  | delete (bucket key : CString) (hop : op = .delete bucket key)
      (hcache : gateway'.cache = manifestCacheInvalidate gateway.cache bucket key)
      (hbatch : gateway'.metaBatch = gateway.metaBatch)
  /-- Every other call leaves both as they are. -/
  | other (hseen : ∀ name, putData name (op, result) = none)
      (hcache : gateway'.cache = gateway.cache) (hbatch : gateway'.metaBatch = gateway.metaBatch)

/-- **One call on a gateway.** -/
theorem gatewayMachine_step : CacheEffect gateway op (gatewayMachine.step gateway op).2
    (gatewayMachine.step gateway op).1 := by
  cases op with
  | put calloc request =>
    have hresult : (gatewayMachine.step gateway (.put calloc request)).2 =
        .status (gatewayPutObject calloc gateway request).2 := rfl
    by_cases haccepted : ∃ data engine, PutAccepted calloc gateway request data engine
    · obtain ⟨data, engine, h⟩ := haccepted
      obtain ⟨fakeSegment, hput⟩ := gatewayPutObject_of_accepted h
      rw [hput] at hresult
      exact .put calloc request data _ rfl h.1 hresult rfl rfl (congrArg (·.1.cache) hput)
        (congrArg (·.1.metaBatch) hput)
    · obtain ⟨fakeSegment, hput⟩ := gatewayPutObject_of_not_accepted
        fun data engine h => haccepted ⟨data, engine, h⟩
      rw [hput] at hresult
      refine .other (fun name => ?_) (congrArg (·.1.cache) hput) (congrArg (·.1.metaBatch) hput)
      rw [hresult]
      rfl
  | delete bucket key => exact .delete bucket key rfl rfl rfl
  | _ => exact .other (fun _ => rfl) rfl rfl

end Step

/-! ### Gets -/

section Gets

variable {κ : Type*} [DecidableEq κ]

theorem lastPut_concat (name : CString × CString) (history : List (GatewayOp × GatewayResult))
    (call : GatewayOp × GatewayResult) :
    lastPut name (history ++ [call]) = (putData name call).or (lastPut name history) := by
  rw [lastPut, List.reverse_append, List.reverse_singleton, List.findSome?_append,
    List.findSome?_singleton, lastPut]

/-- The cache is well formed, its valid entries are the manifests of the objects last acknowledged
under their names, and no manifest lists a location. -/
structure Follows (gateway : GatewayState) (history : List (GatewayOp × GatewayResult)) :
    Prop where
  wellFormed : gateway.cache.WellFormed
  agrees : ∃ f, gateway.cache.table.Agrees f ∧ ∀ name manifest, f name = some manifest →
    manifest.fragments = none ∧
      ∃ data, lastPut name history = some data ∧ manifest.size = UInt64.ofNat data.length
  batch : ∀ manifest ∈ gateway.metaBatch.contents, manifest.fragments = none

/-- A lookup finds the manifest of the object last acknowledged under the names. -/
theorem Follows.lookup {gateway : GatewayState} {history : List (GatewayOp × GatewayResult)}
    (h : Follows gateway history) {bucket key : CString} {manifest : ObjectManifest}
    (hlookup : manifestCacheLookup gateway.cache bucket key = some manifest) :
    ∃ data, lastPut (bucket, key) history = some data ∧
      manifest.size = UInt64.ofNat data.length := by
  obtain ⟨f, hagrees, hf⟩ := h.agrees
  rw [manifestCacheLookup_eq] at hlookup
  exact (hf _ _ (hagrees.lookup h.wellFormed.capacity_pos h.wellFormed.distinct hlookup)).2

/-- Every valid slot has a manifest without locations. -/
theorem Follows.slot {gateway : GatewayState} {history : List (GatewayOp × GatewayResult)}
    (h : Follows gateway history) {i : ℕ} (hi : i < gateway.cache.capacity)
    (hvalid : (gateway.cache.entries i).isValid) :
    (gateway.cache.entries i).manifest.fragments = none := by
  obtain ⟨f, hagrees, hf⟩ := h.agrees
  exact (hf _ _ (hagrees i hi _ _ (if_pos hvalid))).1

/-- One call keeps the cache at the history. -/
theorem Follows.step {gateway : GatewayState} {history : List (GatewayOp × GatewayResult)}
    (h : Follows gateway history) (op : GatewayOp) : Follows (gatewayMachine.step gateway op).1
      (history ++ [(op, (gatewayMachine.step gateway op).2)]) := by
  obtain ⟨f, hagrees, hf⟩ := h.agrees
  cases gatewayMachine_step gateway op with
  | put calloc request data manifest hop hdata hresult hsize hfragments hcache hbatch =>
    refine ⟨by rw [hcache]; exact h.wellFormed.insert _ _ _, ⟨Function.update f
      (request.bucket.toCString, request.key.toCString) (some manifest), ?_, ?_⟩, ?_⟩
    · rw [hcache, (manifestCacheInsert_spec h.wellFormed.capacity_pos h.wellFormed.counts
        request.bucket request.key manifest).1]
      exact hagrees.insert h.wellFormed.capacity_pos h.wellFormed.distinct _ _
    · intro name found hfound
      rw [lastPut_concat, hresult, hop, putData, hdata]
      rw [Function.update_apply] at hfound
      by_cases hname : name = (request.bucket.toCString, request.key.toCString)
      · rw [if_pos hname] at hfound
        rw [if_pos hname.symm]
        obtain rfl := Option.some.inj hfound
        exact ⟨hfragments, data, rfl, hsize⟩
      · rw [if_neg hname] at hfound
        rw [if_neg (Ne.symm hname), Option.none_or]
        exact hf name found hfound
    · intro other hother
      rw [hbatch, contents_add] at hother
      rcases List.mem_append.mp hother with hold | hnew
      · exact h.batch other hold
      · rwa [List.mem_singleton.mp (List.mem_of_mem_take hnew)]
  | delete bucket key hop hcache hbatch =>
    refine ⟨by rw [hcache]; exact h.wellFormed.invalidate _ _, ⟨f, ?_, ?_⟩,
      by rw [hbatch]; exact h.batch⟩
    · rw [hcache, (manifestCacheInvalidate_spec _ _ h.wellFormed.capacity_pos
        h.wellFormed.counts).1]
      exact hagrees.erase _
    · intro name found hfound
      rw [lastPut_concat, hop]
      exact hf name found hfound
  | other hseen hcache hbatch =>
    refine ⟨by rw [hcache]; exact h.wellFormed, ⟨f, by rwa [hcache], ?_⟩,
      by rw [hbatch]; exact h.batch⟩
    intro name found hfound
    rw [lastPut_concat, hseen, Option.none_or]
    exact hf name found hfound

/-- Calls on other gateways change neither the cache nor the history of a gateway. -/
theorem follows_run {p : GatewayProcess κ} {g : κ} {seen : List ((κ × GatewayOp) × GatewayResult)}
    (h : Follows (p.gateways g) (historyOf g seen)) (calls : List (κ × GatewayOp)) :
    Follows ((processMachine.run p calls).gateways g)
      (historyOf g (seen ++ observed p calls)) := by
  induction calls generalizing p seen with
  | nil => simpa [observed] using h
  | cons call calls ih =>
    obtain ⟨g', op⟩ := call
    have hseen : seen ++ observed p ((g', op) :: calls) =
        (seen ++ [((g', op), (processMachine.step p (g', op)).2)]) ++
          observed (processMachine.step p (g', op)).1 calls := by
      simp [observed]
    rw [hseen, Machine.run_cons]
    refine ih ?_
    by_cases hg : g' = g
    · subst hg
      have hcurrent : Follows (p.current g') (historyOf g' seen) :=
        ⟨h.wellFormed, h.agrees, h.batch⟩
      simpa [processMachine, historyOf] using hcurrent.step op
    · simpa [processMachine, historyOf, hg, Function.update_of_ne (Ne.symm hg)] using h

end Gets

/-- A new gateway has an empty cache. -/
theorem follows_gatewayCreate {config : GatewayConfig} {fakeSegment : UInt64}
    {gateway : GatewayState} (h : gatewayCreate config fakeSegment = some gateway) :
    Follows gateway [] := by
  rw [gatewayCreate] at h
  split_ifs at h
  obtain rfl := Option.some.inj h
  refine ⟨manifestCacheCreate_wellFormed config.one_le_cacheSize, ⟨fun _ => none, ?_, ?_⟩, ?_⟩
  · rintro _ _ _ _ ⟨⟩
  · rintro _ _ ⟨⟩
  · rintro _ ⟨⟩

/-- The caches of gateways that were new at the start. -/
theorem follows_run_created {κ : Type*} [DecidableEq κ] {config : GatewayConfig}
    {p : GatewayProcess κ} {g : κ}
    (hcreate : gatewayCreate config p.fakeSegment = some (p.gateways g))
    (calls : List (κ × GatewayOp)) :
    Follows ((processMachine.run p calls).gateways g) (historyOf g (observed p calls)) := by
  have hstart : Follows (p.gateways g) (historyOf g []) := follows_gatewayCreate hcreate
  exact follows_run hstart calls

/-- **A get reports the last put.** Any gateways of one process, new at the start, and any calls on
them in any order: a get that succeeds on one of them afterwards has the size of the object last
acknowledged by that gateway under the names, and data that are zeros. -/
theorem get_reports_last_put {κ : Type*} [DecidableEq κ] {config : κ → GatewayConfig}
    {p : GatewayProcess κ}
    (hcreate : ∀ g, gatewayCreate (config g) p.fakeSegment = some (p.gateways g))
    (calls : List (κ × GatewayOp)) (g : κ) {calloc : Bool} {bucket key : CString}
    {response : GatewayGetResponse}
    (hget : gatewayGetObject calloc ((processMachine.run p calls).gateways g) bucket key =
      some response) :
    ∃ data, lastPut (bucket, key) (historyOf g (observed p calls)) = some data ∧
      response.size = UInt64.ofNat data.length ∧
      response.data = List.replicate (if 0 < response.size then response.size.toNat else 1) 0 ∧
      response.errorCode = 0 := by
  have hfollows := follows_run_created (hcreate g) calls
  rw [gatewayGetObject] at hget
  split at hget
  · cases hget
  · rename_i manifest hlookup
    obtain rfl : _ = response := by
      cases calloc with
      | false => cases hget
      | true => exact Option.some.inj hget
    obtain ⟨data, hlast, hsize⟩ := hfollows.lookup hlookup
    exact ⟨data, hlast, hsize, rfl, rfl⟩

/-- A configuration with a cache of two manifests. -/
def tinyConfig : GatewayConfig := { smallConfig with manifestCacheSize := 2 }

/-- Two gateways of one process. -/
def twoGateways : GatewayProcess Bool := ⟨0, fun _ => (gatewayCreate tinyConfig 0).get rfl⟩

/-- The nodes of the first one, and a put through it. -/
def putThroughFirst : List (Bool × GatewayOp) :=
  registerTwoNodes.map (true, ·) ++ [(true, .put (fun _ => true) (oneBytePut 107 (by decide)))]

/-- The first gateway reports the size of the object. -/
theorem get_reports_last_put_twoGateways :
    (∀ g, gatewayCreate tinyConfig twoGateways.fakeSegment = some (twoGateways.gateways g)) ∧
    ∃ bucket key response, gatewayGetObject true
        ((processMachine.run twoGateways putThroughFirst).gateways true) bucket key =
          some response ∧
      ∃ data, lastPut (bucket, key) (historyOf true (observed twoGateways putThroughFirst)) =
          some data ∧
        response.size = UInt64.ofNat data.length ∧
        response.data =
          List.replicate (if 0 < response.size then response.size.toNat else 1) 0 ∧
        response.errorCode = 0 := by
  have hcreate (g : Bool) :
      gatewayCreate tinyConfig twoGateways.fakeSegment = some (twoGateways.gateways g) :=
    (Option.some_get rfl).symm
  have hfound : (gatewayGetObject true
      ((processMachine.run twoGateways putThroughFirst).gateways true)
      (oneBytePut 107 (by decide)).bucket.toCString
      (oneBytePut 107 (by decide)).key.toCString).isSome = true := by decide
  obtain ⟨response, hget⟩ := Option.isSome_iff_exists.mp hfound
  exact ⟨hcreate, _, _, response, hget,
    get_reports_last_put hcreate putThroughFirst true hget⟩

/-! ### Fragments -/

section Fragments

variable {κ : Type*} [DecidableEq κ]

/-- The router numbers fragments consecutively. -/
theorem segmentId_assignLocations (i : ℕ) (segment : UInt64) (fragments : List Fragment) :
    (assignLocations i segment fragments).1.map (·.location.segmentId) =
        (List.range fragments.length).map (fun j => segment + UInt64.ofNat j) ∧
      (assignLocations i segment fragments).2 = segment + UInt64.ofNat fragments.length := by
  induction fragments generalizing i segment with
  | nil => simp [assignLocations]
  | cons fragment rest ih =>
    obtain ⟨hids, hnext⟩ := ih (i + 1) (segment + 1)
    have hadd (j : ℕ) : segment + 1 + UInt64.ofNat j = segment + UInt64.ofNat (j + 1) := by
      rw [UInt64.ofNat_add, UInt64.add_assoc, UInt64.add_comm 1]
      rfl
    constructor
    · rw [assignLocations, List.map_cons, hids, List.length_cons, List.range_succ_eq_map,
        List.map_cons, List.map_map]
      simp [hadd, Function.comp_def]
    · rw [assignLocations, hnext, hadd, List.length_cons]

/-- The fragments that the router is given are numbered from the counter on, and the counter goes on
behind them. -/
theorem segmentId_fragmentRouterSend (segment : UInt64) (fragments : List Fragment) :
    (fragmentRouterSend segment fragments).1.map (·.location.segmentId) =
        (List.range (fragmentRouterSend segment fragments).1.length).map
          (fun j => segment + UInt64.ofNat j) ∧
      (fragmentRouterSend segment fragments).2.1 =
        segment + UInt64.ofNat (fragmentRouterSend segment fragments).1.length := by
  rw [fragmentRouterSend]
  split_ifs with hnil
  · simp [hnil]
  · obtain ⟨hids, hnext⟩ := segmentId_assignLocations 0 segment fragments
    have hlength : (assignLocations 0 segment fragments).1.length = fragments.length := by
      simpa using congrArg List.length hids
    exact ⟨by rw [hlength]; exact hids, by rw [hlength]; exact hnext⟩

/-- So are the fragments of a call. -/
theorem segmentId_routedBy (gateway : GatewayState) (op : GatewayOp) :
    (routedBy gateway op).map (·.location.segmentId) =
        (List.range (routedBy gateway op).length).map
          (fun j => gateway.fakeSegment + UInt64.ofNat j) ∧
      (gatewayMachine.step gateway op).1.fakeSegment =
        gateway.fakeSegment + UInt64.ofNat (routedBy gateway op).length := by
  cases op with
  | put calloc request =>
    simp only [routedBy, gatewayMachine, gatewayPutObject]
    cases hprepare : preparePut calloc gateway request with
    | none => simp
    | some prepared =>
      obtain ⟨data, engine, fragments⟩ := prepared
      obtain ⟨hids, hnext⟩ := segmentId_fragmentRouterSend gateway.fakeSegment fragments
      refine ⟨hids, ?_⟩
      dsimp only
      split_ifs <;> exact hnext
  | _ => simp [routedBy, gatewayMachine, gatewayDeleteObject, gatewaySetErasureCodingPolicy]

/-- So are the fragments of a run. -/
theorem segmentId_sentFragments (p : GatewayProcess κ) (calls : List (κ × GatewayOp)) :
    (sentFragments p calls).map (·.location.segmentId) =
      (List.range (sentFragments p calls).length).map
        (fun j => p.fakeSegment + UInt64.ofNat j) := by
  induction calls generalizing p with
  | nil => rfl
  | cons call calls ih =>
    obtain ⟨hids, hnext⟩ := segmentId_routedBy (p.current call.1) call.2
    have hcounter : (processMachine.step p call).1.fakeSegment =
        p.fakeSegment + UInt64.ofNat (routedBy (p.current call.1) call.2).length := hnext
    rw [sentFragments, List.map_append, hids, ih, hcounter, List.length_append, List.range_add,
      List.map_append, List.map_map]
    simp [Function.comp_def, UInt64.ofNat_add, UInt64.add_assoc, GatewayProcess.current]

/-- Fewer than `2 ^ 64` consecutive numbers are different. -/
theorem nodup_consecutive (segment : UInt64) {n : ℕ} (hn : n ≤ 2 ^ 64) :
    ((List.range n).map fun j => segment + UInt64.ofNat j).Nodup := by
  refine List.nodup_range.map_on fun i hi j hj hij => ?_
  have heq : UInt64.ofNat i = UInt64.ofNat j := UInt64.add_right_inj segment |>.mp hij
  have hsize : UInt64.size = 2 ^ 64 := rfl
  have hi' := List.mem_range.mp hi
  have hj' := List.mem_range.mp hj
  have htoNat := congrArg UInt64.toNat heq
  rwa [UInt64.toNat_ofNat_of_lt' (by omega), UInt64.toNat_ofNat_of_lt' (by omega)] at htoNat

end Fragments

/-- **Segments.** Any gateways of one process, new at the start, and any calls on them in any order:
the fragments that were sent have the segment ids from the counter on, each its own as long as there
are at most `2 ^ 64`; and no manifest, be it in a valid slot of a cache or in a batch, lists a
location. -/
theorem segments_numbered {κ : Type*} [DecidableEq κ] {config : κ → GatewayConfig}
    {p : GatewayProcess κ}
    (hcreate : ∀ g, gatewayCreate (config g) p.fakeSegment = some (p.gateways g))
    (calls : List (κ × GatewayOp)) :
    (sentFragments p calls).map (·.location.segmentId) =
        (List.range (sentFragments p calls).length).map
          (fun j => p.fakeSegment + UInt64.ofNat j) ∧
      ((sentFragments p calls).length ≤ 2 ^ 64 →
        ((sentFragments p calls).map (·.location.segmentId)).Nodup) ∧
      ∀ g, let gateway := (processMachine.run p calls).gateways g
        (∀ manifest ∈ gateway.metaBatch.contents, manifest.fragments = none) ∧
        ∀ i < gateway.cache.capacity, (gateway.cache.entries i).isValid →
          (gateway.cache.entries i).manifest.fragments = none := by
  have hids := segmentId_sentFragments p calls
  refine ⟨hids, fun hn => by rw [hids]; exact nodup_consecutive _ hn, fun g => ?_⟩
  have hfollows := follows_run_created (hcreate g) calls
  exact ⟨hfollows.batch, fun i hi hvalid => hfollows.slot hi hvalid⟩

/-- Two fragments of one put have two segments. -/
theorem segments_numbered_twoGateways :
    (∀ g, gatewayCreate tinyConfig twoGateways.fakeSegment = some (twoGateways.gateways g)) ∧
    (sentFragments twoGateways putThroughFirst).length = 2 ∧
    ((sentFragments twoGateways putThroughFirst).map (·.location.segmentId)).Nodup := by
  have hcreate (g : Bool) :
      gatewayCreate tinyConfig twoGateways.fakeSegment = some (twoGateways.gateways g) :=
    (Option.some_get rfl).symm
  have hlength : (sentFragments twoGateways putThroughFirst).length = 2 := by decide
  exact ⟨hcreate, hlength,
    (segments_numbered hcreate putThroughFirst).2.1 (by rw [hlength]; decide)⟩

end LightFS.Gateway
