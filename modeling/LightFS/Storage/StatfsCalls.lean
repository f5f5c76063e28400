import LightFS.Storage.Responses

/-!
# STATFS calls from the client to the shards and back

A STATFS call of the client goes to the RPC thread of the server, from there to every shard, and the
execution that counts itself off as the last one sends the reply, which the RPC thread encodes and
the client decodes (`src/storage_client/storage_client.c`, `src/storage_server/rpc_handler.c`,
`src/storage_server/callback_bridge.c`). Here the allocations on the way can fail. The handler then
answers with an internal error. An execution that finds no memory for its message releases the
aggregator and sends nothing, and one that finds none for the sizes sends a reply without them. The
RPC thread drops a reply that it has no memory to encode.

Calls share nothing but the threads they run on, so the calls are components side by side. For any
calls at once and any order of their steps, each call gets at most one callback
(`statfs_calls_answered`). When nothing of a call is left to do it has got one with an error and no
sizes, if there are no shards or the handler found no memory; else it has got the sums over its
shards, or zeros where the sizes found no memory; or none at all, if its message found no memory or
was dropped.

## Main definitions

* `collectShard`, `handleStatfs` — the source, with allocations that can fail.
* `StatfsCall`, `StatfsEvent`, `statfsCallMachine`.
* `statfsMessage`, `statfsAnswer` — the message of a call, and what the client makes of it.

## Main results

* `CollectPhase.step` — what one step of an execution does.
* `statfs_calls_answered`.
-/

namespace LightFS.Storage

open Library

/-! ### The code -/

/-- The outcomes of the allocations of an execution that counts itself off as the last one. -/
@[ext]
structure CollectAllocs where
  msg : Bool
  extra : Bool

/-- One step of `collect_shard_statfs`, allocations included. -/
def collectShard {ι : Type} (allocs : CollectAllocs) (i : ι) (sizes : Option (UInt64 × UInt64))
    (l : CollectPoint) (s : StatfsShared ι) : CollectPoint × StatfsShared ι :=
  match l with
  | .decrement => accessAgg l s fun agg =>
    let rem := agg.remaining - 1
    (if rem = 0 then if allocs.msg then .copyRequestId else .freeAgg else .freeCtx,
      { s with agg := some { agg with remaining := rem } })
  | .testErrors requestId => accessAgg l s fun agg =>
    let result := if 0 < agg.errorCount then ioError else ioSuccess
    (if allocs.extra then .copyTotal requestId result
      else .sendMsg
        { requestId := requestId, result := result, opcode := .statfs, extraData := none,
          extraLen := 0 }, s)
  | l => collectShardStatfs i sizes l s

/-- The outcomes of the allocations of `rpc_handler_statfs`. -/
structure StatfsAllocs where
  agg : Bool
  ctxs : Bool
  ctx : ℕ → Bool

/-- The handler finds memory for the aggregator and for the executions of `n` shards. -/
def StatfsAllocs.Suffice (allocs : StatfsAllocs) (n : ℕ) : Prop :=
  allocs.agg ∧ allocs.ctxs ∧ ∀ i < n, allocs.ctx i

instance (allocs : StatfsAllocs) (n : ℕ) : Decidable (allocs.Suffice n) :=
  inferInstanceAs (Decidable (_ ∧ _ ∧ ∀ i < n, _))

/-- `rpc_handler_statfs`: a status and a body at once, or an execution for each shard. -/
def handleStatfs (allocs : StatfsAllocs) (requestId : UInt64) (n : ℕ) :
    Except (NrpcStatus × List UInt8) (Interleaved (Fin n) CollectPoint (StatfsShared (Fin n))) :=
  match rpcHandlerStatfs requestId n with
  | .error body => .error (.ok, body)
  | .ok c => if allocs.Suffice n then .ok c else .error (.internal, [])

/-! ### Calls -/

/-- A call: whether its request waits for the RPC thread, its executions, how many of their messages
the RPC thread has taken and how many of these it dropped, the responses on their way and the
callbacks made. -/
structure StatfsCall (n : ℕ) where
  requested : Bool
  executions : Option (Interleaved (Fin n) CollectPoint (StatfsShared (Fin n)))
  taken : ℕ
  dropped : ℕ
  responses : List ResponseFrame
  callbacks : List ClientCallback

/-- What happens to a call. -/
inductive StatfsEvent (n : ℕ) where
  /-- The RPC thread handles the request. -/
  | handle
  /-- The execution on a shard takes a step. -/
  | collect (i : Fin n)
  /-- The RPC thread runs `send_deferred_reply`, with memory or not, while a send is in flight or
  not. -/
  | deliver (succeeds busy : Bool)
  /-- The client gets a response. -/
  | receive

/-- What is given for a call: its id, what its shards return and the outcomes of its
allocations. -/
structure StatfsSetting (n : ℕ) where
  requestId : UInt64
  sizes : Fin n → Option (UInt64 × UInt64)
  handlerAllocs : StatfsAllocs
  collectAllocs : Fin n → CollectAllocs

namespace StatfsCall

variable {n : ℕ}

/-- The client has sent the request. -/
def initial (n : ℕ) : StatfsCall n := ⟨true, none, 0, 0, [], []⟩

/-- The messages for the RPC thread. -/
def messages (call : StatfsCall n) : List ReplyMsg :=
  ((call.executions.map fun c => c.shared.messages.map Prod.snd)).getD []

/-- The callback of `client_response_cb` for a response. -/
def callbackOf (frame : ResponseFrame) : ClientCallback :=
  clientResponseCb .statfs frame.status frame.body 0

/-- One step of the executions of a call. -/
def collectMachine (setting : StatfsSetting n) :
    Machine (Interleaved (Fin n) CollectPoint (StatfsShared (Fin n))) (Fin n) Unit :=
  interleave fun i => collectShard (setting.collectAllocs i) i (setting.sizes i)

def step (setting : StatfsSetting n) (call : StatfsCall n) : StatfsEvent n → StatfsCall n
  | .handle =>
    if call.requested then
      match handleStatfs setting.handlerAllocs setting.requestId n with
      | .error (status, body) =>
        { call with
          requested := false
          responses := call.responses ++ [⟨setting.requestId, status, body⟩] }
      | .ok c => { call with requested := false, executions := some c }
    else call
  | .collect i =>
    { call with executions := call.executions.map fun c => ((collectMachine setting).step c i).1 }
  | .deliver succeeds busy =>
    match call.messages[call.taken]? with
    | none => call
    | some msg =>
      if succeeds then
        match sendDeferredReply msg busy with
        | .sent frame =>
          { call with taken := call.taken + 1, responses := call.responses ++ [frame] }
        | .requeued _ => call
        | .dropped => { call with taken := call.taken + 1, dropped := call.dropped + 1 }
      else { call with taken := call.taken + 1, dropped := call.dropped + 1 }
  | .receive =>
    match call.responses with
    | [] => call
    | frame :: responses =>
      { call with responses := responses, callbacks := call.callbacks ++ [callbackOf frame] }

/-- Nothing of the call is left to do. -/
structure Settled (call : StatfsCall n) : Prop where
  requested : call.requested = false
  executions : ∀ c ∈ call.executions, ∀ i, c.threads i = .done
  taken : call.taken = call.messages.length
  responses : call.responses = []

end StatfsCall

/-- One call. -/
def statfsCallMachine {n : ℕ} (setting : StatfsSetting n) :
    Machine (StatfsCall n) (StatfsEvent n) Unit :=
  ⟨fun call event => (call.step setting event, ())⟩

/-! ### The message of a call -/

/-- The message that an execution makes of a reply. -/
def CollectAllocs.message (allocs : CollectAllocs) (reply : ReplyMsg) : Option ReplyMsg :=
  if allocs.msg then
    some (if allocs.extra then reply else { reply with extraData := none, extraLen := 0 })
  else none

/-- The message of a call whose last execution has these allocations. -/
def statfsMessage {n : ℕ} (setting : StatfsSetting n) (i : Fin n) : Option ReplyMsg :=
  (setting.collectAllocs i).message (statfsReply setting.requestId setting.sizes)

/-- The callback that a message leads to. -/
def messageCallback (msg : ReplyMsg) : ClientCallback :=
  StatfsCall.callbackOf ⟨msg.requestId, .ok, deferredBody msg⟩

/-- The result of a call: an error if a shard failed. -/
def statfsResult {n : ℕ} (setting : StatfsSetting n) : UInt32 :=
  if ∃ j, setting.sizes j = none then ioError else ioSuccess

/-- What the client makes of it: the result, and the sums of the sizes of the shards that did not
fail. -/
def statfsAnswer {n : ℕ} (setting : StatfsSetting n) (i : Fin n) : List ClientCallback :=
  if (setting.collectAllocs i).msg then
    if (setting.collectAllocs i).extra then
      [.statfs (statfsResult setting) (UInt64.ofNat (∑ j, totalOf (setting.sizes j)))
        (UInt64.ofNat (∑ j, usedOf (setting.sizes j)))]
    else [.statfs (statfsResult setting) 0 0]
  else []

section Message

variable {n : ℕ} (setting : StatfsSetting n)

/-- The body of the reply. -/
theorem deferredBody_statfsReply : deferredBody (statfsReply setting.requestId setting.sizes) =
    leBytes 4 (statfsResult setting).toNat ++
      (leBytes 8 (UInt64.ofNat (∑ j, totalOf (setting.sizes j))).toNat ++
        leBytes 8 (UInt64.ofNat (∑ j, usedOf (setting.sizes j))).toNat) := by
  rw [UInt64.toNat_ofNat', UInt64.toNat_ofNat']
  have htake := List.take_of_length_le (i := 16) (l := leBytes 8
    ((∑ j, totalOf (setting.sizes j)) % 2 ^ 64) ++
      leBytes 8 ((∑ j, usedOf (setting.sizes j)) % 2 ^ 64)) (by simp)
  rw [← htake]
  rfl

/-- The body of the reply without the sizes. -/
theorem deferredBody_without_sizes :
    deferredBody { statfsReply setting.requestId setting.sizes with
      extraData := none, extraLen := 0 } =
    leBytes 4 (statfsResult setting).toNat ++
      (leBytes 8 (0 : UInt64).toNat ++ leBytes 8 (0 : UInt64).toNat) := by
  have hzeros : leBytes 8 (0 : UInt64).toNat ++ leBytes 8 (0 : UInt64).toNat =
      List.replicate 16 0 := by decide
  rw [hzeros]
  rfl

/-- The client decodes what the RPC thread encodes. -/
theorem map_callback_statfsMessage (i : Fin n) :
    (statfsMessage setting i).toList.map messageCallback = statfsAnswer setting i := by
  rw [statfsMessage, CollectAllocs.message, statfsAnswer]
  split_ifs with hmsg hextra
  · have hcb := clientResponseCb_statfs (statfsResult setting)
      (UInt64.ofNat (∑ j, totalOf (setting.sizes j))) (UInt64.ofNat (∑ j, usedOf (setting.sizes j)))
    rw [← deferredBody_statfsReply] at hcb
    simpa [messageCallback, StatfsCall.callbackOf] using hcb
  · have hcb := clientResponseCb_statfs (statfsResult setting) 0 0
    rw [← deferredBody_without_sizes] at hcb
    simpa [messageCallback, StatfsCall.callbackOf] using hcb
  · rfl

/-- A message is not too long for nrpc. -/
theorem length_deferredBody_statfsMessage {i : Fin n} {msg : ReplyMsg}
    (hmsg : msg ∈ statfsMessage setting i) : (deferredBody msg).length ≤ nrpcMaxBody := by
  have hmax : nrpcMaxBody = 2 ^ 20 := rfl
  rw [statfsMessage, CollectAllocs.message] at hmsg
  split_ifs at hmsg with _ hextra
  · obtain rfl := Option.some.inj hmsg
    rw [deferredBody_statfsReply, hmax]
    simp
  · obtain rfl := Option.some.inj hmsg
    rw [deferredBody_without_sizes, hmax]
    simp
  · cases hmsg

end Message

/-! ### The executions of a call -/

/-- The points of the execution `i` that counted itself off as the last one, with the messages sent
so far. -/
def CollectPoint.Finishes {ι : Type} (allocs : CollectAllocs) (agg : StatfsAggregator) (i : ι)
    (sent : List (ι × ReplyMsg)) : CollectPoint → Prop
  | .copyRequestId => sent = [] ∧ allocs.msg = true
  | .testErrors requestId => sent = [] ∧ allocs.msg = true ∧ requestId = agg.requestId
  | .copyTotal requestId result => sent = [] ∧ allocs = ⟨true, true⟩ ∧
    requestId = agg.requestId ∧ result = agg.result
  | .copyUsed requestId result total => sent = [] ∧ allocs = ⟨true, true⟩ ∧
    requestId = agg.requestId ∧ result = agg.result ∧ total = agg.totalSize
  | .sendMsg msg => sent = [] ∧ allocs.message agg.reply = some msg
  | .freeAgg => sent = (allocs.message agg.reply).toList.map (i, ·)
  | _ => False

section Executions

variable {n : ℕ} (setting : StatfsSetting n)

/-- The execution `i`, the last to count itself off, is about to release the aggregator. -/
structure Finishing (i : Fin n) (agg : StatfsAggregator)
    (c : Interleaved (Fin n) CollectPoint (StatfsShared (Fin n))) : Prop where
  shared : ∃ sent, c.shared = { agg := some agg, messages := sent, faulted := false } ∧
    (c.threads i).Finishes (setting.collectAllocs i) agg i sent
  reply : agg.reply = statfsReply setting.requestId setting.sizes
  leaves : ∀ j, j ≠ i → (c.threads j).Leaves

/-- The execution `i` has released the aggregator. -/
structure Finished (i : Fin n)
    (c : Interleaved (Fin n) CollectPoint (StatfsShared (Fin n))) : Prop where
  shared : c.shared = { agg := none, messages := (statfsMessage setting i).toList.map (i, ·),
                        faulted := false }
  leaves : ∀ j, (c.threads j).Leaves

/-- The states that the executions go through. -/
inductive CollectPhase (c : Interleaved (Fin n) CollectPoint (StatfsShared (Fin n))) : Prop
  | collecting (agg : StatfsAggregator)
      (h : Collecting setting.requestId setting.sizes agg c)
  | finishing (i : Fin n) (agg : StatfsAggregator) (h : Finishing setting i agg c)
  | finished (i : Fin n) (h : Finished setting i c)

variable {setting} {c : Interleaved (Fin n) CollectPoint (StatfsShared (Fin n))}
  {agg : StatfsAggregator}

/-- The state after a step of which the outcome is known. -/
theorem collectMachine_step {i : Fin n} {l : CollectPoint} {s : StatfsShared (Fin n)}
    (h : collectShard (setting.collectAllocs i) i (setting.sizes i) (c.threads i) c.shared =
      (l, s)) :
    ((StatfsCall.collectMachine setting).step c i).1 =
      { threads := Function.update c.threads i l, shared := s } := by
  simp only [StatfsCall.collectMachine, interleave, h]

/-- As long as no execution counts itself off as the last one, allocations play no role. -/
theorem collectShard_eq_of_collects (allocs : CollectAllocs) (i : Fin n)
    {size : Option (UInt64 × UInt64)} {l : CollectPoint} (hl : l.Collects size)
    {s : StatfsShared (Fin n)} (hs : s.agg = some agg)
    (hlast : ¬ (l = .decrement ∧ agg.remaining = 1)) :
    collectShard allocs i size l s = collectShardStatfs i size l s := by
  cases l with
  | decrement =>
    have hremaining : agg.remaining - 1 ≠ 0 := fun h => hlast ⟨rfl, by omega⟩
    simp only [collectShard, collectShardStatfs, accessAgg, hs, if_neg hremaining]
  | testErrors requestId => exact hl.elim
  | _ => rfl

/-- A step while sizes are collected. -/
theorem Collecting.collect_step (hn : n < 2 ^ 31)
    (h : Collecting setting.requestId setting.sizes agg c) (i : Fin n) :
    CollectPhase setting ((StatfsCall.collectMachine setting).step c i).1 := by
  by_cases hlast : c.threads i = .decrement ∧ agg.remaining = 1
  · obtain ⟨hi, hone⟩ := hlast
    -- the aggregator is the one that the step has without allocations that fail
    obtain ⟨agg', hreporting⟩ := h.step_last hn hi hone
    have hold := h.decrement_eq hi
    rw [statfsMachine_step hold] at hreporting
    obtain ⟨sent, hshared, -⟩ := hreporting.shared
    obtain ⟨hagg, rfl⟩ : ({ agg with remaining := agg.remaining - 1 } : StatfsAggregator) = agg' ∧
        [] = sent := by
      simpa using hshared
    have hnew : collectShard (setting.collectAllocs i) i (setting.sizes i) (c.threads i) c.shared =
        (if (setting.collectAllocs i).msg then .copyRequestId else .freeAgg,
          { agg := some agg', messages := [], faulted := false }) := by
      rw [hi, h.shared, ← hagg]
      simp [collectShard, accessAgg, hone]
    refine .finishing i agg' ?_
    rw [collectMachine_step hnew]
    refine ⟨⟨[], rfl, ?_⟩, hreporting.reply, fun j hj => ?_⟩
    · simp only [Function.update_self]
      split_ifs with hmsg
      · exact ⟨rfl, hmsg⟩
      · simp [CollectPoint.Finishes, CollectAllocs.message, hmsg]
    · simpa only [Function.update_of_ne hj] using hreporting.leaves j hj
  · have hsame : ((StatfsCall.collectMachine setting).step c i).1 =
        ((statfsMachine setting.sizes).step c i).1 := by
      have hagg : c.shared.agg = some agg := congrArg (·.agg) h.shared
      rw [collectMachine_step
        (collectShard_eq_of_collects (setting.collectAllocs i) i (h.collects i) hagg hlast)]
      rfl
    rw [hsame]
    rcases h.step hn i with ⟨agg', h'⟩ | ⟨hi, hone, -⟩
    · exact .collecting agg' h'
    · exact absurd ⟨hi, hone⟩ hlast

/-- A step of the finishing execution that keeps the aggregator. -/
theorem Finishing.update {i : Fin n} (h : Finishing setting i agg c) {l : CollectPoint}
    {sent : List (Fin n × ReplyMsg)}
    (hstep : collectShard (setting.collectAllocs i) i (setting.sizes i) (c.threads i) c.shared =
      (l, { agg := some agg, messages := sent, faulted := false }))
    (hfinishes : l.Finishes (setting.collectAllocs i) agg i sent) :
    CollectPhase setting ((StatfsCall.collectMachine setting).step c i).1 := by
  refine .finishing i agg ?_
  rw [collectMachine_step hstep]
  refine ⟨⟨sent, rfl, ?_⟩, h.reply, fun j hj => ?_⟩
  · simpa only [Function.update_self] using hfinishes
  · simpa only [Function.update_of_ne hj] using h.leaves j hj

/-- A step of the finishing execution. -/
theorem Finishing.step_self {i : Fin n} (h : Finishing setting i agg c) :
    CollectPhase setting ((StatfsCall.collectMachine setting).step c i).1 := by
  obtain ⟨sent, hshared, hfinishes⟩ := h.shared
  have hstep {l : CollectPoint} (hi : c.threads i = l) :
      collectShard (setting.collectAllocs i) i (setting.sizes i) (c.threads i) c.shared =
        collectShard (setting.collectAllocs i) i (setting.sizes i) l
          { agg := some agg, messages := sent, faulted := false } := by
    rw [hshared, hi]
  cases hi : c.threads i with
  | copyRequestId =>
    rw [hi] at hfinishes
    exact h.update (hstep hi) ⟨hfinishes.1, hfinishes.2, rfl⟩
  | testErrors requestId =>
    rw [hi] at hfinishes
    obtain ⟨rfl, hmsg, rfl⟩ := hfinishes
    by_cases hextra : (setting.collectAllocs i).extra = true
    · refine h.update (l := .copyTotal agg.requestId agg.result) ?_
        ⟨rfl, CollectAllocs.ext hmsg hextra, rfl, rfl⟩
      rw [hstep hi]
      simp [collectShard, accessAgg, hextra, StatfsAggregator.result]
    · refine h.update (l := .sendMsg { agg.reply with extraData := none, extraLen := 0 }) ?_
        ⟨rfl, ?_⟩
      · rw [hstep hi]
        simp [collectShard, accessAgg, hextra, StatfsAggregator.reply, StatfsAggregator.result]
      · rw [CollectAllocs.message, if_pos hmsg, if_neg hextra]
  | copyTotal requestId result =>
    rw [hi] at hfinishes
    obtain ⟨rfl, hallocs, rfl, rfl⟩ := hfinishes
    exact h.update (hstep hi) ⟨rfl, hallocs, rfl, rfl, rfl⟩
  | copyUsed requestId result total =>
    rw [hi] at hfinishes
    obtain ⟨rfl, hallocs, rfl, rfl, rfl⟩ := hfinishes
    refine h.update (hstep hi) ⟨rfl, ?_⟩
    rw [hallocs]
    rfl
  | sendMsg msg =>
    rw [hi] at hfinishes
    obtain ⟨rfl, hmsg⟩ := hfinishes
    refine h.update (hstep hi) ?_
    rw [CollectPoint.Finishes, hmsg]
    rfl
  | freeAgg =>
    rw [hi] at hfinishes
    obtain rfl : sent = _ := hfinishes
    refine .finished i ?_
    rw [collectMachine_step (hstep hi)]
    refine ⟨?_, fun j => ?_⟩
    · rw [statfsMessage, ← h.reply]
      rfl
    · by_cases hj : j = i
      · subst hj
        simp only [Function.update_self]
        trivial
      · simpa only [Function.update_of_ne hj] using h.leaves j hj
  | _ =>
    rw [hi] at hfinishes
    exact hfinishes.elim

/-- A step of an execution that has nothing left to do with the aggregator. -/
theorem collectShard_of_leaves (allocs : CollectAllocs) {i : Fin n} {l : CollectPoint}
    (h : l.Leaves) (size : Option (UInt64 × UInt64)) (shared : StatfsShared (Fin n)) :
    collectShard allocs i size l shared = (.done, shared) := by
  cases l <;> first | rfl | exact h.elim

/-- **One step of an execution**, whichever of its allocations fail. -/
theorem CollectPhase.step (hn : n < 2 ^ 31) (h : CollectPhase setting c) (j : Fin n) :
    CollectPhase setting ((StatfsCall.collectMachine setting).step c j).1 := by
  rcases h with ⟨agg, h⟩ | ⟨i, agg, h⟩ | ⟨i, h⟩
  · exact h.collect_step hn j
  · by_cases hj : j = i
    · subst hj
      exact h.step_self
    · obtain ⟨sent, hshared, hfinishes⟩ := h.shared
      refine .finishing i agg ?_
      rw [collectMachine_step (collectShard_of_leaves _ (h.leaves j hj) _ _)]
      refine ⟨⟨sent, hshared, ?_⟩, h.reply, fun k hk => leaves_update trivial (h.leaves k hk)⟩
      simpa only [Function.update_of_ne (Ne.symm hj)] using hfinishes
  · refine .finished i ?_
    rw [collectMachine_step (collectShard_of_leaves _ (h.leaves j) _ _)]
    exact ⟨h.shared, fun k => leaves_update trivial (h.leaves k)⟩

/-- Every step brings an execution closer to its end. -/
theorem rank_collectShard_of_agg {s : StatfsShared (Fin n)} (hs : s.agg = some agg)
    (allocs : CollectAllocs) (i : Fin n) (size : Option (UInt64 × UInt64)) (l : CollectPoint) :
    (collectShard allocs i size l s).1.rank ≤ l.rank - 1 := by
  cases l with
  | decrement =>
    simp only [collectShard, accessAgg, hs]
    split_ifs <;> exact Nat.le_of_ble_eq_true rfl
  | testErrors requestId =>
    simp only [collectShard, accessAgg, hs]
    split_ifs <;> exact Nat.le_of_ble_eq_true rfl
  | _ => exact rank_collectShardStatfs_of_agg hs i size _

theorem CollectPhase.rank_le (h : CollectPhase setting c) (i : Fin n) :
    (collectShard (setting.collectAllocs i) i (setting.sizes i) (c.threads i) c.shared).1.rank ≤
      (c.threads i).rank - 1 := by
  rcases h with ⟨agg, h⟩ | ⟨j, agg, h⟩ | ⟨j, h⟩
  · exact rank_collectShard_of_agg (congrArg (·.agg) h.shared) _ i _ _
  · obtain ⟨sent, hshared, -⟩ := h.shared
    exact rank_collectShard_of_agg (congrArg (·.agg) hshared) _ i _ _
  · rw [collectShard_of_leaves _ (h.leaves i)]
    exact Nat.zero_le _

theorem CollectPhase.faulted (h : CollectPhase setting c) : c.shared.faulted = false := by
  rcases h with ⟨agg, h⟩ | ⟨i, agg, h⟩ | ⟨i, h⟩
  · exact congrArg (·.faulted) h.shared
  · obtain ⟨sent, hshared, -⟩ := h.shared
    exact congrArg (·.faulted) hshared
  · exact congrArg (·.faulted) h.shared

theorem CollectPoint.Finishes.sent {allocs : CollectAllocs} {i : Fin n}
    {sent : List (Fin n × ReplyMsg)} {l : CollectPoint} (h : l.Finishes allocs agg i sent) :
    sent = [] ∨ sent = (allocs.message agg.reply).toList.map (i, ·) := by
  cases l <;> first | exact .inl h.1 | exact .inr h | exact h.elim

/-- The messages of the executions are none, or what the last one sends. -/
theorem CollectPhase.messages (h : CollectPhase setting c) : c.shared.messages = [] ∨
    ∃ i, c.shared.messages = (statfsMessage setting i).toList.map (i, ·) := by
  rcases h with ⟨agg, h⟩ | ⟨i, agg, h⟩ | ⟨i, h⟩
  · exact .inl (congrArg (·.messages) h.shared)
  · obtain ⟨sent, hshared, hfinishes⟩ := h.shared
    rw [hshared]
    refine hfinishes.sent.imp_right fun hsent => ⟨i, ?_⟩
    rw [statfsMessage, ← h.reply]
    exact hsent
  · exact .inr ⟨i, congrArg (·.messages) h.shared⟩

/-- When all executions are done, one of them has released the aggregator. -/
theorem CollectPhase.finished_of_done (h : CollectPhase setting c)
    (hdone : ∀ i, c.threads i = .done) : ∃ i, Finished setting i c := by
  rcases h with ⟨agg, h⟩ | ⟨i, agg, h⟩ | ⟨i, h⟩
  · obtain ⟨i, hi⟩ := h.exists_not_done
    exact absurd (hdone i) hi
  · obtain ⟨sent, -, hfinishes⟩ := h.shared
    rw [hdone i] at hfinishes
    exact hfinishes.elim
  · exact ⟨i, h⟩

/-- A message once sent stays. -/
theorem messages_collectShard (allocs : CollectAllocs) (i : Fin n)
    (size : Option (UInt64 × UInt64)) (l : CollectPoint) (s : StatfsShared (Fin n)) :
    s.messages <+: (collectShard allocs i size l s).2.messages := by
  cases l with
  | getStatfs => cases size <;> exact List.prefix_rfl
  | freeCtx => exact List.prefix_rfl
  | done => exact List.prefix_rfl
  | _ => cases hs : s.agg <;> simp [collectShard, collectShardStatfs, accessAgg, hs]

/-- Executions with enough turns are all done. -/
theorem CollectPhase.run_done (hn : n < 2 ^ 31) (h : CollectPhase setting c)
    {schedule : List (Fin n)} (hturns : ∀ i, 11 ≤ schedule.count i) (i : Fin n) :
    (((StatfsCall.collectMachine setting).run c schedule).threads i) = .done := by
  refine eq_done_of_rank_le_zero ?_
  have hle := interleave_rank_run_le (P := CollectPhase setting) (fun c j h => h.step hn j)
    (fun c j h => h.rank_le j) h schedule i
  have hmax : (c.threads i).rank ≤ 11 := by
    cases c.threads i <;> exact Nat.le_of_ble_eq_true rfl
  have hcount := hturns i
  exact hle.trans (by omega)

end Executions

/-! ### The states of a call -/

section Calls

variable {n : ℕ} (setting : StatfsSetting n)

/-- The handler has answered at once. -/
structure Refused (call : StatfsCall n) : Prop where
  refused : n = 0 ∨ ¬ setting.handlerAllocs.Suffice n
  requested : call.requested = false
  executions : call.executions = none
  taken : call.taken = 0
  answer : call.callbacks ++ call.responses.map StatfsCall.callbackOf = [.statfs ioError 0 0]

/-- The handler has started executions, and their messages the RPC thread has taken and not dropped
are at the client or on their way. -/
structure Running (c : Interleaved (Fin n) CollectPoint (StatfsShared (Fin n)))
    (call : StatfsCall n) : Prop where
  started : ¬ (n = 0 ∨ ¬ setting.handlerAllocs.Suffice n)
  requested : call.requested = false
  executions : call.executions = some c
  phase : CollectPhase setting c
  taken : call.taken ≤ c.shared.messages.length
  dropped : call.dropped ≤ call.taken
  answer : call.callbacks ++ call.responses.map StatfsCall.callbackOf =
    if call.dropped = 0 then
      (c.shared.messages.take call.taken).map (messageCallback ∘ Prod.snd)
    else []

/-- The states that a call goes through. -/
inductive CallPhase (call : StatfsCall n) : Prop
  | waiting (h : call = .initial n)
  | refused (h : Refused setting call)
  | running (c : Interleaved (Fin n) CollectPoint (StatfsShared (Fin n)))
      (h : Running setting c call)

variable {setting} {call : StatfsCall n}
  {c : Interleaved (Fin n) CollectPoint (StatfsShared (Fin n))}

theorem Running.messages_eq (h : Running setting c call) :
    call.messages = c.shared.messages.map Prod.snd := by
  rw [StatfsCall.messages, h.executions]
  rfl

/-- The RPC thread handles the request. -/
theorem callPhase_handle : CallPhase setting ((StatfsCall.initial n).step setting .handle) := by
  have hstep : (StatfsCall.initial n).step setting .handle =
      match handleStatfs setting.handlerAllocs setting.requestId n with
      | .error (status, body) => ⟨false, none, 0, 0, [⟨setting.requestId, status, body⟩], []⟩
      | .ok c => ⟨false, some c, 0, 0, [], []⟩ := rfl
  rw [hstep, handleStatfs, rpcHandlerStatfs]
  by_cases hzero : n = 0
  · rw [if_pos hzero]
    exact .refused ⟨.inl hzero, rfl, rfl, rfl, rfl⟩
  · rw [if_neg hzero]
    by_cases hallocs : setting.handlerAllocs.Suffice n
    · simp only [if_pos hallocs]
      have hphase : CollectPhase setting (statfsStart setting.requestId n) :=
        .collecting _ (collecting_statfsStart (Nat.one_le_iff_ne_zero.mpr hzero))
      exact .running _ ⟨by tauto, rfl, rfl, hphase, Nat.zero_le _, le_rfl, rfl⟩
    · simp only [if_neg hallocs]
      exact .refused ⟨.inr hallocs, rfl, rfl, rfl, rfl⟩

/-- An execution takes a step. -/
theorem Running.collect (hn : n < 2 ^ 31) (h : Running setting c call) (i : Fin n) :
    Running setting ((StatfsCall.collectMachine setting).step c i).1
      (call.step setting (.collect i)) := by
  obtain ⟨sent, hsent⟩ : c.shared.messages <+:
      ((StatfsCall.collectMachine setting).step c i).1.shared.messages :=
    messages_collectShard _ i _ _ _
  refine ⟨h.started, h.requested, ?_, h.phase.step hn i, ?_, h.dropped, ?_⟩
  · simp only [StatfsCall.step, h.executions, Option.map_some]
  · rw [← hsent, List.length_append]
    exact Nat.le_add_right_of_le h.taken
  · rw [← hsent]
    show call.callbacks ++ call.responses.map _ = if call.dropped = 0 then
      ((c.shared.messages ++ sent).take call.taken).map _ else []
    rw [List.take_append_of_le_length h.taken]
    exact h.answer

/-- The message that waits for the RPC thread is that of the last execution, and nothing was taken
before. -/
theorem Running.next (h : Running setting c call) {msg : ReplyMsg}
    (hmsg : call.messages[call.taken]? = some msg) :
    ∃ i, msg ∈ statfsMessage setting i ∧ c.shared.messages = [(i, msg)] ∧ call.taken = 0 ∧
      call.dropped = 0 ∧ call.callbacks ++ call.responses.map StatfsCall.callbackOf = [] := by
  rw [h.messages_eq] at hmsg
  rcases h.phase.messages with hnone | ⟨i, hsome⟩
  · rw [hnone] at hmsg
    cases hmsg
  · cases hm : statfsMessage setting i with
    | none =>
      rw [hsome, hm] at hmsg
      cases hmsg
    | some msg' =>
      rw [hm] at hsome
      have hone : c.shared.messages = [(i, msg')] := hsome
      have hzero : call.taken = 0 := by
        by_contra hpos
        rw [hone, List.getElem?_eq_none (by simpa using Nat.one_le_iff_ne_zero.mpr hpos)] at hmsg
        cases hmsg
      have hdropped : call.dropped = 0 := Nat.le_zero.mp (hzero ▸ h.dropped)
      rw [hone, hzero] at hmsg
      obtain rfl : msg' = msg := Option.some.inj hmsg
      refine ⟨i, hm, hone, hzero, hdropped, ?_⟩
      rw [h.answer, if_pos hdropped, hzero]
      rfl

/-- With memory, and no send in flight, the RPC thread sends the message. -/
theorem Running.deliver_eq (h : Running setting c call) {msg : ReplyMsg}
    (hmsg : call.messages[call.taken]? = some msg) : call.step setting (.deliver true false) =
      { call with
        taken := call.taken + 1
        responses := call.responses ++ [⟨msg.requestId, .ok, deferredBody msg⟩] } := by
  obtain ⟨i, hi, -⟩ := h.next hmsg
  have hlen := length_deferredBody_statfsMessage setting hi
  simp [StatfsCall.step, hmsg, sendDeferredReply, hlen.not_gt]

/-- The RPC thread takes the message of a call, or leaves it where it is. -/
theorem Running.deliver (h : Running setting c call) (succeeds busy : Bool) :
    Running setting c (call.step setting (.deliver succeeds busy)) := by
  cases hmsg : call.messages[call.taken]? with
  | none =>
    have hstep : call.step setting (.deliver succeeds busy) = call := by
      simp only [StatfsCall.step, hmsg]
    rwa [hstep]
  | some msg =>
    obtain ⟨i, hi, hone, htaken, hdropped, hanswer⟩ := h.next hmsg
    have hdrop : Running setting c
        { call with taken := call.taken + 1, dropped := call.dropped + 1 } :=
      ⟨h.started, h.requested, h.executions, h.phase, by simp [hone, htaken],
        Nat.succ_le_succ h.dropped, hanswer⟩
    cases succeeds with
    | false => simpa [StatfsCall.step, hmsg] using hdrop
    | true =>
      cases busy with
      | true =>
        have hlen := length_deferredBody_statfsMessage setting hi
        have hstep : call.step setting (.deliver true true) = call := by
          simp only [StatfsCall.step, hmsg, sendDeferredReply, if_neg hlen.not_gt, if_true]
        rwa [hstep]
      | false =>
        rw [h.deliver_eq hmsg]
        refine ⟨h.started, h.requested, h.executions, h.phase, by simp [hone, htaken],
          Nat.le_succ_of_le h.dropped, ?_⟩
        simp only [List.map_append, ← List.append_assoc, hanswer, hdropped, hone, htaken]
        rfl

/-- The client gets a response. -/
theorem callbacks_receive (call : StatfsCall n) :
    (call.step setting .receive).callbacks ++
        (call.step setting .receive).responses.map StatfsCall.callbackOf =
      call.callbacks ++ call.responses.map StatfsCall.callbackOf := by
  cases hresponses : call.responses with
  | nil => simp only [StatfsCall.step, hresponses]
  | cons frame responses => simp [StatfsCall.step, hresponses]

theorem receive_eq (call : StatfsCall n) : call.step setting .receive =
    { call with
      responses := (call.step setting .receive).responses
      callbacks := (call.step setting .receive).callbacks } := by
  obtain ⟨_, _, _, _, _ | ⟨frame, responses⟩, _⟩ := call <;> rfl

/-- **One step of a call.** -/
theorem CallPhase.step (hn : n < 2 ^ 31) (h : CallPhase setting call) (event : StatfsEvent n) :
    CallPhase setting (call.step setting event) := by
  rcases h with rfl | h | ⟨c, h⟩
  · cases event with
    | handle => exact callPhase_handle
    | _ => exact .waiting rfl
  · refine .refused ?_
    cases event with
    | handle => simpa [StatfsCall.step, h.requested] using h
    | collect i =>
      exact ⟨h.refused, h.requested, by rw [StatfsCall.step, h.executions]; rfl, h.taken, h.answer⟩
    | deliver succeeds busy => simpa [StatfsCall.step, StatfsCall.messages, h.executions] using h
    | receive =>
      rw [receive_eq]
      exact ⟨h.refused, h.requested, h.executions, h.taken, (callbacks_receive call).trans h.answer⟩
  · cases event with
    | handle =>
      refine .running c ?_
      simpa [StatfsCall.step, h.requested] using h
    | collect i => exact .running _ (h.collect hn i)
    | deliver succeeds busy => exact .running c (h.deliver succeeds busy)
    | receive =>
      rw [receive_eq]
      exact .running c ⟨h.started, h.requested, h.executions, h.phase, h.taken, h.dropped,
        (callbacks_receive call).trans h.answer⟩

theorem callPhase_run (hn : n < 2 ^ 31) (h : CallPhase setting call)
    (events : List (StatfsEvent n)) :
    CallPhase setting ((statfsCallMachine setting).run call events) :=
  Machine.run_invariant (fun _ event _ h => h.step hn event) h

/-- A call has at most one answer, made or on its way. -/
theorem CallPhase.length_le (h : CallPhase setting call) :
    call.callbacks.length + call.responses.length ≤ 1 := by
  have hlength : call.callbacks.length + call.responses.length =
      (call.callbacks ++ call.responses.map StatfsCall.callbackOf).length := by simp
  rw [hlength]
  rcases h with rfl | h | ⟨c, h⟩
  · exact Nat.zero_le _
  · rw [h.answer]
    exact le_rfl
  · rw [h.answer]
    have hmessages : c.shared.messages.length ≤ 1 := by
      rcases h.phase.messages with hnone | ⟨i, hsome⟩
      · simp [hnone]
      · rw [hsome, List.length_map]
        exact Option.length_toList_le
    split_ifs
    · rw [List.length_map, List.length_take]
      omega
    · exact Nat.zero_le _

theorem CallPhase.executions (h : CallPhase setting call) :
    ∀ c ∈ call.executions, CollectPhase setting c := by
  rcases h with rfl | h | ⟨c, h⟩
  · exact nofun
  · rw [h.executions]
    exact nofun
  · rw [h.executions]
    rintro _ ⟨⟩
    exact h.phase

/-- What a settled call has come to. -/
theorem CallPhase.answer (h : CallPhase setting call) (hsettled : call.Settled) :
    (∀ c ∈ call.executions, c.shared.agg = none) ∧
      if n = 0 ∨ ¬ setting.handlerAllocs.Suffice n then call.callbacks = [.statfs ioError 0 0]
      else ∃ i, call.callbacks = if call.dropped = 0 then statfsAnswer setting i else [] := by
  have hresponses := hsettled.responses
  rcases h with rfl | h | ⟨c, h⟩
  · exact absurd hsettled.requested Bool.true_eq_false.mp
  · rw [if_pos h.refused, h.executions]
    refine ⟨nofun, ?_⟩
    simpa [hresponses] using h.answer
  · rw [if_neg h.started, h.executions]
    obtain ⟨i, hfinished⟩ := h.phase.finished_of_done (hsettled.executions c h.executions)
    have hshared := hfinished.shared
    refine ⟨?_, i, ?_⟩
    · rintro _ ⟨⟩
      rw [hshared]
    · have htaken := hsettled.taken
      rw [h.messages_eq, List.length_map] at htaken
      have hanswer := h.answer
      rw [hresponses, htaken, List.take_length, hshared, List.map_map] at hanswer
      rw [← map_callback_statfsMessage]
      exact (List.append_nil _).symm.trans hanswer

/-! ### Settling a call -/

/-- The executions of a call take their steps. -/
theorem run_collect (call : StatfsCall n) (schedule : List (Fin n)) :
    (statfsCallMachine setting).run call (schedule.map .collect) =
      { call with
        executions := call.executions.map
          fun c => (StatfsCall.collectMachine setting).run c schedule } := by
  induction schedule generalizing call with
  | nil =>
    have hid : (fun c => (StatfsCall.collectMachine setting).run c []) = id := rfl
    rw [hid, Option.map_id]
    rfl
  | cons i schedule ih =>
    rw [List.map_cons, Machine.run_cons, ih]
    simp only [statfsCallMachine, StatfsCall.step, Option.map_map]
    rfl

variable (n) in
/-- Enough turns for every execution. -/
def allTurns : List (Fin n) := (List.finRange n).flatMap fun i => List.replicate 11 i

theorem count_allTurns (i : Fin n) : 11 ≤ (allTurns n).count i := by
  have hsub : (List.replicate 11 i).Sublist (allTurns n) :=
    List.sublist_flatten_of_mem (List.mem_map_of_mem (List.mem_finRange i))
  simpa using hsub.count_le i

/-- The events that settle a call, from whichever state. -/
def settlingEvents (n : ℕ) : List (StatfsEvent n) :=
  .handle :: (allTurns n).map .collect ++ [.deliver true false, .receive]

variable (setting) in
theorem deliver_executions (call : StatfsCall n) (succeeds busy : Bool) :
    (call.step setting (.deliver succeeds busy)).requested = call.requested ∧
      (call.step setting (.deliver succeeds busy)).executions = call.executions := by
  simp only [StatfsCall.step]
  split
  · exact ⟨rfl, rfl⟩
  · split_ifs
    · split <;> exact ⟨rfl, rfl⟩
    · exact ⟨rfl, rfl⟩

/-- With memory, and no send in flight, the RPC thread leaves no message. -/
theorem CallPhase.taken_deliver (h : CallPhase setting call) :
    (call.step setting (.deliver true false)).taken = call.messages.length := by
  rcases h with rfl | h | ⟨c, h⟩
  · rfl
  · simp [StatfsCall.step, StatfsCall.messages, h.executions, h.taken]
  · cases hmsg : call.messages[call.taken]? with
    | none =>
      have htaken := h.taken
      have hlength := List.getElem?_eq_none_iff.mp hmsg
      rw [h.messages_eq, List.length_map] at hlength ⊢
      simp only [StatfsCall.step, hmsg]
      omega
    | some msg =>
      obtain ⟨i, -, hone, htaken, -⟩ := h.next hmsg
      rw [h.deliver_eq hmsg, h.messages_eq, hone, htaken]
      rfl

/-- With at most one response on its way the client leaves none. -/
theorem responses_receive (h : call.responses.length ≤ 1) :
    (call.step setting .receive).responses = [] := by
  cases hresponses : call.responses with
  | nil => simp [StatfsCall.step, hresponses]
  | cons frame responses =>
    rw [hresponses, List.length_cons] at h
    have hnil : responses = [] := List.eq_nil_of_length_eq_zero (by omega)
    simp [StatfsCall.step, hresponses, hnil]

/-- A call whose executions are done is settled when its message is delivered and the response
received. -/
theorem CallPhase.settled_deliver (hn : n < 2 ^ 31) (h : CallPhase setting call)
    (hrequested : call.requested = false)
    (hdone : ∀ c ∈ call.executions, ∀ i, c.threads i = .done) :
    ((statfsCallMachine setting).run call [.deliver true false, .receive]).Settled := by
  obtain ⟨hreq, hexec⟩ := deliver_executions setting call true false
  have hlength := (h.step hn (.deliver true false)).length_le
  show ((call.step setting (.deliver true false)).step setting .receive).Settled
  rw [receive_eq]
  refine ⟨hreq.trans hrequested, by simpa only [hexec] using hdone, ?_,
    responses_receive (by omega)⟩
  refine h.taken_deliver.trans ?_
  rw [StatfsCall.messages, StatfsCall.messages, hexec]

theorem requested_handle (call : StatfsCall n) :
    (call.step setting .handle).requested = false := by
  simp only [StatfsCall.step]
  split_ifs with hrequested
  · split <;> rfl
  · simpa using hrequested

/-- **Every call can be settled**, from whichever state. -/
theorem CallPhase.settled_run (hn : n < 2 ^ 31) (h : CallPhase setting call) :
    ((statfsCallMachine setting).run call (settlingEvents n)).Settled := by
  have hhandled := h.step hn .handle
  rw [settlingEvents, List.cons_append, Machine.run_cons, Machine.run_append]
  refine (callPhase_run hn hhandled _).settled_deliver hn ?_ ?_
  · rw [run_collect]
    exact requested_handle call
  · rw [run_collect]
    intro c hc i
    obtain ⟨c', hc', rfl⟩ := Option.mem_map.mp hc
    exact (hhandled.executions c' hc').run_done hn count_allTurns i

end Calls

/-- **STATFS calls.** Any calls at once, on fewer than 2^31 shards, whichever allocations fail, and
any order of the steps of the RPC thread, the executions and the client: no execution accesses an
aggregator that was released, and no call gets two callbacks. A settled call has released its
aggregator. If there are no shards, or the handler found no memory, it got an error without sizes;
else it got what its last execution made of its shards (`statfsAnswer`: with zero sizes, also in a
success, if it had no memory for them, and nothing if it had none for a message), or nothing if the
RPC thread dropped that. And every call can be settled. -/
theorem statfs_calls_answered {κ : Type*} [DecidableEq κ] {n : ℕ} (hn : n < 2 ^ 31)
    (setting : κ → StatfsSetting n) (events : List (κ × StatfsEvent n)) (r : κ) :
    let calls := Machine.parallel fun r => statfsCallMachine (setting r)
    let call := calls.run (fun _ => .initial n) events r
    (∀ c ∈ call.executions, c.shared.faulted = false) ∧ call.callbacks.length ≤ 1 ∧
      (call.Settled → (∀ c ∈ call.executions, c.shared.agg = none) ∧
        if n = 0 ∨ ¬ (setting r).handlerAllocs.Suffice n then
          call.callbacks = [.statfs ioError 0 0]
        else ∃ i, call.callbacks = if call.dropped = 0 then statfsAnswer (setting r) i else []) ∧
      ∃ more, (calls.run (fun _ => .initial n) (events ++ more) r).Settled := by
  intro calls call
  have hphase : CallPhase (setting r) call := by
    rw [show call = _ from Machine.run_parallel _ _ _ _]
    exact callPhase_run hn (.waiting rfl) _
  have hlength := hphase.length_le
  refine ⟨fun c hc => (hphase.executions c hc).faulted, by omega, hphase.answer,
    (settlingEvents n).map (r, ·), ?_⟩
  rw [Machine.run_append, Machine.run_parallel]
  have hevents : Machine.operationsOf r ((settlingEvents n).map (r, ·)) = settlingEvents n := by
    simp [Machine.operationsOf, List.filterMap_map]
  rw [hevents]
  exact hphase.settled_run hn

/-- Calls at once on two shards, the second of which fails. Only the first call has memory for the
sizes. -/
def sharedShards (r : ℕ) : StatfsSetting 2 where
  requestId := UInt64.ofNat r
  sizes i := if i = 0 then some (100, 40) else none
  handlerAllocs := ⟨true, true, fun _ => true⟩
  collectAllocs _ := ⟨true, r = 0⟩

/-- The second call is settled by some events, and has got an error without sizes or nothing. -/
theorem statfs_calls_answered_sharedShards : ∃ events,
    let call := (Machine.parallel fun r => statfsCallMachine (sharedShards r)).run
      (fun _ => .initial 2) events 1
    call.Settled ∧ call.callbacks = if call.dropped = 0 then [.statfs ioError 0 0] else [] := by
  have hn : 2 < 2 ^ 31 := by decide
  obtain ⟨-, -, -, events, hsettled⟩ := statfs_calls_answered hn sharedShards [] 1
  obtain ⟨-, -, hanswer, -⟩ := statfs_calls_answered hn sharedShards events 1
  refine ⟨events, hsettled, ?_⟩
  obtain ⟨-, hcallbacks⟩ := hanswer hsettled
  rw [if_neg (by decide)] at hcallbacks
  obtain ⟨i, hi⟩ := hcallbacks
  rw [hi]
  rfl

end LightFS.Storage
