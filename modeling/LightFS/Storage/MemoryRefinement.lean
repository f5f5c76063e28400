import LightFS.Storage.BlockOwnership

/-!
# The storage server in memory refines the one on values

In every run of the storage server the heap holds the blocks of the operations in the engine and of
the queued messages, and nothing else (`Refines`), so that no event has undefined behaviour and the
responses are those of the server on values. On values every request is answered, in the engine,
queued or given up (`ServerValues.requestIds`), and it is given up only where an allocation fails or
the reply to a READ does not fit a frame.

Two limits: the runs are those in which a READ asks for fewer than `2 ^ 32 - 8` bytes, since the
size of its reply wraps otherwise and the copy leaves its buffer (`ServerEvent.Allowed`); and of a
STATFS there is only the reply that its last shard makes, not the aggregator and the contexts that
its handler allocates.

## Main definitions

* `Refines`.
* `ServerEvent.Allowed`, `ServerEvent.KeepsReplies`.

## Main results

* `exists_refines_run`, `ServerValues.perm_requestIds_run`.
* `server_memory_safe`, `server_refines_values`.
-/

namespace LightFS.Storage

open Library

/-- The server in memory has the operations and the messages of the server on values, and the heap
holds their blocks and nothing else. -/
structure Refines (s : ServerState) (t : ServerValues) (ops : List OwnedOperation)
    (msgs : List OwnedMessage) : Prop where
  operations : s.operations = ops.map (·.operation)
  engine : t.engine = ops.map (·.value)
  queue : s.queue = msgs.map (·.addr)
  messages : t.messages = msgs.map (·.value)
  responses : s.responses = t.responses
  holds : s.heap.Holds (ops.flatMap (·.blocks) ++ msgs.flatMap (·.blocks))

/-! ### Runs -/

/-- A READ does not ask for so much that the size of its reply wraps. -/
def ServerEvent.Allowed : ServerEvent → Prop
  | .request frame _ _ => frame.opcode = .read → 8 + (field32 frame.body 16).toNat < 2 ^ 32
  | _ => True

theorem OwnedOperation.call_eq (o : OwnedOperation) : o.operation.call = o.value.call := by
  obtain ⟨operation, value, blocks, howns⟩ := o
  cases howns <;> rfl

namespace Refines

variable {s : ServerState} {t : ServerValues} {ops : List OwnedOperation}
  {msgs : List OwnedMessage}

theorem initial : Refines .initial .initial [] [] where
  operations := rfl
  engine := rfl
  queue := rfl
  messages := rfl
  responses := rfl
  holds := .empty

theorem request (h : Refines s t ops msgs) {frame : RequestFrame} {rc : UInt32}
    {allocs : HandlerAllocs} (hallowed : (ServerEvent.request frame rc allocs).Allowed) :
    ∃ s' ops', s.step (.request frame rc allocs) = some s' ∧
      Refines s' (t.step (.request frame rc allocs)) ops' msgs := by
  rcases spec_rpcHandler rc allocs hallowed with ⟨hmem, hval⟩ | ⟨_, _, hmem, hval, hspec⟩
  · simp only [ServerState.step, ServerValues.step, hmem, hval]
    exact ⟨s, ops, rfl, h⟩
  have hrest : s.heap.Holds ([] ++ (ops.flatMap (·.blocks) ++ msgs.flatMap (·.blocks))) := h.holds
  obtain ⟨handled, heap, owned, hrun, hpost, hholds⟩ := hspec hrest
  simp only [ServerState.step, ServerValues.step, hmem, hval, hrun, Option.map_some]
  revert hpost
  generalize HandlerResult.orInternal _ _ = result
  intro hpost
  cases result with
  | reply called status body =>
    obtain ⟨rfl, rfl⟩ := hpost
    refine ⟨_, ops, rfl, h.operations, h.engine, h.queue, h.messages, ?_, hholds⟩
    exact congrArg (· ++ [_]) h.responses
  | deferred call ctx =>
    obtain ⟨o, rfl, hvalue, rfl⟩ := hpost
    refine ⟨_, ops ++ [o], rfl, ?_, ?_, h.queue, h.messages, h.responses, ?_⟩
    · rw [List.map_append, ← h.operations]
      rfl
    · rw [List.map_append, ← h.engine, List.map_singleton, hvalue]
      rfl
    · refine hholds.of_perm ?_
      rw [← List.append_assoc]
      exact (perm_flatMap_append_singleton _ ops o).symm.append_right _

/-- A message joins the queue, if it could be allocated. -/
theorem enqueue {succeeds : Bool} {value : ReplyMsg} {msg : Option ℕ} {owned : List (ℕ × Block)}
    (hmsg : MessageAs succeeds value msg owned) {heap : Heap Block}
    (hholds : heap.Holds (owned ++ (ops.flatMap (·.blocks) ++ msgs.flatMap (·.blocks)))) :
    ∃ msgs' : List OwnedMessage, msgs'.map (·.addr) = msgs.map (·.addr) ++ msg.toList ∧
      msgs'.map (·.value) = msgs.map (·.value) ++ (if succeeds then [value] else []) ∧
      heap.Holds (ops.flatMap (·.blocks) ++ msgs'.flatMap (·.blocks)) := by
  rw [MessageAs] at hmsg
  split_ifs at hmsg ⊢
  · obtain ⟨m, rfl, rfl, rfl⟩ := hmsg
    refine ⟨msgs ++ [m], List.map_append, List.map_append, hholds.of_perm ?_⟩
    refine List.Perm.trans ?_ ((perm_flatMap_append_singleton _ msgs m).symm.append_left _)
    exact List.perm_append_comm_assoc _ _ _
  · obtain ⟨rfl, rfl⟩ := hmsg
    exact ⟨msgs, (List.append_nil _).symm, (List.append_nil _).symm, hholds⟩

theorem complete (h : Refines s t ops msgs) (i : ℕ) (result : UInt32) (data : List UInt8)
    (succeeds : Bool) :
    ∃ s' ops' msgs', s.step (.complete i result data succeeds) = some s' ∧
      Refines s' (t.step (.complete i result data succeeds)) ops' msgs' := by
  have hop : s.operations[i]? = ops[i]?.map (·.operation) := by rw [h.operations, List.getElem?_map]
  have hengine : t.engine[i]? = ops[i]?.map (·.value) := by rw [h.engine, List.getElem?_map]
  cases ho : ops[i]? with
  | none =>
    rw [ho] at hop hengine
    simp only [ServerState.step, ServerValues.step, hop, hengine, Option.map_none]
    exact ⟨s, ops, msgs, rfl, h⟩
  | some o =>
    rw [ho] at hop hengine
    simp only [ServerState.step, ServerValues.step, hop, hengine, Option.map_some, o.call_eq]
    by_cases hdata : data.length = o.value.call.extraLen.toNat
    · have hrest : s.heap.Holds (o.blocks ++
          ((ops.eraseIdx i).flatMap (·.blocks) ++ msgs.flatMap (·.blocks))) := by
        refine h.holds.of_perm ?_
        rw [← List.append_assoc]
        exact (perm_flatMap_eraseIdx _ ho).append_right _
      obtain ⟨msg, heap, owned, hrun, hmsg, hholds⟩ := spec_complete o result hdata succeeds hrest
      obtain ⟨msgs', haddr, hvalue, hholds'⟩ := enqueue hmsg hholds
      rw [if_pos hdata, if_pos hdata, hrun]
      refine ⟨_, ops.eraseIdx i, msgs', rfl, ?_⟩
      have hops : s.operations.eraseIdx i = (ops.eraseIdx i).map (·.operation) := by
        rw [h.operations, List.eraseIdx_map]
      have hvalues : t.engine.eraseIdx i = (ops.eraseIdx i).map (·.value) := by
        rw [h.engine, List.eraseIdx_map]
      rw [← h.queue] at haddr
      rw [← h.messages] at hvalue
      split_ifs at hvalue ⊢
      · exact ⟨hops, hvalues, haddr.symm, hvalue.symm, h.responses, hholds'⟩
      · rw [List.append_nil] at hvalue
        exact ⟨hops, hvalues, haddr.symm, hvalue.symm, h.responses, hholds'⟩
    · rw [if_neg hdata, if_neg hdata]
      exact ⟨s, ops, msgs, rfl, h⟩

theorem statfs (h : Refines s t ops msgs) (requestId : UInt64) (result : UInt32)
    (total used : UInt64) (msgSucceeds extraSucceeds : Bool) :
    ∃ s' msgs', s.step (.statfs requestId result total used msgSucceeds extraSucceeds) = some s' ∧
      Refines s' (t.step (.statfs requestId result total used msgSucceeds extraSucceeds)) ops
        msgs' := by
  have hrest : s.heap.Holds ([] ++ (ops.flatMap (·.blocks) ++ msgs.flatMap (·.blocks))) := h.holds
  obtain ⟨msg, heap, owned, hrun, hmsg, hholds⟩ :=
    spec_sendStatfsReply requestId result total used msgSucceeds extraSucceeds hrest
  obtain ⟨msgs', haddr, hvalue, hholds'⟩ := enqueue hmsg hholds
  rw [ServerState.step, ServerValues.step, hrun]
  refine ⟨_, msgs', rfl, ?_⟩
  rw [← h.queue] at haddr
  rw [← h.messages] at hvalue
  cases msgSucceeds with
  | true => exact ⟨h.operations, h.engine, haddr.symm, hvalue.symm, h.responses, hholds'⟩
  | false =>
    rw [if_neg Bool.false_ne_true, List.append_nil] at hvalue
    exact ⟨h.operations, h.engine, haddr.symm, hvalue.symm, h.responses, hholds'⟩

theorem deliver (h : Refines s t ops msgs) (i : ℕ) (succeeds : Bool) (garbage : ℕ → UInt8)
    (busy : Bool) :
    ∃ s' msgs', s.step (.deliver i succeeds garbage busy) = some s' ∧
      Refines s' (t.step (.deliver i succeeds garbage busy)) ops msgs' := by
  have hqueue : s.queue[i]? = msgs[i]?.map (·.addr) := by rw [h.queue, List.getElem?_map]
  have hmessages : t.messages[i]? = msgs[i]?.map (·.value) := by rw [h.messages, List.getElem?_map]
  cases hm : msgs[i]? with
  | none =>
    rw [hm] at hqueue hmessages
    simp only [ServerState.step, ServerValues.step, hqueue, hmessages, Option.map_none]
    exact ⟨s, msgs, rfl, h⟩
  | some m =>
    rw [hm] at hqueue hmessages
    have hrest : s.heap.Holds (m.blocks ++
        (ops.flatMap (·.blocks) ++ (msgs.eraseIdx i).flatMap (·.blocks))) := by
      refine h.holds.of_perm ?_
      refine ((perm_flatMap_eraseIdx _ hm).append_left _).trans ?_
      exact List.perm_append_comm_assoc _ _ _
    obtain ⟨outcome, heap, owned, hrun, hpost, hholds⟩ :=
      spec_sendDeferredReply m succeeds garbage busy hrest
    simp only [ServerState.step, ServerValues.step, hqueue, hmessages, Option.map_some, hrun]
    have haddrs : s.queue.eraseIdx i = (msgs.eraseIdx i).map (·.addr) := by
      rw [h.queue, List.eraseIdx_map]
    have hvalues : t.messages.eraseIdx i = (msgs.eraseIdx i).map (·.value) := by
      rw [h.messages, List.eraseIdx_map]
    revert hpost
    generalize (if succeeds then sendDeferredReply m.value busy else .dropped) = reply
    intro hpost
    cases reply with
    | sent frame =>
      obtain ⟨rfl, rfl⟩ := hpost
      refine ⟨_, msgs.eraseIdx i, rfl, h.operations, h.engine, haddrs, hvalues, ?_, hholds⟩
      exact congrArg (· ++ [_]) h.responses
    | requeued msg =>
      obtain ⟨rfl, rfl, rfl⟩ := hpost
      refine ⟨_, msgs.eraseIdx i ++ [m], rfl, h.operations, h.engine, ?_, ?_, h.responses, ?_⟩
      · rw [List.map_append, ← haddrs]
        rfl
      · rw [List.map_append, ← hvalues]
        rfl
      · refine hholds.of_perm ?_
        refine List.Perm.trans ?_ ((perm_flatMap_append_singleton _ _ m).symm.append_left _)
        exact List.perm_append_comm_assoc _ _ _
    | dropped =>
      obtain ⟨rfl, rfl⟩ := hpost
      exact ⟨_, msgs.eraseIdx i, rfl, h.operations, h.engine, haddrs, hvalues, h.responses, hholds⟩

/-- Every event has a result, the one of the server on values. -/
theorem step (h : Refines s t ops msgs) {event : ServerEvent} (hevent : event.Allowed) :
    ∃ s' ops' msgs', s.step event = some s' ∧ Refines s' (t.step event) ops' msgs' := by
  cases event with
  | request frame rc allocs =>
    obtain ⟨s', ops', hs, h'⟩ := h.request hevent
    exact ⟨s', ops', msgs, hs, h'⟩
  | complete i result data succeeds => exact h.complete i result data succeeds
  | statfs requestId result total used msgSucceeds extraSucceeds =>
    obtain ⟨s', msgs', hs, h'⟩ := h.statfs requestId result total used msgSucceeds extraSucceeds
    exact ⟨s', ops, msgs', hs, h'⟩
  | deliver i succeeds garbage busy =>
    obtain ⟨s', msgs', hs, h'⟩ := h.deliver i succeeds garbage busy
    exact ⟨s', ops, msgs', hs, h'⟩

end Refines

/-- Every run has a result, the one of the server on values. -/
theorem exists_refines_run {events : List ServerEvent} (hevents : ∀ event ∈ events, event.Allowed)
    {s : ServerState} {t : ServerValues} {ops : List OwnedOperation} {msgs : List OwnedMessage}
    (h : Refines s t ops msgs) :
    ∃ s' ops' msgs', serverMachine.run (some s) events = some s' ∧
      Refines s' (valueMachine.run t events) ops' msgs' := by
  induction events generalizing s t ops msgs with
  | nil => exact ⟨s, ops, msgs, rfl, h⟩
  | cons event events ih =>
    obtain ⟨hevent, hevents⟩ := List.forall_mem_cons.mp hevents
    obtain ⟨s₁, ops₁, msgs₁, hs₁, h₁⟩ := h.step hevent
    obtain ⟨s₂, ops₂, msgs₂, hs₂, h₂⟩ := ih hevents h₁
    refine ⟨s₂, ops₂, msgs₂, ?_, h₂⟩
    rw [Machine.run_cons, ← hs₂]
    exact congrArg (serverMachine.run · events) hs₁

/-! ### Replies of a run -/

/-- The request that an event is about, if it is one that has to be answered. -/
def ServerEvent.requestId? : ServerEvent → Option UInt64
  | .request frame _ _ => if frame.opcode = .statfs then none else some frame.requestId
  | .statfs requestId _ _ _ _ _ => some requestId
  | _ => none

/-- No reply is given up on account of the event: nothing is missing behind the handler, and a READ
asks for no more than a frame can take. -/
def ServerEvent.KeepsReplies : ServerEvent → Prop
  | .request frame _ _ => frame.opcode = .read → (field32 frame.body 16).toNat ≤ nrpcMaxBody - 8
  | .complete _ _ _ succeeds => succeeds = true
  | .statfs _ _ _ _ msgSucceeds _ => msgSucceeds = true
  | .deliver _ succeeds _ _ => succeeds = true

/-- The requests that are answered, in the engine, queued or given up. -/
def ServerValues.requestIds (t : ServerValues) : List UInt64 :=
  t.responses.map (·.requestId) ++ t.engine.map (·.ctx.requestId) ++
    t.messages.map (·.requestId) ++ t.dropped

/-- The replies to come fit a frame, and none has been given up. -/
structure ServerValues.Keeps (t : ServerValues) : Prop where
  engine : ∀ op ∈ t.engine, op.ctx.opcode = .read → op.ctx.extraLen.toNat ≤ nrpcMaxBody - 8
  messages : ∀ msg ∈ t.messages, msg.opcode = .read → msg.extraLen.toNat ≤ nrpcMaxBody - 8
  dropped : t.dropped = []

section Values

variable {t : ServerValues} {ids : List UInt64}

theorem ctx_of_callEngine {call called : RpcCall} {ctx ctx' : BridgeCtx} {rc : UInt32}
    (h : callEngine call ctx rc = .deferred called ctx') : ctx' = ctx := by
  rw [callEngine] at h
  split_ifs at h
  exact (HandlerResult.deferred.inj h).2.symm

theorem ctx_of_handleFields {size : ℕ} {opcode : RpcOp} {decode : List UInt8 → RpcCall}
    {requestId : UInt64} {req : List UInt8} {rc : UInt32} {call : RpcCall} {ctx : BridgeCtx}
    (h : handleFields size opcode decode requestId req rc = .deferred call ctx) :
    ctx = makeBridgeCtx requestId opcode := by
  rw [handleFields] at h
  split_ifs at h
  exact ctx_of_callEngine h

/-- What is in the context of an operation. -/
theorem ctx_of_rpcHandler {frame : RequestFrame} {rc : UInt32}
    {handler : UInt64 → List UInt8 → UInt32 → HandlerResult} {call : RpcCall} {ctx : BridgeCtx}
    (hhandler : rpcHandler frame.opcode = some handler)
    (h : handler frame.requestId frame.body rc = .deferred call ctx) :
    ctx.requestId = frame.requestId ∧ ctx.opcode = frame.opcode ∧
      (frame.opcode = .read → ctx.extraLen = field32 frame.body 16) := by
  obtain ⟨requestId, opcode, body⟩ := frame
  cases opcode with
  | statfs => cases hhandler
  | read =>
    obtain rfl := Option.some.inj hhandler
    rw [rpcHandlerRead] at h
    split_ifs at h
    obtain rfl := ctx_of_callEngine h
    exact ⟨rfl, rfl, fun _ => rfl⟩
  | write =>
    obtain rfl := Option.some.inj hhandler
    rw [rpcHandlerWrite] at h
    dsimp only at h
    split_ifs at h
    obtain rfl := ctx_of_callEngine h
    exact ⟨rfl, rfl, fun h => by cases h⟩
  | _ =>
    obtain rfl := Option.some.inj hhandler
    obtain rfl := ctx_of_handleFields h
    exact ⟨rfl, rfl, fun h => by cases h⟩

theorem eq_of_orInternal_eq_deferred {result : HandlerResult} {suffice : Bool} {call : RpcCall}
    {ctx : BridgeCtx} (h : result.orInternal suffice = .deferred call ctx) :
    result = .deferred call ctx := by
  rw [HandlerResult.orInternal] at h
  split_ifs at h
  exact h

/-- A reply fits a frame if it is not to a READ of too many bytes. -/
theorem length_deferredBody_le_of_read {msg : ReplyMsg}
    (hread : msg.opcode = .read → msg.extraLen.toNat ≤ nrpcMaxBody - 8) :
    (deferredBody msg).length ≤ nrpcMaxBody := by
  obtain ⟨requestId, result, opcode, data, len⟩ := msg
  have hmax : nrpcMaxBody = 1048576 := rfl
  have hword : (leBytes 4 result.toNat).length = 4 := length_leBytes 4 _
  cases opcode with
  | read =>
    replace hread : len.toNat ≤ nrpcMaxBody - 8 := hread rfl
    cases data with
    | none =>
      rw [deferredBody, List.length_append, hword, length_leBytes]
      omega
    | some data =>
      simp only [deferredBody]
      split_ifs
      · simp only [List.length_append, length_leBytes, List.length_take]
        omega
      · rw [List.length_append, hword, length_leBytes]
        omega
  | statfs =>
    cases data with
    | none =>
      rw [deferredBody, List.length_append, hword, List.length_replicate]
      omega
    | some data =>
      simp only [deferredBody]
      split_ifs
      · rw [List.length_append, hword, List.length_take]
        omega
      · rw [List.length_append, hword, List.length_replicate]
        omega
  | _ =>
    have hbody : (leBytes 4 result.toNat).length ≤ nrpcMaxBody := by omega
    cases data <;> exact hbody

theorem perm_map_eraseIdx {α β : Type} (f : α → β) {l : List α} {i : ℕ} {x : α}
    (hx : l[i]? = some x) : (l.map f).Perm (f x :: (l.eraseIdx i).map f) := by
  obtain ⟨hi, rfl⟩ := List.getElem?_eq_some_iff.mp hx
  exact ((List.getElem_cons_eraseIdx_perm hi).map f).symm

theorem rpcHandler_eq_none_iff {opcode : RpcOp} : rpcHandler opcode = none ↔ opcode = .statfs := by
  cases opcode <;> simp [rpcHandler]

namespace ServerValues

/-- A request is answered or in the engine when it was handled. -/
theorem perm_requestIds_request (t : ServerValues) (frame : RequestFrame) (rc : UInt32)
    (allocs : HandlerAllocs) : (t.step (.request frame rc allocs)).requestIds.Perm
      (t.requestIds ++ (ServerEvent.request frame rc allocs).requestId?.toList) := by
  rw [step, ServerEvent.requestId?]
  cases hhandler : rpcHandler frame.opcode with
  | none =>
    rw [if_pos (rpcHandler_eq_none_iff.mp hhandler)]
    exact (List.append_nil _).symm ▸ .refl _
  | some handler =>
    have hne : frame.opcode ≠ .statfs := fun heq => by
      rw [rpcHandler_eq_none_iff.mpr heq] at hhandler
      cases hhandler
    rw [if_neg hne]
    refine List.perm_iff_count.mpr fun id => ?_
    dsimp only
    cases hresult : (handler frame.requestId frame.body rc).orInternal
      (allocs.suffice frame.opcode) with
    | reply called status body =>
      simp only [handled, requestIds, List.map_append, List.map_cons, List.map_nil,
        List.count_append, Option.toList_some]
      omega
    | deferred call ctx =>
      obtain ⟨hid, -, -⟩ := ctx_of_rpcHandler hhandler (eq_of_orInternal_eq_deferred hresult)
      simp only [handled, requestIds, List.map_append, List.map_cons, List.map_nil, hid,
        List.count_append, Option.toList_some]
      omega

/-- An operation that completes is queued or given up. -/
theorem perm_requestIds_complete (t : ServerValues) (i : ℕ) (result : UInt32) (data : List UInt8)
    (succeeds : Bool) :
    (t.step (.complete i result data succeeds)).requestIds.Perm t.requestIds := by
  rw [step]
  cases hop : t.engine[i]? with
  | none => exact .refl _
  | some op =>
    have hperm := perm_map_eraseIdx (·.ctx.requestId) hop
    refine List.perm_iff_count.mpr fun id => ?_
    have hcount := hperm.count_eq id
    rw [List.count_cons] at hcount
    dsimp only
    split_ifs
    · simp only [requestIds, List.map_append, List.map_cons, List.map_nil, List.count_append,
        List.count_singleton, bridgeCallback, BridgeCtx.fill]
      omega
    · simp only [requestIds, List.count_append, List.count_singleton]
      omega
    · rfl

theorem perm_requestIds_statfs (t : ServerValues) (requestId : UInt64) (result : UInt32)
    (total used : UInt64) (msgSucceeds extraSucceeds : Bool) :
    (t.step (.statfs requestId result total used msgSucceeds extraSucceeds)).requestIds.Perm
      (t.requestIds ++ [requestId]) := by
  refine List.perm_iff_count.mpr fun id => ?_
  rw [step]
  cases msgSucceeds with
  | false =>
    simp only [requestIds, List.count_append, if_neg Bool.false_ne_true]
    omega
  | true =>
    cases extraSucceeds <;>
      simp only [requestIds, List.map_append, List.map_cons, List.map_nil, List.count_append,
        if_pos, if_neg Bool.false_ne_true] <;> omega

/-- A message that is delivered is answered, queued again or given up. -/
theorem perm_requestIds_deliver (t : ServerValues) (i : ℕ) (succeeds : Bool)
    (garbage : ℕ → UInt8) (busy : Bool) :
    (t.step (.deliver i succeeds garbage busy)).requestIds.Perm t.requestIds := by
  rw [step]
  cases hmsg : t.messages[i]? with
  | none => exact .refl _
  | some msg =>
    have hperm := perm_map_eraseIdx (·.requestId) hmsg
    refine List.perm_iff_count.mpr fun id => ?_
    have hcount := hperm.count_eq id
    rw [List.count_cons] at hcount
    dsimp only [sendDeferredReply]
    split_ifs <;>
      simp only [delivered, requestIds, List.map_append, List.map_cons, List.map_nil,
        List.count_append, List.count_singleton] <;> omega

/-- A request is on the account from its arrival on. -/
theorem perm_requestIds_step (t : ServerValues) (event : ServerEvent) :
    (t.step event).requestIds.Perm (t.requestIds ++ event.requestId?.toList) := by
  cases event with
  | request frame rc allocs => exact t.perm_requestIds_request frame rc allocs
  | complete i result data succeeds =>
    exact (List.append_nil t.requestIds).symm ▸ t.perm_requestIds_complete i result data succeeds
  | statfs requestId result total used msgSucceeds extraSucceeds =>
    exact t.perm_requestIds_statfs requestId result total used msgSucceeds extraSucceeds
  | deliver i succeeds garbage busy =>
    exact (List.append_nil t.requestIds).symm ▸ t.perm_requestIds_deliver i succeeds garbage busy

theorem perm_requestIds_run (t : ServerValues) (events : List ServerEvent) :
    (valueMachine.run t events).requestIds.Perm
      (t.requestIds ++ events.filterMap (·.requestId?)) := by
  induction events generalizing t with
  | nil => exact (List.append_nil t.requestIds).symm ▸ .refl _
  | cons event events ih =>
    refine (ih (t.step event)).trans (((t.perm_requestIds_step event).append_right _).trans ?_)
    rw [List.append_assoc]
    cases hid : event.requestId? with
    | none => rw [List.filterMap_cons_none hid]; exact .refl _
    | some id => rw [List.filterMap_cons_some hid]; exact .refl _

end ServerValues

/-- As long as nothing is missing no reply is given up. -/
theorem ServerValues.Keeps.step (h : t.Keeps) {event : ServerEvent} (hevent : event.KeepsReplies) :
    (t.step event).Keeps := by
  cases event with
  | request frame rc allocs =>
    rw [ServerValues.step]
    cases hhandler : rpcHandler frame.opcode with
    | none => exact h
    | some handler =>
      dsimp only
      cases hresult : (handler frame.requestId frame.body rc).orInternal
        (allocs.suffice frame.opcode) with
      | reply called status body => exact ⟨h.engine, h.messages, h.dropped⟩
      | deferred call ctx =>
        obtain ⟨-, hop, hlen⟩ := ctx_of_rpcHandler hhandler (eq_of_orInternal_eq_deferred hresult)
        refine ⟨List.forall_mem_append.mpr ⟨h.engine, ?_⟩, h.messages, h.dropped⟩
        refine List.forall_mem_singleton.mpr fun hread => ?_
        replace hread : frame.opcode = .read := hop.symm.trans hread
        exact (congrArg UInt32.toNat (hlen hread)).trans_le (hevent hread)
  | complete i result data succeeds =>
    rw [ServerValues.step]
    cases hop : t.engine[i]? with
    | none => exact h
    | some op =>
      obtain rfl : succeeds = true := hevent
      by_cases hdata : data.length = op.call.extraLen.toNat
      · simp only [if_pos hdata, if_pos]
        refine ⟨fun op hmem => h.engine op (List.mem_of_mem_eraseIdx hmem), ?_, h.dropped⟩
        refine List.forall_mem_append.mpr ⟨h.messages, List.forall_mem_singleton.mpr ?_⟩
        exact h.engine op (List.mem_of_getElem? hop)
      · simp only [if_neg hdata]
        exact h
  | statfs requestId result total used msgSucceeds extraSucceeds =>
    obtain rfl : msgSucceeds = true := hevent
    refine ⟨h.engine, List.forall_mem_append.mpr ⟨h.messages, ?_⟩, h.dropped⟩
    refine List.forall_mem_singleton.mpr fun hread => ?_
    cases extraSucceeds <;> cases hread
  | deliver i succeeds garbage busy =>
    rw [ServerValues.step]
    cases hmsg : t.messages[i]? with
    | none => exact h
    | some msg =>
      obtain rfl : succeeds = true := hevent
      have hfits := h.messages msg (List.mem_of_getElem? hmsg)
      have hrest : ∀ m ∈ t.messages.eraseIdx i, m.opcode = .read →
          m.extraLen.toNat ≤ nrpcMaxBody - 8 :=
        fun m hmem => h.messages m (List.mem_of_mem_eraseIdx hmem)
      have hlength := length_deferredBody_le_of_read hfits
      simp only [if_pos, sendDeferredReply, if_neg (not_lt.mpr hlength)]
      cases busy with
      | false => exact ⟨h.engine, hrest, h.dropped⟩
      | true =>
        refine ⟨h.engine, List.forall_mem_append.mpr ⟨hrest, ?_⟩, h.dropped⟩
        exact List.forall_mem_singleton.mpr hfits

end Values

/-! ### The results -/

variable {events : List ServerEvent}

/-- **The server keeps its memory.** In every run in which every READ asks for fewer than
`2 ^ 32 - 8` bytes, in any order of events and whatever allocations fail, the server reads, writes
and releases only blocks that are allocated and copies only within buffers. The blocks that are
allocated are those of the operations in the engine and of the queued messages, each at one address;
when there are none, nothing is allocated. The aggregator and the contexts of a STATFS are not
counted. -/
theorem server_memory_safe (hevents : ∀ event ∈ events, event.Allowed) :
    ∃ s, serverMachine.run (some .initial) events = some s ∧
      (∃ (ops : List OwnedOperation) (msgs : List OwnedMessage),
        s.operations = ops.map (·.operation) ∧ s.queue = msgs.map (·.addr) ∧
        s.heap.Holds (ops.flatMap (·.blocks) ++ msgs.flatMap (·.blocks))) ∧
      (s.operations = [] → s.queue = [] → ∀ p, s.heap.blocks p = none) := by
  obtain ⟨s, ops, msgs, hrun, h⟩ := exists_refines_run hevents Refines.initial
  refine ⟨s, hrun, ⟨ops, msgs, h.operations, h.queue, h.holds⟩, fun hops hqueue => ?_⟩
  obtain rfl : ops = [] := List.map_eq_nil_iff.mp (h.operations.symm.trans hops)
  obtain rfl : msgs = [] := List.map_eq_nil_iff.mp (h.queue.symm.trans hqueue)
  exact h.holds.blocks_eq_none

/-- A READ of two bytes and a CREATE: the reply to the READ is retried once, the one to the CREATE
cannot be allocated. -/
def readAndCreate : List ServerEvent :=
  [.request ⟨1, .read, readRequest 2⟩ 0 ⟨true, true, fun _ => 7⟩,
    .request ⟨2, .create, leBytes 8 5⟩ 0 ⟨true, true, fun _ => 7⟩, .complete 1 0 [] false,
    .complete 0 0 [65, 66] true, .deliver 0 true (fun _ => 9) true,
    .deliver 0 true (fun _ => 9) false]

theorem allowed_readAndCreate : ∀ event ∈ readAndCreate, event.Allowed := by
  simp [readAndCreate, ServerEvent.Allowed, field32_readRequest]

theorem server_memory_safe_readAndCreate :
    ∃ s, serverMachine.run (some .initial) readAndCreate = some s ∧
      ∀ p, s.heap.blocks p = none := by
  obtain ⟨s, hrun, -, hidle⟩ := server_memory_safe allowed_readAndCreate
  have hempty : (serverMachine.run (some .initial) readAndCreate).map
      (fun s => (s.operations.length, s.queue)) = some (0, []) := by
    decide
  rw [hrun, Option.map_some, Option.some_inj, Prod.mk.injEq, List.length_eq_zero_iff] at hempty
  exact ⟨s, hrun, hidle hempty.1 hempty.2⟩

/-- **The server in memory is the one on values.** In every run in which every READ asks for fewer
than `2 ^ 32 - 8` bytes, the responses are those of the server whose contexts and messages are
values; what was in memory before never shows in them. No request is answered twice. If nothing that
is allocated behind the handlers is missing and no READ asks for more than a frame can take, then
every request has its one response when the engine and the queue are empty. Of a STATFS there is
only the reply that its last shard makes. -/
theorem server_refines_values (hevents : ∀ event ∈ events, event.Allowed) :
    ∃ s, serverMachine.run (some .initial) events = some s ∧
      s.responses = (valueMachine.run .initial events).responses ∧
      (s.responses.map (·.requestId)).Subperm (events.filterMap (·.requestId?)) ∧
      ((∀ event ∈ events, event.KeepsReplies) → s.operations = [] → s.queue = [] →
        (s.responses.map (·.requestId)).Perm (events.filterMap (·.requestId?))) := by
  obtain ⟨s, ops, msgs, hrun, h⟩ := exists_refines_run hevents Refines.initial
  have hids : (valueMachine.run .initial events).requestIds.Perm
      (events.filterMap (·.requestId?)) := ServerValues.perm_requestIds_run .initial events
  refine ⟨s, hrun, h.responses, ?_, fun hkeeps hops hqueue => ?_⟩
  · rw [h.responses]
    refine (List.Sublist.subperm ?_).trans hids.subperm
    rw [ServerValues.requestIds, List.append_assoc, List.append_assoc]
    exact List.sublist_append_left _ _
  · obtain rfl : ops = [] := List.map_eq_nil_iff.mp (h.operations.symm.trans hops)
    obtain rfl : msgs = [] := List.map_eq_nil_iff.mp (h.queue.symm.trans hqueue)
    have hkept : (valueMachine.run .initial events).Keeps :=
      Machine.run_invariant (fun _ event hmem hkept => hkept.step (hkeeps event hmem))
        ⟨fun _ hmem => absurd hmem List.not_mem_nil, fun _ hmem => absurd hmem List.not_mem_nil,
          rfl⟩
    rw [ServerValues.requestIds, h.engine, h.messages, hkept.dropped, ← h.responses] at hids
    simpa using hids

theorem server_refines_values_readAndCreate :
    ∃ s, serverMachine.run (some .initial) readAndCreate = some s ∧
      s.responses = [⟨1, .ok, [0, 0, 0, 0, 2, 0, 0, 0, 65, 66]⟩] := by
  obtain ⟨s, hrun, hresponses, -⟩ := server_refines_values allowed_readAndCreate
  exact ⟨s, hrun, hresponses⟩

end LightFS.Storage
