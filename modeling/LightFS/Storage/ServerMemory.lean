import LightFS.Library.Heap
import LightFS.Storage.ReplyBuffer

/-!
# The memory of the storage server

The handlers (`src/storage_server/rpc_handler.c`) and the deferred replies
(`src/storage_server/callback_bridge.c`) once more, now with the memory that they use. A handler
allocates a context, and a READ a buffer; the engine writes to the buffer and calls
`bridge_callback` with the context, which moves the buffer to a message and releases the context;
`send_deferred_reply` copies the message to a body, and releases it unless the send has to be
retried. Every allocation can fail, and requests can have any contents. Of a STATFS there is only
the reply that its last shard makes; its aggregator is in `LightFS.Storage.StatfsCalls`.

A run without a result is one that reads, writes or releases what is not allocated, or copies beyond
the end of a buffer. Next to the server in memory stands the one without (`Storage.Server`), in
which contexts and messages are values, with the replies that are given up when an allocation fails.

## Main definitions

* `Block`, `copyTo`, `copyFrom`.
* `InMemory.rpcHandler`, `InMemory.bridgeCallback`, `InMemory.sendDeferredReply`.
* `ServerEvent`, `ServerState`, `serverMachine` — the server in memory.
* `ServerValues`, `valueMachine` — the same server on values.
-/

namespace LightFS.Storage

open Library

/-! ### Blocks -/

/-- `bridge_ctx_t` in memory. -/
structure CtxRecord where
  requestId : UInt64
  opcode : RpcOp
  extraData : Option ℕ
  extraLen : UInt32

/-- `reply_msg_t` in memory. -/
structure MsgRecord where
  requestId : UInt64
  result : UInt32
  opcode : RpcOp
  extraData : Option ℕ
  extraLen : UInt32

/-- What the server allocates. -/
inductive Block where
  | ctx (record : CtxRecord)
  | msg (record : MsgRecord)
  | bytes (contents : List UInt8)

namespace Block

/-- The block as a context. -/
def ctx? : Block → Option CtxRecord
  | ctx record => some record
  | _ => none

/-- The block as a message. -/
def msg? : Block → Option MsgRecord
  | msg record => some record
  | _ => none

/-- The block as a buffer. -/
def bytes? : Block → Option (List UInt8)
  | bytes contents => some contents
  | _ => none

end Block

/-- `malloc` of a buffer, in which there is what happens to be there. -/
def mallocBytes (succeeds : Bool) (size : ℕ) (garbage : ℕ → UInt8) : HeapM Block (Option ℕ) :=
  malloc succeeds (.bytes ((List.range size).map garbage))

/-- `memcpy` to a position of a buffer, which has to have room. -/
def copyTo (p pos : ℕ) (data : List UInt8) : HeapM Block Unit := do
  let contents ← load Block.bytes? p
  if pos + data.length ≤ contents.length then
    store p (.bytes (contents.take pos ++ data ++ contents.drop (pos + data.length)))
  else failure

/-- The first bytes of a buffer, which has to have so many. -/
def copyFrom (p size : ℕ) : HeapM Block (List UInt8) := do
  let contents ← load Block.bytes? p
  if size ≤ contents.length then pure (contents.take size) else failure

/-! ### The code -/

/-- A call that the engine accepted, with the argument of its callback and the buffer of a READ. -/
structure Operation where
  call : RpcCall
  ctx : ℕ
  buffer : Option ℕ

/-- What a handler returns. -/
inductive Handled where
  | reply (status : NrpcStatus) (body : List UInt8)
  | deferred (op : Operation)

/-- Which allocations of a handler succeed, and what is in a buffer that is allocated. -/
structure HandlerAllocs where
  buffer : Bool
  ctx : Bool
  garbage : ℕ → UInt8

/-- What becomes of a message for `send_deferred_reply`. -/
inductive SendOutcome where
  | sent (frame : ResponseFrame)
  | requeued
  | dropped

namespace InMemory

/-- `make_bridge_ctx`. -/
def makeBridgeCtx (succeeds : Bool) (requestId : UInt64) (opcode : RpcOp) :
    HeapM Block (Option ℕ) :=
  malloc succeeds (.ctx ⟨requestId, opcode, none, 0⟩)

/-- The end of a handler, whose call on the engine returned `rc`. -/
def callEngine (call : RpcCall) (ctx : ℕ) (buffer : Option ℕ) (rc : UInt32) :
    HeapM Block Handled :=
  if rc ≠ ioSuccess then do
    free buffer
    free (some ctx)
    return .reply .ok (encodeSimpleError rc)
  else return .deferred ⟨call, ctx, buffer⟩

/-- A handler without a buffer, from the allocation of its context on. -/
def callWithCtx (call : RpcCall) (opcode : RpcOp) (requestId : UInt64) (rc : UInt32)
    (allocs : HandlerAllocs) : HeapM Block Handled := do
  match ← makeBridgeCtx allocs.ctx requestId opcode with
  | none => return .reply .internal []
  | some ctx => callEngine call ctx none rc

/-- The handlers of requests with a body of at least `size` bytes. -/
def handleFields (size : ℕ) (opcode : RpcOp) (decode : List UInt8 → RpcCall) (requestId : UInt64)
    (req : List UInt8) (rc : UInt32) (allocs : HandlerAllocs) : HeapM Block Handled :=
  if req.length < size then return .reply .badOpcode []
  else callWithCtx (decode req) opcode requestId rc allocs

/-- `rpc_handler_create`. -/
def rpcHandlerCreate : UInt64 → List UInt8 → UInt32 → HandlerAllocs → HeapM Block Handled :=
  handleFields 8 .create fun req => .create (field64 req 0)

/-- `rpc_handler_delete`. -/
def rpcHandlerDelete : UInt64 → List UInt8 → UInt32 → HandlerAllocs → HeapM Block Handled :=
  handleFields 8 .delete fun req => .delete (field64 req 0)

/-- `rpc_handler_write`. -/
def rpcHandlerWrite (requestId : UInt64) (req : List UInt8) (rc : UInt32)
    (allocs : HandlerAllocs) : HeapM Block Handled :=
  if req.length < 20 then return .reply .badOpcode []
  else
    let len := field32 req 16
    if len.toNat + 20 ≠ req.length then return .reply .badOpcode []
    else
      callWithCtx (.write (field64 req 0) (field64 req 8) len ((req.drop 20).take len.toNat))
        .write requestId rc allocs

/-- `rpc_handler_read`, which allocates its buffer before the context. -/
def rpcHandlerRead (requestId : UInt64) (req : List UInt8) (rc : UInt32)
    (allocs : HandlerAllocs) : HeapM Block Handled :=
  if req.length < 20 then return .reply .badOpcode []
  else do
    let len := field32 req 16
    match ← mallocBytes allocs.buffer len.toNat allocs.garbage with
    | none => return .reply .internal []
    | some buffer =>
      match ← makeBridgeCtx allocs.ctx requestId .read with
      | none =>
        free (some buffer)
        return .reply .internal []
      | some ctx =>
        store ctx (.ctx ⟨requestId, .read, some buffer, len⟩)
        callEngine (.read (field64 req 0) (field64 req 8) len) ctx (some buffer) rc

/-- `rpc_handler_truncate`. -/
def rpcHandlerTruncate : UInt64 → List UInt8 → UInt32 → HandlerAllocs → HeapM Block Handled :=
  handleFields 16 .truncate fun req => .truncate (field64 req 0) (field64 req 8)

/-- `rpc_handler_punch`. -/
def rpcHandlerPunch : UInt64 → List UInt8 → UInt32 → HandlerAllocs → HeapM Block Handled :=
  handleFields 20 .punch fun req => .punch (field64 req 0) (field64 req 8) (field32 req 16)

/-- `rpc_handler_clone`. -/
def rpcHandlerClone : UInt64 → List UInt8 → UInt32 → HandlerAllocs → HeapM Block Handled :=
  handleFields 16 .clone fun req => .clone (field64 req 0) (field64 req 8)

/-- The handler registered for an opcode, STATFS apart. -/
def rpcHandler :
    RpcOp → Option (UInt64 → List UInt8 → UInt32 → HandlerAllocs → HeapM Block Handled)
  | .create => some rpcHandlerCreate
  | .delete => some rpcHandlerDelete
  | .write => some rpcHandlerWrite
  | .read => some rpcHandlerRead
  | .truncate => some rpcHandlerTruncate
  | .punch => some rpcHandlerPunch
  | .clone => some rpcHandlerClone
  | .statfs => none

/-- `bridge_callback`: the message that it sends, if it can be allocated. -/
def bridgeCallback (ctx : ℕ) (result : UInt32) (succeeds : Bool) : HeapM Block (Option ℕ) := do
  match ← malloc succeeds (.msg ⟨0, 0, .create, none, 0⟩) with
  | none =>
    let record ← load Block.ctx? ctx
    free record.extraData
    free (some ctx)
    return none
  | some msg =>
    let record ← load Block.ctx? ctx
    store msg
      (.msg ⟨record.requestId, result, record.opcode, record.extraData, record.extraLen⟩)
    free (some ctx)
    return some msg

/-- The engine fills the buffer of an operation, if it has one, and calls its callback. -/
def complete (op : Operation) (result : UInt32) (data : List UInt8) (succeeds : Bool) :
    HeapM Block (Option ℕ) := do
  match op.buffer with
  | none => bridgeCallback op.ctx result succeeds
  | some buffer =>
    copyTo buffer 0 data
    bridgeCallback op.ctx result succeeds

/-- The end of `collect_shard_statfs`: the message for the last shard to send, with a buffer for
the sizes if that can be allocated too. -/
def sendStatfsReply (requestId : UInt64) (result : UInt32) (total used : UInt64)
    (msgSucceeds extraSucceeds : Bool) : HeapM Block (Option ℕ) := do
  match ← malloc msgSucceeds (.msg ⟨0, 0, .create, none, 0⟩) with
  | none => return none
  | some msg =>
    match ← malloc extraSucceeds
      (.bytes (leBytes 8 total.toNat ++ leBytes 8 used.toNat)) with
    | none =>
      store msg (.msg ⟨requestId, result, .statfs, none, 0⟩)
      return some msg
    | some extra =>
      store msg (.msg ⟨requestId, result, .statfs, some extra, 16⟩)
      return some msg

/-- The size of the body in `send_deferred_reply`. -/
def replyCapacity (record : MsgRecord) : UInt32 :=
  match record.opcode with
  | .read => 8 + record.extraLen
  | .statfs => 20
  | _ => 4

/-- What `send_deferred_reply` copies to the body behind the result, and `body_len`. -/
def fillExtra (record : MsgRecord) (body : ℕ) : HeapM Block UInt32 :=
  match record.opcode, record.extraData with
  | .read, some extra =>
    if record.result = ioSuccess ∧ 0 < record.extraLen then do
      copyTo body 4 (leBytes 4 record.extraLen.toNat)
      let data ← copyFrom extra record.extraLen.toNat
      copyTo body 8 data
      return 8 + record.extraLen
    else do
      copyTo body 4 (leBytes 4 0)
      return 8
  | .read, none => do
    copyTo body 4 (leBytes 4 0)
    return 8
  | .statfs, some extra =>
    if 16 ≤ record.extraLen then do
      let data ← copyFrom extra 16
      copyTo body 4 data
      return 20
    else do
      copyTo body 4 (List.replicate 16 0)
      return 20
  | .statfs, none => do
    copyTo body 4 (List.replicate 16 0)
    return 20
  | _, _ => return 4

/-- `send_deferred_reply`. nrpc refuses a body over its limit, and has a send in flight or not. -/
def sendDeferredReply (msg : ℕ) (succeeds : Bool) (garbage : ℕ → UInt8) (busy : Bool) :
    HeapM Block SendOutcome := do
  let record ← load Block.msg? msg
  match ← mallocBytes succeeds (replyCapacity record).toNat garbage with
  | none =>
    free record.extraData
    free (some msg)
    return .dropped
  | some body =>
    copyTo body 0 (leBytes 4 record.result.toNat)
    let bodyLen ← fillExtra record body
    let contents ← copyFrom body bodyLen.toNat
    free (some body)
    if nrpcMaxBody < bodyLen.toNat then
      free record.extraData
      free (some msg)
      return .dropped
    else if busy then return .requeued
    else
      free record.extraData
      free (some msg)
      return .sent ⟨record.requestId, .ok, contents⟩

end InMemory

/-! ### The server -/

/-- What happens to the server. An index chooses an operation or a message, so that no order is
excluded. -/
inductive ServerEvent where
  /-- A request arrives; the call on the engine, if it is made, returns `rc`. -/
  | request (frame : RequestFrame) (rc : UInt32) (allocs : HandlerAllocs)
  /-- The engine completes an operation. -/
  | complete (i : ℕ) (result : UInt32) (data : List UInt8) (succeeds : Bool)
  /-- The last shard has answered a STATFS. -/
  | statfs (requestId : UInt64) (result : UInt32) (total used : UInt64)
    (msgSucceeds extraSucceeds : Bool)
  /-- A message reaches the RPC thread. -/
  | deliver (i : ℕ) (succeeds : Bool) (garbage : ℕ → UInt8) (busy : Bool)

/-- The server with its memory: the operations in the engine, the messages queued for the RPC thread
and the responses that were sent. -/
structure ServerState where
  heap : Heap Block
  operations : List Operation
  queue : List ℕ
  responses : List ResponseFrame

namespace ServerState

/-- Nothing has happened yet. -/
def initial : ServerState := ⟨.empty, [], [], []⟩

/-- A request has been handled. -/
def handled (s : ServerState) (requestId : UInt64) : Handled → ServerState
  | .reply status body => { s with responses := s.responses ++ [⟨requestId, status, body⟩] }
  | .deferred op => { s with operations := s.operations ++ [op] }

/-- The message at `i` has been dealt with. -/
def delivered (s : ServerState) (i msg : ℕ) : SendOutcome → ServerState
  | .sent frame => { s with queue := s.queue.eraseIdx i, responses := s.responses ++ [frame] }
  | .requeued => { s with queue := s.queue.eraseIdx i ++ [msg] }
  | .dropped => { s with queue := s.queue.eraseIdx i }

/-- One event. Nothing happens if there is no such operation or message, or if the data is not what
the engine was asked for. -/
def step (s : ServerState) : ServerEvent → Option ServerState
  | .request frame rc allocs =>
    match InMemory.rpcHandler frame.opcode with
    | none => some s
    | some handler =>
      (handler frame.requestId frame.body rc allocs s.heap).map fun r =>
        { s with heap := r.2 }.handled frame.requestId r.1
  | .complete i result data succeeds =>
    match s.operations[i]? with
    | none => some s
    | some op =>
      if data.length = op.call.extraLen.toNat then
        (InMemory.complete op result data succeeds s.heap).map fun r =>
          { s with
            heap := r.2
            operations := s.operations.eraseIdx i
            queue := s.queue ++ r.1.toList }
      else some s
  | .statfs requestId result total used msgSucceeds extraSucceeds =>
    (InMemory.sendStatfsReply requestId result total used msgSucceeds extraSucceeds s.heap).map
      fun r => { s with heap := r.2, queue := s.queue ++ r.1.toList }
  | .deliver i succeeds garbage busy =>
    match s.queue[i]? with
    | none => some s
    | some msg =>
      (InMemory.sendDeferredReply msg succeeds garbage busy s.heap).map fun r =>
        { s with heap := r.2 }.delivered i msg r.1

end ServerState

/-- The server under any events, without a state once its behaviour is undefined. -/
def serverMachine : Machine (Option ServerState) ServerEvent Unit :=
  ⟨fun s event => (s.bind (·.step event), ())⟩

/-! ### The server on values -/

/-- The server without memory, and for the record the requests whose reply was given up. -/
structure ServerValues where
  engine : List EngineOp
  messages : List ReplyMsg
  responses : List ResponseFrame
  dropped : List UInt64

/-- Whether what the handler of an opcode allocates is there. -/
def HandlerAllocs.suffice (allocs : HandlerAllocs) : RpcOp → Bool
  | .read => allocs.buffer && allocs.ctx
  | _ => allocs.ctx

/-- What a handler does when it has what it allocates, and when not. A request that it refuses is
refused before. -/
def HandlerResult.orInternal (result : HandlerResult) (suffice : Bool) : HandlerResult :=
  if result.called.isSome ∧ suffice = false then .reply none .internal [] else result

namespace ServerValues

/-- Nothing has happened yet. -/
def initial : ServerValues := ⟨[], [], [], []⟩

/-- A request has been handled. -/
def handled (t : ServerValues) (requestId : UInt64) : HandlerResult → ServerValues
  | .reply _ status body => { t with responses := t.responses ++ [⟨requestId, status, body⟩] }
  | .deferred call ctx => { t with engine := t.engine ++ [⟨requestId, call, ctx⟩] }

/-- The message `msg` at `i` has been dealt with. -/
def delivered (t : ServerValues) (i : ℕ) (msg : ReplyMsg) : ReplyOutcome → ServerValues
  | .sent frame => { t with messages := t.messages.eraseIdx i, responses := t.responses ++ [frame] }
  | .requeued msg => { t with messages := t.messages.eraseIdx i ++ [msg] }
  | .dropped =>
    { t with messages := t.messages.eraseIdx i, dropped := t.dropped ++ [msg.requestId] }

/-- One event. -/
def step (t : ServerValues) : ServerEvent → ServerValues
  | .request frame rc allocs =>
    match rpcHandler frame.opcode with
    | none => t
    | some handler =>
      t.handled frame.requestId
        ((handler frame.requestId frame.body rc).orInternal (allocs.suffice frame.opcode))
  | .complete i result data succeeds =>
    match t.engine[i]? with
    | none => t
    | some op =>
      if data.length = op.call.extraLen.toNat then
        if succeeds then
          { t with
            engine := t.engine.eraseIdx i
            messages := t.messages ++ [bridgeCallback (op.ctx.fill data) result] }
        else { t with engine := t.engine.eraseIdx i, dropped := t.dropped ++ [op.ctx.requestId] }
      else t
  | .statfs requestId result total used msgSucceeds extraSucceeds =>
    if msgSucceeds then
      { t with
        messages := t.messages ++ [if extraSucceeds then
          ⟨requestId, result, .statfs, some (leBytes 8 total.toNat ++ leBytes 8 used.toNat), 16⟩
        else ⟨requestId, result, .statfs, none, 0⟩] }
    else { t with dropped := t.dropped ++ [requestId] }
  | .deliver i succeeds _ busy =>
    match t.messages[i]? with
    | none => t
    | some msg =>
      t.delivered i msg (if succeeds then sendDeferredReply msg busy else .dropped)

end ServerValues

/-- The server on values under any events. -/
def valueMachine : Machine ServerValues ServerEvent Unit := ⟨fun t event => (t.step event, ())⟩

end LightFS.Storage
