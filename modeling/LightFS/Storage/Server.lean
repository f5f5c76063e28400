import LightFS.Storage.Client

/-!
# The storage server

The handlers of the storage server (`src/storage_server/rpc_handler.c`) and the bridge from the
callbacks of the engine to the responses (`src/storage_server/callback_bridge.c`). A handler
decodes the body of a request and calls the engine. If the engine refuses the call the handler
answers at once; otherwise the answer is deferred: the engine calls `bridge_callback` with the
context of the request, which sends a message to the RPC thread, which sends the response.

The pointers to the server and its thread, of which there is one, are left out, and allocations
succeed. The buffer of a read is filled by the engine before its callback.

## Main definitions

* `BridgeCtx`, `ReplyMsg`, `HandlerResult`.
* `rpcHandlerCreate` … `rpcHandlerClone`, `rpcHandler`.
* `bridgeCallback`, `deferredBody`, `sendDeferredReply`.
-/

namespace LightFS.Storage

open Library

/-- `bridge_ctx_t`. -/
structure BridgeCtx where
  requestId : UInt64
  opcode : RpcOp
  extraData : Option (List UInt8)
  extraLen : UInt32

/-- `reply_msg_t`. -/
structure ReplyMsg where
  requestId : UInt64
  result : UInt32
  opcode : RpcOp
  extraData : Option (List UInt8)
  extraLen : UInt32

/-! ### Handlers -/

/-- What a handler does: it answers at once, with the call it made on the engine if it made one,
or it leaves the answer to the callback of the engine. -/
inductive HandlerResult where
  | reply (called : Option RpcCall) (status : NrpcStatus) (body : List UInt8)
  | deferred (called : RpcCall) (ctx : BridgeCtx)

/-- The call a handler made on the engine, `none` when it refused the request. -/
def HandlerResult.called : HandlerResult → Option RpcCall
  | .reply called _ _ => called
  | .deferred called _ => some called

/-- `make_bridge_ctx`. -/
def makeBridgeCtx (requestId : UInt64) (opcode : RpcOp) : BridgeCtx := ⟨requestId, opcode, none, 0⟩

/-- The body `encode_simple_error` writes. -/
def encodeSimpleError (result : UInt32) : List UInt8 := leBytes 4 result.toNat

/-- A handler whose call on the engine, with the callback context `ctx`, returned `rc`. -/
def callEngine (called : RpcCall) (ctx : BridgeCtx) (rc : UInt32) : HandlerResult :=
  if rc ≠ ioSuccess then .reply (some called) .ok (encodeSimpleError rc) else .deferred called ctx

/-- The handlers of requests with a body of at least `size` bytes. -/
def handleFields (size : ℕ) (opcode : RpcOp) (decode : List UInt8 → RpcCall) (requestId : UInt64)
    (req : List UInt8) (rc : UInt32) : HandlerResult :=
  if req.length < size then .reply none .badOpcode []
  else callEngine (decode req) (makeBridgeCtx requestId opcode) rc

/-- An integer of 8 bytes in the body of a request. -/
def field64 (req : List UInt8) (pos : ℕ) : UInt64 := UInt64.ofNat (readLe req pos 8)

/-- An integer of 4 bytes in the body of a request. -/
def field32 (req : List UInt8) (pos : ℕ) : UInt32 := UInt32.ofNat (readLe req pos 4)

/-- `rpc_handler_create`. -/
def rpcHandlerCreate : UInt64 → List UInt8 → UInt32 → HandlerResult :=
  handleFields 8 .create fun req => .create (field64 req 0)

/-- `rpc_handler_delete`. -/
def rpcHandlerDelete : UInt64 → List UInt8 → UInt32 → HandlerResult :=
  handleFields 8 .delete fun req => .delete (field64 req 0)

/-- `rpc_handler_write`, which also compares the embedded length with the length of the body. -/
def rpcHandlerWrite (requestId : UInt64) (req : List UInt8) (rc : UInt32) : HandlerResult :=
  if req.length < 20 then .reply none .badOpcode []
  else
    let len := field32 req 16
    if len.toNat + 20 ≠ req.length then .reply none .badOpcode []
    else
      callEngine (.write (field64 req 0) (field64 req 8) len ((req.drop 20).take len.toNat))
        (makeBridgeCtx requestId .write) rc

/-- `rpc_handler_read`, which also allocates the buffer for the data. -/
def rpcHandlerRead (requestId : UInt64) (req : List UInt8) (rc : UInt32) : HandlerResult :=
  if req.length < 20 then .reply none .badOpcode []
  else
    let len := field32 req 16
    let ctx := { makeBridgeCtx requestId .read with
      extraData := some (List.replicate len.toNat 0)
      extraLen := len }
    callEngine (.read (field64 req 0) (field64 req 8) len) ctx rc

/-- `rpc_handler_truncate`. -/
def rpcHandlerTruncate : UInt64 → List UInt8 → UInt32 → HandlerResult :=
  handleFields 16 .truncate fun req => .truncate (field64 req 0) (field64 req 8)

/-- `rpc_handler_punch`. -/
def rpcHandlerPunch : UInt64 → List UInt8 → UInt32 → HandlerResult :=
  handleFields 20 .punch fun req => .punch (field64 req 0) (field64 req 8) (field32 req 16)

/-- `rpc_handler_clone`. -/
def rpcHandlerClone : UInt64 → List UInt8 → UInt32 → HandlerResult :=
  handleFields 16 .clone fun req => .clone (field64 req 0) (field64 req 8)

/-- The handler registered for an opcode. -/
def rpcHandler : RpcOp → Option (UInt64 → List UInt8 → UInt32 → HandlerResult)
  | .create => some rpcHandlerCreate
  | .delete => some rpcHandlerDelete
  | .write => some rpcHandlerWrite
  | .read => some rpcHandlerRead
  | .truncate => some rpcHandlerTruncate
  | .punch => some rpcHandlerPunch
  | .clone => some rpcHandlerClone
  | .statfs => none

/-! ### Deferred replies -/

/-- `bridge_callback`. -/
def bridgeCallback (ctx : BridgeCtx) (result : UInt32) : ReplyMsg :=
  ⟨ctx.requestId, result, ctx.opcode, ctx.extraData, ctx.extraLen⟩

/-- The body `send_deferred_reply` builds. -/
def deferredBody (msg : ReplyMsg) : List UInt8 :=
  match msg.opcode, msg.extraData with
  | .read, some data =>
    if msg.result = ioSuccess ∧ 0 < msg.extraLen then
      leBytes 4 msg.result.toNat ++ (leBytes 4 msg.extraLen.toNat ++ data.take msg.extraLen.toNat)
    else leBytes 4 msg.result.toNat ++ leBytes 4 0
  | .read, none => leBytes 4 msg.result.toNat ++ leBytes 4 0
  | .statfs, some data =>
    if 16 ≤ msg.extraLen then leBytes 4 msg.result.toNat ++ data.take 16
    else leBytes 4 msg.result.toNat ++ List.replicate 16 0
  | .statfs, none => leBytes 4 msg.result.toNat ++ List.replicate 16 0
  | _, _ => leBytes 4 msg.result.toNat

/-- `NRPC_MAX_BODY`. -/
abbrev nrpcMaxBody : ℕ := 2 ^ 20

/-- What becomes of a message that reaches the RPC thread. -/
inductive ReplyOutcome where
  | sent (frame : ResponseFrame)
  | requeued (msg : ReplyMsg)
  | dropped

/-- `send_deferred_reply`, when nrpc has a send in flight and when it has none. nrpc refuses a body
over its limit; every error but `-EBUSY` drops the message. -/
def sendDeferredReply (msg : ReplyMsg) (busy : Bool) : ReplyOutcome :=
  if nrpcMaxBody < (deferredBody msg).length then .dropped
  else if busy then .requeued msg
  else .sent ⟨msg.requestId, .ok, deferredBody msg⟩

end LightFS.Storage
