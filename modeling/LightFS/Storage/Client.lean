import LightFS.Library.ByteCursor

/-!
# The storage client

The client side of the remote calls (`src/storage_client/storage_client.c`): a call is encoded in
the body of a request, and the body of the response is decoded for the callback of the caller.
Integers are copied in the byte order of the machine, which is little-endian.

## Main definitions

* `RpcOp`, `RpcCall`, `NrpcStatus`, `RequestFrame`, `ResponseFrame`.
* `encodeCreateReq` … `encodeCloneReq`, `RpcCall.request`.
* `ClientCallback`, `clientResponseCb`.
-/

namespace LightFS.Storage

open Library

/-- The opcodes `RPC_OP_CREATE` … `RPC_OP_STATFS`. -/
inductive RpcOp where
  | create
  | delete
  | write
  | read
  | truncate
  | punch
  | clone
  | statfs
deriving DecidableEq

/-- The `NRPC_STATUS_` codes that the handlers use, and `other` for a response with none of them.
The numbers are those of nrpc, and no code that is modelled looks at them. -/
inductive NrpcStatus where
  | ok
  | badOpcode
  | internal
  | other
deriving DecidableEq

/-- `IO_SUCCESS`. -/
abbrev ioSuccess : UInt32 := 0

/-- `IO_ERROR`. -/
abbrev ioError : UInt32 := 1

/-- A call on an object, made by a user of the client or by the server on the engine. -/
inductive RpcCall where
  | create (oid : UInt64)
  | delete (oid : UInt64)
  | write (oid offset : UInt64) (len : UInt32) (data : List UInt8)
  | read (oid offset : UInt64) (len : UInt32)
  | truncate (oid size : UInt64)
  | punch (oid offset : UInt64) (len : UInt32)
  | clone (srcOid dstOid : UInt64)
deriving DecidableEq

/-- A request on the wire. -/
structure RequestFrame where
  requestId : UInt64
  opcode : RpcOp
  body : List UInt8

/-- A response on the wire. -/
structure ResponseFrame where
  requestId : UInt64
  status : NrpcStatus
  body : List UInt8

/-- `client_call_type_t`. -/
inductive ClientCallType where
  | simple
  | read
  | statfs
deriving DecidableEq

/-! ### Requests -/

/-- The encoders write their fields one after the other, when the buffer of `cap` bytes has
room. -/
def encodeReq (fields : List UInt8) (cap : ℕ) : Option (List UInt8) :=
  if cap < fields.length then none else some fields

/-- `encode_create_req`. -/
def encodeCreateReq (oid : UInt64) (cap : ℕ) : Option (List UInt8) :=
  encodeReq (leBytes 8 oid.toNat) cap

/-- `encode_delete_req`. -/
def encodeDeleteReq (oid : UInt64) (cap : ℕ) : Option (List UInt8) :=
  encodeReq (leBytes 8 oid.toNat) cap

/-- `encode_write_req`. The total is a `uint32_t`. -/
def encodeWriteReq (oid offset : UInt64) (data : List UInt8) (len : UInt32) (cap : ℕ) :
    Option (List UInt8) :=
  if cap < (20 + len.toNat) % 2 ^ 32 then none
  else
    some (leBytes 8 oid.toNat ++ (leBytes 8 offset.toNat ++ (leBytes 4 len.toNat ++
      data.take len.toNat)))

/-- `encode_read_req`. -/
def encodeReadReq (oid offset : UInt64) (len : UInt32) (cap : ℕ) : Option (List UInt8) :=
  encodeReq (leBytes 8 oid.toNat ++ (leBytes 8 offset.toNat ++ leBytes 4 len.toNat)) cap

/-- `encode_truncate_req`. -/
def encodeTruncateReq (oid size : UInt64) (cap : ℕ) : Option (List UInt8) :=
  encodeReq (leBytes 8 oid.toNat ++ leBytes 8 size.toNat) cap

/-- `encode_punch_req`. -/
def encodePunchReq (oid offset : UInt64) (len : UInt32) (cap : ℕ) : Option (List UInt8) :=
  encodeReq (leBytes 8 oid.toNat ++ (leBytes 8 offset.toNat ++ leBytes 4 len.toNat)) cap

/-- `encode_clone_req`. -/
def encodeCloneReq (srcOid dstOid : UInt64) (cap : ℕ) : Option (List UInt8) :=
  encodeReq (leBytes 8 srcOid.toNat ++ leBytes 8 dstOid.toNat) cap

/-- What a call hands to `do_rpc_call`: its type, its opcode and the body of the request. -/
structure ClientRequest where
  callType : ClientCallType
  opcode : RpcOp
  body : List UInt8

/-- `storage_client_create_obj`, `storage_client_delete_obj`, `storage_client_write`,
`storage_client_read`, `storage_client_truncate`, `storage_client_punch` and
`storage_client_clone`, their allocations succeeding and the client connected; `none` when the
call is refused with `-EINVAL`. -/
def RpcCall.request : RpcCall → Option ClientRequest
  | .create oid => (encodeCreateReq oid 8).map (⟨.simple, .create, ·⟩)
  | .delete oid => (encodeDeleteReq oid 8).map (⟨.simple, .delete, ·⟩)
  | .write oid offset len data =>
    if 2 ^ 20 - 20 < len.toNat then none
    else (encodeWriteReq oid offset data len (20 + len.toNat)).map (⟨.simple, .write, ·⟩)
  | .read oid offset len => (encodeReadReq oid offset len 20).map (⟨.read, .read, ·⟩)
  | .truncate oid size => (encodeTruncateReq oid size 16).map (⟨.simple, .truncate, ·⟩)
  | .punch oid offset len => (encodePunchReq oid offset len 20).map (⟨.simple, .punch, ·⟩)
  | .clone srcOid dstOid => (encodeCloneReq srcOid dstOid 16).map (⟨.simple, .clone, ·⟩)

/-! ### Responses -/

/-- A callback of the caller with its arguments; the data pointer of a read points into the body
of the response. -/
inductive ClientCallback where
  | simple (result : UInt32)
  | read (result : UInt32) (data : Option (List UInt8)) (len : UInt32)
  | statfs (result : UInt32) (total used : UInt64)
deriving DecidableEq

/-- The callback for a response that cannot be used. -/
def errorCallback : ClientCallType → ClientCallback
  | .simple => .simple ioError
  | .read => .read ioError none 0
  | .statfs => .statfs ioError 0 0

/-- `client_response_cb`. The status of the response is not looked at. -/
def clientResponseCb (callType : ClientCallType) (_status : NrpcStatus) (body : List UInt8)
    (transportErr : ℤ) : ClientCallback :=
  if transportErr ≠ 0 then errorCallback callType
  else if body.length < 4 then errorCallback callType
  else
    let ioStatus := UInt32.ofNat (readLe body 0 4)
    match callType with
    | .simple => .simple ioStatus
    | .read =>
      if 8 ≤ body.length then
        .read ioStatus (some (body.drop 8)) (UInt32.ofNat (readLe body 4 4))
      else .read ioStatus none 0
    | .statfs =>
      if 20 ≤ body.length then
        .statfs ioStatus (UInt64.ofNat (readLe body 4 8)) (UInt64.ofNat (readLe body 12 8))
      else .statfs ioStatus 0 0

end LightFS.Storage
