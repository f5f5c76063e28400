import LightFS.Storage.Server

/-!
# What client and server understand of each other

The handlers of the server decode what the client encodes, and call the engine with the arguments
of the caller (`rpcHandler_request`). The client decodes what the server answers: for a call that
the engine refuses (`answers_encodeSimpleError`) and for one that it completes
(`answers_deferredBody`), the callback of the caller gets the result of the engine, and for a read
the bytes.

## Main definitions

* `RpcCall.Allowed`, `RpcCall.Encodable` — the sizes a remote call, and its request, may have.
* `Answer`, `ClientCallback.Answers` — what the engine gave for a call, and that a callback tells
  it to the caller.

## Main results

* `rpcHandler_decodes_request`.
* `answers_encodeSimpleError`, `answers_deferredBody`.
-/

namespace LightFS.Storage

open Library

namespace RpcCall

/-- The opcode of a call. -/
def opcode : RpcCall → RpcOp
  | .create _ => .create
  | .delete _ => .delete
  | .write _ _ _ _ => .write
  | .read _ _ _ => .read
  | .truncate _ _ => .truncate
  | .punch _ _ _ => .punch
  | .clone _ _ => .clone

/-- The type of the callback of a call. -/
def callType : RpcCall → ClientCallType
  | .read _ _ _ => .read
  | _ => .simple

/-- The size of the buffer for the data of a call. -/
def extraLen : RpcCall → UInt32
  | .read _ _ len => len
  | _ => 0

/-- The buffer for the data of a call, holding `data`. -/
def extraData (call : RpcCall) (data : List UInt8) : Option (List UInt8) :=
  match call with
  | .read _ _ _ => some data
  | _ => none

/-- The sizes of a remote call: a write and the response to a read fit the body of a frame. -/
def Allowed : RpcCall → Prop
  | .write _ _ len data => data.length = len.toNat ∧ len.toNat ≤ 2 ^ 20 - 20
  | .read _ _ len => len.toNat ≤ 2 ^ 20 - 8
  | _ => True

/-- The arguments of a call that the client encodes: the data of a write has the given length, and
`storage_client_write` does not refuse it. -/
def Encodable : RpcCall → Prop
  | .write _ _ len data => data.length = len.toNat ∧ len.toNat ≤ 2 ^ 20 - 20
  | _ => True

theorem Allowed.encodable {call : RpcCall} (h : call.Allowed) : call.Encodable := by
  cases call with
  | write oid offset len data => exact h
  | _ => trivial

/-- The context a handler passes to the engine with a call. -/
def bridgeCtx (call : RpcCall) (requestId : UInt64) : BridgeCtx :=
  ⟨requestId, call.opcode, call.extraData (List.replicate call.extraLen.toNat 0), call.extraLen⟩

end RpcCall

/-! ### Requests -/

@[simp] theorem field64_leBytes (v : UInt64) : field64 (leBytes 8 v.toNat) 0 = v := by
  rw [field64, ← List.append_nil (leBytes 8 v.toNat), readLe_leBytes_append,
    ofNat_ofLeBytes_leBytes_uint64]

@[simp] theorem field64_leBytes_append (v : UInt64) (rest : List UInt8) :
    field64 (leBytes 8 v.toNat ++ rest) 0 = v := by
  rw [field64, readLe_leBytes_append, ofNat_ofLeBytes_leBytes_uint64]

@[simp] theorem field64_second (v : ℕ) (rest : List UInt8) :
    field64 (leBytes 8 v ++ rest) 8 = field64 rest 0 := by
  rw [field64, readLe_leBytes_append_of_le le_rfl, field64]

@[simp] theorem field32_leBytes (v : UInt32) : field32 (leBytes 4 v.toNat) 0 = v := by
  rw [field32, ← List.append_nil (leBytes 4 v.toNat), readLe_leBytes_append,
    ofNat_ofLeBytes_leBytes_uint32]

@[simp] theorem field32_leBytes_append (v : UInt32) (rest : List UInt8) :
    field32 (leBytes 4 v.toNat ++ rest) 0 = v := by
  rw [field32, readLe_leBytes_append, ofNat_ofLeBytes_leBytes_uint32]

@[simp] theorem field32_third (v v' : ℕ) (rest : List UInt8) :
    field32 (leBytes 8 v ++ (leBytes 8 v' ++ rest)) 16 = field32 rest 0 := by
  rw [field32, readLe_leBytes_append_of_le (by omega), readLe_leBytes_append_of_le (by omega),
    field32]

theorem encodeReq_of_le {fields : List UInt8} {cap : ℕ} (h : fields.length ≤ cap) :
    encodeReq fields cap = some fields :=
  if_neg (not_lt.mpr h)

theorem handleFields_of_le {size : ℕ} {req : List UInt8} (h : size ≤ req.length) (opcode : RpcOp)
    (decode : List UInt8 → RpcCall) (requestId : UInt64) (rc : UInt32) :
    handleFields size opcode decode requestId req rc =
      callEngine (decode req) (makeBridgeCtx requestId opcode) rc :=
  if_neg (not_lt.mpr h)

/-- The handler of a write finds its three fields, and the data behind them. -/
theorem rpcHandlerWrite_request {oid offset : UInt64} {len : UInt32} {data : List UInt8}
    (hdata : data.length = len.toNat) (requestId : UInt64) (rc : UInt32) :
    rpcHandlerWrite requestId
        (leBytes 8 oid.toNat ++ (leBytes 8 offset.toNat ++ (leBytes 4 len.toNat ++ data))) rc =
      callEngine (.write oid offset len data)
        ((RpcCall.write oid offset len data).bridgeCtx requestId) rc := by
  have hdrop : (leBytes 8 oid.toNat ++ (leBytes 8 offset.toNat ++
      (leBytes 4 len.toNat ++ data))).drop 20 = data := by
    simp [List.drop_append, List.drop_eq_nil_of_le]
  have hlength : (leBytes 8 oid.toNat ++ (leBytes 8 offset.toNat ++
      (leBytes 4 len.toNat ++ data))).length = 20 + len.toNat := by
    simp only [List.length_append, length_leBytes, hdata]
    omega
  simp only [rpcHandlerWrite, hlength, field32_third, field32_leBytes_append, hdrop,
    List.take_of_length_le hdata.le, field64_leBytes_append, field64_second]
  rw [if_neg (by omega), if_neg (by omega)]
  rfl

/-- The server decodes what the client encodes: a call that can be encoded makes a request, whose
handler calls the engine with the arguments of the call. -/
theorem rpcHandler_request {call : RpcCall} (hcall : call.Encodable) :
    ∃ body, call.request = some ⟨call.callType, call.opcode, body⟩ ∧
      ∃ handler, rpcHandler call.opcode = some handler ∧ ∀ requestId rc,
        handler requestId body rc = callEngine call (call.bridgeCtx requestId) rc := by
  cases call with
  | create oid =>
    refine ⟨leBytes 8 oid.toNat, ?_, rpcHandlerCreate, rfl, fun requestId rc => ?_⟩
    · rw [RpcCall.request, encodeCreateReq, encodeReq_of_le (by simp)]
      rfl
    · rw [rpcHandlerCreate, handleFields_of_le (by simp), field64_leBytes]
      rfl
  | delete oid =>
    refine ⟨leBytes 8 oid.toNat, ?_, rpcHandlerDelete, rfl, fun requestId rc => ?_⟩
    · rw [RpcCall.request, encodeDeleteReq, encodeReq_of_le (by simp)]
      rfl
    · rw [rpcHandlerDelete, handleFields_of_le (by simp), field64_leBytes]
      rfl
  | write oid offset len data =>
    obtain ⟨hdata, hlen⟩ := hcall
    have htake : data.take len.toNat = data := List.take_of_length_le hdata.le
    refine ⟨leBytes 8 oid.toNat ++ (leBytes 8 offset.toNat ++ (leBytes 4 len.toNat ++ data)), ?_,
      rpcHandlerWrite, rfl, fun requestId rc => ?_⟩
    · rw [RpcCall.request, if_neg (not_lt.mpr hlen), encodeWriteReq, if_neg (by omega), htake]
      rfl
    · exact rpcHandlerWrite_request hdata requestId rc
  | read oid offset len =>
    refine ⟨leBytes 8 oid.toNat ++ (leBytes 8 offset.toNat ++ leBytes 4 len.toNat), ?_,
      rpcHandlerRead, rfl, fun requestId rc => ?_⟩
    · rw [RpcCall.request, encodeReadReq, encodeReq_of_le (by simp)]
      rfl
    · rw [rpcHandlerRead, if_neg (by simp), field32_third, field32_leBytes, field64_leBytes_append,
        field64_second, field64_leBytes_append]
      rfl
  | truncate oid size =>
    refine ⟨leBytes 8 oid.toNat ++ leBytes 8 size.toNat, ?_, rpcHandlerTruncate, rfl,
      fun requestId rc => ?_⟩
    · rw [RpcCall.request, encodeTruncateReq, encodeReq_of_le (by simp)]
      rfl
    · rw [rpcHandlerTruncate, handleFields_of_le (by simp), field64_leBytes_append, field64_second,
        field64_leBytes]
      rfl
  | punch oid offset len =>
    refine ⟨leBytes 8 oid.toNat ++ (leBytes 8 offset.toNat ++ leBytes 4 len.toNat), ?_,
      rpcHandlerPunch, rfl, fun requestId rc => ?_⟩
    · rw [RpcCall.request, encodePunchReq, encodeReq_of_le (by simp)]
      rfl
    · rw [rpcHandlerPunch, handleFields_of_le (by simp), field64_leBytes_append, field64_second,
        field64_leBytes_append, field32_third, field32_leBytes]
      rfl
  | clone srcOid dstOid =>
    refine ⟨leBytes 8 srcOid.toNat ++ leBytes 8 dstOid.toNat, ?_, rpcHandlerClone, rfl,
      fun requestId rc => ?_⟩
    · rw [RpcCall.request, encodeCloneReq, encodeReq_of_le (by simp)]
      rfl
    · rw [rpcHandlerClone, handleFields_of_le (by simp), field64_leBytes_append, field64_second,
        field64_leBytes]
      rfl

theorem called_callEngine (call : RpcCall) (ctx : BridgeCtx) (rc : UInt32) :
    (callEngine call ctx rc).called = some call := by
  rw [callEngine]
  split_ifs <;> rfl

/-- A write that is accepted has the length its body says, and its data is the rest of the body. -/
theorem called_rpcHandlerWrite {requestId : UInt64} {req : List UInt8} {rc : UInt32}
    {call : RpcCall} (h : (rpcHandlerWrite requestId req rc).called = some call) :
    20 + (field32 req 16).toNat = req.length ∧
      call = .write (field64 req 0) (field64 req 8) (field32 req 16)
        ((req.drop 20).take (field32 req 16).toNat) := by
  dsimp only [rpcHandlerWrite] at h
  split_ifs at h with hshort hlen
  · cases h
  · cases h
  · rw [called_callEngine] at h
    exact ⟨by omega, (Option.some.inj h).symm⟩

/-- **The server decodes what the client encodes.** For every call that can be encoded, the
handler of its opcode accepts the body the client encodes and calls the engine with the arguments
and the data of the call. Conversely a write that the server accepts, whatever its body, passes to
the engine as many bytes as its length says, all of them from inside the body. -/
theorem rpcHandler_decodes_request :
    (∀ call : RpcCall, call.Encodable →
      ∃ body, call.request = some ⟨call.callType, call.opcode, body⟩ ∧
        ∃ handler, rpcHandler call.opcode = some handler ∧
          ∀ requestId rc, (handler requestId body rc).called = some call) ∧
    ∀ requestId req rc call, (rpcHandlerWrite requestId req rc).called = some call →
      ∃ oid offset len data, call = .write oid offset len data ∧ len = field32 req 16 ∧
        20 + len.toNat ≤ req.length ∧ data = (req.drop 20).take len.toNat ∧
        data.length = len.toNat := by
  constructor
  · intro call hcall
    obtain ⟨body, hrequest, handler, hhandler, hcalls⟩ := rpcHandler_request hcall
    refine ⟨body, hrequest, handler, hhandler, fun requestId rc => ?_⟩
    rw [hcalls]
    exact called_callEngine call _ rc
  · intro requestId req rc call hcalled
    obtain ⟨hlength, rfl⟩ := called_rpcHandlerWrite hcalled
    refine ⟨_, _, _, _, rfl, rfl, hlength.le, rfl, ?_⟩
    rw [List.length_take, List.length_drop]
    omega

/-- A write of three bytes, and a body with a length field of `2 ^ 32 - 1`. -/
theorem rpcHandler_decodes_request_write :
    (∃ body, (RpcCall.write 7 9 3 [1, 2, 3]).request = some ⟨.simple, .write, body⟩ ∧
      (rpcHandlerWrite 1 body 0).called = some (.write 7 9 3 [1, 2, 3])) ∧
    (rpcHandlerWrite 1 (List.replicate 20 255) 0).called = none := by
  obtain ⟨body, hrequest, handler, hhandler, hcalls⟩ :=
    rpcHandler_decodes_request.1 (.write 7 9 3 [1, 2, 3]) ⟨rfl, by decide⟩
  refine ⟨⟨body, hrequest, ?_⟩, by decide⟩
  obtain rfl : rpcHandlerWrite = handler := Option.some.inj hhandler
  exact hcalls 1 0

/-! ### Responses -/

/-- What the engine gave for a call: its result, and the bytes in the buffer of the call. -/
structure Answer where
  result : UInt32
  data : List UInt8

/-- The bytes a read callback is given. -/
def readBytes (data : Option (List UInt8)) (len : UInt32) : List UInt8 :=
  (data.getD []).take len.toNat

/-- The callback tells the caller what the engine gave for the call: the result, and for a read
the bytes, if it succeeded, or none. -/
def ClientCallback.Answers : ClientCallback → RpcCall → Answer → Prop
  | .read result data len, .read _ _ _, answer =>
    result = answer.result ∧
      readBytes data len = if answer.result = ioSuccess then answer.data else []
  | .simple result, call, answer => call.callType = .simple ∧ result = answer.result
  | _, _, _ => False

/-- The status word of a response. -/
theorem readLe_status (result : UInt32) (rest : List UInt8) :
    UInt32.ofNat (readLe (leBytes 4 result.toNat ++ rest) 0 4) = result := by
  rw [readLe_leBytes_append, ofNat_ofLeBytes_leBytes_uint32]

/-- The callback for a response with nothing behind its status word. -/
def statusCallback (result : UInt32) : ClientCallType → ClientCallback
  | .simple => .simple result
  | .read => .read result none 0
  | .statfs => .statfs result 0 0

theorem clientResponseCb_status (callType : ClientCallType) (result : UInt32) :
    clientResponseCb callType .ok (leBytes 4 result.toNat) 0 = statusCallback result callType := by
  have hstatus : UInt32.ofNat (readLe (leBytes 4 result.toNat) 0 4) = result := by
    simpa using readLe_status result []
  rw [clientResponseCb, if_neg (by simp), if_neg (by simp), hstatus]
  cases callType with
  | simple => rfl
  | read => exact if_neg (by simp)
  | statfs => exact if_neg (by simp)

/-- A response with nothing behind its status word, to a call without data. -/
theorem answers_status {call : RpcCall} (hcall : call.callType = .simple) (answer : Answer) :
    (clientResponseCb call.callType .ok (leBytes 4 answer.result.toNat) 0).Answers call answer := by
  rw [clientResponseCb_status, hcall]
  cases call <;> first | exact ⟨rfl, rfl⟩ | cases hcall

/-- **A call that the engine refuses**: the caller gets the error. -/
theorem answers_encodeSimpleError (call : RpcCall) {rc : UInt32} (hrc : rc ≠ ioSuccess) :
    (clientResponseCb call.callType .ok (encodeSimpleError rc) 0).Answers call ⟨rc, []⟩ := by
  by_cases hcall : call.callType = .simple
  · exact answers_status hcall ⟨rc, []⟩
  · rw [encodeSimpleError, clientResponseCb_status]
    cases call with
    | read oid offset len => exact ⟨rfl, by simp [hrc, readBytes]⟩
    | _ => exact absurd rfl hcall

/-- The message of the callback of the engine for a call. -/
def RpcCall.replyMsg (call : RpcCall) (requestId : UInt64) (answer : Answer) : ReplyMsg :=
  ⟨requestId, answer.result, call.opcode, call.extraData answer.data, call.extraLen⟩

/-- A response to a read: its status word, the number of bytes and the bytes. -/
theorem clientResponseCb_read (result len : UInt32) (data : List UInt8) :
    clientResponseCb .read .ok (leBytes 4 result.toNat ++ (leBytes 4 len.toNat ++ data)) 0 =
      .read result (some data) len := by
  have hlen : UInt32.ofNat (readLe (leBytes 4 result.toNat ++ (leBytes 4 len.toNat ++ data)) 4 4) =
      len := by
    rw [readLe_leBytes_append_of_le le_rfl]
    exact readLe_status len data
  have hdata : (leBytes 4 result.toNat ++ (leBytes 4 len.toNat ++ data)).drop 8 = data := by
    simp [List.drop_append, List.drop_eq_nil_of_le]
  have hlength : (leBytes 4 result.toNat ++ (leBytes 4 len.toNat ++ data)).length =
      8 + data.length := by
    simp only [List.length_append, length_leBytes]
    omega
  rw [clientResponseCb, if_neg (by simp), if_neg (by omega), readLe_status, hlen, hdata]
  exact if_pos (by omega)

/-- A response to STATFS: its status word and the two sizes. -/
theorem clientResponseCb_statfs (result : UInt32) (total used : UInt64) :
    clientResponseCb .statfs .ok
        (leBytes 4 result.toNat ++ (leBytes 8 total.toNat ++ leBytes 8 used.toNat)) 0 =
      .statfs result total used := by
  have htotal : UInt64.ofNat (readLe (leBytes 4 result.toNat ++
      (leBytes 8 total.toNat ++ leBytes 8 used.toNat)) 4 8) = total := by
    rw [readLe_leBytes_append_of_le le_rfl]
    exact field64_leBytes_append total _
  have hused : UInt64.ofNat (readLe (leBytes 4 result.toNat ++
      (leBytes 8 total.toNat ++ leBytes 8 used.toNat)) 12 8) = used := by
    rw [readLe_leBytes_append_of_le (by omega), readLe_leBytes_append_of_le le_rfl]
    exact field64_leBytes used
  have hlength : (leBytes 4 result.toNat ++
      (leBytes 8 total.toNat ++ leBytes 8 used.toNat)).length = 20 := by
    simp only [List.length_append, length_leBytes]
  rw [clientResponseCb, if_neg (by simp), if_neg (by omega), readLe_status, htotal, hused]
  exact if_pos hlength.ge

/-- The body of the response to a read. -/
theorem deferredBody_read (oid offset : UInt64) (len : UInt32) (requestId : UInt64)
    (answer : Answer) :
    deferredBody ((RpcCall.read oid offset len).replyMsg requestId answer) =
      if answer.result = ioSuccess ∧ 0 < len then
        leBytes 4 answer.result.toNat ++ (leBytes 4 len.toNat ++ answer.data.take len.toNat)
      else leBytes 4 answer.result.toNat ++ (leBytes 4 (0 : UInt32).toNat ++ []) := rfl

/-- **A call that the engine completes**: the caller gets the result of the engine, and the bytes
that were read. -/
theorem answers_deferredBody (call : RpcCall) (requestId : UInt64) {answer : Answer}
    (hdata : answer.data.length = call.extraLen.toNat) :
    (clientResponseCb call.callType .ok (deferredBody (call.replyMsg requestId answer)) 0).Answers
      call answer := by
  cases call with
  | read oid offset len =>
    have hdata' : answer.data.length = len.toNat := hdata
    rw [deferredBody_read, RpcCall.callType]
    split_ifs with hread
    · rw [clientResponseCb_read, List.take_of_length_le hdata'.le]
      refine ⟨rfl, ?_⟩
      rw [if_pos hread.1]
      exact List.take_of_length_le hdata'.le
    · rw [clientResponseCb_read]
      refine ⟨rfl, ?_⟩
      split_ifs with hsuccess
      · have hlen : len = 0 := by
          rw [not_and, UInt32.not_lt] at hread
          exact UInt32.le_zero_iff.mp (hread hsuccess)
        rw [hlen] at hdata'
        exact (List.eq_nil_of_length_eq_zero hdata').symm
      · rfl
  | _ => exact answers_status rfl answer

/-- The responses fit the body of a frame. -/
theorem length_deferredBody_le {call : RpcCall} (hcall : call.Allowed) (requestId : UInt64)
    (answer : Answer) :
    (deferredBody (call.replyMsg requestId answer)).length ≤ nrpcMaxBody := by
  have hmax : nrpcMaxBody = 2 ^ 20 := rfl
  cases call with
  | read oid offset len =>
    have hlen : len.toNat ≤ 2 ^ 20 - 8 := hcall
    rw [deferredBody_read]
    split_ifs
    · simp only [List.length_append, length_leBytes, List.length_take]
      omega
    · simp [hmax]
  | _ => simp [RpcCall.replyMsg, deferredBody, RpcCall.opcode, hmax]

end LightFS.Storage
