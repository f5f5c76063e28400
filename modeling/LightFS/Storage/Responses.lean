import LightFS.Storage.Codec
import LightFS.Storage.Statfs

/-!
# The response codec

What the client makes of the responses of the server, for every opcode and every result of the
engine (`response_codec`). The server chooses the format of a response by the opcode, the client by
the type of the pending call; there are two formats for one operation, the one of a completed call
and the four bytes of a call that was refused.

## Main definitions

* `RpcOp.callType` — the type of call the client has pending for an opcode.
* `ReplyOutcome.decode` — the callback for a message that reached the RPC thread.

## Main results

* `response_codec`.
-/

namespace LightFS.Storage

open Library

/-- The type of call that the client makes with an opcode. -/
def RpcOp.callType : RpcOp → ClientCallType
  | .read => .read
  | .statfs => .statfs
  | _ => .simple

/-- The callback that the client makes for a message that was sent; none for one that was not. -/
def ReplyOutcome.decode (callType : ClientCallType) : ReplyOutcome → Option ClientCallback
  | .sent frame => some (clientResponseCb callType frame.status frame.body 0)
  | .requeued _ => none
  | .dropped => none

/-- A body that fits a frame is sent when nrpc is free. -/
theorem decode_sendDeferredReply {msg : ReplyMsg} (h : (deferredBody msg).length ≤ nrpcMaxBody)
    (callType : ClientCallType) :
    (sendDeferredReply msg false).decode callType =
      some (clientResponseCb callType .ok (deferredBody msg) 0) := by
  rw [sendDeferredReply, if_neg (not_lt.mpr h), if_neg Bool.false_ne_true]
  rfl

/-- The opcodes without data in the response. -/
theorem deferredBody_simple {op : RpcOp} (hop : op.callType = .simple) (requestId : UInt64)
    (result : UInt32) :
    deferredBody (bridgeCallback (makeBridgeCtx requestId op) result) =
      leBytes 4 result.toNat := by
  cases op <;> first | rfl | cases hop

/-- The sizes of an aggregator, with any result. -/
theorem deferredBody_statfs (agg : StatfsAggregator) (result : UInt32) :
    deferredBody { agg.reply with result := result } =
      leBytes 4 result.toNat ++
        (leBytes 8 agg.totalSize.toNat ++ leBytes 8 agg.usedSize.toNat) := by
  rw [← List.take_of_length_le (i := 16)
    (l := leBytes 8 agg.totalSize.toNat ++ leBytes 8 agg.usedSize.toNat) (by simp)]
  rfl

/-- **The response codec.** What the client makes of a response: for an operation without data a
simple callback with the result of the engine; for a read of at most `2 ^ 20 - 8` bytes a read
callback with the result, with the bytes and their number if the read succeeded and with length 0
if it failed; for STATFS a callback with the result and the sizes of the aggregator; and for a call
that was refused a callback of the kind of the call with the error and no data. -/
theorem response_codec (requestId : UInt64) (result : UInt32) :
    (∀ op : RpcOp, op.callType = .simple →
      (sendDeferredReply (bridgeCallback (makeBridgeCtx requestId op) result) false).decode
        op.callType = some (.simple result)) ∧
    (∀ data (len : UInt32), data.length = len.toNat → len.toNat ≤ 2 ^ 20 - 8 →
      (sendDeferredReply (bridgeCallback ⟨requestId, .read, some data, len⟩ result) false).decode
          RpcOp.read.callType =
        some (if result = ioSuccess then .read result (some data) len
          else .read result (some []) 0)) ∧
    (∀ agg : StatfsAggregator,
      (sendDeferredReply { agg.reply with result := result } false).decode RpcOp.statfs.callType =
        some (.statfs result agg.totalSize agg.usedSize)) ∧
    ∀ op : RpcOp, clientResponseCb op.callType .ok (encodeSimpleError result) 0 =
      statusCallback result op.callType := by
  have hmax : nrpcMaxBody = 2 ^ 20 := rfl
  refine ⟨fun op hop => ?_, fun data len hdata hlen => ?_, fun agg => ?_, fun op => ?_⟩
  · have hbody := deferredBody_simple hop requestId result
    rw [decode_sendDeferredReply (by rw [hbody, length_leBytes]; omega), hbody,
      clientResponseCb_status, hop]
    rfl
  · have hbody := deferredBody_read 0 0 len requestId ⟨result, data⟩
    have hallowed : (RpcCall.read 0 0 len).Allowed := hlen
    have hfits := length_deferredBody_le hallowed requestId ⟨result, data⟩
    refine (decode_sendDeferredReply hfits _).trans (congrArg some ?_)
    rw [hbody, List.take_of_length_le hdata.le]
    show clientResponseCb .read .ok _ 0 = _
    by_cases hsuccess : result = ioSuccess
    · rw [if_pos hsuccess]
      by_cases hpos : 0 < len
      · rw [if_pos ⟨hsuccess, hpos⟩, clientResponseCb_read]
      · obtain rfl : len = 0 := UInt32.le_zero_iff.mp (UInt32.not_lt.mp hpos)
        obtain rfl : data = [] := List.eq_nil_of_length_eq_zero hdata
        rw [if_neg fun h => hpos h.2, clientResponseCb_read]
    · rw [if_neg hsuccess, if_neg fun h => hsuccess h.1, clientResponseCb_read]
  · have hbody := deferredBody_statfs agg result
    have hlength : (deferredBody { agg.reply with result := result }).length = 20 := by
      rw [hbody]
      simp only [List.length_append, length_leBytes]
    rw [decode_sendDeferredReply (by omega), hbody]
    exact congrArg some (clientResponseCb_statfs result _ _)
  · exact clientResponseCb_status op.callType result

/-- A read of three bytes that succeeded. -/
theorem response_codec_read :
    (sendDeferredReply (bridgeCallback ⟨9, .read, some [1, 2, 3], 3⟩ ioSuccess) false).decode
      RpcOp.read.callType = some (.read ioSuccess (some [1, 2, 3]) 3) :=
  (response_codec 9 ioSuccess).2.1 [1, 2, 3] 3 rfl (by decide)

end LightFS.Storage
