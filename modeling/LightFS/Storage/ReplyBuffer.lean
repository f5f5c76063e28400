import LightFS.Storage.RemoteCalls

/-!
# The buffer of a deferred reply

`send_deferred_reply` (`src/storage_server/callback_bridge.c`) allocates a buffer, copies the parts
of the reply into it and gives it to nrpc with a length. For a READ the capacity and the length are
sums of 32 bits with the length in the request, while the copies take the length as it is. The
copies are the body of the reply (`flatten_replyCopies`). For the other opcodes they always fit
(`replyFits_of_ne_read`); for a READ they do if the sum does not wrap, and nrpc takes the body if it
is not over its limit. Neither is checked (`read_reply_fits_iff`).

## Main definitions

* `replyCapacity`, `replyCopies`, `replyBodyLen`.
* `ReplyFits` — the copies stay in the buffer.
-/

namespace LightFS.Storage

open Library

/-- `cap`, the size of the buffer. -/
def replyCapacity (msg : ReplyMsg) : UInt32 :=
  match msg.opcode with
  | .read => 8 + msg.extraLen
  | .statfs => 20
  | _ => 4

/-- Whether a READ has data to send. -/
def ReplyMsg.hasData (msg : ReplyMsg) : Bool :=
  msg.result = ioSuccess ∧ msg.extraData.isSome ∧ 0 < msg.extraLen

/-- The copies into the buffer: where they start and the bytes. -/
def replyCopies (msg : ReplyMsg) : List (ℕ × List UInt8) :=
  (0, leBytes 4 msg.result.toNat) ::
    match msg.opcode with
    | .read =>
      if msg.hasData then
        [(4, leBytes 4 msg.extraLen.toNat),
          (8, (msg.extraData.getD []).take msg.extraLen.toNat)]
      else [(4, leBytes 4 0)]
    | .statfs =>
      if msg.extraData.isSome ∧ 16 ≤ msg.extraLen then [(4, (msg.extraData.getD []).take 16)]
      else [(4, List.replicate 16 0)]
    | _ => []

/-- `body_len`. -/
def replyBodyLen (msg : ReplyMsg) : UInt32 :=
  match msg.opcode with
  | .read => if msg.hasData then 8 + msg.extraLen else 8
  | .statfs => 20
  | _ => 4

/-- The copies stay in the buffer. -/
def ReplyFits (msg : ReplyMsg) : Prop :=
  ∀ copy ∈ replyCopies msg, copy.1 + copy.2.length ≤ (replyCapacity msg).toNat

/-- The copies make up the body of the reply. -/
theorem flatten_replyCopies (msg : ReplyMsg) :
    ((replyCopies msg).map Prod.snd).flatten = deferredBody msg := by
  obtain ⟨requestId, result, opcode, data, len⟩ := msg
  cases opcode
  case read =>
    rcases data with _ | data
    · simp [replyCopies, ReplyMsg.hasData, deferredBody]
    · by_cases h : result = ioSuccess ∧ 0 < len
      · simp [replyCopies, ReplyMsg.hasData, deferredBody, h]
      · simp [replyCopies, ReplyMsg.hasData, deferredBody, h]
  case statfs =>
    rcases data with _ | data
    · simp [replyCopies, deferredBody]
    · by_cases h : 16 ≤ len
      · simp [replyCopies, deferredBody, h]
      · simp [replyCopies, deferredBody, h]
  all_goals simp [replyCopies, deferredBody]

/-- The replies other than to a READ fit their buffers. -/
theorem replyFits_of_ne_read {msg : ReplyMsg} (h : msg.opcode ≠ .read) : ReplyFits msg := by
  intro copy hcopy
  obtain ⟨requestId, result, opcode, data, len⟩ := msg
  cases opcode
  case read => exact absurd rfl h
  case statfs =>
    rw [replyCopies, List.mem_cons] at hcopy
    obtain rfl | hcopy := hcopy
    · simp [replyCapacity]
    · have hcap : (20 : UInt32).toNat = 20 := rfl
      dsimp only [replyCapacity] at hcopy ⊢
      split_ifs at hcopy
      · obtain rfl := List.mem_singleton.mp hcopy
        rw [List.length_take, hcap]
        omega
      · obtain rfl := List.mem_singleton.mp hcopy
        rw [List.length_replicate, hcap]
  all_goals
    obtain rfl := List.mem_singleton.mp hcopy
    simp [replyCapacity]

/-! ### Replies to a READ -/

variable (msg : ReplyMsg)

theorem toNat_replyCapacity_read (hop : msg.opcode = .read) :
    (replyCapacity msg).toNat = (8 + msg.extraLen.toNat) % 2 ^ 32 := by
  rw [replyCapacity, hop]
  exact UInt32.toNat_add 8 msg.extraLen

/-- The reply to a READ is two words and what there is of data. -/
theorem exists_replyCopies_read (hop : msg.opcode = .read) :
    ∃ n data, replyCopies msg = (0, leBytes 4 msg.result.toNat) :: (4, leBytes 4 n) :: data ∧
      ∀ copy ∈ data, copy.1 + copy.2.length ≤ 8 + msg.extraLen.toNat := by
  rw [replyCopies, hop]
  dsimp only
  split_ifs
  · refine ⟨_, _, rfl, fun copy hcopy => ?_⟩
    obtain rfl := List.mem_singleton.mp hcopy
    rw [List.length_take]
    omega
  · exact ⟨_, [], rfl, fun copy hcopy => absurd hcopy List.not_mem_nil⟩

/-- A READ is answered in its buffer if the size of the buffer does not wrap; if it does, there is
no room for the 8 bytes in front of the data. -/
theorem replyFits_read_iff (hop : msg.opcode = .read) :
    ReplyFits msg ↔ 8 + msg.extraLen.toNat < 2 ^ 32 := by
  have hlen := msg.extraLen.toNat_lt
  obtain ⟨n, data, hcopies, hdata⟩ := exists_replyCopies_read msg hop
  rw [ReplyFits, toNat_replyCapacity_read msg hop, hcopies, List.forall_mem_cons,
    List.forall_mem_cons, length_leBytes, length_leBytes]
  constructor
  · rintro ⟨-, hle, -⟩
    by_contra hwrap
    rw [Nat.mod_eq_sub_mod (by omega), Nat.mod_eq_of_lt (by omega)] at hle
    omega
  · intro hwrap
    rw [Nat.mod_eq_of_lt hwrap]
    exact ⟨by omega, by omega, hdata⟩

/-- nrpc takes the body if it is an error or if the data is not too long. -/
theorem replyBodyLen_le_iff (hop : msg.opcode = .read) (hdata : msg.extraData.isSome)
    (hwrap : 8 + msg.extraLen.toNat < 2 ^ 32) :
    (replyBodyLen msg).toNat ≤ nrpcMaxBody ↔
      (msg.result = ioSuccess → msg.extraLen.toNat ≤ nrpcMaxBody - 8) := by
  have hsum : (8 + msg.extraLen).toNat = 8 + msg.extraLen.toNat := by
    rw [UInt32.toNat_add]
    exact Nat.mod_eq_of_lt hwrap
  have hmax : nrpcMaxBody = 2 ^ 20 := rfl
  have hpos : 0 < msg.extraLen ↔ 0 < msg.extraLen.toNat := UInt32.lt_iff_toNat_lt
  rw [replyBodyLen, hop]
  dsimp only
  split_ifs with h
  · have hresult : msg.result = ioSuccess := (of_decide_eq_true h).1
    rw [hsum]
    simp only [hresult, true_implies]
    omega
  · have hno : ¬ (msg.result = ioSuccess ∧ 0 < msg.extraLen) := fun hno =>
      h (decide_eq_true ⟨hno.1, hdata, hno.2⟩)
    refine iff_of_true (by decide) fun hresult => ?_
    have hzero : ¬ 0 < msg.extraLen.toNat := fun hlt => hno ⟨hresult, hpos.mpr hlt⟩
    omega

variable {requestId : UInt64} {req : List UInt8} {rc : UInt32} {called : RpcCall} {ctx : BridgeCtx}

/-- A READ that is left to the engine has the length of the request in its context. -/
theorem ctx_of_rpcHandlerRead (h : rpcHandlerRead requestId req rc = .deferred called ctx) :
    ctx.opcode = .read ∧ ctx.extraData.isSome ∧ ctx.extraLen = field32 req 16 := by
  rw [rpcHandlerRead] at h
  dsimp only [callEngine] at h
  split_ifs at h
  obtain rfl := (HandlerResult.deferred.inj h).2
  exact ⟨rfl, rfl, rfl⟩

/-- **When the reply to a READ fits.** For every request that `rpc_handler_read` accepts, every
result of the engine and all data, the copies stay in the buffer, its size does not wrap and nrpc
takes the body if and only if the length in the request is less than `2 ^ 32 - 8` and, for a
success, at most `NRPC_MAX_BODY - 8`. -/
theorem read_reply_fits_iff (h : rpcHandlerRead requestId req rc = .deferred called ctx)
    (result : UInt32) (data : List UInt8) :
    (ReplyFits (bridgeCallback (ctx.fill data) result) ∧
      8 + (field32 req 16).toNat < 2 ^ 32 ∧
      (replyBodyLen (bridgeCallback (ctx.fill data) result)).toNat ≤ nrpcMaxBody) ↔
      (field32 req 16).toNat < 2 ^ 32 - 8 ∧
        (result = ioSuccess → (field32 req 16).toNat ≤ nrpcMaxBody - 8) := by
  obtain ⟨hop, hdata, hlen⟩ := ctx_of_rpcHandlerRead h
  have hfits := replyFits_read_iff (bridgeCallback (ctx.fill data) result) hop
  have hbody := replyBodyLen_le_iff (bridgeCallback (ctx.fill data) result) hop
    (by rw [bridgeCallback, BridgeCtx.fill, Option.isSome_map, hdata])
  have hmsg : (bridgeCallback (ctx.fill data) result).extraLen = field32 req 16 := hlen
  rw [hmsg] at hfits hbody
  rw [hfits]
  constructor
  · rintro ⟨hwrap, -, hle⟩
    exact ⟨by omega, (hbody hwrap).mp hle⟩
  · rintro ⟨hlt, hle⟩
    have hwrap : 8 + (field32 req 16).toNat < 2 ^ 32 := by omega
    exact ⟨hwrap, hwrap, (hbody hwrap).mpr hle⟩

/-- The request of a client for so many bytes of object 1. -/
def readRequest (len : UInt32) : List UInt8 := leBytes 8 1 ++ (leBytes 8 0 ++ leBytes 4 len.toNat)

theorem field32_readRequest (len : UInt32) : field32 (readRequest len) 16 = len := by
  rw [readRequest, field32_third, field32_leBytes]

/-- A request for 100 bytes is answered, with data and with an error. -/
theorem read_reply_fits_iff_hundred :
    ∃ called ctx, rpcHandlerRead 7 (readRequest 100) ioSuccess = .deferred called ctx ∧
      ReplyFits (bridgeCallback (ctx.fill (List.replicate 100 65)) ioSuccess) ∧
      ReplyFits (bridgeCallback (ctx.fill []) ioError) := by
  have h : rpcHandlerRead 7 (readRequest 100) ioSuccess = .deferred _ _ := rfl
  refine ⟨_, _, h, ?_, ?_⟩
  · exact ((read_reply_fits_iff h ioSuccess _).mpr (by decide)).1
  · exact ((read_reply_fits_iff h ioError _).mpr (by decide)).1

/-- A request for `2 ^ 32 - 4` bytes that the engine fails: 8 bytes go into a buffer of 4. A request
for 1 MiB that succeeds: the body is 8 bytes over the limit. -/
theorem read_reply_does_not_fit :
    (∃ called ctx, rpcHandlerRead 7 (readRequest 0xFFFFFFFC) ioSuccess = .deferred called ctx ∧
      ∀ data, replyCapacity (bridgeCallback (ctx.fill data) ioError) = 4 ∧
        (4, leBytes 4 0) ∈ replyCopies (bridgeCallback (ctx.fill data) ioError)) ∧
    (∃ called ctx, rpcHandlerRead 7 (readRequest 0x100000) ioSuccess = .deferred called ctx ∧
      ∀ data, (replyBodyLen (bridgeCallback (ctx.fill data) ioSuccess)).toNat =
        nrpcMaxBody + 8) := by
  refine ⟨⟨_, _, rfl, fun data => ⟨?_, ?_⟩⟩, ⟨_, _, rfl, fun data => ?_⟩⟩
  · have hcap : (8 : UInt32) + field32 (readRequest 0xFFFFFFFC) 16 = 4 := by
      rw [field32_readRequest]
      rfl
    exact hcap
  · exact List.mem_cons_of_mem _ List.mem_cons_self
  · have hlen : ((8 : UInt32) + field32 (readRequest 0x100000) 16).toNat = nrpcMaxBody + 8 := by
      rw [field32_readRequest]
      rfl
    exact hlen

end LightFS.Storage
