import LightFS.Storage.ServerMemory

/-!
# The blocks of operations and messages

Which blocks belong to an operation in the engine and to a queued message, and what the code of the
storage server does to them. A handler that leaves its answer to the engine leaves the blocks of the
operation, and nothing otherwise; a completion turns the blocks of an operation into those of its
message; a message that is sent or given up is released, and one that has to be retried keeps its
blocks. Each function does with values what its counterpart in `Storage.Server` does.

## Main definitions

* `OpBlocks`, `OwnedOperation`, `ExtraBlocks`, `OwnedMessage`.

## Main results

* `spec_rpcHandler`, `spec_complete`, `spec_sendStatfsReply`, `spec_sendDeferredReply`.
-/

namespace LightFS.Storage

open Library

/-! ### Who owns which block -/

/-- The blocks of an operation: its context, and the buffer of a READ. -/
inductive OpBlocks : Operation → EngineOp → List (ℕ × Block) → Prop
  | plain {call : RpcCall} (ctx : ℕ) (requestId : UInt64) (opcode : RpcOp)
      (hcall : call.extraLen = 0) :
      OpBlocks ⟨call, ctx, none⟩ ⟨requestId, call, ⟨requestId, opcode, none, 0⟩⟩
        [(ctx, .ctx ⟨requestId, opcode, none, 0⟩)]
  | read (oid offset : UInt64) {len : UInt32} (ctx buffer : ℕ) (requestId : UInt64)
      {contents data : List UInt8} (hlen : contents.length = len.toNat)
      (hfits : 8 + len.toNat < 2 ^ 32) :
      OpBlocks ⟨.read oid offset len, ctx, some buffer⟩
        ⟨requestId, .read oid offset len, ⟨requestId, .read, some data, len⟩⟩
        [(ctx, .ctx ⟨requestId, .read, some buffer, len⟩), (buffer, .bytes contents)]

/-- An operation of the engine with its blocks. -/
structure OwnedOperation where
  operation : Operation
  value : EngineOp
  blocks : List (ℕ × Block)
  owns : OpBlocks operation value blocks

/-- The buffer with the data of a message, if there is one. -/
inductive ExtraBlocks (len : UInt32) : Option ℕ → Option (List UInt8) → List (ℕ × Block) → Prop
  | none : ExtraBlocks len none none []
  | some (buffer : ℕ) {data : List UInt8} (hlen : len.toNat ≤ data.length) :
      ExtraBlocks len (some buffer) (some data) [(buffer, .bytes data)]

/-- A queued message, whose blocks are its record and the buffer with the data. -/
structure OwnedMessage where
  addr : ℕ
  value : ReplyMsg
  pointer : Option ℕ
  extra : List (ℕ × Block)
  owns : ExtraBlocks value.extraLen pointer value.extraData extra
  fits : value.opcode = .read → 8 + value.extraLen.toNat < 2 ^ 32

namespace OwnedMessage

/-- The record of a message. -/
def record (m : OwnedMessage) : MsgRecord :=
  ⟨m.value.requestId, m.value.result, m.value.opcode, m.pointer, m.value.extraLen⟩

/-- The blocks of a message. -/
def blocks (m : OwnedMessage) : List (ℕ × Block) := (m.addr, .msg m.record) :: m.extra

end OwnedMessage

/-! ### Buffers -/

section Buffers

variable {pre pre' : List (ℕ × Block)} {p : ℕ}

theorem returns_copyTo {pos : ℕ} (front : List UInt8) {back data : List UInt8}
    (hperm : pre.Perm ((p, .bytes (front ++ back)) :: pre')) (hpos : pos = front.length)
    (hroom : data.length ≤ back.length) :
    Returns pre (copyTo p pos data) ()
      ((p, .bytes (front ++ data ++ back.drop data.length)) :: pre') := by
  have hmem : (p, Block.bytes (front ++ back)) ∈ pre := hperm.mem_iff.mpr List.mem_cons_self
  refine Returns.bind (returns_load hmem rfl) ?_
  have hle : pos + data.length ≤ (front ++ back).length := by
    rw [List.length_append]
    omega
  have hcopied : (front ++ back).take pos ++ data ++ (front ++ back).drop (pos + data.length) =
      front ++ data ++ back.drop data.length := by
    rw [hpos, List.take_left, List.drop_append]
    simp
  rw [if_pos hle, hcopied]
  exact returns_store _ hperm

theorem returns_copyFrom {size : ℕ} {contents : List UInt8} (hmem : (p, .bytes contents) ∈ pre)
    (hsize : size ≤ contents.length) :
    Returns pre (copyFrom p size) (contents.take size) pre := by
  refine Returns.bind (returns_load hmem rfl) ?_
  rw [if_pos hsize]
  exact .pure ⟨rfl, rfl⟩

end Buffers

/-! ### What the code does to the blocks -/

/-- A handler did what the server on values does, and left the blocks of the operation. -/
def HandledAs (requestId : UInt64) : HandlerResult → Handled → List (ℕ × Block) → Prop
  | .reply _ status body, handled, owned => handled = .reply status body ∧ owned = []
  | .deferred call ctx, handled, owned => ∃ o : OwnedOperation,
    handled = .deferred o.operation ∧ o.value = ⟨requestId, call, ctx⟩ ∧ owned = o.blocks

section Handlers

variable (requestId : UInt64) (rc : UInt32) (allocs : HandlerAllocs)

theorem orInternal_true (result : HandlerResult) : result.orInternal true = result :=
  if_neg fun h => Bool.noConfusion h.2

theorem orInternal_callEngine (call : RpcCall) (ctx : BridgeCtx) :
    (callEngine call ctx rc).orInternal false = .reply none .internal [] := by
  refine if_pos ⟨?_, rfl⟩
  rw [callEngine]
  split_ifs <;> rfl

/-- A handler whose allocations succeeded: the engine refuses the call and everything is released,
or it accepts and the operation owns what is there. -/
theorem spec_callEngine {o : OwnedOperation} {call : RpcCall} {ctx : ℕ} {buffer : Option ℕ}
    {value : BridgeCtx} (hop : o.operation = ⟨call, ctx, buffer⟩)
    (hvalue : o.value = ⟨requestId, call, value⟩) :
    Spec o.blocks (InMemory.callEngine call ctx buffer rc)
      (HandledAs requestId (callEngine call value rc)) := by
  rw [InMemory.callEngine, callEngine]
  split_ifs with hrc
  · obtain ⟨operation, engineOp, blocks, howns⟩ := o
    cases hop
    cases hvalue
    cases howns with
    | plain _ _ opcode hcall =>
      refine returns_free_none.bind ?_
      refine (returns_free (.refl _)).bind ?_
      exact .pure ⟨rfl, rfl⟩
    | read oid offset _ _ _ hlen hfits =>
      refine (returns_free (.swap _ _ _)).bind ?_
      refine (returns_free (.refl _)).bind ?_
      exact .pure ⟨rfl, rfl⟩
  · exact .pure ⟨o, by rw [hop], hvalue, rfl⟩

theorem spec_callWithCtx {call : RpcCall} (opcode : RpcOp) (hcall : call.extraLen = 0) :
    Spec [] (InMemory.callWithCtx call opcode requestId rc allocs) (HandledAs requestId
      ((callEngine call (makeBridgeCtx requestId opcode) rc).orInternal allocs.ctx)) := by
  cases hctx : allocs.ctx with
  | false =>
    rw [InMemory.callWithCtx, hctx, orInternal_callEngine]
    refine (returns_malloc_false _).bind ?_
    exact .pure ⟨rfl, rfl⟩
  | true =>
    rw [InMemory.callWithCtx, hctx, orInternal_true]
    refine .bind_malloc fun ctx => ?_
    exact spec_callEngine requestId rc (o := ⟨_, _, _, .plain ctx requestId opcode hcall⟩) rfl rfl

theorem spec_handleFields (size : ℕ) {opcode : RpcOp} {decode : List UInt8 → RpcCall}
    (hdecode : ∀ req, (decode req).extraLen = 0) (req : List UInt8) :
    Spec [] (InMemory.handleFields size opcode decode requestId req rc allocs)
      (HandledAs requestId
        ((handleFields size opcode decode requestId req rc).orInternal allocs.ctx)) := by
  rw [InMemory.handleFields, handleFields]
  split_ifs with hlen
  · exact .pure ⟨rfl, rfl⟩
  · exact spec_callWithCtx requestId rc allocs opcode (hdecode req)

theorem spec_rpcHandlerWrite (req : List UInt8) :
    Spec [] (InMemory.rpcHandlerWrite requestId req rc allocs)
      (HandledAs requestId ((rpcHandlerWrite requestId req rc).orInternal allocs.ctx)) := by
  rw [InMemory.rpcHandlerWrite, rpcHandlerWrite]
  dsimp only
  split_ifs
  · exact .pure ⟨rfl, rfl⟩
  · exact .pure ⟨rfl, rfl⟩
  · exact spec_callWithCtx requestId rc allocs .write rfl

theorem spec_rpcHandlerRead {req : List UInt8} (hfits : 8 + (field32 req 16).toNat < 2 ^ 32) :
    Spec [] (InMemory.rpcHandlerRead requestId req rc allocs) (HandledAs requestId
      ((rpcHandlerRead requestId req rc).orInternal (allocs.buffer && allocs.ctx))) := by
  rw [InMemory.rpcHandlerRead, rpcHandlerRead]
  split_ifs with hlen
  · exact .pure ⟨rfl, rfl⟩
  cases hbuffer : allocs.buffer with
  | false =>
    rw [Bool.false_and, orInternal_callEngine]
    refine (returns_malloc_false _).bind ?_
    exact .pure ⟨rfl, rfl⟩
  | true =>
    refine .bind_malloc fun buffer => ?_
    cases hctx : allocs.ctx with
    | false =>
      rw [Bool.and_false, orInternal_callEngine]
      refine (returns_malloc_false _).bind ?_
      refine (returns_free (.refl _)).bind ?_
      exact .pure ⟨rfl, rfl⟩
    | true =>
      rw [Bool.and_self, orInternal_true]
      refine .bind_malloc fun ctx => ?_
      refine (returns_store _ (.refl _)).bind ?_
      have hcontents : ((List.range (field32 req 16).toNat).map allocs.garbage).length =
          (field32 req 16).toNat := by
        rw [List.length_map, List.length_range]
      exact spec_callEngine requestId rc (o := ⟨_, _, _,
        .read (field64 req 0) (field64 req 8) ctx buffer requestId hcontents hfits⟩) rfl rfl

end Handlers

/-- The handlers do what those of the server on values do. -/
theorem spec_rpcHandler {frame : RequestFrame} (rc : UInt32) (allocs : HandlerAllocs)
    (hfits : frame.opcode = .read → 8 + (field32 frame.body 16).toNat < 2 ^ 32) :
    (InMemory.rpcHandler frame.opcode = none ∧ rpcHandler frame.opcode = none) ∨
    ∃ inMemory handler, InMemory.rpcHandler frame.opcode = some inMemory ∧
      rpcHandler frame.opcode = some handler ∧
      Spec [] (inMemory frame.requestId frame.body rc allocs) (HandledAs frame.requestId
        ((handler frame.requestId frame.body rc).orInternal (allocs.suffice frame.opcode))) := by
  obtain ⟨requestId, opcode, body⟩ := frame
  cases opcode with
  | statfs => exact .inl ⟨rfl, rfl⟩
  | write => exact .inr ⟨_, _, rfl, rfl, spec_rpcHandlerWrite requestId rc allocs body⟩
  | read => exact .inr ⟨_, _, rfl, rfl, spec_rpcHandlerRead requestId rc allocs (hfits rfl)⟩
  | create => exact .inr ⟨_, _, rfl, rfl, spec_handleFields _ rc allocs 8 (fun _ => rfl) body⟩
  | delete => exact .inr ⟨_, _, rfl, rfl, spec_handleFields _ rc allocs 8 (fun _ => rfl) body⟩
  | truncate => exact .inr ⟨_, _, rfl, rfl, spec_handleFields _ rc allocs 16 (fun _ => rfl) body⟩
  | punch => exact .inr ⟨_, _, rfl, rfl, spec_handleFields _ rc allocs 20 (fun _ => rfl) body⟩
  | clone => exact .inr ⟨_, _, rfl, rfl, spec_handleFields _ rc allocs 16 (fun _ => rfl) body⟩

/-! #### Messages -/

/-- The message that is sent, if it could be allocated, owns what there is. -/
def MessageAs (succeeds : Bool) (value : ReplyMsg) (msg : Option ℕ) (owned : List (ℕ × Block)) :
    Prop :=
  if succeeds then
    ∃ m : OwnedMessage, msg = some m.addr ∧ m.value = value ∧ owned = m.blocks
  else msg = none ∧ owned = []

/-- The extra data goes to the message, or is released with the context. -/
theorem spec_bridgeCallback {ctx : ℕ} {record : CtxRecord} {pre : List (ℕ × Block)}
    (extra : List (ℕ × Block)) (hperm : pre.Perm (extra ++ [(ctx, .ctx record)]))
    (hextra : Returns extra (free record.extraData) () []) (result : UInt32) (succeeds : Bool) :
    Spec pre (InMemory.bridgeCallback ctx result succeeds) fun msg owned =>
      if succeeds then ∃ q, msg = some q ∧ owned = (q, .msg ⟨record.requestId, result,
        record.opcode, record.extraData, record.extraLen⟩) :: extra
      else msg = none ∧ owned = [] := by
  have hctx : (ctx, Block.ctx record) ∈ extra ++ [(ctx, .ctx record)] :=
    List.mem_append_right _ List.mem_cons_self
  refine Spec.of_perm ?_ hperm
  cases succeeds with
  | false =>
    refine (returns_malloc_false _).bind ?_
    refine Returns.bind (returns_load hctx rfl) ?_
    refine (hextra.frame [(ctx, .ctx record)]).bind ?_
    refine (returns_free (.refl _)).bind ?_
    exact .pure ⟨rfl, rfl⟩
  | true =>
    refine .bind_malloc fun msg => ?_
    refine Returns.bind (returns_load (List.mem_cons_of_mem _ hctx) rfl) ?_
    refine (returns_store _ (.refl _)).bind ?_
    refine (returns_free (((List.perm_append_singleton _ _).cons _).trans (.swap _ _ _))).bind ?_
    exact .pure ⟨msg, rfl, rfl⟩

/-- An operation that completes becomes its message. -/
theorem spec_complete (o : OwnedOperation) (result : UInt32) {data : List UInt8}
    (hdata : data.length = o.value.call.extraLen.toNat) (succeeds : Bool) :
    Spec o.blocks (InMemory.complete o.operation result data succeeds)
      (MessageAs succeeds (bridgeCallback (o.value.ctx.fill data) result)) := by
  obtain ⟨operation, value, blocks, howns⟩ := o
  cases howns with
  | plain ctx requestId opcode hcall =>
    refine (spec_bridgeCallback [] (.refl _) returns_free_none result succeeds).weaken ?_
    intro msg owned hmsg
    rw [MessageAs]
    split_ifs at hmsg ⊢
    · obtain ⟨q, rfl, rfl⟩ := hmsg
      have hzero : 8 + (0 : UInt32).toNat < 2 ^ 32 := by decide
      exact ⟨⟨q, _, none, [], .none, fun _ => hzero⟩, rfl, rfl, rfl⟩
    · exact hmsg
  | @read oid offset len ctx buffer requestId contents old hlen hfits =>
    replace hdata : data.length = len.toNat := hdata
    refine (returns_copyTo [] (.swap _ _ _) rfl (hdata.trans hlen.symm).le).bind ?_
    have hfilled : [] ++ data ++ contents.drop data.length = data := by
      rw [hdata, ← hlen, List.drop_length, List.append_nil, List.nil_append]
    rw [hfilled]
    refine (spec_bridgeCallback [(buffer, .bytes data)] (.refl _)
      (returns_free (.refl _)) result succeeds).weaken ?_
    intro msg owned hmsg
    rw [MessageAs]
    split_ifs at hmsg ⊢
    · obtain ⟨q, rfl, rfl⟩ := hmsg
      exact ⟨⟨q, _, some buffer, _, .some buffer hdata.ge, fun _ => hfits⟩, rfl, rfl, rfl⟩
    · exact hmsg

/-- The reply to a STATFS, with a buffer for the sizes or without. -/
theorem spec_sendStatfsReply (requestId : UInt64) (result : UInt32) (total used : UInt64)
    (msgSucceeds extraSucceeds : Bool) :
    Spec [] (InMemory.sendStatfsReply requestId result total used msgSucceeds extraSucceeds)
      (MessageAs msgSucceeds (if extraSucceeds then
        ⟨requestId, result, .statfs, some (leBytes 8 total.toNat ++ leBytes 8 used.toNat), 16⟩
        else ⟨requestId, result, .statfs, none, 0⟩)) := by
  cases msgSucceeds with
  | false =>
    refine (returns_malloc_false _).bind ?_
    exact .pure ⟨rfl, rfl⟩
  | true =>
    refine .bind_malloc fun msg => ?_
    cases extraSucceeds with
    | false =>
      refine (returns_malloc_false _).bind ?_
      refine (returns_store _ (.refl _)).bind ?_
      exact .pure ⟨⟨msg, _, none, [], .none, fun h => by cases h⟩, rfl, rfl, rfl⟩
    | true =>
      refine .bind_malloc fun extra => ?_
      refine (returns_store _ (.swap _ _ _)).bind ?_
      have hlen : (16 : UInt32).toNat ≤
          (leBytes 8 total.toNat ++ leBytes 8 used.toNat).length := by
        rw [List.length_append, length_leBytes, length_leBytes]
        rfl
      exact .pure ⟨⟨msg, _, some extra, _, .some extra hlen, fun h => by cases h⟩, rfl, rfl, rfl⟩

/-! #### Replies -/

/-- The release of the buffer with the data. -/
theorem OwnedMessage.returns_free_pointer (m : OwnedMessage) :
    Returns m.extra (free m.pointer) () [] := by
  obtain ⟨addr, ⟨requestId, result, opcode, data, len⟩, pointer, extra, howns, hfits⟩ := m
  cases howns with
  | none => exact returns_free_none
  | some buffer hlen => exact returns_free (.refl _)

/-- A message is released, with its data. -/
theorem OwnedMessage.returns_free_blocks (m : OwnedMessage)
    {post : SendOutcome → List (ℕ × Block) → Prop} {outcome : SendOutcome}
    (hpost : post outcome []) :
    Spec m.blocks (do
      free m.record.extraData
      free (some m.addr)
      return outcome) post := by
  refine Spec.of_perm ?_ (List.perm_append_singleton _ _).symm
  refine (m.returns_free_pointer.frame [(m.addr, .msg m.record)]).bind ?_
  refine (returns_free (.refl _)).bind ?_
  exact .pure hpost

theorem toNat_eight_add {len : UInt32} (hfits : 8 + len.toNat < 2 ^ 32) :
    (8 + len).toNat = 8 + len.toNat :=
  (UInt32.toNat_add 8 len).trans (Nat.mod_eq_of_lt hfits)

section Body

variable {pre extra : List (ℕ × Block)} {requestId : UInt64} {result len : UInt32}
  {pointer : Option ℕ} {data : Option (List UInt8)} {body : ℕ}

/-- The body begins with the reply, whose length is returned. -/
def FilledAs (body : ℕ) (pre : List (ℕ × Block)) (reply : List UInt8) (bodyLen : UInt32)
    (owned : List (ℕ × Block)) : Prop :=
  bodyLen.toNat = reply.length ∧ ∃ rest, owned = (body, .bytes (reply ++ rest)) :: pre

/-- A part of the reply behind the word with the result. -/
theorem spec_copyPart {back part : List UInt8} {bodyLen : UInt32}
    (hroom : part.length ≤ back.length) (hlen : bodyLen.toNat = 4 + part.length) :
    Spec ((body, .bytes (leBytes 4 result.toNat ++ back)) :: pre) (do
        copyTo body 4 part
        return bodyLen) (FilledAs body pre (leBytes 4 result.toNat ++ part)) := by
  refine (returns_copyTo _ (.refl _) (length_leBytes 4 _).symm hroom).bind ?_
  refine .pure ⟨?_, _, rfl⟩
  rw [hlen, List.length_append, length_leBytes]

/-- What is copied behind the result of a READ. -/
theorem spec_fillExtra_read (howns : ExtraBlocks len pointer data extra) (hpre : extra ⊆ pre)
    {back : List UInt8} (hback : back.length = 4 + len.toNat) (hfits : 8 + len.toNat < 2 ^ 32) :
    Spec ((body, .bytes (leBytes 4 result.toNat ++ back)) :: pre)
      (InMemory.fillExtra ⟨requestId, result, .read, pointer, len⟩ body)
      (FilledAs body pre (deferredBody ⟨requestId, result, .read, data, len⟩)) := by
  have hword (n : ℕ) : (leBytes 4 n).length = 4 := length_leBytes 4 n
  cases howns with
  | none => exact spec_copyPart (by rw [hword]; omega) (by rw [hword]; rfl)
  | @some buffer data hlen =>
    by_cases hdata : result = ioSuccess ∧ 0 < len
    · simp only [InMemory.fillExtra, deferredBody, if_pos hdata]
      refine (returns_copyTo _ (.refl _) (hword _).symm (by rw [hword]; omega)).bind ?_
      have hmem : (buffer, Block.bytes data) ∈ pre := hpre List.mem_cons_self
      refine (returns_copyFrom (List.mem_cons_of_mem _ hmem) hlen).bind ?_
      have hpos : 8 = (leBytes 4 result.toNat ++ leBytes 4 len.toNat).length := by
        rw [List.length_append, hword, hword]
      have hroom : (data.take len.toNat).length ≤
          (back.drop (leBytes 4 len.toNat).length).length := by
        rw [List.length_take, List.length_drop, hword]
        omega
      refine (returns_copyTo _ (.refl _) hpos hroom).bind (.pure ⟨?_, (back.drop
        (leBytes 4 len.toNat).length).drop (data.take len.toNat).length, ?_⟩)
      · simp only [toNat_eight_add hfits, List.length_append, hword, List.length_take]
        omega
      · simp only [List.append_assoc]
    · simp only [InMemory.fillExtra, deferredBody, if_neg hdata]
      exact spec_copyPart (by rw [hword]; omega) (by rw [hword]; rfl)

/-- What is copied behind the result of a STATFS. -/
theorem spec_fillExtra_statfs (howns : ExtraBlocks len pointer data extra) (hpre : extra ⊆ pre)
    {back : List UInt8} (hback : back.length = 16) :
    Spec ((body, .bytes (leBytes 4 result.toNat ++ back)) :: pre)
      (InMemory.fillExtra ⟨requestId, result, .statfs, pointer, len⟩ body)
      (FilledAs body pre (deferredBody ⟨requestId, result, .statfs, data, len⟩)) := by
  have hzeros : (List.replicate 16 (0 : UInt8)).length = 16 := List.length_replicate
  cases howns with
  | none => exact spec_copyPart (by omega) (by rw [hzeros]; rfl)
  | @some buffer data hlen =>
    by_cases h16 : 16 ≤ len
    · simp only [InMemory.fillExtra, deferredBody, if_pos h16]
      have hle : 16 ≤ data.length := (UInt32.le_iff_toNat_le.mp h16).trans hlen
      have htake : (data.take 16).length = 16 := by
        rw [List.length_take]
        omega
      have hmem : (buffer, Block.bytes data) ∈ pre := hpre List.mem_cons_self
      refine (returns_copyFrom (List.mem_cons_of_mem _ hmem) hle).bind ?_
      exact spec_copyPart (by omega) (by rw [htake]; rfl)
    · simp only [InMemory.fillExtra, deferredBody, if_neg h16]
      exact spec_copyPart (by omega) (by rw [hzeros]; rfl)

/-- What is copied behind the result stays in the body, and makes it the body of the server on
values. -/
theorem spec_fillExtra (m : OwnedMessage) {back : List UInt8}
    (hback : back.length + 4 = (InMemory.replyCapacity m.record).toNat) :
    Spec ((body, .bytes (leBytes 4 m.value.result.toNat ++ back)) :: m.blocks)
      (InMemory.fillExtra m.record body) (FilledAs body m.blocks (deferredBody m.value)) := by
  have hpre : m.extra ⊆ m.blocks := List.subset_cons_self _ _
  obtain ⟨addr, ⟨requestId, result, opcode, data, len⟩, pointer, extra, howns, hfits⟩ := m
  have hword : (leBytes 4 result.toNat).length = 4 := length_leBytes 4 _
  cases opcode with
  | read =>
    replace hback : back.length + 4 = 8 + len.toNat := hback.trans (toNat_eight_add (hfits rfl))
    have hroom : back.length = 4 + len.toNat := by omega
    exact spec_fillExtra_read howns hpre hroom (hfits rfl)
  | statfs =>
    replace hback : back.length + 4 = 20 := hback
    exact spec_fillExtra_statfs howns hpre (by omega)
  | _ =>
    cases howns with
    | none => exact .pure ⟨hword.symm, back, rfl⟩
    | some buffer hlen => exact .pure ⟨hword.symm, back, rfl⟩

end Body

/-- A message was dealt with as by the server on values, and kept its blocks or released them. -/
def SentAs (m : OwnedMessage) : ReplyOutcome → SendOutcome → List (ℕ × Block) → Prop
  | .sent frame, outcome, owned => outcome = .sent frame ∧ owned = []
  | .requeued msg, outcome, owned => msg = m.value ∧ outcome = .requeued ∧ owned = m.blocks
  | .dropped, outcome, owned => outcome = .dropped ∧ owned = []

theorem four_le_replyCapacity (m : OwnedMessage) :
    4 ≤ (InMemory.replyCapacity m.record).toNat := by
  obtain ⟨addr, ⟨requestId, result, opcode, data, len⟩, pointer, extra, howns, hfits⟩ := m
  cases opcode with
  | read =>
    have hcap : (8 + len).toNat = 8 + len.toNat := toNat_eight_add (hfits rfl)
    exact show 4 ≤ (8 + len).toNat by omega
  | statfs => exact show 4 ≤ (20 : UInt32).toNat by decide
  | _ => exact le_refl 4

theorem spec_sendDeferredReply (m : OwnedMessage) (succeeds : Bool) (garbage : ℕ → UInt8)
    (busy : Bool) :
    Spec m.blocks (InMemory.sendDeferredReply m.addr succeeds garbage busy)
      (SentAs m (if succeeds then sendDeferredReply m.value busy else .dropped)) := by
  refine Returns.bind (returns_load List.mem_cons_self rfl) ?_
  cases succeeds with
  | false =>
    refine (returns_malloc_false _).bind ?_
    exact m.returns_free_blocks ⟨rfl, rfl⟩
  | true =>
    refine .bind_malloc fun body => ?_
    have hcap := four_le_replyCapacity m
    have hgarbage : ((List.range (InMemory.replyCapacity m.record).toNat).map garbage).length =
        (InMemory.replyCapacity m.record).toNat := by
      rw [List.length_map, List.length_range]
    refine (returns_copyTo [] (.refl _) rfl ?_).bind ?_
    · rw [length_leBytes, hgarbage]
      exact hcap
    refine .bind (spec_fillExtra m ?_) ?_
    · rw [List.length_drop, hgarbage, length_leBytes]
      omega
    rintro len _ ⟨hlen, rest, rfl⟩
    refine (returns_copyFrom List.mem_cons_self ?_).bind ?_
    · rw [hlen, List.length_append]
      omega
    refine (returns_free (.refl _)).bind ?_
    rw [hlen, List.take_left, if_pos rfl, sendDeferredReply]
    split_ifs
    · exact m.returns_free_blocks ⟨rfl, rfl⟩
    · exact .pure ⟨rfl, rfl, rfl⟩
    · exact m.returns_free_blocks ⟨rfl, rfl⟩

end LightFS.Storage
