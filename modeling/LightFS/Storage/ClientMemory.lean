import LightFS.Library.Heap
import LightFS.Library.Machine
import LightFS.Storage.Client

/-!
# The pending calls of the storage client

A call of the storage client (`src/storage_client/storage_client.c`) allocates a record with the
callback of its user, encodes its request, and hands both to nrpc; `client_response_cb` calls the
callback and releases the record. The record is written to without a look at the result of `calloc`,
and is released on the way only by a WRITE that is too long or finds no memory for its body: a call
that `do_rpc_call` refuses leaves it behind.

nrpc is not part of the repository. It accepts a call with the result 0 and then makes one response
callback for it, in any order and with any contents, or refuses the call and makes none.

In every run the heap holds the records of the calls that wait for their response and of those that
`do_rpc_call` refused (`ClientAccounts`). Exactly those runs are free of undefined behaviour in
which every record could be allocated and no WRITE is copied from a buffer that is shorter than its
user says. Every accepted call is called back once, with the kind of callback its user gave, and the
records of refused calls are the only ones that are never released (`client_calls_accounted`).

## Main definitions

* `PendingCall`, `ClientBlock`, `UserCall`.
* `newPendingCall`, `fillBody`, `doRpcCall`, `UserCall.make`, `respondTo`.
* `ClientState`, `ClientEvent`, `clientMachine`, `ClientEvent.Defined`, `ClientAccounts`.

## Main results

* `spec_make`, `fails_make`, `spec_respondTo`.
* `client_calls_accounted`.
-/

namespace LightFS.Storage

open Library

/-! ### The code -/

/-- `storage_pending_call_t`. The callback and its context are named by the user they belong to. -/
structure PendingCall where
  callType : ClientCallType
  user : ℕ

/-- What the client allocates. -/
inductive ClientBlock where
  | pending (call : PendingCall)
  | bytes (contents : List UInt8)

/-- The block as a pending call. -/
def ClientBlock.pending? : ClientBlock → Option PendingCall
  | pending call => some call
  | _ => none

/-- The block as a buffer. -/
def ClientBlock.bytes? : ClientBlock → Option (List UInt8)
  | bytes contents => some contents
  | _ => none

/-- A call of a user. -/
inductive UserCall where
  | object (call : RpcCall)
  | statfs

/-- What becomes of a call: it is too long, there is no memory for its body, the client is not
connected, nrpc refuses it, or nrpc takes the request and the record. -/
inductive CallOutcome where
  | tooLong
  | noMemory
  | notConnected
  | rpcFailed (rc : ℤ)
  | accepted (pcall : ℕ) (request : ClientRequest)

/-- The result that the user is returned: `-EINVAL`, `-ENOMEM`, `-ENOTCONN`, or that of nrpc. -/
def CallOutcome.code : CallOutcome → ℤ
  | tooLong => -22
  | noMemory => -12
  | notConnected => -107
  | rpcFailed rc => rc
  | accepted _ _ => 0

/-- Which allocations of a call succeed. -/
structure CallAllocs where
  pcall : Bool
  body : Bool

/-- The first lines of every call: the record is filled without a check for a null pointer. -/
def newPendingCall (succeeds : Bool) (callType : ClientCallType) (user : ℕ) :
    HeapM ClientBlock ℕ := do
  match ← malloc succeeds (.pending ⟨.simple, 0⟩) with
  | none => failure
  | some pcall =>
    store pcall (.pending ⟨callType, user⟩)
    return pcall

/-- The copies that `encode_write_req` makes to its buffer, which has to have room for them. The
buffer of the user has to have the `len` bytes that are copied from it. -/
def fillBody (body : ℕ) (len : UInt32) (data encoded : List UInt8) : HeapM ClientBlock Unit := do
  let contents ← load ClientBlock.bytes? body
  if len.toNat ≤ data.length ∧ encoded.length ≤ contents.length then
    store body (.bytes (encoded ++ contents.drop encoded.length))
  else fault

/-- `do_rpc_call`, for a call on nrpc that returns `rc`. -/
def doRpcCall (connected : Bool) (request : ClientRequest) (pcall : ℕ) (rc : ℤ) : CallOutcome :=
  if ¬ connected then .notConnected
  else if rc = 0 then .accepted pcall request
  else .rpcFailed rc

section Calls

variable (user : ℕ) (allocs : CallAllocs) (connected : Bool) (rc : ℤ)

/-- A call whose body is encoded in a buffer of the size of its fields. -/
def callWithFields (callType : ClientCallType) (opcode : RpcOp) (body : Option (List UInt8)) :
    HeapM ClientBlock CallOutcome := do
  let pcall ← newPendingCall allocs.pcall callType user
  return doRpcCall connected ⟨callType, opcode, body.getD []⟩ pcall rc

/-- `storage_client_create_obj`. -/
def storageClientCreateObj (oid : UInt64) : HeapM ClientBlock CallOutcome :=
  callWithFields user allocs connected rc .simple .create (encodeCreateReq oid 8)

/-- `storage_client_delete_obj`. -/
def storageClientDeleteObj (oid : UInt64) : HeapM ClientBlock CallOutcome :=
  callWithFields user allocs connected rc .simple .delete (encodeDeleteReq oid 8)

/-- `storage_client_write`, whose body is allocated. nrpc has copied it when the call returns. -/
def storageClientWrite (oid offset : UInt64) (len : UInt32) (data : List UInt8) :
    HeapM ClientBlock CallOutcome := do
  let pcall ← newPendingCall allocs.pcall .simple user
  if 2 ^ 20 - 20 < len.toNat then
    free (some pcall)
    return .tooLong
  else
    match ← malloc allocs.body (.bytes (List.replicate (20 + len.toNat) 0)) with
    | none =>
      free (some pcall)
      return .noMemory
    | some body =>
      let encoded := (encodeWriteReq oid offset data len (20 + len.toNat)).getD []
      fillBody body len data encoded
      let outcome := doRpcCall connected ⟨.simple, .write, encoded⟩ pcall rc
      free (some body)
      return outcome

/-- `storage_client_read`. -/
def storageClientRead (oid offset : UInt64) (len : UInt32) : HeapM ClientBlock CallOutcome :=
  callWithFields user allocs connected rc .read .read (encodeReadReq oid offset len 20)

/-- `storage_client_truncate`. -/
def storageClientTruncate (oid size : UInt64) : HeapM ClientBlock CallOutcome :=
  callWithFields user allocs connected rc .simple .truncate (encodeTruncateReq oid size 16)

/-- `storage_client_punch`. -/
def storageClientPunch (oid offset : UInt64) (len : UInt32) : HeapM ClientBlock CallOutcome :=
  callWithFields user allocs connected rc .simple .punch (encodePunchReq oid offset len 20)

/-- `storage_client_clone`. -/
def storageClientClone (srcOid dstOid : UInt64) : HeapM ClientBlock CallOutcome :=
  callWithFields user allocs connected rc .simple .clone (encodeCloneReq srcOid dstOid 16)

/-- `storage_client_statfs`. -/
def storageClientStatfs : HeapM ClientBlock CallOutcome :=
  callWithFields user allocs connected rc .statfs .statfs (some [])

/-- The function of the client for a call. -/
def UserCall.make : UserCall → HeapM ClientBlock CallOutcome
  | object (.create oid) => storageClientCreateObj user allocs connected rc oid
  | object (.delete oid) => storageClientDeleteObj user allocs connected rc oid
  | object (.write oid offset len data) =>
    storageClientWrite user allocs connected rc oid offset len data
  | object (.read oid offset len) => storageClientRead user allocs connected rc oid offset len
  | object (.truncate oid size) => storageClientTruncate user allocs connected rc oid size
  | object (.punch oid offset len) => storageClientPunch user allocs connected rc oid offset len
  | object (.clone srcOid dstOid) => storageClientClone user allocs connected rc srcOid dstOid
  | statfs => storageClientStatfs user allocs connected rc

end Calls

/-- `client_response_cb`, with the record that nrpc was given: the user that is called back, and the
callback. -/
def respondTo (pcall : ℕ) (status : NrpcStatus) (body : List UInt8) (transportErr : ℤ) :
    HeapM ClientBlock (ℕ × ClientCallback) := do
  let call ← load ClientBlock.pending? pcall
  free (some pcall)
  return (call.user, clientResponseCb call.callType status body transportErr)

/-! ### Runs -/

/-- The client, with the records that nrpc holds. The calls and the callbacks are kept for the
record. -/
structure ClientState where
  heap : Heap ClientBlock
  isConnected : Bool
  handed : List ℕ
  calls : List (ℕ × UserCall × CallOutcome)
  callbacks : List (ℕ × ClientCallback)

/-- What happens to the client. -/
inductive ClientEvent where
  /-- `client_ready_cb`. -/
  | ready
  /-- A user makes a call, which nrpc would answer with `rc`. -/
  | call (user : ℕ) (call : UserCall) (allocs : CallAllocs) (rc : ℤ)
  /-- nrpc calls `client_response_cb` for one of the calls that it accepted. -/
  | respond (i : ℕ) (status : NrpcStatus) (body : List UInt8) (transportErr : ℤ)

namespace ClientState

/-- The client that `storage_client_create` returns. -/
def initial : ClientState := ⟨.empty, false, [], [], []⟩

/-- A call has returned. -/
def called (s : ClientState) (user : ℕ) (call : UserCall) (outcome : CallOutcome)
    (heap : Heap ClientBlock) : ClientState :=
  { s with
    heap := heap
    handed :=
      match outcome with
      | .accepted pcall _ => s.handed ++ [pcall]
      | _ => s.handed
    calls := s.calls ++ [(user, call, outcome)] }

/-- One event, without a result if it has undefined behaviour. -/
def step (s : ClientState) : ClientEvent → Option ClientState
  | .ready => some { s with isConnected := true }
  | .call user call allocs rc =>
    (call.make user allocs s.isConnected rc s.heap).map fun (outcome, heap) =>
      s.called user call outcome heap
  | .respond i status body transportErr =>
    match s.handed[i]? with
    | none => some s
    | some pcall =>
      (respondTo pcall status body transportErr s.heap).map fun (callback, heap) =>
        { s with
          heap := heap
          handed := s.handed.eraseIdx i
          callbacks := s.callbacks ++ [callback] }

end ClientState

/-- The client under any sequence of events. -/
def clientMachine : Machine (Option ClientState) ClientEvent Unit :=
  ⟨fun s event => (s.bind (·.step event), ())⟩

/-- The buffer of a WRITE that gets a body has as many bytes as its user says. -/
def UserCall.HasData (allocs : CallAllocs) : UserCall → Prop
  | object (.write _ _ len data) =>
    len.toNat ≤ 2 ^ 20 - 20 → allocs.body = true → len.toNat ≤ data.length
  | _ => True

/-- The record of a call can be allocated, and a WRITE has its data. -/
def ClientEvent.Defined : ClientEvent → Prop
  | .call _ userCall allocs _ => allocs.pcall = true ∧ userCall.HasData allocs
  | _ => True

/-! ### What the code does to the records -/

/-- The kind of callback that the user of a call gives. -/
def UserCall.callType : UserCall → ClientCallType
  | object (.read _ _ _) => .read
  | object _ => .simple
  | statfs => .statfs

/-- The request of a call. -/
def UserCall.request : UserCall → Option ClientRequest
  | object call => call.request
  | statfs => some ⟨.statfs, .statfs, []⟩

/-- The record at an address. -/
def pendingBlock (p : ℕ × PendingCall) : ℕ × ClientBlock := (p.1, .pending p.2)

/-- What a call leaves: its record, unless it is a WRITE that fails before `do_rpc_call`. -/
inductive CallLeaves (user : ℕ) (call : UserCall) : CallOutcome → List (ℕ × ClientBlock) → Prop
  | tooLong : CallLeaves user call .tooLong []
  | noMemory : CallLeaves user call .noMemory []
  | notConnected (pcall : ℕ) :
      CallLeaves user call .notConnected [pendingBlock (pcall, ⟨call.callType, user⟩)]
  | rpcFailed (pcall : ℕ) (rc : ℤ) :
      CallLeaves user call (.rpcFailed rc) [pendingBlock (pcall, ⟨call.callType, user⟩)]
  | accepted (pcall : ℕ) {request : ClientRequest} (hrequest : call.request = some request) :
      CallLeaves user call (.accepted pcall request)
        [pendingBlock (pcall, ⟨call.callType, user⟩)]

section Specs

variable {user : ℕ} {connected : Bool} {rc : ℤ}

/-- The first lines of a call give it its record. -/
theorem spec_newPendingCall (callType : ClientCallType) :
    Spec [] (newPendingCall true callType user) fun pcall owned =>
      owned = [pendingBlock (pcall, ⟨callType, user⟩)] :=
  Spec.bind_malloc fun _ => (returns_store _ (.refl _)).bind (.pure rfl)

theorem returns_fillBody {body size : ℕ} {len : UInt32} {data encoded : List UInt8}
    {more : List (ℕ × ClientBlock)} (hdata : len.toNat ≤ data.length)
    (hlen : encoded.length = size) :
    Returns ((body, .bytes (List.replicate size 0)) :: more) (fillBody body len data encoded) ()
      ((body, .bytes encoded) :: more) := by
  have hsize : encoded.length = (List.replicate size (0 : UInt8)).length := by
    rw [hlen, List.length_replicate]
  refine Returns.bind (returns_load List.mem_cons_self rfl) ?_
  rw [if_pos ⟨hdata, hsize.le⟩, List.drop_of_length_le hsize.ge, List.append_nil]
  exact returns_store _ (.refl _)

theorem fails_fillBody {body : ℕ} {len : UInt32} {data encoded contents : List UInt8}
    {more : List (ℕ × ClientBlock)} (hdata : ¬ len.toNat ≤ data.length) :
    Fails ((body, .bytes contents) :: more) (fillBody body len data encoded) := by
  refine Returns.bind_fails (returns_load List.mem_cons_self rfl) ?_
  rw [if_neg fun h => hdata h.1]
  exact fails_fault

/-- A call that is handed to `do_rpc_call` leaves its record. -/
theorem callLeaves_doRpcCall {call : UserCall} {request : ClientRequest} (pcall : ℕ)
    (hrequest : call.request = some request) :
    CallLeaves user call (doRpcCall connected request pcall rc)
      [pendingBlock (pcall, ⟨call.callType, user⟩)] := by
  rw [doRpcCall]
  split_ifs
  · exact .accepted pcall hrequest
  · exact .rpcFailed pcall rc
  · exact .notConnected pcall

theorem spec_callWithFields {call : UserCall} {allocs : CallAllocs} {callType : ClientCallType}
    {opcode : RpcOp} {body : Option (List UInt8)} (halloc : allocs.pcall = true)
    (htype : call.callType = callType)
    (hrequest : call.request = some ⟨callType, opcode, body.getD []⟩) :
    Spec [] (callWithFields user allocs connected rc callType opcode body)
      (CallLeaves user call) := by
  rw [callWithFields, halloc]
  refine Spec.bind (spec_newPendingCall callType) ?_
  rintro pcall _ rfl
  refine .pure ?_
  rw [← htype]
  exact callLeaves_doRpcCall pcall (htype ▸ hrequest)

/-- The request of a WRITE fills the body that is allocated for it. -/
theorem encodeWriteReq_eq_some (oid offset : UInt64) {len : UInt32} {data : List UInt8}
    (hdata : len.toNat ≤ data.length) :
    ∃ encoded, encodeWriteReq oid offset data len (20 + len.toNat) = some encoded ∧
      encoded.length = 20 + len.toNat := by
  refine ⟨_, if_neg (Nat.not_lt.mpr (Nat.mod_le _ _)), ?_⟩
  simp only [List.length_append, length_leBytes, List.length_take, Nat.min_eq_left hdata]
  omega

theorem spec_storageClientWrite {allocs : CallAllocs} (halloc : allocs.pcall = true)
    {oid offset : UInt64} {len : UInt32} {data : List UInt8}
    (hdata : (UserCall.object (.write oid offset len data)).HasData allocs) :
    Spec [] (storageClientWrite user allocs connected rc oid offset len data)
      (CallLeaves user (.object (.write oid offset len data))) := by
  rw [storageClientWrite, halloc]
  refine Spec.bind (spec_newPendingCall .simple) ?_
  rintro pcall _ rfl
  split_ifs with hlong
  · exact (returns_free (.refl _)).bind (.pure .tooLong)
  · cases hbody : allocs.body with
    | false => exact (returns_malloc_false _).bind ((returns_free (.refl _)).bind (.pure .noMemory))
    | true =>
      replace hdata := hdata (Nat.not_lt.mp hlong) hbody
      obtain ⟨encoded, hencoded, hlen⟩ := encodeWriteReq_eq_some oid offset hdata
      rw [hencoded]
      refine Spec.bind_malloc fun body => ?_
      refine (returns_fillBody hdata hlen).bind ((returns_free (.refl _)).bind (.pure ?_))
      refine callLeaves_doRpcCall pcall ?_
      rw [UserCall.request, RpcCall.request, if_neg hlong, hencoded]
      rfl

/-- A WRITE that would be copied from behind the end of its user's buffer. -/
theorem fails_storageClientWrite {allocs : CallAllocs} (halloc : allocs.pcall = true)
    {oid offset : UInt64} {len : UInt32} {data : List UInt8}
    (hdata : ¬ (UserCall.object (.write oid offset len data)).HasData allocs) :
    Fails [] (storageClientWrite user allocs connected rc oid offset len data) := by
  simp only [UserCall.HasData, Classical.not_imp] at hdata
  obtain ⟨hlen, hbody, hdata⟩ := hdata
  rw [storageClientWrite, halloc]
  refine Spec.bind_fails (spec_newPendingCall .simple) ?_
  rintro pcall _ rfl
  rw [if_neg (Nat.not_lt.mpr hlen), hbody]
  refine Spec.bind_fails (spec_malloc true _) ?_
  rintro _ _ ⟨hsome, rfl⟩
  obtain ⟨body, rfl⟩ := Option.isSome_iff_exists.mp hsome
  exact (fails_fillBody hdata).bind

/-- A call leaves its record, unless it is a WRITE that fails before `do_rpc_call`. -/
theorem spec_make {allocs : CallAllocs} (halloc : allocs.pcall = true) {call : UserCall}
    (hdata : call.HasData allocs) :
    Spec [] (call.make user allocs connected rc) (CallLeaves user call) := by
  cases call with
  | statfs => exact spec_callWithFields halloc rfl rfl
  | object call =>
    cases call with
    | write oid offset len data => exact spec_storageClientWrite halloc hdata
    | _ => exact spec_callWithFields halloc rfl rfl

/-- A call without memory for its record. -/
theorem make_eq_none {allocs : CallAllocs} (halloc : allocs.pcall = false) (call : UserCall)
    (heap : Heap ClientBlock) : call.make user allocs connected rc heap = none := by
  obtain ⟨_, body⟩ := allocs
  obtain rfl := halloc
  cases call with
  | statfs => rfl
  | object call => cases call <;> rfl

/-- A call without memory for its record, or a WRITE without its data. -/
theorem fails_make {allocs : CallAllocs} {call : UserCall}
    (hundefined : ¬ (allocs.pcall = true ∧ call.HasData allocs)) :
    Fails [] (call.make user allocs connected rc) := by
  by_cases halloc : allocs.pcall = true
  · have hdata : ¬ call.HasData allocs := fun hdata => hundefined ⟨halloc, hdata⟩
    cases call with
    | statfs => exact absurd trivial hdata
    | object call =>
      cases call with
      | write oid offset len data => exact fails_storageClientWrite halloc hdata
      | _ => exact absurd trivial hdata
  · exact fun h _ _ => make_eq_none (Bool.eq_false_of_not_eq_true halloc) call h

/-- A response releases the record of its call. -/
theorem spec_respondTo (pcall : ℕ) (call : PendingCall) (status : NrpcStatus) (body : List UInt8)
    (transportErr : ℤ) :
    Returns [pendingBlock (pcall, call)] (respondTo pcall status body transportErr)
      (call.user, clientResponseCb call.callType status body transportErr) [] := by
  refine Returns.bind (returns_load List.mem_cons_self rfl) ?_
  exact (returns_free (.refl _)).bind (.pure ⟨rfl, rfl⟩)

end Specs

/-! ### The accounts of a run -/

/-- The kind of a callback. -/
def ClientCallback.callType : ClientCallback → ClientCallType
  | simple _ => .simple
  | read _ _ _ => .read
  | statfs _ _ _ => .statfs

theorem callType_clientResponseCb (callType : ClientCallType) (status : NrpcStatus)
    (body : List UInt8) (transportErr : ℤ) :
    (clientResponseCb callType status body transportErr).callType = callType := by
  rw [clientResponseCb]
  split_ifs <;> cases callType <;> rfl

/-- The user and the kind of callback of a call. -/
abbrev Caller := ℕ × ClientCallType

/-- The caller of a record. -/
def PendingCall.caller (call : PendingCall) : Caller := (call.user, call.callType)

/-- nrpc accepted the call. -/
def CallOutcome.isAccepted : CallOutcome → Bool
  | accepted _ _ => true
  | _ => false

/-- `do_rpc_call` refused the call. -/
def CallOutcome.isRefused : CallOutcome → Bool
  | notConnected | rpcFailed _ => true
  | _ => false

/-- The calls with an outcome of some kind. -/
def ClientState.callers (s : ClientState) (kind : CallOutcome → Bool) : List Caller :=
  (s.calls.filter fun call => kind call.2.2).map fun call => (call.1, call.2.1.callType)

theorem ClientState.callers_called (s : ClientState) (kind : CallOutcome → Bool) (user : ℕ)
    (call : UserCall) (outcome : CallOutcome) (heap : Heap ClientBlock) :
    (s.called user call outcome heap).callers kind =
      s.callers kind ++ if kind outcome then [(user, call.callType)] else [] := by
  have hcalls : (s.called user call outcome heap).calls = s.calls ++ [(user, call, outcome)] := rfl
  rw [callers, hcalls, List.filter_append, List.map_append, callers]
  cases h : kind outcome <;> simp [h]

/-- The heap holds the records of the calls that wait for their response and of those that were
refused; a call that was accepted waits, or was called back. -/
structure ClientAccounts (s : ClientState) (waiting lost : List (ℕ × PendingCall)) : Prop where
  handed : s.handed = waiting.map Prod.fst
  holds : s.heap.Holds (waiting.map pendingBlock ++ lost.map pendingBlock)
  accepted : (s.callers (·.isAccepted)).Perm (waiting.map (·.2.caller) ++
    s.callbacks.map fun callback => (callback.1, callback.2.callType))
  refused : s.callers (·.isRefused) = lost.map (·.2.caller)
  request : ∀ user call pcall request,
    (user, call, .accepted pcall request) ∈ s.calls → call.request = some request

namespace ClientAccounts

variable {s : ClientState} {waiting lost : List (ℕ × PendingCall)}

theorem initial : ClientAccounts .initial [] [] where
  handed := rfl
  holds := .empty
  accepted := .refl _
  refused := rfl
  request _ _ _ _ h := absurd h List.not_mem_nil

theorem called (h : ClientAccounts s waiting lost) {user : ℕ} {call : UserCall}
    {outcome : CallOutcome}
    {heap : Heap ClientBlock} {owned : List (ℕ × ClientBlock)}
    (hleaves : CallLeaves user call outcome owned)
    (hholds : heap.Holds (owned ++ (waiting.map pendingBlock ++ lost.map pendingBlock))) :
    ∃ waiting' lost', ClientAccounts (s.called user call outcome heap) waiting' lost' := by
  have hrequest : ∀ user' call' pcall request,
      (user', call', .accepted pcall request) ∈ (s.called user call outcome heap).calls →
        call'.request = some request := by
    intro user' call' pcall request hmem
    rcases List.mem_append.mp hmem with hmem | hmem
    · exact h.request _ _ _ _ hmem
    · simp only [List.mem_singleton, Prod.mk.injEq] at hmem
      obtain ⟨rfl, rfl, rfl⟩ := hmem
      cases hleaves with
      | accepted _ hsome => exact hsome
  have haccepted := s.callers_called (·.isAccepted) user call outcome heap
  have hrefused := s.callers_called (·.isRefused) user call outcome heap
  -- a call that fails before `do_rpc_call` leaves the accounts as they are
  have hkept (hnone : owned = []) (hhanded : (s.called user call outcome heap).handed = s.handed)
      (hkind : outcome.isAccepted = false ∧ outcome.isRefused = false) :
      ClientAccounts (s.called user call outcome heap) waiting lost := by
    rw [hkind.1, if_neg Bool.false_ne_true, List.append_nil] at haccepted
    rw [hkind.2, if_neg Bool.false_ne_true, List.append_nil] at hrefused
    subst hnone
    exact ⟨hhanded.trans h.handed, hholds, haccepted ▸ h.accepted, hrefused ▸ h.refused, hrequest⟩
  -- the record of a call that `do_rpc_call` refuses is lost
  have hlost (pcall : ℕ) (howned : owned = [pendingBlock (pcall, ⟨call.callType, user⟩)])
      (hhanded : (s.called user call outcome heap).handed = s.handed)
      (hkind : outcome.isAccepted = false ∧ outcome.isRefused = true) :
      ClientAccounts (s.called user call outcome heap) waiting
        (lost ++ [(pcall, ⟨call.callType, user⟩)]) := by
    rw [hkind.1, if_neg Bool.false_ne_true, List.append_nil] at haccepted
    rw [hkind.2, if_pos rfl, h.refused] at hrefused
    subst howned
    refine ⟨hhanded.trans h.handed, hholds.of_perm ?_, haccepted ▸ h.accepted, ?_, hrequest⟩
    · refine List.perm_append_comm.trans ?_
      rw [List.map_append, List.append_assoc]
      exact .refl _
    · rw [hrefused, List.map_append]
      rfl
  have hwaits (pcall : ℕ) (howned : owned = [pendingBlock (pcall, ⟨call.callType, user⟩)])
      (hhanded : (s.called user call outcome heap).handed = s.handed ++ [pcall])
      (hkind : outcome.isAccepted = true ∧ outcome.isRefused = false) :
      ClientAccounts (s.called user call outcome heap) (waiting ++ [(pcall, ⟨call.callType, user⟩)])
        lost := by
    rw [hkind.1, if_pos rfl] at haccepted
    rw [hkind.2, if_neg Bool.false_ne_true, List.append_nil] at hrefused
    subst howned
    refine ⟨?_, hholds.of_perm ?_, ?_, hrefused ▸ h.refused, hrequest⟩
    · rw [hhanded, List.map_append, ← h.handed]
      rfl
    · rw [List.map_append, ← List.append_assoc]
      exact List.perm_append_comm.append_right _
    · rw [haccepted, List.map_append]
      refine (h.accepted.append_right _).trans ?_
      rw [List.append_assoc, List.append_assoc]
      exact List.perm_append_comm.append_left _
  cases hleaves with
  | tooLong => exact ⟨waiting, lost, hkept rfl rfl ⟨rfl, rfl⟩⟩
  | noMemory => exact ⟨waiting, lost, hkept rfl rfl ⟨rfl, rfl⟩⟩
  | notConnected pcall => exact ⟨waiting, _, hlost pcall rfl rfl ⟨rfl, rfl⟩⟩
  | rpcFailed pcall rc => exact ⟨waiting, _, hlost pcall rfl rfl ⟨rfl, rfl⟩⟩
  | accepted pcall hsome => exact ⟨_, lost, hwaits pcall rfl rfl ⟨rfl, rfl⟩⟩

theorem respond (h : ClientAccounts s waiting lost) (i : ℕ) (status : NrpcStatus)
    (body : List UInt8) (transportErr : ℤ) :
    ∃ s' waiting', s.step (.respond i status body transportErr) = some s' ∧
      ClientAccounts s' waiting' lost := by
  have hhanded : s.handed[i]? = waiting[i]?.map Prod.fst := by rw [h.handed, List.getElem?_map]
  cases hw : waiting[i]? with
  | none =>
    rw [hw] at hhanded
    refine ⟨s, waiting, ?_, h⟩
    rw [ClientState.step, hhanded]
    rfl
  | some w =>
    obtain ⟨pcall, call⟩ := w
    rw [hw] at hhanded
    obtain ⟨hi, heq⟩ := List.getElem?_eq_some_iff.mp hw
    have hperm : waiting.Perm ((pcall, call) :: waiting.eraseIdx i) :=
      heq ▸ (List.getElem_cons_eraseIdx_perm hi).symm
    have hrest : s.heap.Holds ([pendingBlock (pcall, call)] ++
        ((waiting.eraseIdx i).map pendingBlock ++ lost.map pendingBlock)) :=
      h.holds.of_perm ((hperm.map pendingBlock).append_right _)
    obtain ⟨callback, heap, owned, hrun, ⟨rfl, rfl⟩, hholds⟩ :=
      spec_respondTo pcall call status body transportErr hrest
    refine ⟨{ s with
      heap := heap
      handed := s.handed.eraseIdx i
      callbacks := s.callbacks ++
        [(call.user, clientResponseCb call.callType status body transportErr)] },
      waiting.eraseIdx i, ?_, ?_, hholds, ?_, h.refused, h.request⟩
    · rw [ClientState.step, hhanded, Option.map_some]
      dsimp only
      rw [hrun]
      rfl
    · rw [h.handed, List.eraseIdx_map]
    · refine h.accepted.trans ?_
      rw [List.map_append, List.map_singleton, callType_clientResponseCb, ← List.append_assoc]
      refine ((hperm.map _).append_right _).trans ?_
      exact (List.perm_append_singleton _ _).symm

/-- An event has a result exactly if it is defined. -/
theorem step (h : ClientAccounts s waiting lost) (event : ClientEvent) :
    (event.Defined ∧ ∃ s' waiting' lost', s.step event = some s' ∧
      ClientAccounts s' waiting' lost') ∨ (¬ event.Defined ∧ s.step event = none) := by
  cases event with
  | ready =>
    exact .inl ⟨trivial, _, waiting, lost, rfl, h.handed, h.holds, h.accepted, h.refused, h.request⟩
  | respond i status body transportErr =>
    obtain ⟨s', waiting', hs, h'⟩ := h.respond i status body transportErr
    exact .inl ⟨trivial, s', waiting', lost, hs, h'⟩
  | call user call allocs rc =>
    have hrest : s.heap.Holds ([] ++ (waiting.map pendingBlock ++ lost.map pendingBlock)) := h.holds
    by_cases hdefined : allocs.pcall = true ∧ call.HasData allocs
    · obtain ⟨outcome, heap, owned, hrun, hleaves, hholds⟩ :=
        spec_make hdefined.1 hdefined.2 hrest
      obtain ⟨waiting', lost', h'⟩ := h.called hleaves hholds
      refine .inl ⟨hdefined, _, waiting', lost', ?_, h'⟩
      rw [ClientState.step, hrun]
      rfl
    · refine .inr ⟨hdefined, ?_⟩
      rw [ClientState.step, fails_make hdefined hrest]
      rfl

end ClientAccounts

theorem clientMachine_run_none (events : List ClientEvent) :
    clientMachine.run none events = none := by
  induction events with
  | nil => rfl
  | cons event events ih => exact ih

/-- A run has a result exactly if all its events are defined. -/
theorem ClientAccounts.run {s : ClientState} {waiting lost : List (ℕ × PendingCall)}
    (h : ClientAccounts s waiting lost) (events : List ClientEvent) :
    ((∀ event ∈ events, event.Defined) ∧ ∃ s' waiting' lost',
      clientMachine.run (some s) events = some s' ∧ ClientAccounts s' waiting' lost') ∨
    (¬ (∀ event ∈ events, event.Defined) ∧ clientMachine.run (some s) events = none) := by
  induction events generalizing s waiting lost with
  | nil => exact .inl ⟨fun event hevent => absurd hevent List.not_mem_nil, s, waiting, lost, rfl, h⟩
  | cons event events ih =>
    have hrun : clientMachine.run (some s) (event :: events) =
        clientMachine.run (s.step event) events := rfl
    rw [hrun, List.forall_mem_cons]
    rcases h.step event with ⟨hevent, s₁, waiting₁, lost₁, hs₁, h₁⟩ | ⟨hevent, hs₁⟩
    · rw [hs₁]
      rcases ih h₁ with ⟨hall, hresult⟩ | ⟨hall, hresult⟩
      · exact .inl ⟨⟨hevent, hall⟩, hresult⟩
      · exact .inr ⟨fun h => hall h.2, hresult⟩
    · rw [hs₁]
      exact .inr ⟨fun h => hevent h.1, clientMachine_run_none events⟩

/-- **The accounts of the client.** A run is free of undefined behaviour if and only if every record
can be allocated and every WRITE that gets a body has its data. The heap then holds the records of
the calls that wait and of those that `do_rpc_call` refused; every accepted call waits or was called
back once, by a callback of its own kind, and nrpc was given its request. When no call waits, every
accepted call has been called back once, and just the records of the refused calls are left. -/
theorem client_calls_accounted (events : List ClientEvent) :
    ((clientMachine.run (some .initial) events).isSome ↔ ∀ event ∈ events, event.Defined) ∧
    ∀ s, clientMachine.run (some .initial) events = some s →
      ∃ waiting lost, ClientAccounts s waiting lost ∧
        (s.handed = [] →
          (s.callers (·.isAccepted)).Perm
            (s.callbacks.map fun callback => (callback.1, callback.2.callType)) ∧
          s.heap.Holds (lost.map pendingBlock)) := by
  rcases ClientAccounts.initial.run events with ⟨hall, s, waiting, lost, hrun, h⟩ | ⟨hall, hrun⟩
  · rw [hrun]
    refine ⟨iff_of_true rfl hall, ?_⟩
    rintro _ ⟨⟩
    refine ⟨waiting, lost, h, fun hidle => ?_⟩
    obtain rfl : waiting = [] := List.map_eq_nil_iff.mp (h.handed.symm.trans hidle)
    exact ⟨h.accepted, h.holds⟩
  · rw [hrun]
    exact ⟨iff_of_false Bool.false_ne_true hall, fun s hs => nomatch hs⟩

end LightFS.Storage
