import LightFS.Library.Machine
import LightFS.Library.Places
import LightFS.Storage.Codec

/-!
# Remote calls

The whole path of the remote calls of one client, under any interleaving of its parts: calls of
the user, invocations of handlers on the RPC thread, completions of the engine on its threads,
messages to the RPC thread, sends that are refused with `-EBUSY` and retried, and responses that
reach the client. A run is a list of such steps; an index in a step chooses which frame, operation
or message is next, so that no order is excluded.

The object manager of the engine (`obj_*`) and nrpc are not part of the repository. The engine
accepts or refuses every call as it likes, and calls its callback once for a call it accepted.
nrpc gives every call an id of its own, delivers every frame once, and hands a response to the
call with its id.

Every request is a job that runs through its phases: requested, running in the engine, answered,
replied, done. The lists of frames, operations and messages show exactly the jobs that are in the
respective phase (`Represents`), and every step that does something moves one job to a later phase.

## Main definitions

* `RpcState`, `RpcStep`, `rpcMachine`.
* `Phase`, `Job`, `Represents`.

## Main results

* `exists_represents_run`, `exists_represents_moves`.
* `remote_calls_answered`.
-/

namespace LightFS.Storage

open Library

/-! ### The system -/

/-- A call that the engine accepted, with the request it was made for and the context for its
callback. -/
structure EngineOp where
  origin : UInt64
  call : RpcCall
  ctx : BridgeCtx

/-- Client, server and engine, and what is on the way between them. The calls and the answers of
the engine are kept for the record. -/
structure RpcState where
  calls : List (UInt64 × RpcCall)
  pending : List (UInt64 × ClientCallType)
  requests : List RequestFrame
  engine : List EngineOp
  messages : List ReplyMsg
  responses : List ResponseFrame
  callbacks : List (UInt64 × ClientCallback)
  answers : List (UInt64 × RpcCall × Answer)

/-- Nothing has happened yet. -/
def RpcState.initial : RpcState := ⟨[], [], [], [], [], [], [], []⟩

/-- A step of some part of the system. -/
inductive RpcStep where
  /-- A user makes a call, and nrpc gives it this id. -/
  | call (id : UInt64) (call : RpcCall)
  /-- The RPC thread handles a request; the call on the engine returns `rc`. -/
  | handle (i : ℕ) (rc : UInt32)
  /-- The engine has filled the buffer of an operation and calls its callback. -/
  | complete (i : ℕ) (result : UInt32) (data : List UInt8)
  /-- A message reaches the RPC thread. -/
  | deliver (i : ℕ) (busy : Bool)
  /-- A response reaches the client. -/
  | receive (i : ℕ)

/-- The engine has written to the buffer of an operation. -/
def BridgeCtx.fill (ctx : BridgeCtx) (data : List UInt8) : BridgeCtx :=
  { ctx with extraData := ctx.extraData.map fun _ => data }

/-- A request is handled by the handler for its opcode. -/
def RpcState.handle (s : RpcState) (frame : RequestFrame) (rc : UInt32) : RpcState :=
  match rpcHandler frame.opcode with
  | none => { s with responses := s.responses ++ [⟨frame.requestId, .badOpcode, []⟩] }
  | some handler =>
    match handler frame.requestId frame.body rc with
    | .reply called status body =>
      { s with
        responses := s.responses ++ [⟨frame.requestId, status, body⟩]
        answers := s.answers ++ (called.map fun call => (frame.requestId, call, ⟨rc, []⟩)).toList }
    | .deferred called ctx => { s with engine := s.engine ++ [⟨frame.requestId, called, ctx⟩] }

/-- A response is handed to the pending call with its id. -/
def RpcState.receive (s : RpcState) (frame : ResponseFrame) : RpcState :=
  match s.pending.findIdx? (·.1 = frame.requestId) with
  | none => s
  | some j =>
    match s.pending[j]? with
    | none => s
    | some (id, callType) =>
      { s with
        pending := s.pending.eraseIdx j
        callbacks := s.callbacks ++ [(id, clientResponseCb callType frame.status frame.body 0)] }

/-- One step. A step that is not possible does nothing. -/
def RpcState.step (s : RpcState) : RpcStep → RpcState
  | .call id call =>
    if id ∈ s.calls.map Prod.fst then s
    else
      match call.request with
      | none => s
      | some request =>
        { s with
          calls := s.calls ++ [(id, call)]
          pending := s.pending ++ [(id, request.callType)]
          requests := s.requests ++ [⟨id, request.opcode, request.body⟩] }
  | .handle i rc =>
    match s.requests[i]? with
    | none => s
    | some frame => { s with requests := s.requests.eraseIdx i }.handle frame rc
  | .complete i result data =>
    match s.engine[i]? with
    | none => s
    | some op =>
      if data.length = op.ctx.extraLen.toNat then
        { s with
          engine := s.engine.eraseIdx i
          messages := s.messages ++ [bridgeCallback (op.ctx.fill data) result]
          answers := s.answers ++ [(op.origin, op.call, ⟨result, data⟩)] }
      else s
  | .deliver i busy =>
    match s.messages[i]? with
    | none => s
    | some msg =>
      match sendDeferredReply msg busy with
      | .sent frame =>
        { s with messages := s.messages.eraseIdx i, responses := s.responses ++ [frame] }
      | .requeued msg => { s with messages := s.messages.eraseIdx i ++ [msg] }
      | .dropped => { s with messages := s.messages.eraseIdx i }
  | .receive i =>
    match s.responses[i]? with
    | none => s
    | some frame => { s with responses := s.responses.eraseIdx i }.receive frame

/-- The system under any interleaving. -/
def rpcMachine : Machine RpcState RpcStep Unit := ⟨fun s step => (s.step step, ())⟩

/-- The ids of the requests that have no callback yet. -/
def RpcState.inFlight (s : RpcState) : List UInt64 :=
  s.requests.map (·.requestId) ++ s.engine.map (·.origin) ++ s.messages.map (·.requestId) ++
    s.responses.map (·.requestId)

/-- The calls that users make keep to the sizes of remote calls. -/
def RpcStep.Allowed : RpcStep → Prop
  | .call _ made => made.Allowed
  | _ => True

/-- The step is a new call. -/
def RpcStep.isCall : RpcStep → Bool
  | .call _ _ => true
  | _ => false

/-- The step moves a request on: it is possible, and neither a new call nor a send that is refused
with `-EBUSY`. -/
def RpcStep.moves (s : RpcState) : RpcStep → Bool
  | .call _ _ => false
  | .handle i _ => s.requests[i]?.isSome
  | .complete i _ data => s.engine[i]?.any fun op => data.length = op.ctx.extraLen.toNat
  | .deliver i busy => s.messages[i]?.isSome && !busy
  | .receive i => s.responses[i]?.isSome

/-- The number of steps of a run that move a request on. -/
def movesIn (s : RpcState) : List RpcStep → ℕ
  | [] => 0
  | step :: steps => (step.moves s).toNat + movesIn (s.step step) steps

/-! ### Jobs -/

/-- Where a request is. -/
inductive Phase where
  | requested
  | running
  | answered (answer : Answer)
  | replied (answer : Answer) (body : List UInt8)
  | done (answer : Answer) (callback : ClientCallback)

/-- The response, and then the callback, carries the answer of the engine. -/
def Phase.Valid (call : RpcCall) : Phase → Prop
  | .requested => True
  | .running => True
  | .answered answer => answer.data.length = call.extraLen.toNat
  | .replied answer body => (clientResponseCb call.callType .ok body 0).Answers call answer
  | .done answer callback => callback.Answers call answer

/-- The number of phases before a request is done. -/
def Phase.remaining : Phase → ℕ
  | .requested => 4
  | .running => 3
  | .answered _ => 2
  | .replied _ _ => 1
  | .done _ _ => 0

/-- A request. -/
structure Job where
  id : UInt64
  call : RpcCall
  phase : Phase
  allowed : call.Allowed
  valid : phase.Valid call

/-- The body of the request for a call. -/
def RpcCall.requestBody (call : RpcCall) : List UInt8 := (call.request.map (·.body)).getD []

namespace Job

/-- The call of a job. -/
def callView (job : Job) : Option (UInt64 × RpcCall) := some (job.id, job.call)

/-- The entry of a job in the table of nrpc. -/
def pendingView (job : Job) : Option (UInt64 × ClientCallType) :=
  match job.phase with
  | .done _ _ => none
  | _ => some (job.id, job.call.callType)

/-- The request of a job on the wire. -/
def requestView (job : Job) : Option RequestFrame :=
  match job.phase with
  | .requested => some ⟨job.id, job.call.opcode, job.call.requestBody⟩
  | _ => none

/-- The operation of a job in the engine. -/
def engineView (job : Job) : Option EngineOp :=
  match job.phase with
  | .running => some ⟨job.id, job.call, job.call.bridgeCtx job.id⟩
  | _ => none

/-- The message to the RPC thread for a job. -/
def messageView (job : Job) : Option ReplyMsg :=
  match job.phase with
  | .answered answer => some (job.call.replyMsg job.id answer)
  | _ => none

/-- The response of a job on the wire. -/
def responseView (job : Job) : Option ResponseFrame :=
  match job.phase with
  | .replied _ body => some ⟨job.id, .ok, body⟩
  | _ => none

/-- The callback of a job. -/
def callbackView (job : Job) : Option (UInt64 × ClientCallback) :=
  match job.phase with
  | .done _ callback => some (job.id, callback)
  | _ => none

/-- The answer of the engine for a job. -/
def answerView (job : Job) : Option (UInt64 × RpcCall × Answer) :=
  match job.phase with
  | .requested => none
  | .running => none
  | .answered answer => some (job.id, job.call, answer)
  | .replied answer _ => some (job.id, job.call, answer)
  | .done answer _ => some (job.id, job.call, answer)

end Job

/-- The state shows exactly the jobs, which have distinct ids. -/
structure Represents (s : RpcState) (jobs : List Job) : Prop where
  nodup : (jobs.map Job.id).Nodup
  calls : Shows Job.callView jobs s.calls
  pending : Shows Job.pendingView jobs s.pending
  requests : Shows Job.requestView jobs s.requests
  engine : Shows Job.engineView jobs s.engine
  messages : Shows Job.messageView jobs s.messages
  responses : Shows Job.responseView jobs s.responses
  callbacks : Shows Job.callbackView jobs s.callbacks
  answers : Shows Job.answerView jobs s.answers

/-- The number of phases before all requests are done. -/
def remaining (jobs : List Job) : ℕ := (jobs.map (·.phase.remaining)).sum

namespace Represents

variable {s : RpcState} {jobs rest : List Job}

theorem of_perm (h : Represents s jobs) (hperm : jobs.Perm rest) : Represents s rest where
  nodup := (hperm.map Job.id).nodup_iff.mp h.nodup
  calls := h.calls.of_perm hperm
  pending := h.pending.of_perm hperm
  requests := h.requests.of_perm hperm
  engine := h.engine.of_perm hperm
  messages := h.messages.of_perm hperm
  responses := h.responses.of_perm hperm
  callbacks := h.callbacks.of_perm hperm
  answers := h.answers.of_perm hperm

end Represents

theorem remaining_cons (job : Job) (rest : List Job) :
    remaining (job :: rest) = job.phase.remaining + remaining rest :=
  List.sum_cons

theorem remaining_perm {jobs rest : List Job} (h : jobs.Perm rest) :
    remaining jobs = remaining rest :=
  (h.map _).sum_nat

theorem represents_initial : Represents .initial [] where
  nodup := List.nodup_nil
  calls := .refl _
  pending := .refl _
  requests := .refl _
  engine := .refl _
  messages := .refl _
  responses := .refl _
  callbacks := .refl _
  answers := .refl _

/-! ### Steps -/

section Steps

variable {s : RpcState} {jobs : List Job} {i : ℕ}

theorem RpcCall.requestBody_eq {call : RpcCall} {body : List UInt8}
    (h : call.request = some ⟨call.callType, call.opcode, body⟩) : call.requestBody = body := by
  rw [requestBody, h]
  rfl

/-- A new call is a job. -/
theorem represents_call (h : Represents s jobs) {id : UInt64} {call : RpcCall}
    (hcall : call.Allowed) (hid : id ∉ s.calls.map Prod.fst) :
    ∃ jobs', Represents (s.step (.call id call)) jobs' := by
  obtain ⟨body, hrequest, -⟩ := rpcHandler_request hcall.encodable
  have hbody := RpcCall.requestBody_eq hrequest
  have hfresh : id ∉ jobs.map Job.id := by
    intro hmem
    obtain ⟨job, hjob, rfl⟩ := List.mem_map.mp hmem
    exact hid (List.mem_map.mpr ⟨_, h.calls.mem_iff.mpr ⟨job, hjob, rfl⟩, rfl⟩)
  refine ⟨⟨id, call, .requested, hcall, trivial⟩ :: jobs, ?_⟩
  rw [RpcState.step, if_neg hid, hrequest]
  exact
    { nodup := List.nodup_cons.mpr ⟨hfresh, h.nodup⟩
      calls := h.calls.cons_some rfl
      pending := h.pending.cons_some rfl
      requests := h.requests.cons_some (by rw [Job.requestView, hbody])
      engine := h.engine.cons_none rfl
      messages := h.messages.cons_none rfl
      responses := h.responses.cons_none rfl
      callbacks := h.callbacks.cons_none rfl
      answers := h.answers.cons_none rfl }

/-- What the server does with the request for an allowed call. -/
theorem handle_request {call : RpcCall} (hcall : call.Allowed) (s : RpcState) (id : UInt64)
    (rc : UInt32) :
    s.handle ⟨id, call.opcode, call.requestBody⟩ rc =
      if rc = ioSuccess then { s with engine := s.engine ++ [⟨id, call, call.bridgeCtx id⟩] }
      else
        { s with
          responses := s.responses ++ [⟨id, .ok, encodeSimpleError rc⟩]
          answers := s.answers ++ [(id, call, ⟨rc, []⟩)] } := by
  obtain ⟨body, hrequest, handler, hhandler, hcalls⟩ := rpcHandler_request hcall.encodable
  simp only [RpcState.handle, hhandler, RpcCall.requestBody_eq hrequest, hcalls, callEngine]
  by_cases hrc : rc = ioSuccess
  · rw [if_pos hrc, if_neg (not_not.mpr hrc)]
  · rw [if_neg hrc, if_pos hrc]
    rfl

/-- A request that is handled is running, or its refusal is on the wire. -/
theorem represents_handle (h : Represents s jobs) {frame : RequestFrame}
    (hframe : s.requests[i]? = some frame) (rc : UInt32) :
    ∃ jobs', Represents (s.step (.handle i rc)) jobs' ∧ remaining jobs' < remaining jobs := by
  obtain ⟨⟨id, call, phase, hcall, valid⟩, rest, hperm, hview⟩ := h.requests.exists_job hframe
  replace h := h.of_perm hperm
  cases phase with
  | requested =>
    obtain rfl := Option.some.inj hview
    simp only [RpcState.step, hframe, handle_request hcall, remaining_perm hperm, remaining_cons]
    split_ifs with hrc
    · exact ⟨⟨id, call, .running, hcall, trivial⟩ :: rest,
        { nodup := h.nodup
          calls := h.calls.keep rfl
          pending := h.pending.keep rfl
          requests := h.requests.take hframe rfl rfl
          engine := h.engine.put rfl rfl
          messages := h.messages.keep rfl
          responses := h.responses.keep rfl
          callbacks := h.callbacks.keep rfl
          answers := h.answers.keep rfl },
        Nat.add_lt_add_right (Nat.lt_succ_self 3) _⟩
    · exact ⟨⟨id, call, .replied ⟨rc, []⟩ (encodeSimpleError rc), hcall,
          answers_encodeSimpleError call hrc⟩ :: rest,
        { nodup := h.nodup
          calls := h.calls.keep rfl
          pending := h.pending.keep rfl
          requests := h.requests.take hframe rfl rfl
          engine := h.engine.keep rfl
          messages := h.messages.keep rfl
          responses := h.responses.put rfl rfl
          callbacks := h.callbacks.keep rfl
          answers := h.answers.put rfl rfl },
        Nat.add_lt_add_right (show 1 < 4 by omega) _⟩
  | _ => cases hview

/-- The message the callback of the engine sends. -/
theorem bridgeCallback_fill (call : RpcCall) (id : UInt64) (result : UInt32) (data : List UInt8) :
    bridgeCallback ((call.bridgeCtx id).fill data) result = call.replyMsg id ⟨result, data⟩ := by
  cases call <;> rfl

/-- An operation that completes is answered. -/
theorem represents_complete (h : Represents s jobs) {op : EngineOp}
    (hop : s.engine[i]? = some op) (result : UInt32) {data : List UInt8}
    (hdata : data.length = op.ctx.extraLen.toNat) :
    ∃ jobs', Represents (s.step (.complete i result data)) jobs' ∧
      remaining jobs' < remaining jobs := by
  obtain ⟨⟨id, call, phase, hcall, valid⟩, rest, hperm, hview⟩ := h.engine.exists_job hop
  replace h := h.of_perm hperm
  cases phase with
  | running =>
    obtain rfl := Option.some.inj hview
    simp only [RpcState.step, hop, if_pos hdata, bridgeCallback_fill, remaining_perm hperm,
      remaining_cons]
    exact ⟨⟨id, call, .answered ⟨result, data⟩, hcall, hdata⟩ :: rest,
      { nodup := h.nodup
        calls := h.calls.keep rfl
        pending := h.pending.keep rfl
        requests := h.requests.keep rfl
        engine := h.engine.take hop rfl rfl
        messages := h.messages.put rfl rfl
        responses := h.responses.keep rfl
        callbacks := h.callbacks.keep rfl
        answers := h.answers.put rfl rfl },
      Nat.add_lt_add_right (Nat.lt_succ_self 2) _⟩
  | _ => cases hview

/-- A message that is sent is replied; one that nrpc has no room for is queued again. -/
theorem represents_deliver (h : Represents s jobs) {msg : ReplyMsg}
    (hmsg : s.messages[i]? = some msg) (busy : Bool) :
    ∃ jobs', Represents (s.step (.deliver i busy)) jobs' ∧
      remaining jobs' + (!busy).toNat ≤ remaining jobs := by
  obtain ⟨⟨id, call, phase, hcall, valid⟩, rest, hperm, hview⟩ := h.messages.exists_job hmsg
  cases phase with
  | answered answer =>
    obtain rfl := Option.some.inj hview
    have hlength := length_deferredBody_le hcall id answer
    simp only [RpcState.step, hmsg, sendDeferredReply, if_neg (not_lt.mpr hlength)]
    cases busy with
    | true => exact ⟨jobs, { h with messages := h.messages.requeue hmsg }, le_refl _⟩
    | false =>
      replace h := h.of_perm hperm
      rw [remaining_perm hperm, remaining_cons]
      exact ⟨⟨id, call, .replied answer (deferredBody (call.replyMsg id answer)), hcall,
          answers_deferredBody call id valid⟩ :: rest,
        { nodup := h.nodup
          calls := h.calls.keep rfl
          pending := h.pending.keep rfl
          requests := h.requests.keep rfl
          engine := h.engine.keep rfl
          messages := h.messages.take hmsg rfl rfl
          responses := h.responses.put rfl rfl
          callbacks := h.callbacks.keep rfl
          answers := h.answers.keep rfl },
        Nat.add_lt_add_right (Nat.lt_succ_self 1) _⟩
  | _ => cases hview

theorem Job.eq_of_pendingView {job : Job} {entry : UInt64 × ClientCallType}
    (h : job.pendingView = some entry) : entry = (job.id, job.call.callType) := by
  obtain ⟨id, call, phase, _, _⟩ := job
  cases phase <;> first | exact (Option.some.inj h).symm | cases h

/-- The pending call that a response is handed to. -/
theorem exists_pending {rest : List Job} {job : Job} (h : Represents s (job :: rest))
    (hview : job.pendingView = some (job.id, job.call.callType)) :
    ∃ j, s.pending.findIdx? (·.1 = job.id) = some j ∧
      s.pending[j]? = some (job.id, job.call.callType) := by
  have hmem : (job.id, job.call.callType) ∈ s.pending :=
    h.pending.mem_iff.mpr ⟨job, List.mem_cons_self, hview⟩
  cases hfind : s.pending.findIdx? (·.1 = job.id) with
  | none => simpa using List.findIdx?_eq_none_iff.mp hfind _ hmem
  | some j =>
    obtain ⟨hj, hid, -⟩ := List.findIdx?_eq_some_iff_getElem.mp hfind
    refine ⟨j, rfl, ?_⟩
    obtain ⟨other, hother, hothers⟩ := h.pending.mem_iff.mp (List.getElem_mem hj)
    have hentry := Job.eq_of_pendingView hothers
    have heq : other = job := by
      refine List.inj_on_of_nodup_map h.nodup hother List.mem_cons_self ?_
      rw [hentry] at hid
      exact of_decide_eq_true hid
    rw [List.getElem?_eq_getElem hj, hentry, heq]

/-- A response that is received is done. -/
theorem represents_receive (h : Represents s jobs) {frame : ResponseFrame}
    (hframe : s.responses[i]? = some frame) :
    ∃ jobs', Represents (s.step (.receive i)) jobs' ∧ remaining jobs' < remaining jobs := by
  obtain ⟨⟨id, call, phase, hcall, valid⟩, rest, hperm, hview⟩ := h.responses.exists_job hframe
  replace h := h.of_perm hperm
  cases phase with
  | replied answer body =>
    obtain rfl := Option.some.inj hview
    obtain ⟨j, hfind, hpending⟩ := exists_pending h rfl
    simp only [RpcState.step, hframe, RpcState.receive, hfind, hpending, remaining_perm hperm,
      remaining_cons]
    exact ⟨⟨id, call, .done answer (clientResponseCb call.callType .ok body 0), hcall, valid⟩ ::
        rest,
      { nodup := h.nodup
        calls := h.calls.keep rfl
        pending := h.pending.take hpending rfl rfl
        requests := h.requests.keep rfl
        engine := h.engine.keep rfl
        messages := h.messages.keep rfl
        responses := h.responses.take hframe rfl rfl
        callbacks := h.callbacks.put rfl rfl
        answers := h.answers.keep rfl },
      Nat.add_lt_add_right Nat.zero_lt_one _⟩
  | _ => cases hview

/-- Every step but a new call keeps the jobs, and moves one of them on if it does something. -/
theorem exists_represents_move (h : Represents s jobs) {step : RpcStep}
    (hstep : step.isCall = false) :
    ∃ jobs', Represents (s.step step) jobs' ∧
      remaining jobs' + (step.moves s).toNat ≤ remaining jobs := by
  cases step with
  | call id call => cases hstep
  | handle i rc =>
    cases hframe : s.requests[i]? with
    | none =>
      rw [RpcState.step, RpcStep.moves, hframe]
      exact ⟨jobs, h, le_refl _⟩
    | some frame =>
      rw [RpcStep.moves, hframe]
      exact represents_handle h hframe rc
  | complete i result data =>
    cases hop : s.engine[i]? with
    | none =>
      rw [RpcState.step, RpcStep.moves, hop]
      exact ⟨jobs, h, le_refl _⟩
    | some op =>
      by_cases hdata : data.length = op.ctx.extraLen.toNat
      · rw [RpcStep.moves, hop, Option.any_some, decide_eq_true hdata]
        exact represents_complete h hop result hdata
      · simp only [RpcState.step, RpcStep.moves, hop, if_neg hdata, Option.any_some,
          decide_eq_false hdata]
        exact ⟨jobs, h, le_refl _⟩
  | deliver i busy =>
    cases hmsg : s.messages[i]? with
    | none =>
      rw [RpcState.step, RpcStep.moves, hmsg]
      exact ⟨jobs, h, le_refl _⟩
    | some msg =>
      rw [RpcStep.moves, hmsg, Option.isSome_some, Bool.true_and]
      exact represents_deliver h hmsg busy
  | receive i =>
    cases hframe : s.responses[i]? with
    | none =>
      rw [RpcState.step, RpcStep.moves, hframe]
      exact ⟨jobs, h, le_refl _⟩
    | some frame =>
      rw [RpcStep.moves, hframe]
      exact represents_receive h hframe

/-- Every step keeps the picture of the jobs. -/
theorem exists_represents_step (h : Represents s jobs) {step : RpcStep} (hstep : step.Allowed) :
    ∃ jobs', Represents (s.step step) jobs' := by
  cases hcall : step.isCall with
  | false =>
    obtain ⟨jobs', h', -⟩ := exists_represents_move h hcall
    exact ⟨jobs', h'⟩
  | true =>
    cases step with
    | call id call =>
      by_cases hid : id ∈ s.calls.map Prod.fst
      · rw [RpcState.step, if_pos hid]
        exact ⟨jobs, h⟩
      · exact represents_call h hstep hid
    | _ => cases hcall

/-- A step is possible as long as something is in flight. -/
theorem exists_moves (hflight : s.inFlight ≠ []) : ∃ step : RpcStep, step.moves s = true := by
  by_contra hnone
  simp only [not_exists, Bool.not_eq_true] at hnone
  have hempty {α : Type} {l : List α} (h : l[0]?.isSome = false) : l = [] := by
    cases l with
    | nil => rfl
    | cons a l => cases h
  have hrequests : s.requests = [] := hempty (hnone (.handle 0 0))
  have hmessages : s.messages = [] :=
    hempty ((Bool.and_true _).symm.trans (hnone (.deliver 0 false)))
  have hresponses : s.responses = [] := hempty (hnone (.receive 0))
  have hengine : s.engine = [] := by
    cases hops : s.engine with
    | nil => rfl
    | cons op ops =>
      have hop := hnone (.complete 0 0 (List.replicate op.ctx.extraLen.toNat 0))
      simp [RpcStep.moves, hops] at hop
  exact hflight (by rw [RpcState.inFlight, hrequests, hengine, hmessages, hresponses]; rfl)

end Steps

/-! ### Runs -/

/-- In every run the state shows exactly its jobs. -/
theorem exists_represents_run {steps : List RpcStep} (hsteps : ∀ step ∈ steps, step.Allowed) :
    ∃ jobs, Represents (rpcMachine.run .initial steps) jobs :=
  Machine.run_invariant (P := fun s => ∃ jobs, Represents s jobs)
    (fun _ step hstep ⟨_, h⟩ => exists_represents_step h (hsteps step hstep))
    ⟨[], represents_initial⟩

namespace Represents

variable {s : RpcState} {jobs : List Job}

/-- Every job is at one place, or done. -/
theorem perm_ids (h : Represents s jobs) :
    (s.inFlight ++ s.callbacks.map Prod.fst).Perm (jobs.map Job.id) := by
  have hplaces : (s.inFlight ++ s.callbacks.map Prod.fst).Perm
      (((jobs.filterMap Job.requestView).map (·.requestId) ++
        (jobs.filterMap Job.engineView).map (·.origin) ++
        (jobs.filterMap Job.messageView).map (·.requestId) ++
        (jobs.filterMap Job.responseView).map (·.requestId)) ++
        (jobs.filterMap Job.callbackView).map Prod.fst) :=
    ((((h.requests.map _).append (h.engine.map _)).append (h.messages.map _)).append
      (h.responses.map _)).append (h.callbacks.map _)
  refine hplaces.trans (List.perm_iff_count.mpr fun a => ?_)
  clear hplaces h
  induction jobs with
  | nil => rfl
  | cons job jobs ih =>
    obtain ⟨id, call, phase, -, -⟩ := job
    simp only [List.count_append] at ih
    cases phase <;>
      simp only [List.filterMap_cons, Job.requestView, Job.engineView, Job.messageView,
        Job.responseView, Job.callbackView, List.map_cons, List.count_append, List.count_cons,
        RpcCall.replyMsg] <;> omega

/-- A response on the wire carries what the engine gave for its call. -/
theorem of_mem_responses (h : Represents s jobs) {frame : ResponseFrame}
    (hframe : frame ∈ s.responses) :
    ∃ call answer, (frame.requestId, call) ∈ s.calls ∧ (frame.requestId, call, answer) ∈ s.answers ∧
      (clientResponseCb call.callType frame.status frame.body 0).Answers call answer := by
  obtain ⟨⟨id, call, phase, hcall, valid⟩, hjob, hview⟩ := h.responses.mem_iff.mp hframe
  cases phase with
  | replied answer body =>
    obtain rfl := Option.some.inj hview
    exact ⟨call, answer, h.calls.mem_iff.mpr ⟨_, hjob, rfl⟩, h.answers.mem_iff.mpr ⟨_, hjob, rfl⟩,
      valid⟩
  | _ => cases hview

/-- A callback tells what the engine gave for its call. -/
theorem of_mem_callbacks (h : Represents s jobs) {id : UInt64} {callback : ClientCallback}
    (hcallback : (id, callback) ∈ s.callbacks) :
    ∃ call answer, (id, call) ∈ s.calls ∧ (id, call, answer) ∈ s.answers ∧
      callback.Answers call answer := by
  obtain ⟨⟨id, call, phase, hcall, valid⟩, hjob, hview⟩ := h.callbacks.mem_iff.mp hcallback
  cases phase with
  | done answer callback =>
    cases hview
    exact ⟨call, answer, h.calls.mem_iff.mpr ⟨_, hjob, rfl⟩, h.answers.mem_iff.mpr ⟨_, hjob, rfl⟩,
      valid⟩
  | _ => cases hview

theorem nodup_answers (h : Represents s jobs) : (s.answers.map Prod.fst).Nodup := by
  refine (h.answers.map Prod.fst).nodup_iff.mpr (List.Nodup.sublist ?_ h.nodup)
  clear h
  induction jobs with
  | nil => exact List.Sublist.refl _
  | cons job jobs ih =>
    obtain ⟨id, call, phase, _, _⟩ := job
    cases phase with
    | requested => exact ih.cons _
    | running => exact ih.cons _
    | answered answer => exact ih.cons_cons _
    | replied answer body => exact ih.cons_cons _
    | done answer callback => exact ih.cons_cons _

theorem perm_calls (h : Represents s jobs) : (s.calls.map Prod.fst).Perm (jobs.map Job.id) := by
  have hmap : (jobs.filterMap Job.callView).map Prod.fst = jobs.map Job.id := by
    rw [show Job.callView = some ∘ fun job => (job.id, job.call) from rfl,
      List.filterMap_eq_map, List.map_map]
    rfl
  exact hmap ▸ h.calls.map Prod.fst

/-- A call in flight has at most four phases before it. -/
theorem remaining_le (h : Represents s jobs) : remaining jobs ≤ 4 * s.inFlight.length := by
  have hdone : remaining jobs + 4 * (jobs.filterMap Job.callbackView).length ≤ 4 * jobs.length := by
    clear h
    induction jobs with
    | nil => exact le_refl _
    | cons job jobs ih =>
      obtain ⟨id, call, phase, _, _⟩ := job
      rw [remaining_cons, List.length_cons]
      cases phase <;>
        simp only [List.filterMap_cons, Job.callbackView, Phase.remaining, List.length_cons] <;>
        omega
  have hlength := h.perm_ids.length_eq
  rw [List.length_append, List.length_map, List.length_map, h.callbacks.length_eq] at hlength
  omega

/-- A run without new calls moves its jobs on as often as it has phases before it, at most. -/
theorem exists_represents_moves (h : Represents s jobs) {steps : List RpcStep}
    (hsteps : ∀ step ∈ steps, step.isCall = false) :
    ∃ jobs', Represents (rpcMachine.run s steps) jobs' ∧
      remaining jobs' + movesIn s steps ≤ remaining jobs := by
  induction steps generalizing s jobs with
  | nil => exact ⟨jobs, h, le_refl _⟩
  | cons step steps ih =>
    obtain ⟨hstep, hsteps⟩ := List.forall_mem_cons.mp hsteps
    obtain ⟨jobs₁, h₁, hless₁⟩ := exists_represents_move h hstep
    obtain ⟨jobs₂, h₂, hless₂⟩ := ih h₁ hsteps
    refine ⟨jobs₂, h₂, ?_⟩
    rw [movesIn]
    omega

end Represents

theorem calls_handle (s : RpcState) (frame : RequestFrame) (rc : UInt32) :
    (s.handle frame rc).calls = s.calls := by
  unfold RpcState.handle
  split
  · rfl
  · split <;> rfl

theorem calls_receive (s : RpcState) (frame : ResponseFrame) :
    (s.receive frame).calls = s.calls := by
  unfold RpcState.receive
  split
  · rfl
  · split <;> rfl

/-- Only a new call changes the record of the calls. -/
theorem calls_step (s : RpcState) {step : RpcStep} (hstep : step.isCall = false) :
    (s.step step).calls = s.calls := by
  cases step with
  | call id call => cases hstep
  | handle i rc =>
    rw [RpcState.step]
    cases s.requests[i]? with
    | none => rfl
    | some frame => exact calls_handle _ frame rc
  | complete i result data =>
    rw [RpcState.step]
    cases s.engine[i]? with
    | none => rfl
    | some op =>
      dsimp only
      split_ifs <;> rfl
  | deliver i busy =>
    rw [RpcState.step]
    cases s.messages[i]? with
    | none => rfl
    | some msg =>
      dsimp only
      cases sendDeferredReply msg busy <;> rfl
  | receive i =>
    rw [RpcState.step]
    cases s.responses[i]? with
    | none => rfl
    | some frame => exact calls_receive _ frame

theorem calls_run (s : RpcState) {steps : List RpcStep}
    (hsteps : ∀ step ∈ steps, step.isCall = false) : (rpcMachine.run s steps).calls = s.calls :=
  Machine.run_invariant (P := fun t => t.calls = s.calls)
    (fun t step hstep ht => (calls_step t (hsteps step hstep)).trans ht) rfl

/-- **Remote calls.** Under every interleaving: the calls have distinct ids, and each of them is in
flight at exactly one place or has had exactly one callback. A response on the wire carries the id
of a call and what the engine gave for that call; a callback tells its caller what the engine gave
for the call, and for a read the bytes. The engine answered each call at most once. And nothing
gets stuck: without new calls, whatever the order of the steps, at most four steps for each call in
flight move something on, such a step is possible as long as something is in flight, and when
nothing is, every call has had its one callback. -/
theorem remote_calls_answered (steps : List RpcStep) (hsteps : ∀ step ∈ steps, step.Allowed) :
    let s := rpcMachine.run .initial steps
    (s.calls.map Prod.fst).Nodup ∧
    (s.inFlight ++ s.callbacks.map Prod.fst).Perm (s.calls.map Prod.fst) ∧
    (∀ frame ∈ s.responses, ∃ call answer, (frame.requestId, call) ∈ s.calls ∧
      (frame.requestId, call, answer) ∈ s.answers ∧
      (clientResponseCb call.callType frame.status frame.body 0).Answers call answer) ∧
    (∀ id callback, (id, callback) ∈ s.callbacks → ∃ call answer, (id, call) ∈ s.calls ∧
      (id, call, answer) ∈ s.answers ∧ callback.Answers call answer) ∧
    (s.answers.map Prod.fst).Nodup ∧
    ∀ more : List RpcStep, (∀ step ∈ more, step.isCall = false) →
      let t := rpcMachine.run s more
      movesIn s more ≤ 4 * s.inFlight.length ∧
      (t.inFlight ≠ [] → ∃ step : RpcStep, step.moves t = true) ∧
      (t.inFlight = [] → (t.callbacks.map Prod.fst).Perm (s.calls.map Prod.fst)) := by
  intro s
  obtain ⟨jobs, h⟩ : ∃ jobs, Represents s jobs := exists_represents_run hsteps
  refine ⟨h.perm_calls.nodup_iff.mpr h.nodup, h.perm_ids.trans h.perm_calls.symm,
    fun frame hframe => h.of_mem_responses hframe, fun id callback hcallback =>
    h.of_mem_callbacks hcallback, h.nodup_answers, fun more hmore => ?_⟩
  obtain ⟨jobs', h', hmoves⟩ := h.exists_represents_moves hmore
  refine ⟨by have hremaining := h.remaining_le; omega, exists_moves, fun hempty => ?_⟩
  have hids := h'.perm_ids.trans h'.perm_calls.symm
  rwa [hempty, List.nil_append, calls_run s hmore] at hids

/-- A write and a read in flight together: the engine completes the read before it is asked to
write, and refuses the write; the response of the read is retried once. -/
def writeAndRead : List RpcStep :=
  [.call 1 (.write 7 0 3 [1, 2, 3]), .call 2 (.read 7 0 2), .handle 1 0, .complete 0 0 [5, 6],
    .handle 0 2, .deliver 0 true, .deliver 0 false, .receive 1, .receive 0]

theorem remote_calls_answered_writeAndRead :
    let s := rpcMachine.run .initial writeAndRead
    s.callbacks = [(2, .read 0 (some [5, 6]) 2), (1, .simple 2)] ∧
    ∃ call answer, (2, call) ∈ s.calls ∧ (2, call, answer) ∈ s.answers ∧
      (ClientCallback.read 0 (some [5, 6]) 2).Answers call answer := by
  have hallowed : ∀ step ∈ writeAndRead, step.Allowed := by
    simp [writeAndRead, RpcStep.Allowed, RpcCall.Allowed]
  have hcallbacks : (rpcMachine.run .initial writeAndRead).callbacks =
      [(2, .read 0 (some [5, 6]) 2), (1, .simple 2)] := by decide
  refine ⟨hcallbacks, (remote_calls_answered writeAndRead hallowed).2.2.2.1 2 _ ?_⟩
  rw [hcallbacks]
  exact List.mem_cons_self

end LightFS.Storage
