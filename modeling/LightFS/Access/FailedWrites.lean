import LightFS.Access.ConnectionEvents

/-!
# Writes that fail

The socket layer tells `on_write_complete` the error of a write, and `http_conn_on_write_done` is
given it and does not look at it: a connection that is kept alive reads on, although its client did
not get the response or got a part of it. So after a failed write a connection is used again, unless
the request is the last one on the connection (`unused_after_failed_write_iff`).

The runs of a connection are those of `connectionMachine`, with the error of every write
(`WriteInput`).

## Main definitions

* `WriteInput`, `writeMachine`, `FailsWrite`, `Unused`.

## Main results

* `unused_after_failed_write_iff`.
-/

namespace LightFS.Access

open Library

variable {L : Llhttp} {S : Service}

/-- What happens to a connection, with the errors of its writes. A write that a read issues may
complete inside `spdk_sock_writev_async`. -/
inductive WriteInput where
  | readable (read : List UInt8) (inline : Option ℤ)
  | writeComplete (err : ℤ)

/-- The input without the error, which no code looks at. -/
def WriteInput.forget : WriteInput → ConnInput
  | readable read inline => .readable read inline.isSome
  | writeComplete _ => .writeComplete

/-- A connection under any sequence of reads and write completions with errors. -/
def writeMachine (L : Llhttp) (S : Service) :
    Machine (Option (HttpConn L S)) WriteInput (List ConnEvent) where
  step conn input := (connectionMachine L S).step conn input.forget

/-- A step calls `on_write_complete` with an error for a connection, which is given as it is at
that time. -/
inductive FailsWrite (conn : HttpConn L S) : WriteInput → HttpConn L S → Prop where
  /-- The pending write completes. -/
  | pending (err : ℤ) (herr : err ≠ 0) (hpending : conn.writeReq.isSome) :
      FailsWrite conn (.writeComplete err) conn
  /-- The write completes in the call that issues it: the connection is as it would be if the write
  did not complete at once. -/
  | inline (read : List UInt8) (err : ℤ) (herr : err ≠ 0)
      (hstate : conn.state = .reading ∨ conn.state = .idle) (conn' : HttpConn L S)
      (dispatched : Option DispatchedRequest) (events : List ConnEvent)
      (hread : httpConnOnReadable conn read false = some (conn', dispatched, events))
      (hwriting : conn'.state = .writing) : FailsWrite conn (.readable read (some err)) conn'

/-- The bytes that a connection receives in a step. -/
def receivedBytes : Option (HttpConn L S) → WriteInput → List UInt8
  | some conn, .readable read _ =>
    if (conn.state = .reading ∨ conn.state = .idle) ∧ growRecvBuf conn ≠ none then read else []
  | _, _ => []

/-- In a step no bytes are received, no message is parsed or dispatched, and no response is
written. -/
structure Unused (conn : Option (HttpConn L S)) (input : WriteInput) : Prop where
  received_eq : receivedBytes conn input = []
  not_parsed : .messageComplete ∉ ((writeMachine L S).step conn input).2
  not_dispatched : ∀ state, .dispatch state ∉ ((writeMachine L S).step conn input).2
  not_written : .write ∉ ((writeMachine L S).step conn input).2

/-- A connection without a pending write that is closing, or that will not receive more because its
buffer is full and cannot grow. -/
structure Finished (conn : HttpConn L S) : Prop where
  writeReq_eq : conn.writeReq = none
  state_eq : conn.state = .closing ∨ conn.state = .reading ∧ growRecvBuf conn = none

theorem unused_of_nil {conn : HttpConn L S} {input : WriteInput}
    (hreceived : receivedBytes (some conn) input = [])
    (hevents : ∀ e ∈ ((writeMachine L S).step (some conn) input).2, ∃ state, e = .readable state) :
    Unused (some conn) input := by
  have hnot {e : ConnEvent} (he : ∀ state, e ≠ .readable state) :
      e ∉ ((writeMachine L S).step (some conn) input).2 := fun hmem => by
    obtain ⟨state, rfl⟩ := hevents e hmem
    exact he state rfl
  exact ⟨hreceived, hnot nofun, fun _ => hnot nofun, hnot nofun⟩

/-- A finished connection stays so and is not used. -/
theorem Finished.step {conn : HttpConn L S} (h : Finished conn) (input : WriteInput) :
    Unused (some conn) input ∧
      ∃ conn', ((writeMachine L S).step (some conn) input).1 = some conn' ∧ Finished conn' := by
  cases input with
  | writeComplete err =>
    have hstep : (writeMachine L S).step (some conn) (.writeComplete err) = (some conn, []) := by
      simp [writeMachine, connectionMachine, WriteInput.forget, writeCompleted, h.writeReq_eq]
    refine ⟨unused_of_nil rfl ?_, conn, by rw [hstep], h⟩
    rw [hstep]
    exact fun e he => absurd he List.not_mem_nil
  | readable read inline =>
    rcases h.state_eq with hclosing | ⟨hreading, hgrow⟩
    · have hnot : ¬ (conn.state = .reading ∨ conn.state = .idle) := by simp [hclosing]
      have hstep : (writeMachine L S).step (some conn) (.readable read inline) =
          (some conn, []) := by
        simp only [writeMachine, connectionMachine, WriteInput.forget, pollReadable, if_neg hnot]
      refine ⟨unused_of_nil (if_neg fun hreads => hnot hreads.1) ?_, conn, by rw [hstep], h⟩
      rw [hstep]
      exact fun e he => absurd he List.not_mem_nil
    · -- there is no memory, and the connection is closed
      have hread : httpConnOnReadable conn read inline.isSome =
          some ({ conn with state := .closing }, none, [.readable .reading]) := by
        rw [httpConnOnReadable, hgrow, hreading]
      have hstep : (writeMachine L S).step (some conn) (.readable read inline) =
          (some { conn with state := .closing }, [.readable .reading]) := by
        simp [writeMachine, connectionMachine, WriteInput.forget, pollReadable, hreading, hread]
      refine ⟨unused_of_nil (if_neg fun hreads => hreads.2 hgrow) ?_,
        { conn with state := .closing }, by rw [hstep], h.writeReq_eq, .inl rfl⟩
      rw [hstep]
      exact fun e he => ⟨.reading, List.mem_singleton.mp he⟩

theorem Finished.meets {conn : HttpConn L S} (h : Finished conn) (inputs : List WriteInput) :
    (writeMachine L S).Meets Unused (some conn) inputs := by
  refine Machine.meets_of_invariant (I := (∃ c, · = some c ∧ Finished c)) ?_ ⟨conn, rfl, h⟩ inputs
  rintro _ input ⟨c, rfl, hc⟩
  exact hc.step input

/-- A write that completes at once. -/
theorem connWriteResponse_true {conn : HttpConn L S} {response : S.Response}
    (hwriting : (connWriteResponse conn response false).1.state = .writing) :
    (connWriteResponse conn response true).1 =
      onWriteComplete (connWriteResponse conn response false).1 := by
  rw [connWriteResponse] at hwriting ⊢
  rw [connWriteResponse]
  cases hwire : S.serialize response conn.parserCtx.request.keepAlive with
  | none =>
    rw [hwire] at hwriting
    cases hwriting
  | some wire => rfl

/-- A read whose write completes at once. -/
theorem pollReadable_true {conn conn' : HttpConn L S} {read : List UInt8}
    {dispatched : Option DispatchedRequest} {events : List ConnEvent}
    (hstate : conn.state = .reading ∨ conn.state = .idle)
    (hread : httpConnOnReadable conn read false = some (conn', dispatched, events))
    (hwriting : conn'.state = .writing) :
    ∃ events', pollReadable conn read true = some (onWriteComplete conn', events') := by
  rw [pollReadable, if_pos hstate]
  rw [httpConnOnReadable] at hread ⊢
  rcases hgrow : growRecvBuf conn with _ | size <;> rw [hgrow] at hread <;> dsimp only at hread ⊢
  · cases hread
    cases hwriting
  split_ifs at hread ⊢ with hnil
  · cases hread
    cases hwriting
  rcases hfeed : httpParserFeed conn.parserCtx (conn.recvBuf ++ read) with _ | ⟨ctx, result⟩ <;>
    rw [hfeed] at hread <;> dsimp only at hread ⊢
  · cases hread
  split_ifs at hread ⊢ with hresult hcomplete
  · cases hread
    exact ⟨_, congrArg (fun c => some (c, _)) (connWriteResponse_true hwriting)⟩
  · cases hread
    exact ⟨_, congrArg (fun c => some (c, _)) (connWriteResponse_true hwriting)⟩
  · cases hread
    rcases hstate with hstate | hstate <;> cases hstate.symm.trans hwriting

/-- The step of a failed write. -/
theorem FailsWrite.step_eq {conn writing : HttpConn L S} {input : WriteInput}
    (h : FailsWrite conn input writing) :
    ((writeMachine L S).step (some conn) input).1 = some (onWriteComplete writing) := by
  cases h with
  | pending err herr hpending =>
    simp [writeMachine, connectionMachine, WriteInput.forget, writeCompleted, hpending]
  | inline read err herr hstate _ dispatched events hread hwriting =>
    obtain ⟨events', hpoll⟩ := pollReadable_true hstate hread hwriting
    simp [writeMachine, connectionMachine, WriteInput.forget, hpoll]

/-- **Is a connection used after a failed write?** After a write that has failed, no bytes are
received, no message is parsed or dispatched and no response is written in any continuation of the
run if and only if the request that was answered does not keep the connection alive, or the
connection is closing, or its receive buffer is full and cannot grow. -/
theorem unused_after_failed_write_iff {conn writing : HttpConn L S} {input : WriteInput}
    (h : FailsWrite conn input writing) :
    (∀ after, (writeMachine L S).Meets Unused ((writeMachine L S).step (some conn) input).1 after) ↔
      writing.parserCtx.request.keepAlive = false ∨ writing.state = .closing ∨
        growRecvBuf writing = none := by
  rw [h.step_eq]
  by_cases halive : writing.parserCtx.request.keepAlive = true ∧ writing.state ≠ .closing
  · have hdone : onWriteComplete writing = { writing with
        writeReq := none
        parserCtx := httpParserReset writing.parserCtx
        state := .reading } := if_pos halive
    constructor
    · intro hunused
      refine .inr (.inr ?_)
      by_contra hgrow
      have hreceived := (hunused [.readable [0] none]).1.received_eq
      rw [hdone, receivedBytes, if_pos ⟨.inl rfl, hgrow⟩] at hreceived
      cases hreceived
    · intro hcond
      have hgrow : growRecvBuf writing = none := by
        rcases hcond with hfalse | hclosing | hgrow
        · rw [halive.1] at hfalse
          cases hfalse
        · exact absurd hclosing halive.2
        · exact hgrow
      have hfinished : Finished (onWriteComplete writing) := by
        rw [hdone]
        exact ⟨rfl, .inr ⟨rfl, hgrow⟩⟩
      exact hfinished.meets
  · have hfinished : Finished (onWriteComplete writing) := by
      rw [onWriteComplete, httpConnOnWriteDone, if_neg halive]
      exact ⟨rfl, .inl rfl⟩
    refine iff_of_true hfinished.meets ?_
    by_cases hclosing : writing.state = .closing
    · exact .inr (.inl hclosing)
    · exact .inl (Bool.eq_false_of_not_eq_true fun htrue => halive ⟨htrue, hclosing⟩)

/-- The response to bytes that are not HTTP ends the connection. -/
theorem unused_after_failed_write_iff_bad_syntax :
    (∃ writing, FailsWrite (httpConnAccept getLlhttp emptyService 100)
      (.readable [0] (some (-32))) writing) ∧
    ∀ after, (writeMachine getLlhttp emptyService).Meets Unused
      ((writeMachine getLlhttp emptyService).step
        (some (httpConnAccept getLlhttp emptyService 100)) (.readable [0] (some (-32)))).1 after :=
  ⟨⟨_, .inline [0] (-32) (by decide) (.inl rfl) _ none _ rfl rfl⟩,
    (unused_after_failed_write_iff
      (.inline [0] (-32) (by decide) (.inl rfl) _ none _ rfl rfl)).mpr (.inl rfl)⟩

/-- A response is lost, and the next request is received, dispatched and answered. -/
theorem used_after_failed_write :
    (writeMachine getLlhttp emptyService).trace (some (httpConnAccept getLlhttp emptyService 100))
      [.readable getRoot none, .writeComplete (-32), .readable getRoot none] =
    [.readable .reading, .messageComplete, .dispatch .reading, .write, .writeDone,
      .readable .reading, .messageComplete, .dispatch .reading, .write] := by
  decide

end LightFS.Access
