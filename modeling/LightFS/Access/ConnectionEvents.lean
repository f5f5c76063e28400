import LightFS.Access.Segmentation

/-!
# What a connection does

A connection under any sequence of reads and write completions, as a machine that reports what it
does (`ConnEvent`). A write may complete inside `spdk_sock_writev_async`, or at any later time.

The flag `complete` triggers a dispatch. It is set by `on_message_complete` and cleared by
`on_message_begin`, but not by `http_parser_reset`: a request that was answered is dispatched again
when the next read brings only CR and LF, for which llhttp makes no callback. In all other runs a
request is dispatched at most once (`dispatches_le_completions`).

## Main definitions

* `ConnInput`, `pollReadable`, `writeCompleted`, `connectionMachine`.
* `SkipsBlankLines` — what is assumed of llhttp before a request line.

## Main results

* `dispatch_of_blank_read` — a read that repeats a dispatch.
* `dispatches_le_completions`.
-/

namespace LightFS.Access

open Library

variable {L : Llhttp} {S : Service}

namespace ConnEvent

def isDispatch : ConnEvent → Bool
  | dispatch _ => true
  | _ => false

@[simp] theorem isDispatch_dispatch (state : ConnState) : (dispatch state).isDispatch = true := rfl

@[simp] theorem isDispatch_readable (state : ConnState) : (readable state).isDispatch = false := rfl

@[simp] theorem isDispatch_messageComplete : messageComplete.isDispatch = false := rfl

end ConnEvent

theorem completedMessages_eq_replicate (ctx : HttpParserCtx L) (data : List UInt8) :
    completedMessages ctx data =
      List.replicate (completedMessages ctx data).length .messageComplete := by
  refine List.eq_replicate_of_mem fun e he => ?_
  obtain ⟨-, -, rfl⟩ := List.mem_map.mp he
  rfl

/-- What `http_server_poll` does with a connection that is not closing: `http_conn_on_readable` in
the states `CONN_READING` and `CONN_IDLE`. `none` when the call does not return. -/
def pollReadable (conn : HttpConn L S) (read : List UInt8) (inline : Bool) :
    Option (HttpConn L S × List ConnEvent) :=
  if conn.state = .reading ∨ conn.state = .idle then
    (httpConnOnReadable conn read inline).map fun (conn, _, events) => (conn, events)
  else some (conn, [])

/-- The pending write of a connection, if there is one, completes. -/
def writeCompleted (conn : HttpConn L S) : HttpConn L S × List ConnEvent :=
  if conn.writeReq.isSome then (onWriteComplete conn, [.writeDone]) else (conn, [])

/-- What happens to a connection. -/
inductive ConnInput where
  | readable (read : List UInt8) (inline : Bool)
  | writeComplete

/-- A connection under any sequence of reads and write completions. -/
def connectionMachine (L : Llhttp) (S : Service) :
    Machine (Option (HttpConn L S)) ConnInput (List ConnEvent) where
  step
    | none, _ => (none, [])
    | some conn, .readable read inline =>
      match pollReadable conn read inline with
      | none => (none, [])
      | some (conn, events) => (some conn, events)
    | some conn, .writeComplete => ((writeCompleted conn).map some id)

/-! ### Blank lines -/

/-- CR and LF. -/
def IsBlank (b : UInt8) : Prop := b = 13 ∨ b = 10

instance (b : UInt8) : Decidable (IsBlank b) := inferInstanceAs (Decidable (b = 13 ∨ b = 10))

/-- What llhttp does while it waits for a request: CR and LF are skipped without a callback, and any
other byte is refused or begins a message. -/
structure SkipsBlankLines (L : Llhttp) (waiting : L.State → Prop) : Prop where
  init : waiting L.init
  blank : ∀ {s b}, waiting s → IsBlank b → ∃ s', L.step s b = .ok (s', []) ∧ waiting s'
  other : ∀ {s b}, waiting s → ¬ IsBlank b →
    (∃ code, L.step s b = .error code) ∨
      ∃ s' events, L.step s b = .ok (s', .messageBegin :: events)

namespace SkipsBlankLines

variable {waiting : L.State → Prop} (hL : SkipsBlankLines L waiting)

include hL

/-- A buffer of blank lines makes no callback. -/
theorem execute_blank {s : L.State} (hs : waiting s) {data : List UInt8}
    (hdata : ∀ b ∈ data, IsBlank b) :
    (L.parser.execute s data).events = [] ∧ (L.parser.execute s data).outcome = .ok := by
  induction data generalizing s with
  | nil => exact ⟨rfl, rfl⟩
  | cons b data ih =>
    obtain ⟨s', hstep, hs'⟩ := hL.blank hs (hdata b List.mem_cons_self)
    have hstep : L.parser.step s b = .ok (s', []) := hstep
    rw [StreamParser.execute, hstep]
    exact ih hs' fun b hb => hdata b (List.mem_cons_of_mem _ hb)

/-- A buffer with another byte is refused or begins a message before any other callback. -/
theorem execute_begins {s : L.State} (hs : waiting s) {data : List UInt8}
    (hdata : ∃ b ∈ data, ¬ IsBlank b) :
    (∃ code, (L.parser.execute s data).outcome = .error code) ∨
      ∃ events, (L.parser.execute s data).events = .messageBegin :: events := by
  induction data generalizing s with
  | nil =>
    obtain ⟨b, hb, -⟩ := hdata
    exact absurd hb List.not_mem_nil
  | cons b data ih =>
    by_cases hb : IsBlank b
    · obtain ⟨s', hstep, hs'⟩ := hL.blank hs hb
      have hstep : L.parser.step s b = .ok (s', []) := hstep
      rw [StreamParser.execute, hstep]
      refine ih hs' ?_
      obtain ⟨b', hb', hother⟩ := hdata
      rcases List.mem_cons.mp hb' with rfl | hmem
      · exact absurd hb hother
      · exact ⟨b', hmem, hother⟩
    · rcases hL.other hs hb with ⟨code, hstep⟩ | ⟨s', events, hstep⟩
      · left
        have hstep : L.parser.step s b = .error code := hstep
        exact ⟨code, by rw [StreamParser.execute, hstep]⟩
      · right
        obtain ⟨rest, hevents⟩ : ∃ rest, (L.parser.execute s (b :: data)).events =
            (.messageBegin :: events) ++ rest := StreamParser.events_execute_cons hstep
        exact ⟨events ++ rest, hevents⟩

end SkipsBlankLines

/-! ### Completed messages -/

theorem callbacksMade_of_deliver {ctx ctx' : HttpParserCtx L} {events : List LlhttpEvent}
    (h : deliver ctx events = some (ctx', true)) : callbacksMade ctx events = events := by
  induction events generalizing ctx with
  | nil => rfl
  | cons e events ih =>
    rw [deliver] at h
    rw [callbacksMade]
    rcases hcallback : callback ctx e with _ | ⟨ctx₁, _ | _⟩ <;> rw [hcallback] at h
    · cases h
    · cases h
    · exact congrArg (e :: ·) (ih h)

/-- A feed that leaves a complete request has completed it, unless the request was complete before
and the buffer is blank. -/
theorem messageComplete_of_feed {waiting : L.State → Prop} (hL : SkipsBlankLines L waiting)
    {ctx ctx' : HttpParserCtx L} {data : List UInt8} {result : ℤ}
    (hfeed : httpParserFeed ctx data = some (ctx', result)) (hresult : 0 ≤ result)
    (hcomplete : ctx'.request.complete = true)
    (hstale : ctx.request.complete = true → ctx.parser = L.init ∧ ∃ b ∈ data, ¬ IsBlank b) :
    ∃ e ∈ feedCallbacks ctx data, e.isMessageComplete = true := by
  by_contra hnone
  push Not at hnone
  simp only [Bool.not_eq_true] at hnone
  simp only [httpParserFeed] at hfeed
  rcases hdeliver : deliver { ctx with parser := (L.parser.execute ctx.parser data).state }
    (joinSpans (L.parser.execute ctx.parser data).events) with _ | ⟨ctx₁, _ | _⟩ <;>
    rw [hdeliver] at hfeed
  · cases hfeed
  · cases hfeed
    exact absurd hresult (by decide)
  rw [feedCallbacks, callbacksMade_of_deliver hdeliver] at hnone
  have hincomplete : ctx₁.request.complete = false := by
    cases hctx : ctx.request.complete with
    | false => exact complete_deliver hdeliver hnone hctx
    | true =>
      obtain ⟨hparser, hother⟩ := hstale hctx
      rw [hparser] at hfeed hdeliver hnone
      rcases hL.execute_begins hL.init hother with ⟨code, herror⟩ | ⟨events, hbegins⟩
      · rw [herror] at hfeed
        cases hfeed
        exact absurd hresult (by decide)
      · -- `on_message_begin` clears the flag
        rw [hbegins, joinSpans_messageBegin] at hdeliver hnone
        have hbegun : deliver (onMessageBegin
            { ctx with parser := (L.parser.execute L.init data).state }) (joinSpans events) =
              some (ctx₁, true) := hdeliver
        exact complete_deliver hbegun (fun e he => hnone e (List.mem_cons_of_mem _ he)) rfl
  have hsame : ctx'.request.complete = ctx₁.request.complete := by
    cases houtcome : (L.parser.execute ctx.parser data).outcome <;> rw [houtcome] at hfeed <;>
      cases hfeed <;> rfl
  rw [hsame, hincomplete] at hcomplete
  cases hcomplete

/-! ### Dispatches -/

/-- A connection that reads with an answered request still marked complete has been reset. -/
def Reset (conn : HttpConn L S) : Prop :=
  conn.state = .reading ∨ conn.state = .idle → conn.parserCtx.request.complete = true →
    conn.parserCtx.parser = L.init

/-- The read does not leave a buffer of CR and LF to a connection that has answered a request. -/
def BeginsMessage : Option (HttpConn L S) → ConnInput → Prop
  | some conn, .readable read _ =>
    conn.state = .reading ∨ conn.state = .idle → conn.parserCtx.request.complete = true →
      read ≠ [] → ∃ b ∈ conn.recvBuf ++ read, ¬ IsBlank b
  | _, _ => True

theorem reset_onWriteComplete (conn : HttpConn L S) : Reset (onWriteComplete conn) := by
  rw [onWriteComplete, httpConnOnWriteDone]
  split_ifs
  · exact fun _ _ => rfl
  · rintro (h | h) <;> cases h

theorem reset_of_writeResponse {conn conn' : HttpConn L S} {events : List ConnEvent}
    (h : WriteResponseOutcome conn conn' events) : Reset conn' := by
  cases h with
  | fails => rintro (h | h) <;> cases h
  | writes wire => rintro (h | h) <;> cases h
  | completes wire => exact reset_onWriteComplete _

/-- What `http_server_poll` does with a connection that it reads from. -/
theorem pollReadable_cases {conn conn' : HttpConn L S} {read : List UInt8} {inline : Bool}
    {events : List ConnEvent} (hstate : conn.state = .reading ∨ conn.state = .idle)
    (h : pollReadable conn read inline = some (conn', events)) :
    ∃ dispatched, httpConnOnReadable conn read inline = some (conn', dispatched, events) := by
  rw [pollReadable, if_pos hstate] at h
  obtain ⟨⟨_, dispatched, _⟩, hread, heq⟩ := Option.map_eq_some_iff.mp h
  cases heq
  exact ⟨dispatched, hread⟩

/-- A connection that reads on after a read has been reset, or its request is not complete. -/
theorem reset_pollReadable {conn conn' : HttpConn L S} {read : List UInt8} {inline : Bool}
    {events : List ConnEvent} (hreset : Reset conn)
    (h : pollReadable conn read inline = some (conn', events)) : Reset conn' := by
  by_cases hstate : conn.state = .reading ∨ conn.state = .idle
  · obtain ⟨dispatched, hread⟩ := pollReadable_cases hstate h
    cases readableOutcome_of_eq_some hread with
    | closes _ hclosing => simp [Reset, hclosing]
    | fails c => exact reset_of_writeResponse (outcome_connWriteResponse c _ inline)
    | dispatches c =>
      obtain ⟨_, _, -, -, hwrites⟩ := outcome_httpConnDispatch c inline
      exact reset_of_writeResponse hwrites
    | waits _ _ _ hcomplete => simp [Reset, hcomplete]
  · rw [pollReadable, if_neg hstate] at h
    cases h
    exact hreset

theorem reset_step {conn : Option (HttpConn L S)} (hreset : ∀ c, conn = some c → Reset c)
    (input : ConnInput) :
    ∀ c, ((connectionMachine L S).step conn input).1 = some c → Reset c := by
  intro c hc
  rcases conn with _ | conn
  · cases hc
  cases input with
  | readable read inline =>
    rcases hpoll : pollReadable conn read inline with _ | ⟨conn', events⟩ <;>
      simp only [connectionMachine, hpoll] at hc
    · cases hc
    · cases hc
      exact reset_pollReadable (hreset conn rfl) hpoll
  | writeComplete =>
    simp only [connectionMachine, writeCompleted] at hc
    split_ifs at hc
    · cases hc
      exact reset_onWriteComplete conn
    · cases hc
      exact hreset _ rfl

theorem countP_of_writeResponse {conn conn' : HttpConn L S} {events : List ConnEvent}
    (h : WriteResponseOutcome conn conn' events) : events.countP (·.isDispatch) = 0 := by
  cases h <;> rfl

/-- `http_conn_dispatch` is entered once. -/
theorem countP_httpConnDispatch (conn : HttpConn L S) (inline : Bool) :
    (httpConnDispatch conn inline).2.2.countP (·.isDispatch) = 1 := by
  obtain ⟨_, events, -, hevents, hwrites⟩ := outcome_httpConnDispatch conn inline
  rw [hevents, List.countP_cons_of_pos (by rfl), countP_of_writeResponse hwrites]

/-- What is reported before a request is dispatched or answered. -/
theorem count_readable (state : ConnState) (ctx : HttpParserCtx L) (data : List UInt8) :
    (ConnEvent.readable state :: completedMessages ctx data).countP (·.isDispatch) = 0 ∧
      (ConnEvent.readable state :: completedMessages ctx data).count .messageComplete =
        (completedMessages ctx data).length := by
  rw [completedMessages_eq_replicate, List.length_replicate]
  simp [List.countP_replicate]

/-- A read that dispatches completes a message. -/
theorem completedMessages_ne_nil {waiting : L.State → Prop} (hL : SkipsBlankLines L waiting)
    {conn : HttpConn L S} {read : List UInt8} {inline : Bool} {ctx : HttpParserCtx L} {result : ℤ}
    (hreset : Reset conn) (hbegins : BeginsMessage (some conn) (.readable read inline))
    (hstate : conn.state = .reading ∨ conn.state = .idle) (hread : read ≠ [])
    (hfeed : httpParserFeed conn.parserCtx (conn.recvBuf ++ read) = some (ctx, result))
    (hresult : 0 ≤ result) (hcomplete : ctx.request.complete = true) :
    completedMessages conn.parserCtx (conn.recvBuf ++ read) ≠ [] := by
  obtain ⟨e, he, hmessage⟩ := messageComplete_of_feed hL hfeed hresult hcomplete
    fun hstale => ⟨hreset hstate hstale, hbegins hstate hstale hread⟩
  exact List.ne_nil_of_mem (List.mem_map_of_mem (List.mem_filter.mpr ⟨he, hmessage⟩))

theorem countP_onReadable_le {waiting : L.State → Prop} (hL : SkipsBlankLines L waiting)
    {conn conn' : HttpConn L S} {read : List UInt8} {inline : Bool}
    {dispatched : Option DispatchedRequest} {events : List ConnEvent} (hreset : Reset conn)
    (hbegins : BeginsMessage (some conn) (.readable read inline))
    (hstate : conn.state = .reading ∨ conn.state = .idle)
    (h : httpConnOnReadable conn read inline = some (conn', dispatched, events)) :
    events.countP (·.isDispatch) ≤ events.count .messageComplete := by
  obtain ⟨hnone, hcompletions⟩ := count_readable conn.state conn.parserCtx (conn.recvBuf ++ read)
  cases readableOutcome_of_eq_some h with
  | closes => exact le_rfl
  | fails c =>
    rw [List.countP_append, hnone,
      countP_of_writeResponse (outcome_connWriteResponse c _ inline)]
    exact Nat.zero_le _
  | dispatches c result _ _ hread hfeed hresult hcomplete =>
    have hne := completedMessages_ne_nil hL hreset hbegins hstate hread hfeed hresult hcomplete
    rw [List.countP_append, List.count_append, hnone, hcompletions, countP_httpConnDispatch]
    exact Nat.le_add_right_of_le (List.length_pos_iff.mpr hne)
  | waits =>
    rw [hnone]
    exact Nat.zero_le _

theorem countP_step_le {waiting : L.State → Prop} (hL : SkipsBlankLines L waiting)
    {conn : Option (HttpConn L S)} {input : ConnInput} (hreset : ∀ c, conn = some c → Reset c)
    (hbegins : BeginsMessage conn input) :
    ((connectionMachine L S).step conn input).2.countP (·.isDispatch) ≤
      ((connectionMachine L S).step conn input).2.count .messageComplete := by
  cases conn with
  | none => exact le_rfl
  | some conn =>
    cases input with
    | readable read inline =>
      rcases hpoll : pollReadable conn read inline with _ | ⟨conn', events⟩ <;>
        simp only [connectionMachine, hpoll]
      · exact le_rfl
      by_cases hstate : conn.state = .reading ∨ conn.state = .idle
      · obtain ⟨dispatched, hread⟩ := pollReadable_cases hstate hpoll
        exact countP_onReadable_le hL (hreset conn rfl) hbegins hstate hread
      · rw [pollReadable, if_neg hstate] at hpoll
        cases hpoll
        exact le_rfl
    | writeComplete =>
      simp only [connectionMachine, writeCompleted]
      split_ifs <;> exact le_rfl

theorem countP_trace_le {waiting : L.State → Prop} (hL : SkipsBlankLines L waiting)
    {conn : Option (HttpConn L S)} {inputs : List ConnInput}
    (hreset : ∀ c, conn = some c → Reset c)
    (hbegins : (connectionMachine L S).Meets BeginsMessage conn inputs) :
    ((connectionMachine L S).trace conn inputs).countP (·.isDispatch) ≤
      ((connectionMachine L S).trace conn inputs).count .messageComplete := by
  induction inputs generalizing conn with
  | nil => exact le_rfl
  | cons input inputs ih =>
    rw [Machine.trace_cons, List.countP_append, List.count_append]
    exact Nat.add_le_add (countP_step_le hL hreset hbegins.1)
      (ih (reset_step hreset input) hbegins.2)

/-- A read of CR and LF dispatches the request that was answered last once more, without any
callback. -/
theorem dispatch_of_blank_read {waiting : L.State → Prop} (hL : SkipsBlankLines L waiting)
    {conn : HttpConn L S} {read : List UInt8} {inline : Bool} (hgrow : growRecvBuf conn ≠ none)
    (hcomplete : conn.parserCtx.request.complete = true)
    (hparser : conn.parserCtx.parser = L.init) (hread : read ≠ [])
    (hblank : ∀ b ∈ conn.recvBuf ++ read, IsBlank b) :
    (httpConnOnReadable conn read inline).map (·.2.1) =
        some (some conn.parserCtx.dispatchedRequest) ∧
      completedMessages conn.parserCtx (conn.recvBuf ++ read) = [] := by
  obtain ⟨hevents, houtcome⟩ := hL.execute_blank hL.init hblank
  obtain ⟨size, hsize⟩ := Option.ne_none_iff_exists'.mp hgrow
  have hfeed : httpParserFeed conn.parserCtx (conn.recvBuf ++ read) =
      some ({ conn.parserCtx with
        parser := (L.parser.execute L.init (conn.recvBuf ++ read)).state }, 0) := by
    simp only [httpParserFeed, hparser, hevents, houtcome, joinSpans, deliver]
  constructor
  · simp only [httpConnOnReadable, hsize, if_neg hread, hfeed, lt_irrefl, if_false, hcomplete,
      if_true]
    rfl
  · simp only [completedMessages, feedCallbacks, hparser, hevents, joinSpans, callbacksMade,
      List.filter_nil, List.map_nil]

/-- **A request is dispatched once.** In every run of a connection in which no read leaves only CR
and LF in the buffer of a connection that has answered a request, there are at most as many
dispatches as completed messages. -/
theorem dispatches_le_completions {waiting : L.State → Prop} (hL : SkipsBlankLines L waiting)
    (S : Service) (maxRequestBody : UInt32) (inputs : List ConnInput)
    (hbegins : (connectionMachine L S).Meets BeginsMessage
      (some (httpConnAccept L S maxRequestBody)) inputs) :
    let trace := (connectionMachine L S).trace (some (httpConnAccept L S maxRequestBody)) inputs
    trace.countP (·.isDispatch) ≤ trace.count .messageComplete := by
  refine countP_trace_le hL ?_ hbegins
  rintro _ ⟨⟩ _ hcomplete
  cases hcomplete

theorem skipsBlankLines_getLlhttp : SkipsBlankLines getLlhttp (· = GetState.start) where
  init := rfl
  blank := by
    rintro _ b rfl hb
    exact ⟨.start, if_pos hb, rfl⟩
  other := by
    rintro _ b rfl hb
    by_cases hget : b = 71
    · exact .inr ⟨.method 1, [], by rw [hget]; rfl⟩
    · exact .inl ⟨6, by simp only [getLlhttp, if_neg hget]; exact if_neg hb⟩

/-- Two requests on one connection. -/
theorem dispatches_le_completions_two_requests :
    let trace := (connectionMachine getLlhttp emptyService).trace
      (some (httpConnAccept getLlhttp emptyService 100))
      [.readable getRoot true, .readable getRoot false, .writeComplete]
    trace.countP (·.isDispatch) ≤ trace.count .messageComplete := by
  refine dispatches_le_completions skipsBlankLines_getLlhttp emptyService 100 _ ⟨?_, ?_, ?_, ?_⟩
  · intro _ hcomplete
    cases hcomplete
  · intro _ _ _
    exact ⟨71, List.mem_append_right _ (by decide), by decide⟩
  · trivial
  · trivial

/-- A request is answered, CR and LF follow, and the request is dispatched again. -/
theorem dispatched_twice :
    let trace := (connectionMachine getLlhttp emptyService).trace
      (some (httpConnAccept getLlhttp emptyService 100))
      [.readable getRoot true, .readable [13, 10] true]
    trace.countP (·.isDispatch) = 2 ∧ trace.count .messageComplete = 1 := by
  decide

end LightFS.Access
