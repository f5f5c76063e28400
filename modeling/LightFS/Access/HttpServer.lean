import LightFS.Access.ConnectionEvents
import LightFS.Library.OrderedMap

/-!
# The HTTP server

The server and its poll loop (`src/access/http_server.c`). A poll lets the socket layer complete
pending writes, accepts connections, reads from every connection that waits for data, closes those
that are closing, and once a second closes those that have been idle for too long. The server is a
machine whose steps are what a poll does with one connection; a poll is a run of it
(`httpServerPoll`), and so is any interleaving of polls with write completions.

What happens to a connection follows a protocol (`ConnPhase`): a dispatch is followed by one write
or by the close of the connection, and a write by its completion. The server follows it in every run
(`one_response_in_flight`). It does not wait for clients, though: a connection that has no data yet
is closed by the first poll that reads from it (`no_data_closes_iff`).

The server is polled only between its creation and its destruction, while `running` is set.
Connections are named by numbers that are not used twice, and `conn_count` is the length of their
list. The times `now_ms` returns and what the sockets do are inputs.

## Main definitions

* `HttpServer`, `ServerStep`, `serverMachine`, `PollInputs`, `httpServerPoll`.
* `ConnPhase`, `follow` — the protocol of a connection.

## Main results

* `follow_pollReadable` — a poll follows the protocol.
* `one_response_in_flight`, `no_data_closes_iff`.
-/

namespace LightFS.Access

open Library

variable {L : Llhttp} {S : Service}

/-! ### The server -/

/-- `http_server_config_t`, without the address to listen on. -/
structure HttpServerConfig where
  maxConnections : UInt32
  keepAliveTimeoutMs : UInt32
  requestTimeoutMs : UInt32
  maxRequestBody : UInt32

/-- A connection in `conn_list`, with `last_active_ts`. -/
structure ServerConn (L : Llhttp) (S : Service) where
  id : ℕ
  conn : HttpConn L S
  lastActiveTs : UInt64

/-- `http_server_t`, and the static `last_timeout_check`. -/
structure HttpServer (L : Llhttp) (S : Service) where
  connList : List (ServerConn L S)
  /-- The name of the next connection. -/
  nextId : ℕ
  maxConnections : UInt32
  keepAliveTimeoutMs : UInt32
  requestTimeoutMs : UInt32
  maxRequestBody : UInt32
  lastTimeoutCheck : UInt64

/-- `http_server_create`. -/
def httpServerCreate (L : Llhttp) (S : Service) (config : HttpServerConfig) : HttpServer L S where
  connList := []
  nextId := 0
  maxConnections := if 0 < config.maxConnections then config.maxConnections else 1024
  keepAliveTimeoutMs := if 0 < config.keepAliveTimeoutMs then config.keepAliveTimeoutMs else 5000
  requestTimeoutMs := if 0 < config.requestTimeoutMs then config.requestTimeoutMs else 30000
  maxRequestBody :=
    if 0 < config.maxRequestBody then config.maxRequestBody else 64 * 1024 * 1024
  lastTimeoutCheck := 0

namespace HttpServer

/-- The connection with a name. -/
def find (server : HttpServer L S) (id : ℕ) : Option (ServerConn L S) :=
  lookupKey ServerConn.id id server.connList

/-- A connection has changed. -/
def set (server : HttpServer L S) (c : ServerConn L S) : HttpServer L S :=
  { server with connList := upsert ServerConn.id c server.connList }

/-- The connection that `http_conn_accept` adds. -/
def newConn (server : HttpServer L S) (now : UInt64) : ServerConn L S where
  id := server.nextId
  conn := httpConnAccept L S server.maxRequestBody
  lastActiveTs := now

/-- `http_conn_accept`: the new connection is the last of the list. -/
def accept (server : HttpServer L S) (now : UInt64) : HttpServer L S :=
  if server.maxConnections.toNat ≤ server.connList.length then server
  else
    { server with
      connList := server.connList ++ [server.newConn now]
      nextId := server.nextId + 1 }

/-- `http_conn_close`. -/
def close (server : HttpServer L S) (id : ℕ) : HttpServer L S :=
  { server with connList := eraseKey ServerConn.id id server.connList }

/-- The test of `check_timeouts`. -/
def timedOut (server : HttpServer L S) (c : ServerConn L S) (now : UInt64) : Prop :=
  let idle := now - c.lastActiveTs
  c.conn.state = .reading ∧ server.requestTimeoutMs.toUInt64 < idle ∨
    c.conn.state = .idle ∧ server.keepAliveTimeoutMs.toUInt64 < idle

instance (server : HttpServer L S) (c : ServerConn L S) (now : UInt64) :
    Decidable (server.timedOut c now) :=
  inferInstanceAs (Decidable (_ ∨ _))

end HttpServer

/-! ### Steps -/

/-- What `spdk_sock_recv` returns: data, `-1` with `EAGAIN`, or the end of the stream or another
error. -/
inductive RecvResult where
  | data (bytes : List UInt8)
  | wouldBlock
  | ended

/-- `http_conn_on_readable` only looks at the sign of the result. -/
def RecvResult.bytes : RecvResult → List UInt8
  | data bytes => bytes
  | _ => []

/-- What the server does with one connection. -/
inductive ServerStep where
  /-- The socket layer completes the pending write of a connection. -/
  | writeComplete (id : ℕ)
  /-- A connection is accepted. -/
  | accept (now : UInt64)
  /-- The body of the loop of `http_server_poll`, with what the socket returns, whether a write
  completes inside `spdk_sock_writev_async`, and the time. -/
  | poll (id : ℕ) (recv : RecvResult) (inline : Bool) (now : UInt64)
  /-- The body of the loop of `check_timeouts`. -/
  | checkTimeout (id : ℕ) (now : UInt64)
  /-- The timeouts have been checked. -/
  | timeoutsChecked (now : UInt64)

/-- The events of a connection, with its name. -/
def named (id : ℕ) (events : List ConnEvent) : List (ℕ × ConnEvent) := events.map (id, ·)

/-- The body of the loop of `http_server_poll`. -/
def pollConn (server : HttpServer L S) (c : ServerConn L S) (recv : RecvResult) (inline : Bool)
    (now : UInt64) : Option (HttpServer L S) × List (ℕ × ConnEvent) :=
  match pollReadable c.conn recv.bytes inline with
  | none => (none, [])
  | some (conn, events) =>
    if conn.state = .closing then
      (some (server.close c.id), named c.id (events ++ [.close conn.state]))
    else
      let lastActiveTs :=
        if c.conn.state = .reading ∨ c.conn.state = .idle then now else c.lastActiveTs
      (some (server.set { c with conn := conn, lastActiveTs := lastActiveTs }), named c.id events)

/-- The server, step by step; `none` once a call does not return. -/
def serverMachine (L : Llhttp) (S : Service) :
    Machine (Option (HttpServer L S)) ServerStep (List (ℕ × ConnEvent)) where
  step
    | none, _ => (none, [])
    | some server, .writeComplete id =>
      match server.find id with
      | none => (some server, [])
      | some c =>
        (some (server.set { c with conn := (writeCompleted c.conn).1 }),
          named id (writeCompleted c.conn).2)
    | some server, .accept now => (some (server.accept now), [])
    | some server, .poll id recv inline now =>
      match server.find id with
      | none => (some server, [])
      | some c => pollConn server c recv inline now
    | some server, .checkTimeout id now =>
      match server.find id with
      | none => (some server, [])
      | some c =>
        if server.timedOut c now then (some (server.close id), named id [.close c.conn.state])
        else (some server, [])
    | some server, .timeoutsChecked now => (some { server with lastTimeoutCheck := now }, [])

/-- The inputs of one poll: the writes that `spdk_sock_group_poll` completes, the times of the
accepted connections, and per connection what is received, whether its write completes at once and
the time of the read; and the times at the end of the poll and in `check_timeouts`. -/
structure PollInputs where
  completed : List ℕ
  accepted : List UInt64
  recv : ℕ → RecvResult
  inline : ℕ → Bool
  readTime : ℕ → UInt64
  now : UInt64
  checkTime : UInt64

/-- The writes that complete and the connections that are accepted. -/
def PollInputs.beforeReads (inputs : PollInputs) : List ServerStep :=
  inputs.completed.map .writeComplete ++ inputs.accepted.map .accept

/-- The loop over the connections. -/
def PollInputs.reads (inputs : PollInputs) (server : HttpServer L S) : List ServerStep :=
  server.connList.map fun c =>
    .poll c.id (inputs.recv c.id) (inputs.inline c.id) (inputs.readTime c.id)

/-- `check_timeouts`, if a second has passed since the last time. -/
def PollInputs.timeouts (inputs : PollInputs) (server : HttpServer L S) : List ServerStep :=
  if 1000 ≤ inputs.now - server.lastTimeoutCheck then
    server.connList.map (fun c => .checkTimeout c.id inputs.checkTime) ++
      [.timeoutsChecked inputs.now]
  else []

/-- The steps of `http_server_poll`. -/
def pollSteps (inputs : PollInputs) (server : HttpServer L S) : List ServerStep :=
  let accepted := (serverMachine L S).run (some server) inputs.beforeReads
  let reads := accepted.elim [] inputs.reads
  let read := (serverMachine L S).run accepted reads
  inputs.beforeReads ++ (reads ++ read.elim [] inputs.timeouts)

/-- `http_server_poll`. -/
def httpServerPoll (inputs : PollInputs) (server : HttpServer L S) : Option (HttpServer L S) :=
  (serverMachine L S).run (some server) (pollSteps inputs server)

/-! ### The protocol of a connection -/

/-- Where a connection is between its responses. -/
inductive ConnPhase where
  | ready
  | dispatched
  | inFlight
  | closed
deriving DecidableEq

/-- What may happen next. -/
def ConnPhase.next : ConnPhase → ConnEvent → Option ConnPhase
  | ready, .readable state => if state = .writing then none else some ready
  | ready, .messageComplete => some ready
  | ready, .dispatch state => if state = .writing then none else some dispatched
  | ready, .write => some inFlight
  | ready, .close state => if state = .writing then none else some closed
  | dispatched, .write => some inFlight
  | dispatched, .close state => if state = .closing then some closed else none
  | inFlight, .writeDone => some ready
  | _, _ => none

/-- Where a connection is after these events, `none` when they do not follow the protocol. -/
def follow : ConnPhase → List ConnEvent → Option ConnPhase
  | phase, [] => some phase
  | phase, e :: events => (phase.next e).bind (follow · events)

/-- The state of a connection at the entry of a call. -/
def ConnEvent.entryState : ConnEvent → Option ConnState
  | readable state | dispatch state | close state => some state
  | _ => none

theorem follow_append (phase : ConnPhase) (events events' : List ConnEvent) :
    follow phase (events ++ events') = (follow phase events).bind (follow · events') := by
  induction events generalizing phase with
  | nil => rfl
  | cons e events ih =>
    rw [List.cons_append, follow, follow]
    cases phase.next e with
    | none => rfl
    | some phase' => exact ih phase'

theorem entryState_of_next {phase phase' : ConnPhase} {e : ConnEvent}
    (h : phase.next e = some phase') : e.entryState ≠ some .writing := by
  intro hwriting
  cases e with
  | readable state =>
    cases hwriting
    cases phase <;> simp [ConnPhase.next] at h
  | dispatch state =>
    cases hwriting
    cases phase <;> simp [ConnPhase.next] at h
  | close state =>
    cases hwriting
    cases phase <;> simp [ConnPhase.next] at h
  | _ => cases hwriting

/-- No call is entered while a response is in flight. -/
theorem entryState_of_follow {phase phase' : ConnPhase} {events : List ConnEvent}
    (h : follow phase events = some phase') : ∀ e ∈ events, e.entryState ≠ some .writing := by
  induction events generalizing phase with
  | nil => exact fun e he => absurd he List.not_mem_nil
  | cons e events ih =>
    rw [follow] at h
    obtain ⟨next, hnext, hrest⟩ := Option.bind_eq_some_iff.mp h
    intro e' he'
    rcases List.mem_cons.mp he' with rfl | he'
    · exact entryState_of_next hnext
    · exact ih hrest e' he'

theorem next_dispatch {phase phase' : ConnPhase} {state : ConnState}
    (h : phase.next (.dispatch state) = some phase') : phase' = .dispatched := by
  cases phase <;> simp_all [ConnPhase.next]

theorem next_dispatched {phase' : ConnPhase} {e : ConnEvent}
    (h : ConnPhase.dispatched.next e = some phase') :
    e = .write ∧ phase' = .inFlight ∨ e = .close .closing ∧ phase' = .closed := by
  cases e <;> simp_all [ConnPhase.next]

theorem next_inFlight {phase' : ConnPhase} {e : ConnEvent}
    (h : ConnPhase.inFlight.next e = some phase') : e = .writeDone := by
  cases e <;> simp_all [ConnPhase.next]

theorem next_closed (e : ConnEvent) : ConnPhase.closed.next e = none := by
  cases e <;> rfl

/-- After a dispatch there is one write, and nothing before it completes; or the connection is
closed. -/
theorem follow_dispatch {phase phase' : ConnPhase} {before after : List ConnEvent}
    {state : ConnState} (h : follow phase (before ++ .dispatch state :: after) = some phase')
    (hdone : phase' ≠ .dispatched) :
    after = [.close .closing] ∨ after = [.write] ∨
      ∃ rest, after = .write :: .writeDone :: rest := by
  rw [follow_append] at h
  obtain ⟨phase₁, -, h⟩ := Option.bind_eq_some_iff.mp h
  obtain ⟨phase₂, hnext, h⟩ := Option.bind_eq_some_iff.mp h
  obtain rfl := next_dispatch hnext
  rcases after with _ | ⟨e, after⟩
  · exact absurd (Option.some.inj h).symm hdone
  obtain ⟨phase₃, hnext, h⟩ := Option.bind_eq_some_iff.mp h
  rcases next_dispatched hnext with ⟨rfl, rfl⟩ | ⟨rfl, rfl⟩
  · rcases after with _ | ⟨e, after⟩
    · exact .inr (.inl rfl)
    · obtain ⟨phase₄, hnext, -⟩ := Option.bind_eq_some_iff.mp h
      obtain rfl := next_inFlight hnext
      exact .inr (.inr ⟨after, rfl⟩)
  · rcases after with _ | ⟨e, after⟩
    · exact .inl rfl
    · rw [follow, next_closed] at h
      cases h

/-! ### A connection follows the protocol -/

/-- A write is pending exactly in the state `CONN_WRITING`; between calls no connection is in the
state `CONN_DISPATCHING`. -/
structure ConnOk (conn : HttpConn L S) : Prop where
  writeReq_iff : conn.writeReq.isSome ↔ conn.state = .writing
  not_dispatching : conn.state ≠ .dispatching

/-- The phase of a connection between calls. -/
def phaseOf (state : ConnState) : ConnPhase := if state = .writing then .inFlight else .ready

theorem connOk_onWriteComplete (conn : HttpConn L S) :
    ConnOk (onWriteComplete conn) ∧ (onWriteComplete conn).state ≠ .writing := by
  rw [onWriteComplete, httpConnOnWriteDone]
  split_ifs
  · exact ⟨⟨by simp, by simp⟩, by simp⟩
  · exact ⟨⟨by simp, by simp⟩, by simp⟩

/-- What is reported before a request is dispatched or answered. -/
theorem follow_readable {state : ConnState} (hstate : state ≠ .writing) (ctx : HttpParserCtx L)
    (data : List UInt8) :
    follow .ready (.readable state :: completedMessages ctx data) = some .ready := by
  rw [follow, ConnPhase.next, if_neg hstate, Option.bind_some, completedMessages_eq_replicate]
  induction (completedMessages ctx data).length with
  | zero => rfl
  | succ n ih => exact ih

/-- The events of a poll, with the close of a connection that is closing. -/
def pollEvents (conn' : HttpConn L S) (events : List ConnEvent) : List ConnEvent :=
  if conn'.state = .closing then events ++ [.close conn'.state] else events

/-- The phase of a connection after a poll. -/
def polledPhase (conn' : HttpConn L S) : ConnPhase :=
  if conn'.state = .closing then .closed else phaseOf conn'.state

theorem follow_pollEvents_of_ready {conn' : HttpConn L S} {events : List ConnEvent}
    (hstate : conn'.state ≠ .writing) (h : follow .ready events = some .ready) :
    follow .ready (pollEvents conn' events) = some (polledPhase conn') := by
  rw [pollEvents, polledPhase, phaseOf, if_neg hstate]
  split_ifs with hclosing
  · rw [follow_append, h, hclosing]
    rfl
  · exact h

/-- A connection that was not read from. -/
theorem follow_not_read {conn : HttpConn L S} (hok : ConnOk conn)
    (hstate : ¬ (conn.state = .reading ∨ conn.state = .idle)) :
    follow (phaseOf conn.state) (pollEvents conn []) = some (polledPhase conn) := by
  rw [pollEvents, polledPhase]
  cases h : conn.state with
  | reading => exact absurd (.inl h) hstate
  | idle => exact absurd (.inr h) hstate
  | dispatching => exact absurd h hok.not_dispatching
  | writing => rfl
  | closing => rfl

theorem pollEvents_append (conn' : HttpConn L S) (before events : List ConnEvent) :
    pollEvents conn' (before ++ events) = before ++ pollEvents conn' events := by
  rw [pollEvents, pollEvents]
  split_ifs
  · exact List.append_assoc _ _ _
  · rfl

/-- An answer, to a request that was dispatched or to bytes that are not HTTP. -/
theorem follow_writeResponse {conn conn' : HttpConn L S} {events : List ConnEvent}
    (h : WriteResponseOutcome conn conn' events) (hnone : conn.writeReq = none) {phase : ConnPhase}
    (hphase : phase = .ready ∨ phase = .dispatched) :
    ConnOk conn' ∧ follow phase (pollEvents conn' events) = some (polledPhase conn') := by
  cases h with
  | fails =>
    refine ⟨⟨by simp [hnone], by simp⟩, ?_⟩
    rcases hphase with rfl | rfl <;> rfl
  | writes wire =>
    refine ⟨⟨by simp, by simp⟩, ?_⟩
    rcases hphase with rfl | rfl <;> rfl
  | completes wire =>
    obtain ⟨hok, hstate⟩ :=
      connOk_onWriteComplete { conn with writeReq := some wire, state := .writing }
    refine ⟨hok, ?_⟩
    have hnext : follow phase [.write, .writeDone] = some .ready := by
      rcases hphase with rfl | rfl <;> rfl
    rw [← List.append_nil [ConnEvent.write, .writeDone], pollEvents_append, follow_append, hnext]
    exact follow_pollEvents_of_ready hstate rfl

/-- A read follows the protocol. -/
theorem follow_onReadable {conn conn' : HttpConn L S} {read : List UInt8} {inline : Bool}
    {dispatched : Option DispatchedRequest} {events : List ConnEvent}
    (hstate : conn.state = .reading ∨ conn.state = .idle) (hnone : conn.writeReq = none)
    (h : httpConnOnReadable conn read inline = some (conn', dispatched, events)) :
    ConnOk conn' ∧ follow .ready (pollEvents conn' events) = some (polledPhase conn') := by
  have hwriting : conn.state ≠ .writing := by
    rcases hstate with h | h <;> simp [h]
  have hreads := follow_readable hwriting conn.parserCtx (conn.recvBuf ++ read)
  cases readableOutcome_of_eq_some h with
  | closes _ hclosing hreq =>
    refine ⟨⟨by simp [hreq, hnone, hclosing], by simp [hclosing]⟩, ?_⟩
    simp [pollEvents, polledPhase, hclosing, follow, ConnPhase.next, hwriting]
  | fails c hreq =>
    rw [pollEvents_append, follow_append, hreads]
    exact follow_writeResponse (outcome_connWriteResponse c _ inline) (hreq.trans hnone) (.inl rfl)
  | dispatches c _ hsame hreq =>
    obtain ⟨c₀, answer, hreq₀, hevents, hwrites⟩ := outcome_httpConnDispatch c inline
    rw [hevents, pollEvents_append, follow_append, hreads, Option.bind_some,
      ← List.singleton_append, pollEvents_append, follow_append]
    have hdispatch : follow .ready [.dispatch c.state] = some .dispatched := by
      simp [follow, ConnPhase.next, hsame, hwriting]
    rw [hdispatch]
    exact follow_writeResponse hwrites (hreq₀.trans (hreq.trans hnone)) (.inr rfl)
  | waits _ hsame hreq =>
    refine ⟨⟨?_, ?_⟩, follow_pollEvents_of_ready (hsame ▸ hwriting) hreads⟩
    · simp [hreq, hnone, hsame, hwriting]
    · rcases hstate with h | h <;> simp [hsame, h]

/-- **A poll follows the protocol.** -/
theorem follow_pollReadable {conn conn' : HttpConn L S} {read : List UInt8} {inline : Bool}
    {events : List ConnEvent} (hok : ConnOk conn)
    (h : pollReadable conn read inline = some (conn', events)) :
    ConnOk conn' ∧
      follow (phaseOf conn.state) (pollEvents conn' events) = some (polledPhase conn') := by
  by_cases hstate : conn.state = .reading ∨ conn.state = .idle
  · have hwriting : conn.state ≠ .writing := by
      rcases hstate with h | h <;> simp [h]
    have hnone : conn.writeReq = none := by
      rw [← Option.not_isSome_iff_eq_none, hok.writeReq_iff]
      exact hwriting
    obtain ⟨dispatched, hread⟩ := pollReadable_cases hstate h
    rw [phaseOf, if_neg hwriting]
    exact follow_onReadable hstate hnone hread
  · rw [pollReadable, if_neg hstate] at h
    cases h
    exact ⟨hok, follow_not_read hok hstate⟩

/-! ### Runs of the server -/

/-- What has happened to one connection. -/
def connTrace (id : ℕ) (trace : List (ℕ × ConnEvent)) : List ConnEvent :=
  trace.filterMap fun e => if e.1 = id then some e.2 else none

theorem connTrace_append (id : ℕ) (trace trace' : List (ℕ × ConnEvent)) :
    connTrace id (trace ++ trace') = connTrace id trace ++ connTrace id trace' :=
  List.filterMap_append

theorem connTrace_named_self (id : ℕ) (events : List ConnEvent) :
    connTrace id (named id events) = events := by
  simp [connTrace, named, List.filterMap_map]

theorem connTrace_named_of_ne {id id' : ℕ} (h : id ≠ id') (events : List ConnEvent) :
    connTrace id' (named id events) = [] := by
  simp [connTrace, named, List.filterMap_map, h]

/-- The phase of a connection of the server. -/
def HttpServer.phase (server : HttpServer L S) (id : ℕ) : ConnPhase :=
  match server.find id with
  | some c => phaseOf c.conn.state
  | none => if id < server.nextId then .closed else .ready

/-- The connections of the server have different names, of those already given. -/
structure ServerOk (server : HttpServer L S) : Prop where
  nodup : KeysNodup ServerConn.id server.connList
  id_lt : ∀ c ∈ server.connList, c.id < server.nextId
  conn_ok : ∀ c ∈ server.connList, ConnOk c.conn

/-- What has happened so far follows the protocol for every connection. -/
def Followed (server : Option (HttpServer L S)) (trace : List (ℕ × ConnEvent)) : Prop :=
  match server with
  | some server =>
    ServerOk server ∧ ∀ id, follow .ready (connTrace id trace) = some (server.phase id)
  | none => ∀ id, ∃ phase, phase ≠ .dispatched ∧ follow .ready (connTrace id trace) = some phase

section Followed

variable {server server' : HttpServer L S} {trace : List (ℕ × ConnEvent)} {c : ServerConn L S}
  {id : ℕ}

theorem phase_ne_dispatched (server : HttpServer L S) (id : ℕ) : server.phase id ≠ .dispatched := by
  rw [HttpServer.phase]
  cases server.find id with
  | none =>
    dsimp only
    split_ifs <;> decide
  | some c =>
    dsimp only [phaseOf]
    split_ifs <;> decide

theorem phase_of_find (h : server.find id = some c) : server.phase id = phaseOf c.conn.state := by
  rw [HttpServer.phase, h]

theorem phase_congr (hfind : server'.find id = server.find id)
    (hlt : id < server'.nextId ↔ id < server.nextId) : server'.phase id = server.phase id := by
  rw [HttpServer.phase, HttpServer.phase, hfind]
  cases server.find id with
  | none => exact if_congr hlt rfl rfl
  | some c => rfl

theorem ServerOk.find_iff (hok : ServerOk server) :
    server.find id = some c ↔ c ∈ server.connList ∧ c.id = id := lookupKey_eq_some_iff hok.nodup

theorem find_set (server : HttpServer L S) (c : ServerConn L S) (id : ℕ) :
    (server.set c).find id = if id = c.id then some c else server.find id := lookupKey_upsert

theorem ServerOk.find_close (hok : ServerOk server) (id id' : ℕ) :
    (server.close id).find id' = if id' = id then none else server.find id' :=
  lookupKey_eraseKey hok.nodup

theorem ServerOk.set (hok : ServerOk server) (hid : c.id < server.nextId) (hc : ConnOk c.conn) :
    ServerOk (server.set c) := by
  have hnodup : KeysNodup ServerConn.id (server.set c).connList := hok.nodup.upsert
  have hmem {d : ServerConn L S} (hd : d ∈ (server.set c).connList) :
      d = c ∨ d ∈ server.connList := by
    have hfind : (server.set c).find d.id = some d := (lookupKey_eq_some_iff hnodup).mpr ⟨hd, rfl⟩
    rw [find_set] at hfind
    split_ifs at hfind
    · exact .inl (Option.some.inj hfind).symm
    · exact .inr (hok.find_iff.mp hfind).1
  refine ⟨hnodup, fun d hd => ?_, fun d hd => ?_⟩
  · rcases hmem hd with rfl | hd
    · exact hid
    · exact hok.id_lt d hd
  · rcases hmem hd with rfl | hd
    · exact hc
    · exact hok.conn_ok d hd

theorem ServerOk.close (hok : ServerOk server) (id : ℕ) : ServerOk (server.close id) where
  nodup := hok.nodup.eraseKey
  id_lt c hc := hok.id_lt c (List.mem_of_mem_eraseP hc)
  conn_ok c hc := hok.conn_ok c (List.mem_of_mem_eraseP hc)

/-- A step that changes one connection, and follows the protocol there. -/
theorem Followed.update (h : Followed (some server) trace) (hok : ServerOk server')
    {events : List ConnEvent}
    (hself : follow (server.phase id) events = some (server'.phase id))
    (hothers : ∀ id', id' ≠ id → server'.phase id' = server.phase id') :
    Followed (some server') (trace ++ named id events) := by
  refine ⟨hok, fun id' => ?_⟩
  rw [connTrace_append, follow_append, h.2 id', Option.bind_some]
  by_cases hid : id' = id
  · subst hid
    rw [connTrace_named_self, hself]
  · rw [connTrace_named_of_ne (Ne.symm hid), hothers id' hid]
    rfl

/-- A connection changes, and follows the protocol. -/
theorem Followed.set (h : Followed (some server) trace) (hfind : server.find id = some c)
    {conn' : HttpConn L S} {lastActiveTs : UInt64} {events : List ConnEvent} (hc : ConnOk conn')
    (hevents : follow (phaseOf c.conn.state) events = some (phaseOf conn'.state)) :
    Followed (some (server.set { c with conn := conn', lastActiveTs := lastActiveTs }))
      (trace ++ named id events) := by
  obtain ⟨hmem, rfl⟩ := h.1.find_iff.mp hfind
  have hok := ServerOk.set (c := { c with conn := conn', lastActiveTs := lastActiveTs }) h.1
    (h.1.id_lt c hmem) hc
  refine h.update hok ?_ fun id' hid' => phase_congr ?_ Iff.rfl
  · rw [phase_of_find hfind, phase_of_find ((find_set ..).trans (if_pos rfl)), hevents]
  · rw [find_set, if_neg hid']

/-- A connection is closed, and follows the protocol. -/
theorem Followed.close (h : Followed (some server) trace) (hfind : server.find id = some c)
    {events : List ConnEvent} (hevents : follow (phaseOf c.conn.state) events = some .closed) :
    Followed (some (server.close id)) (trace ++ named id events) := by
  obtain ⟨hmem, rfl⟩ := h.1.find_iff.mp hfind
  refine h.update (h.1.close c.id) ?_ fun id' hid' => phase_congr ?_ Iff.rfl
  · rw [phase_of_find hfind, hevents, HttpServer.phase, h.1.find_close, if_pos rfl]
    exact congrArg some (if_pos (h.1.id_lt c hmem)).symm
  · rw [h.1.find_close, if_neg hid']

/-- A new connection has a new name. -/
theorem ServerOk.accept_eq (hok : ServerOk server) (now : UInt64)
    (hroom : ¬ server.maxConnections.toNat ≤ server.connList.length) :
    server.accept now =
      { server with nextId := server.nextId + 1 }.set (server.newConn now) := by
  have hnew : (server.newConn now).id ∉ server.connList.map ServerConn.id := by
    intro hmem
    obtain ⟨c, hc, hid⟩ := List.mem_map.mp hmem
    exact (hok.id_lt c hc).ne hid
  rw [HttpServer.accept, if_neg hroom, HttpServer.set, upsert_of_notMem hnew]

theorem ServerOk.accept (hok : ServerOk server) (now : UInt64) : ServerOk (server.accept now) := by
  by_cases hroom : server.maxConnections.toNat ≤ server.connList.length
  · rwa [HttpServer.accept, if_pos hroom]
  rw [hok.accept_eq now hroom]
  have hnext : ServerOk { server with nextId := server.nextId + 1 } :=
    ⟨hok.nodup, fun c hc => Nat.lt_succ_of_lt (hok.id_lt c hc), hok.conn_ok⟩
  exact hnext.set (c := server.newConn now) (Nat.lt_succ_self _)
    ⟨by simp [HttpServer.newConn, httpConnAccept], by simp [HttpServer.newConn, httpConnAccept]⟩

theorem Followed.accept (h : Followed (some server) trace) (now : UInt64) :
    Followed (some (server.accept now)) trace := by
  have hok := h.1.accept now
  by_cases hroom : server.maxConnections.toNat ≤ server.connList.length
  · rwa [HttpServer.accept, if_pos hroom]
  rw [h.1.accept_eq now hroom] at hok ⊢
  have hfresh : server.find server.nextId = none := by
    refine lookupKey_eq_none_iff.mpr fun hmem => ?_
    obtain ⟨c, hc, hid⟩ := List.mem_map.mp hmem
    exact (h.1.id_lt c hc).ne hid
  have hfind : ({ server with nextId := server.nextId + 1 }.set (server.newConn now)).find
      server.nextId = some (server.newConn now) := (find_set ..).trans (if_pos rfl)
  refine ⟨hok, fun id => ?_⟩
  rw [h.2 id]
  by_cases hid : id = server.nextId
  · rw [hid, phase_of_find hfind, HttpServer.phase, hfresh]
    exact congrArg some (if_neg (lt_irrefl _))
  · refine congrArg some (phase_congr ((find_set ..).trans (if_neg hid)) ?_).symm
    show id < server.nextId + 1 ↔ id < server.nextId
    omega

/-- A completed write follows the protocol. -/
theorem follow_writeCompleted {conn : HttpConn L S} (hok : ConnOk conn) :
    ConnOk (writeCompleted conn).1 ∧
      follow (phaseOf conn.state) (writeCompleted conn).2 =
        some (phaseOf (writeCompleted conn).1.state) := by
  rw [writeCompleted]
  split_ifs with hpending
  · obtain ⟨hok', hstate'⟩ := connOk_onWriteComplete conn
    refine ⟨hok', ?_⟩
    rw [phaseOf, if_pos (hok.writeReq_iff.mp hpending), phaseOf, if_neg hstate']
    rfl
  · exact ⟨hok, rfl⟩

theorem Followed.step {server : Option (HttpServer L S)} (h : Followed server trace)
    (op : ServerStep) :
    Followed ((serverMachine L S).step server op).1
      (trace ++ ((serverMachine L S).step server op).2) := by
  rcases server with _ | server
  · simpa only [serverMachine, List.append_nil] using h
  cases op with
  | writeComplete id =>
    rcases hfind : server.find id with _ | c <;> simp only [serverMachine, hfind]
    · simpa only [List.append_nil] using h
    obtain ⟨hok, hevents⟩ := follow_writeCompleted (h.1.conn_ok c (h.1.find_iff.mp hfind).1)
    exact h.set hfind hok hevents
  | accept now => simpa only [serverMachine, List.append_nil] using h.accept now
  | poll id recv inline now =>
    rcases hfind : server.find id with _ | c <;> simp only [serverMachine, hfind]
    · simpa only [List.append_nil] using h
    obtain ⟨hmem, rfl⟩ := h.1.find_iff.mp hfind
    rw [pollConn]
    rcases hpoll : pollReadable c.conn recv.bytes inline with _ | ⟨conn, events⟩
    · rw [List.append_nil]
      exact fun id => ⟨_, phase_ne_dispatched server id, h.2 id⟩
    · obtain ⟨hok, hevents⟩ := follow_pollReadable (h.1.conn_ok c hmem) hpoll
      rw [pollEvents, polledPhase] at hevents
      dsimp only
      split_ifs at hevents ⊢ with hclosing
      · exact h.close hfind hevents
      · exact h.set hfind hok hevents
      · exact h.set hfind hok hevents
  | checkTimeout id now =>
    rcases hfind : server.find id with _ | c <;> simp only [serverMachine, hfind]
    · simpa only [List.append_nil] using h
    split_ifs with htimedOut
    · refine h.close hfind ?_
      rcases htimedOut with ⟨hstate, -⟩ | ⟨hstate, -⟩ <;> rw [hstate] <;> rfl
    · simpa only [List.append_nil] using h
  | timeoutsChecked now =>
    simp only [serverMachine, List.append_nil]
    exact ⟨⟨h.1.nodup, h.1.id_lt, h.1.conn_ok⟩, h.2⟩

end Followed

/-- Every run of the server follows the protocol. -/
theorem followed_run (config : HttpServerConfig) (steps : List ServerStep) :
    Followed ((serverMachine L S).run (some (httpServerCreate L S config)) steps)
      ((serverMachine L S).trace (some (httpServerCreate L S config)) steps) := by
  have hcreate : Followed (some (httpServerCreate L S config)) [] :=
    ⟨⟨keysNodup_nil, fun c hc => absurd hc List.not_mem_nil,
      fun c hc => absurd hc List.not_mem_nil⟩, fun _ => rfl⟩
  exact Machine.trace_invariant (P := Followed) (fun _ _ op h => h.step op) hcreate steps

/-- **One response at a time.** For every run of the server, with writes that complete at once or
later: a connection has a pending write exactly in the state `CONN_WRITING`; no read, dispatch or
close is entered in that state; a dispatch is followed by the close of a connection that is closing,
or by one write, of which the completion comes before anything else on that connection; and every
poll is a run of the server. -/
theorem one_response_in_flight (L : Llhttp) (S : Service) (config : HttpServerConfig)
    (steps : List ServerStep) :
    let final := (serverMachine L S).run (some (httpServerCreate L S config)) steps
    let trace := (serverMachine L S).trace (some (httpServerCreate L S config)) steps
    (∀ server, final = some server →
      (∀ c ∈ server.connList, c.conn.writeReq.isSome ↔ c.conn.state = .writing) ∧
      ∀ inputs, ∃ more, httpServerPoll inputs server = (serverMachine L S).run final more) ∧
    (∀ id e, (id, e) ∈ trace → e.entryState ≠ some .writing) ∧
    ∀ id before state after, connTrace id trace = before ++ .dispatch state :: after →
      after = [.close .closing] ∨ after = [.write] ∨
        ∃ rest, after = .write :: .writeDone :: rest := by
  intro final trace
  have hfollowed : Followed final trace := followed_run config steps
  have hphase (id : ℕ) :
      ∃ phase, phase ≠ .dispatched ∧ follow .ready (connTrace id trace) = some phase := by
    rcases hfinal : final with _ | server <;> rw [hfinal] at hfollowed
    · exact hfollowed id
    · exact ⟨_, phase_ne_dispatched server id, hfollowed.2 id⟩
  refine ⟨fun server hserver => ⟨fun c hc => ?_, fun inputs => ?_⟩, fun id e he => ?_,
    fun id before state after htrace => ?_⟩
  · rw [hserver] at hfollowed
    exact (hfollowed.1.conn_ok c hc).writeReq_iff
  · exact ⟨pollSteps inputs server, by rw [hserver]; rfl⟩
  · obtain ⟨phase, -, hfollow⟩ := hphase id
    exact entryState_of_follow hfollow e (List.mem_filterMap.mpr ⟨(id, e), he, if_pos rfl⟩)
  · obtain ⟨phase, hdone, hfollow⟩ := hphase id
    rw [htrace] at hfollow
    exact follow_dispatch hfollow hdone

/-! ### Clients without data -/

section NoData

variable {server server' : HttpServer L S} {c : ServerConn L S} {id : ℕ}

/-- The step is about an accepted connection, but not this one. -/
def ServerStep.Spares (id : ℕ) : ServerStep → Prop
  | .writeComplete id' | .poll id' _ _ _ | .checkTimeout id' _ => id ≠ id'
  | .timeoutsChecked _ => True
  | .accept _ => False

/-- Steps about other connections. -/
theorem find_step_of_spares (hok : ServerOk server) {op : ServerStep} (hop : op.Spares id)
    (h : ((serverMachine L S).step (some server) op).1 = some server') :
    server'.find id = server.find id := by
  cases op with
  | writeComplete id' =>
    rcases hfind : server.find id' with _ | c <;> simp only [serverMachine, hfind] at h <;> cases h
    · rfl
    · obtain ⟨-, rfl⟩ := hok.find_iff.mp hfind
      rw [find_set, if_neg hop]
  | accept now => exact hop.elim
  | poll id' recv inline now =>
    rcases hfind : server.find id' with _ | c <;> simp only [serverMachine, hfind] at h
    · cases h
      rfl
    obtain ⟨-, rfl⟩ := hok.find_iff.mp hfind
    rw [pollConn] at h
    rcases hpoll : pollReadable c.conn recv.bytes inline with _ | ⟨conn, events⟩ <;>
      rw [hpoll] at h
    · cases h
    · dsimp only at h
      split_ifs at h <;> cases h
      · rw [hok.find_close, if_neg hop]
      · rw [find_set, if_neg hop]
      · rw [find_set, if_neg hop]
  | checkTimeout id' now =>
    rcases hfind : server.find id' with _ | c <;> simp only [serverMachine, hfind] at h
    · cases h
      rfl
    · split_ifs at h <;> cases h
      · rw [hok.find_close, if_neg hop]
      · rfl
  | timeoutsChecked now =>
    cases h
    rfl

/-- The server is reached by a run, and the connection is open and as it was. -/
def Holds (c : ServerConn L S) (server : Option (HttpServer L S)) : Prop :=
  ∃ s trace, server = some s ∧ Followed (some s) trace ∧ s.find c.id = some c

/-- If the server is still running, it is reached by a run, and the connection is closed. -/
def Gone (id : ℕ) (server : Option (HttpServer L S)) : Prop :=
  ∀ s, server = some s → (∃ trace, Followed (some s) trace) ∧ s.find id = none

/-- A connection without a pending write is not affected by what comes before the reads of a
poll. -/
theorem Holds.beforeReads (hreq : c.conn.writeReq = none) {server : Option (HttpServer L S)}
    (h : Holds c server) (inputs : PollInputs) {op : ServerStep} (hop : op ∈ inputs.beforeReads) :
    Holds c ((serverMachine L S).step server op).1 := by
  obtain ⟨s, trace, rfl, hfollowed, hfind⟩ := h
  have hnext := hfollowed.step op
  rcases List.mem_append.mp hop with hop | hop
  · obtain ⟨id', -, rfl⟩ := List.mem_map.mp hop
    rcases hfind' : s.find id' with _ | c' <;> simp only [serverMachine, hfind'] at hnext ⊢
    · exact ⟨s, _, rfl, hnext, hfind⟩
    refine ⟨_, _, rfl, hnext, ?_⟩
    obtain ⟨-, rfl⟩ := hfollowed.1.find_iff.mp hfind'
    rw [find_set]
    split_ifs with hid
    · obtain rfl : c = c' := Option.some.inj (hfind.symm.trans (hid ▸ hfind'))
      simp [writeCompleted, hreq]
    · exact hfind
  · obtain ⟨now, -, rfl⟩ := List.mem_map.mp hop
    refine ⟨_, _, rfl, hnext, ?_⟩
    by_cases hroom : s.maxConnections.toNat ≤ s.connList.length
    · rwa [HttpServer.accept, if_pos hroom]
    · have hid : c.id ≠ (s.newConn now).id :=
        (hfollowed.1.id_lt c (hfollowed.1.find_iff.mp hfind).1).ne
      rw [hfollowed.1.accept_eq now hroom, find_set, if_neg hid]
      exact hfind

/-- A connection from which nothing can be read is closing. -/
theorem pollReadable_nil {conn : HttpConn L S}
    (hstate : conn.state = .reading ∨ conn.state = .idle) (inline : Bool) :
    ∃ conn' events, pollReadable conn [] inline = some (conn', events) ∧
      conn'.state = .closing := by
  rw [pollReadable, if_pos hstate, httpConnOnReadable]
  cases growRecvBuf conn with
  | none => exact ⟨_, _, rfl, rfl⟩
  | some size => exact ⟨_, _, rfl, rfl⟩

/-- A closed connection stays closed. -/
theorem Gone.step {server : Option (HttpServer L S)} (h : Gone id server) {op : ServerStep}
    (hop : ∀ now, op ≠ .accept now) : Gone id ((serverMachine L S).step server op).1 := by
  intro s' hs'
  rcases server with _ | s
  · cases hs'
  obtain ⟨⟨trace, hfollowed⟩, hfind⟩ := h s rfl
  have hnext := hfollowed.step op
  rw [hs'] at hnext
  refine ⟨⟨_, hnext⟩, ?_⟩
  by_cases hspares : op.Spares id
  · rw [find_step_of_spares hfollowed.1 hspares hs', hfind]
  · cases op with
    | accept now => exact absurd rfl (hop now)
    | timeoutsChecked now => exact absurd trivial hspares
    | writeComplete id' | poll id' | checkTimeout id' =>
      obtain rfl : id = id' := not_not.mp hspares
      simp only [serverMachine, hfind] at hs'
      cases hs'
      exact hfind

/-- The read that finds no data closes the connection. -/
theorem Holds.poll {server : Option (HttpServer L S)} (h : Holds c server)
    (hstate : c.conn.state = .reading ∨ c.conn.state = .idle) (inline : Bool) (now : UInt64) :
    Gone c.id ((serverMachine L S).step server (.poll c.id .wouldBlock inline now)).1 := by
  obtain ⟨s, trace, rfl, hfollowed, hfind⟩ := h
  obtain ⟨conn', events, hpoll, hclosing⟩ := pollReadable_nil hstate inline
  have hnext := hfollowed.step (.poll c.id .wouldBlock inline now)
  intro s' hs'
  rw [hs'] at hnext
  refine ⟨⟨_, hnext⟩, ?_⟩
  simp only [serverMachine, hfind, pollConn, RecvResult.bytes, hpoll, if_pos hclosing] at hs'
  cases hs'
  rw [hfollowed.1.find_close, if_pos rfl]

theorem gone_none : Gone id (none : Option (HttpServer L S)) := fun _ h => nomatch h

theorem Gone.run {server : Option (HttpServer L S)} (h : Gone id server) {ops : List ServerStep}
    (hops : ∀ op ∈ ops, ∀ now, op ≠ .accept now) :
    Gone id ((serverMachine L S).run server ops) :=
  Machine.run_invariant (fun _ op hop hgone => hgone.step (hops op hop)) h

/-- The reads of other connections leave the connection alone, if they return. -/
theorem Holds.step_of_spares {server : Option (HttpServer L S)} (h : Holds c server)
    {op : ServerStep} (hop : op.Spares c.id) :
    ((serverMachine L S).step server op).1 = none ∨
      Holds c ((serverMachine L S).step server op).1 := by
  obtain ⟨s, trace, rfl, hfollowed, hfind⟩ := h
  have hnext := hfollowed.step op
  rcases hs' : ((serverMachine L S).step (some s) op).1 with _ | s'
  · exact .inl rfl
  · rw [hs'] at hnext
    exact .inr ⟨s', _, rfl, hnext, (find_step_of_spares hfollowed.1 hop hs').trans hfind⟩

/-- The loop over the connections closes one from which nothing can be read. -/
theorem Holds.reads {server : Option (HttpServer L S)} (h : Holds c server)
    (hstate : c.conn.state = .reading ∨ c.conn.state = .idle) {inputs : PollInputs}
    (hrecv : inputs.recv c.id = .wouldBlock) {conns : List (ServerConn L S)}
    (hmem : ∃ d ∈ conns, d.id = c.id) :
    Gone c.id ((serverMachine L S).run server (conns.map fun d =>
      .poll d.id (inputs.recv d.id) (inputs.inline d.id) (inputs.readTime d.id))) := by
  have hpolls (conns : List (ServerConn L S)) : ∀ op ∈ conns.map fun d => ServerStep.poll d.id
      (inputs.recv d.id) (inputs.inline d.id) (inputs.readTime d.id), ∀ now, op ≠ .accept now := by
    intro op hop now
    obtain ⟨d, -, rfl⟩ := List.mem_map.mp hop
    exact nofun
  induction conns generalizing server with
  | nil =>
    obtain ⟨d, hd, -⟩ := hmem
    exact absurd hd List.not_mem_nil
  | cons d conns ih =>
    rw [List.map_cons, Machine.run_cons]
    by_cases hd : d.id = c.id
    · rw [hd, hrecv]
      exact (h.poll hstate _ _).run (hpolls conns)
    · have hspares : ServerStep.Spares c.id (.poll d.id (inputs.recv d.id) (inputs.inline d.id)
          (inputs.readTime d.id)) := Ne.symm hd
      rcases h.step_of_spares hspares with hhang | hholds
      · rw [hhang]
        exact gone_none.run (hpolls conns)
      · refine ih hholds ?_
        obtain ⟨d', hd', hid⟩ := hmem
        rcases List.mem_cons.mp hd' with rfl | hd'
        · exact absurd hid hd
        · exact ⟨d', hd', hid⟩

theorem ne_accept_of_mem_timeouts {inputs : PollInputs} {op : ServerStep}
    (hop : op ∈ inputs.timeouts server) (now : UInt64) : op ≠ .accept now := by
  rw [PollInputs.timeouts] at hop
  split_ifs at hop
  · rcases List.mem_append.mp hop with hop | hop
    · obtain ⟨d, -, rfl⟩ := List.mem_map.mp hop
      exact nofun
    · rw [List.mem_singleton.mp hop]
      exact nofun
  · exact absurd hop List.not_mem_nil

/-- A poll that finds no data on a connection closes it. -/
theorem gone_httpServerPoll {trace : List (ℕ × ConnEvent)} (h : Followed (some server) trace)
    (hc : c ∈ server.connList) (hstate : c.conn.state = .reading ∨ c.conn.state = .idle)
    {inputs : PollInputs} (hrecv : inputs.recv c.id = .wouldBlock) :
    Gone c.id (httpServerPoll inputs server) := by
  have hreq : c.conn.writeReq = none := by
    rw [← Option.not_isSome_iff_eq_none, (h.1.conn_ok c hc).writeReq_iff]
    rcases hstate with hstate | hstate <;> simp [hstate]
  have hfind : server.find c.id = some c := h.1.find_iff.mpr ⟨hc, rfl⟩
  have haccepted : Holds c ((serverMachine L S).run (some server) inputs.beforeReads) :=
    Machine.run_invariant (P := Holds c) (fun _ op hop hs => hs.beforeReads hreq inputs hop)
      ⟨server, trace, rfl, h, hfind⟩
  obtain ⟨s, trace', hs, hfollowed, hfind'⟩ := haccepted
  have hread : Gone c.id ((serverMachine L S).run (some s) (inputs.reads s)) :=
    Holds.reads ⟨s, trace', rfl, hfollowed, hfind'⟩ hstate hrecv
      ⟨c, (hfollowed.1.find_iff.mp hfind').1, rfl⟩
  rw [httpServerPoll, pollSteps, Machine.run_append, Machine.run_append, hs]
  refine hread.run fun op hop now => ?_
  rcases hs' : (serverMachine L S).run (some s) (inputs.reads s) with _ | s'
  · simp only [Option.elim_some, hs', Option.elim_none] at hop
    exact absurd hop List.not_mem_nil
  · simp only [Option.elim_some, hs'] at hop
    exact ne_accept_of_mem_timeouts hop now

end NoData

/-- **Clients without data are not waited for.** For every server that a run reaches, and a
connection that reads or is idle and from which `spdk_sock_recv` returns `EAGAIN` in a poll: unless
it has been idle for longer than its timeout, it stays open with the same buffer and parser, if and
only if it has been idle for longer than its timeout. -/
theorem no_data_closes_iff (L : Llhttp) (S : Service) (config : HttpServerConfig)
    (steps : List ServerStep) {server server' : HttpServer L S} {c : ServerConn L S}
    (hserver : (serverMachine L S).run (some (httpServerCreate L S config)) steps = some server)
    (hc : c ∈ server.connList) (hstate : c.conn.state = .reading ∨ c.conn.state = .idle)
    (inputs : PollInputs) (hrecv : inputs.recv c.id = .wouldBlock)
    (hpoll : httpServerPoll inputs server = some server') :
    (¬ server.timedOut c inputs.checkTime →
      ∃ c' ∈ server'.connList, c'.id = c.id ∧ c'.conn.recvBuf = c.conn.recvBuf ∧
        c'.conn.parserCtx = c.conn.parserCtx) ↔
      server.timedOut c inputs.checkTime := by
  have hfollowed : Followed (some server) _ := hserver ▸ followed_run config steps
  constructor
  · intro hopen
    by_contra htimedOut
    obtain ⟨c', hc', hid, -⟩ := hopen htimedOut
    obtain ⟨-, hgone⟩ := gone_httpServerPoll hfollowed hc hstate hrecv server' hpoll
    exact lookupKey_eq_none_iff.mp hgone (hid ▸ List.mem_map_of_mem hc')
  · intro htimedOut hnot
    exact absurd htimedOut hnot

/-- A server with one connection, accepted at the time 0. -/
def oneConnServer : HttpServer getLlhttp emptyService :=
  (httpServerCreate getLlhttp emptyService ⟨0, 0, 0, 0⟩).accept 0

/-- A poll at some time that finds no data anywhere. -/
def emptyPoll (now : UInt64) : PollInputs where
  completed := []
  accepted := []
  recv _ := .wouldBlock
  inline _ := false
  readTime _ := now
  now := now
  checkTime := now

/-- A server with one connection, on which the beginning of a request arrived at the time 1. -/
def begunServer : HttpServer getLlhttp emptyService :=
  oneConnServer.set ⟨0, { httpConnAccept getLlhttp emptyService (64 * 1024 * 1024) with
    parserCtx := (httpParserFeed (httpParserInit getLlhttp (64 * 1024 * 1024))
      (getRoot.take 3)).elim (httpParserInit getLlhttp 0) Prod.fst
    recvBuf := getRoot.take 3 }, 1⟩

/-- The connection has been idle for 31 seconds, with the beginning of a request in its buffer. -/
theorem no_data_closes_iff_timed_out :
    ∃ c ∈ begunServer.connList, c.conn.recvBuf = getRoot.take 3 ∧ begunServer.timedOut c 31001 ∧
      ∃ server', httpServerPoll (emptyPoll 31001) begunServer = some server' ∧
        ((¬ begunServer.timedOut c 31001 → ∃ c' ∈ server'.connList, c'.id = c.id ∧
            c'.conn.recvBuf = c.conn.recvBuf ∧ c'.conn.parserCtx = c.conn.parserCtx) ↔
          begunServer.timedOut c 31001) :=
  ⟨_, List.mem_cons_self, rfl, .inl ⟨rfl, by decide⟩, _, rfl,
    no_data_closes_iff getLlhttp emptyService ⟨0, 0, 0, 0⟩
      [.accept 0, .poll 0 (.data (getRoot.take 3)) false 1] rfl List.mem_cons_self (.inl rfl)
      (emptyPoll 31001) rfl rfl⟩

/-- A connection is accepted at the time 0 and closed by a poll one millisecond later, which finds
that no data has arrived. -/
theorem no_data_closes_at_once :
    let c := (httpServerCreate getLlhttp emptyService ⟨0, 0, 0, 0⟩).newConn 0
    c ∈ oneConnServer.connList ∧ ¬ oneConnServer.timedOut c 1 ∧
    (httpServerPoll (emptyPoll 1) oneConnServer).map (·.connList.length) = some 0 := by
  refine ⟨List.mem_cons_self, by decide, by decide⟩

end LightFS.Access
