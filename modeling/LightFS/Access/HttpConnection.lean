import Mathlib.Data.List.ReduceOption
import LightFS.Access.HttpParser
import LightFS.Library.Machine

/-!
# An HTTP connection

A connection of the HTTP server (`src/access/http_server.c`): bytes that are read are appended to
the receive buffer, the whole buffer is fed to the parser, the bytes the parser reports as
consumed are dropped, and a complete request is dispatched. The response is written
asynchronously; when the write is done a connection that is kept alive reads on.

Each call returns what it does (`ConnEvent`): the calls it makes, with the state of the connection
when they are entered, in their order.

What happens to a dispatched request (routing, authentication, the handlers of the operations) and
how a response is serialized is a parameter (`Service`). The receive buffer is modelled by its
`recv_len` bytes. The time of the last activity is read by the time-outs only and left out.

## Main definitions

* `Service`, `DispatchedRequest`, `ConnState`, `HttpConn`.
* `ConnEvent` — what a connection does.
* `httpConnAccept`, `httpConnOnWriteDone`, `onWriteComplete`, `connWriteResponse`,
  `httpConnDispatch`, `httpConnOnReadable`.
* `connMachine` — one read after the other, every write completing in between.
* `dispatched` — the requests a connection dispatches.
-/

namespace LightFS.Access

open Library

/-- What `http_conn_dispatch` is given of a request: the method, the URI, the headers and the
body. -/
structure DispatchedRequest where
  method : CharArray (httpMethodMax - 1)
  uri : CharArray (httpMaxUri - 1)
  headers : List (CharArray s3MaxHeaderLength × CharArray s3MaxHeaderLength)
  body : List UInt8
deriving DecidableEq

/-- The code behind the connection. -/
structure Service where
  Response : Type
  Wire : Type
  /-- The response to bytes that are not HTTP. -/
  parseError : Response
  /-- `s3_route_parse`, `sigv4_validate` and the handler of the operation: the fields they leave
  in the request and the response. -/
  respond : S3Request → DispatchedRequest → S3Request × Response
  /-- `http_response_serialize`, and the allocation of the write request. -/
  serialize : Response → Bool → Option Wire

/-- `conn_state_t`. -/
inductive ConnState where
  | idle
  | reading
  | dispatching
  | writing
  | closing
deriving DecidableEq

/-- `http_conn_t`. -/
structure HttpConn (L : Llhttp) (S : Service) where
  parserCtx : HttpParserCtx L
  recvBuf : List UInt8
  recvBufSize : ℕ
  state : ConnState
  writeReq : Option S.Wire

variable {L : Llhttp} {S : Service}

/-- The connection `http_conn_accept` makes. -/
def httpConnAccept (L : Llhttp) (S : Service) (maxRequestBody : UInt32) : HttpConn L S where
  parserCtx := httpParserInit L maxRequestBody
  recvBuf := []
  recvBufSize := 65536
  state := .reading
  writeReq := none

/-! ### What a connection does -/

/-- What a connection does. Calls are reported with the state of the connection at their entry. -/
inductive ConnEvent where
  /-- `http_conn_on_readable` is called. -/
  | readable (state : ConnState)
  /-- `on_message_complete` is called. -/
  | messageComplete
  /-- `http_conn_dispatch` is called. -/
  | dispatch (state : ConnState)
  /-- `spdk_sock_writev_async` is called. -/
  | write
  /-- `on_write_complete` is called. -/
  | writeDone
  /-- `http_conn_close` is called. -/
  | close (state : ConnState)
deriving DecidableEq

/-- The callbacks llhttp makes for a buffer: it stops at the first that fails. -/
def callbacksMade : HttpParserCtx L → List LlhttpEvent → List LlhttpEvent
  | _, [] => []
  | ctx, e :: rest =>
    match callback ctx e with
    | some (ctx, true) => e :: callbacksMade ctx rest
    | _ => [e]

/-- The callbacks llhttp makes in `http_parser_feed`. -/
def feedCallbacks (ctx : HttpParserCtx L) (data : List UInt8) : List LlhttpEvent :=
  let run := L.parser.execute ctx.parser data
  callbacksMade { ctx with parser := run.state } (joinSpans run.events)

/-- The messages that are completed in `http_parser_feed`. -/
def completedMessages (ctx : HttpParserCtx L) (data : List UInt8) : List ConnEvent :=
  ((feedCallbacks ctx data).filter (·.isMessageComplete)).map fun _ => .messageComplete

/-! ### Writes -/

/-- `http_conn_on_write_done`. The error of the write is not looked at. -/
def httpConnOnWriteDone (conn : HttpConn L S) : HttpConn L S :=
  if conn.parserCtx.request.keepAlive ∧ conn.state ≠ .closing then
    { conn with parserCtx := httpParserReset conn.parserCtx, state := .reading }
  else { conn with state := .closing }

/-- `on_write_complete`. -/
def onWriteComplete (conn : HttpConn L S) : HttpConn L S :=
  httpConnOnWriteDone { conn with writeReq := none }

/-- `spdk_sock_writev_async`, for a write that completes inside the call or at a later time. -/
def sockWritevAsync (conn : HttpConn L S) (inline : Bool) : HttpConn L S × List ConnEvent :=
  if inline then (onWriteComplete conn, [.write, .writeDone]) else (conn, [.write])

/-- `conn_write_response`. -/
def connWriteResponse (conn : HttpConn L S) (response : S.Response) (inline : Bool) :
    HttpConn L S × List ConnEvent :=
  match S.serialize response conn.parserCtx.request.keepAlive with
  | none => ({ conn with state := .closing }, [])
  | some wire => sockWritevAsync { conn with writeReq := some wire, state := .writing } inline

/-- The request in a parser context. -/
def HttpParserCtx.dispatchedRequest (ctx : HttpParserCtx L) : DispatchedRequest where
  method := ctx.request.method
  uri := ctx.request.uri
  headers := ctx.headers
  body := (ctx.request.body.getD []).take ctx.request.bodyLen

/-- `http_conn_dispatch`: the connection, the request that was dispatched and the events. -/
def httpConnDispatch (conn : HttpConn L S) (inline : Bool) :
    HttpConn L S × DispatchedRequest × List ConnEvent :=
  let entered := ConnEvent.dispatch conn.state
  let dispatched := conn.parserCtx.dispatchedRequest
  let (s3, response) := S.respond conn.parserCtx.request.s3 dispatched
  let conn := { conn with
    state := .dispatching
    parserCtx := { conn.parserCtx with request := { conn.parserCtx.request with s3 := s3 } } }
  let (conn, events) := connWriteResponse conn response inline
  (conn, dispatched, entered :: events)

/-! ### Reads -/

/-- The free space of the receive buffer, a `uint32_t`. -/
def HttpConn.space (conn : HttpConn L S) : ℕ :=
  (2 ^ 32 + conn.recvBufSize - conn.recvBuf.length % 2 ^ 32) % 2 ^ 32

/-- The size of the receive buffer for the next read; `none` when `realloc` is asked for no
memory and returns a null pointer. -/
def growRecvBuf (conn : HttpConn L S) : Option ℕ :=
  if conn.space < 4096 then
    if conn.recvBufSize * 2 % 2 ^ 32 = 0 then none else some (conn.recvBufSize * 2 % 2 ^ 32)
  else some conn.recvBufSize

/-- `http_conn_on_readable`, with the bytes `spdk_sock_recv` returns, none of them for an error or
the end of the stream: the connection, the request that was dispatched, if any, and the events;
`none` when the call does not return. The socket layer returns at most as many bytes as the buffer
has room for; longer reads are not excluded here (`LightFS.Access.ConnectionMemory` has the
bound). -/
def httpConnOnReadable (conn : HttpConn L S) (read : List UInt8) (inline : Bool) :
    Option (HttpConn L S × Option DispatchedRequest × List ConnEvent) :=
  let entered := ConnEvent.readable conn.state
  match growRecvBuf conn with
  | none => some ({ conn with state := .closing }, none, [entered])
  | some size =>
    if read = [] then some ({ conn with recvBufSize := size, state := .closing }, none, [entered])
    else
      let recvBuf := conn.recvBuf ++ read
      let entered := entered :: completedMessages conn.parserCtx recvBuf
      match httpParserFeed conn.parserCtx recvBuf with
      | none => none
      | some (ctx, result) =>
        if result < 0 then
          let ctx := { ctx with request := { ctx.request with keepAlive := false } }
          let conn := { conn with parserCtx := ctx, recvBuf := recvBuf, recvBufSize := size }
          let (conn, events) := connWriteResponse conn S.parseError inline
          some (conn, none, entered ++ events)
        else
          let conn := { conn with
            parserCtx := ctx
            recvBuf := recvBuf.drop result.toNat
            recvBufSize := size }
          if ctx.request.complete then
            let (conn, dispatched, events) := httpConnDispatch conn inline
            some (conn, some dispatched, entered ++ events)
          else some (conn, none, entered)

/-! ### What the calls can do -/

/-- What `conn_write_response` can do: no memory, a write that completes later, or one that
completes at once. -/
inductive WriteResponseOutcome (conn : HttpConn L S) :
    HttpConn L S → List ConnEvent → Prop where
  | fails : WriteResponseOutcome conn { conn with state := .closing } []
  | writes (wire : S.Wire) :
      WriteResponseOutcome conn { conn with writeReq := some wire, state := .writing } [.write]
  | completes (wire : S.Wire) :
      WriteResponseOutcome conn
        (onWriteComplete { conn with writeReq := some wire, state := .writing })
        [.write, .writeDone]

theorem outcome_connWriteResponse (conn : HttpConn L S) (response : S.Response)
    (inline : Bool) :
    WriteResponseOutcome conn (connWriteResponse conn response inline).1
      (connWriteResponse conn response inline).2 := by
  rw [connWriteResponse]
  split
  · exact .fails
  · rename_i wire _
    cases inline with
    | false => exact .writes wire
    | true => exact .completes wire

/-- `http_conn_dispatch` is entered, and answers. -/
theorem outcome_httpConnDispatch (conn : HttpConn L S) (inline : Bool) :
    ∃ conn₀ events, conn₀.writeReq = conn.writeReq ∧
      (httpConnDispatch conn inline).2.2 = .dispatch conn.state :: events ∧
      WriteResponseOutcome conn₀ (httpConnDispatch conn inline).1 events := by
  refine ⟨_, _, ?_, ?_, outcome_connWriteResponse
    { conn with
      state := .dispatching
      parserCtx := { conn.parserCtx with request := { conn.parserCtx.request with
        s3 := (S.respond conn.parserCtx.request.s3 conn.parserCtx.dispatchedRequest).1 } } }
    (S.respond conn.parserCtx.request.s3 conn.parserCtx.dispatchedRequest).2 inline⟩
  · rfl
  · rfl

/-- The four ways in which `http_conn_on_readable` returns. -/
inductive ReadableOutcome (conn : HttpConn L S) (read : List UInt8) (inline : Bool) :
    HttpConn L S → Option DispatchedRequest → List ConnEvent → Prop where
  /-- There is no memory or nothing was read. -/
  | closes (conn' : HttpConn L S) (hstate : conn'.state = .closing)
      (hreq : conn'.writeReq = conn.writeReq) :
      ReadableOutcome conn read inline conn' none [.readable conn.state]
  /-- The bytes are not HTTP. -/
  | fails (conn' : HttpConn L S) (hreq : conn'.writeReq = conn.writeReq) :
      ReadableOutcome conn read inline (connWriteResponse conn' S.parseError inline).1 none
        (.readable conn.state :: completedMessages conn.parserCtx (conn.recvBuf ++ read) ++
          (connWriteResponse conn' S.parseError inline).2)
  /-- The request is complete. -/
  | dispatches (conn' : HttpConn L S) (result : ℤ) (hstate : conn'.state = conn.state)
      (hreq : conn'.writeReq = conn.writeReq) (hread : read ≠ [])
      (hfeed : httpParserFeed conn.parserCtx (conn.recvBuf ++ read) =
        some (conn'.parserCtx, result))
      (hresult : 0 ≤ result) (hcomplete : conn'.parserCtx.request.complete = true) :
      ReadableOutcome conn read inline (httpConnDispatch conn' inline).1
        (some (httpConnDispatch conn' inline).2.1)
        (.readable conn.state :: completedMessages conn.parserCtx (conn.recvBuf ++ read) ++
          (httpConnDispatch conn' inline).2.2)
  /-- The request is not complete. -/
  | waits (conn' : HttpConn L S) (hstate : conn'.state = conn.state)
      (hreq : conn'.writeReq = conn.writeReq)
      (hcomplete : conn'.parserCtx.request.complete = false) :
      ReadableOutcome conn read inline conn' none
        (.readable conn.state :: completedMessages conn.parserCtx (conn.recvBuf ++ read))

theorem readableOutcome_of_eq_some {conn conn' : HttpConn L S} {read : List UInt8} {inline : Bool}
    {dispatched : Option DispatchedRequest} {events : List ConnEvent}
    (h : httpConnOnReadable conn read inline = some (conn', dispatched, events)) :
    ReadableOutcome conn read inline conn' dispatched events := by
  rw [httpConnOnReadable] at h
  rcases hgrow : growRecvBuf conn with _ | size <;> rw [hgrow] at h
  · cases h
    exact .closes _ rfl rfl
  dsimp only at h
  split_ifs at h with hread
  · cases h
    exact .closes _ rfl rfl
  rcases hfeed : httpParserFeed conn.parserCtx (conn.recvBuf ++ read) with _ | ⟨ctx, result⟩ <;>
    rw [hfeed] at h
  · cases h
  dsimp only at h
  split_ifs at h with hresult hcomplete
  · cases h
    exact .fails _ rfl
  · cases h
    exact .dispatches _ result rfl rfl hread hfeed (not_lt.mp hresult) hcomplete
  · cases h
    exact .waits _ rfl rfl (Bool.eq_false_of_not_eq_true hcomplete)

/-- A pending write completes. -/
def completeWrite (conn : HttpConn L S) : HttpConn L S :=
  if conn.state = .writing then onWriteComplete conn else conn

/-- A connection reads, and its writes complete before the next read. `http_server_poll` reads
from connections in the states `CONN_READING` and `CONN_IDLE`. -/
def connMachine (L : Llhttp) (S : Service) :
    Machine (Option (HttpConn L S)) (List UInt8) (Option DispatchedRequest) where
  step
    | none, _ => (none, none)
    | some conn, read =>
      if conn.state = .reading ∨ conn.state = .idle then
        match httpConnOnReadable conn read false with
        | none => (none, none)
        | some (conn, dispatched, _) => (some (completeWrite conn), dispatched)
      else (some conn, none)

/-- The requests a connection dispatches, when these bytes are read one after the other. -/
def dispatched (conn : HttpConn L S) (reads : List (List UInt8)) : List DispatchedRequest :=
  ((connMachine L S).results (some conn) reads).reduceOption

/-- A read dispatches at most one request. -/
theorem length_results_reduceOption_le (conn : Option (HttpConn L S)) (reads : List (List UInt8)) :
    ((connMachine L S).results conn reads).reduceOption.length ≤ reads.length := by
  refine (List.reduceOption_length_le _).trans (le_of_eq ?_)
  induction reads generalizing conn with
  | nil => rfl
  | cons read reads ih => exact congrArg Nat.succ (ih _)

end LightFS.Access
