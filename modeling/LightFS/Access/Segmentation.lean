import LightFS.Access.HttpConnection

/-!
# How a stream of requests is cut into reads

A stream of requests arrives in reads of any sizes. The connection should dispatch the same
requests as if each of them arrived in a read of its own. It does when each read completes the
next request (`EachReadCompletes`): `http_conn_on_readable` dispatches at most one request, and
it feeds bytes of an incomplete request a second time, because `http_parser_feed` reports them as
not consumed.

## Main definitions

* `IsRequest` — the bytes of one request, within the limit on its body.
* `requestsOf` — what a parser context makes of requests that are fed to it whole.
* `EachReadCompletes` — every read ends in or behind the next request.

## Main results

* `step_of_request`, `step_of_prefix` — a read that completes a request, and one that does not.
* `dispatched_cut_eq_whole`.
-/

namespace LightFS.Access

open Library

variable {L : Llhttp} {S : Service}

/-- The bytes of one request: its first byte starts a message, which its last byte completes; the
connection is kept alive, and the body is within the limit. -/
structure IsRequest (L : Llhttp) (maxBodySize : UInt32) (request : List UInt8) : Prop where
  begins : ∃ b rest state events, request = b :: rest ∧
    L.step L.init b = .ok (state, .messageBegin :: events)
  completes : L.parser.Completes L.init request
  message : IsMessage (L.callbacks request)
  body_le : bodyLength (L.callbacks request) ≤ maxBodySize.toNat
  body_le_length : bodyLength (L.callbacks request) ≤ request.length

/-- The context after the callbacks of a request. -/
def received (ctx : HttpParserCtx L) (request : List UInt8) : HttpParserCtx L :=
  ((deliver { ctx with parser := (L.parser.execute L.init request).state }
    (L.callbacks request)).map Prod.fst).getD ctx

/-- The context when the response to a request has been written. -/
def afterRequest (S : Service) (ctx : HttpParserCtx L) (request : List UInt8) : HttpParserCtx L :=
  let ctx := received ctx request
  httpParserReset
    { ctx with
      request := { ctx.request with s3 := (S.respond ctx.request.s3 ctx.dispatchedRequest).1 } }

/-- The requests dispatched when each is fed whole to the parser. -/
def requestsOf (S : Service) : HttpParserCtx L → List (List UInt8) → List DispatchedRequest
  | _, [] => []
  | ctx, request :: requests =>
    (received ctx request).dispatchedRequest :: requestsOf S (afterRequest S ctx request) requests

@[simp] theorem length_requestsOf (ctx : HttpParserCtx L) (requests : List (List UInt8)) :
    (requestsOf S ctx requests).length = requests.length := by
  induction requests generalizing ctx with
  | nil => rfl
  | cons request requests ih => exact congrArg Nat.succ (ih _)

/-- The bytes the receive buffer holds without its size leaving `uint32_t`. -/
abbrev recvLimit : ℕ := 2 ^ 31 - 4096

/-- Every read completes the next request of the stream, with `buffered` bytes read before; and
the buffer stays within its limit. -/
def EachReadCompletes : ℕ → List (List UInt8) → List (List UInt8) → Prop
  | _, [], [] => True
  | buffered, read :: reads, request :: requests =>
    request.length ≤ buffered + read.length ∧ buffered + read.length ≤ recvLimit ∧
      EachReadCompletes (buffered + read.length - request.length) reads requests
  | _, _, _ => False

/-! ### One read -/

/-- The sizes of a receive buffer that is doubled from 65536 on. -/
def SizeOk (size : ℕ) : Prop := ∃ k, 16 ≤ k ∧ k ≤ 31 ∧ size = 2 ^ k

/-- The connection waits for the first byte of a request, or holds bytes it has not fed yet. -/
structure Ready (conn : HttpConn L S) : Prop where
  state_eq : conn.state = .reading
  parser_eq : conn.parserCtx.parser = L.init
  size_ok : SizeOk conn.recvBufSize
  writeReq_eq : conn.writeReq = none

/-- A buffer that is not over its limit can be doubled when it is nearly full. -/
theorem growRecvBuf_spec {conn : HttpConn L S} (hsize : SizeOk conn.recvBufSize)
    (hlen : conn.recvBuf.length ≤ recvLimit) :
    ∃ size, growRecvBuf conn = some size ∧ SizeOk size := by
  obtain ⟨k, hk, hk', hsize⟩ := hsize
  have hlimit : recvLimit = 2147479552 := rfl
  rw [growRecvBuf, HttpConn.space, hsize]
  by_cases hspace : (2 ^ 32 + 2 ^ k - conn.recvBuf.length % 2 ^ 32) % 2 ^ 32 < 4096
  · have hk₃₀ : k ≤ 30 := by
      by_contra hlt
      obtain rfl : k = 31 := by omega
      omega
    have hdouble : 2 ^ k * 2 % 2 ^ 32 = 2 ^ (k + 1) := by
      have hle : 2 ^ k ≤ 2 ^ 30 := Nat.pow_le_pow_right (by omega) hk₃₀
      rw [Nat.mod_eq_of_lt (by omega), Nat.pow_succ]
    rw [if_pos hspace, hdouble, if_neg (Nat.two_pow_pos _).ne']
    exact ⟨_, rfl, k + 1, by omega, by omega, rfl⟩
  · rw [if_neg hspace]
    exact ⟨2 ^ k, rfl, k, hk, hk', rfl⟩

/-- What the callbacks of a request leave. -/
theorem deliver_received {ctx : HttpParserCtx L} {request : List UInt8}
    (hrequest : IsRequest L ctx.maxBodySize request) (hlen : request.length ≤ recvLimit) :
    deliver { ctx with parser := (L.parser.execute L.init request).state } (L.callbacks request) =
      some (received ctx request, true) ∧
    (received ctx request).request.complete = true ∧
    (received ctx request).request.keepAlive = true ∧
    (received ctx request).maxBodySize = ctx.maxBodySize := by
  have hlimit : recvLimit = 2147479552 := rfl
  have hbody := hrequest.body_le_length
  obtain ⟨ctx', hdeliver, hcomplete, halive, hmax⟩ := deliver_isMessage
    { ctx with parser := (L.parser.execute L.init request).state } hrequest.message
    hrequest.body_le (by omega)
  have hreceived : received ctx request = ctx' := by
    rw [received, hdeliver]
    rfl
  rw [hreceived]
  exact ⟨hdeliver, hcomplete, halive, hmax⟩

/-- A request that is fed whole is consumed, whatever follows it. -/
theorem httpParserFeed_request {ctx : HttpParserCtx L} {request : List UInt8}
    (hparser : ctx.parser = L.init) (hrequest : IsRequest L ctx.maxBodySize request)
    (hlen : request.length ≤ recvLimit) (rest : List UInt8) :
    httpParserFeed ctx (request ++ rest) = some (received ctx request, (request.length : ℤ)) := by
  have hlimit : recvLimit = 2147479552 := rfl
  have hint : toInt32 request.length = request.length := by
    rw [toInt32, Nat.mod_eq_of_lt (by omega), if_pos (by omega)]
  have hdeliver := (deliver_received hrequest hlen).1
  rw [Llhttp.callbacks] at hdeliver
  simp only [httpParserFeed, hparser, hrequest.completes.execute_append, hdeliver,
    hrequest.completes.1, hrequest.completes.2, hint]

/-- A dispatch whose response is written leaves a connection that reads on. -/
theorem completeWrite_httpConnDispatch {conn : HttpConn L S}
    (hwrite : ∀ response, (S.serialize response true).isSome)
    (halive : conn.parserCtx.request.keepAlive = true) :
    completeWrite (httpConnDispatch conn false).1 =
      { conn with
        parserCtx := httpParserReset
          { conn.parserCtx with
            request := { conn.parserCtx.request with
              s3 := (S.respond conn.parserCtx.request.s3 conn.parserCtx.dispatchedRequest).1 } }
        state := .reading
        writeReq := none } := by
  obtain ⟨wire, hwire⟩ := Option.isSome_iff_exists.mp (hwrite (S.respond
    conn.parserCtx.request.s3 conn.parserCtx.dispatchedRequest).2)
  simp only [httpConnDispatch, connWriteResponse, sockWritevAsync, halive, hwire]
  simp [completeWrite, onWriteComplete, httpConnOnWriteDone]

/-- A read after which the parser has consumed the first `n` bytes of the buffer and a request is
complete. -/
theorem httpConnOnReadable_of_feed {conn : HttpConn L S} {read : List UInt8} {size n : ℕ}
    {ctx : HttpParserCtx L} (hgrow : growRecvBuf conn = some size) (hread : read ≠ [])
    (hfeed : httpParserFeed conn.parserCtx (conn.recvBuf ++ read) = some (ctx, (n : ℤ)))
    (hcomplete : ctx.request.complete = true) (inline : Bool) :
    httpConnOnReadable conn read inline =
      let (conn', dispatched, events) := httpConnDispatch { conn with
        parserCtx := ctx
        recvBuf := (conn.recvBuf ++ read).drop n
        recvBufSize := size } inline
      some (conn', some dispatched,
        .readable conn.state :: completedMessages conn.parserCtx (conn.recvBuf ++ read) ++
          events) := by
  have hnonneg : ¬ ((n : ℤ) < 0) := by omega
  simp only [httpConnOnReadable, hgrow, if_neg hread, hfeed, if_neg hnonneg, Int.toNat_natCast,
    hcomplete, if_true]

/-- **A read that completes a request** dispatches it; the connection is ready for the next one
and has kept the bytes that follow. -/
theorem step_of_request {conn : HttpConn L S} {read request rest : List UInt8}
    (hwrite : ∀ response, (S.serialize response true).isSome) (hready : Ready conn)
    (hrequest : IsRequest L conn.parserCtx.maxBodySize request) (hread : read ≠ [])
    (hbuf : conn.recvBuf ++ read = request ++ rest)
    (hlen : (conn.recvBuf ++ read).length ≤ recvLimit) :
    ∃ conn' : HttpConn L S, (connMachine L S).step (some conn) read =
        (some conn', some (received conn.parserCtx request).dispatchedRequest) ∧
      Ready conn' ∧ conn'.parserCtx = afterRequest S conn.parserCtx request ∧
      conn'.recvBuf = rest := by
  have hlength : request.length + rest.length ≤ recvLimit := by
    rw [← List.length_append, ← hbuf]
    exact hlen
  rw [List.length_append] at hlen
  obtain ⟨size, hgrow, hsize⟩ := growRecvBuf_spec hready.size_ok (by omega)
  obtain ⟨-, hcomplete, halive, -⟩ := deliver_received hrequest (by omega)
  have hfeed := httpParserFeed_request hready.parser_eq hrequest (by omega) rest
  rw [← hbuf] at hfeed
  have hreadable := httpConnOnReadable_of_feed hgrow hread hfeed hcomplete false
  rw [hbuf, List.drop_left] at hreadable
  refine ⟨⟨afterRequest S conn.parserCtx request, rest, size, .reading, none⟩, ?_,
    ⟨rfl, rfl, hsize, rfl⟩, rfl, rfl⟩
  simp only [connMachine, hready.state_eq, true_or, if_true, hreadable]
  rw [completeWrite_httpConnDispatch hwrite halive]
  rfl

theorem maxBodySize_afterRequest {ctx : HttpParserCtx L} {request : List UInt8}
    (hrequest : IsRequest L ctx.maxBodySize request) (hlen : request.length ≤ recvLimit) :
    (afterRequest S ctx request).maxBodySize = ctx.maxBodySize :=
  (deliver_received hrequest hlen).2.2.2

/-! ### A read that completes no request -/

theorem joinSpans_messageBegin (events : List LlhttpEvent) :
    joinSpans (.messageBegin :: events) = .messageBegin :: joinSpans events := by
  rw [joinSpans]
  cases joinSpans events with
  | nil => rfl
  | cons e joined => rfl

theorem LlhttpEvent.join_isMessageComplete {e e' whole : LlhttpEvent} (h : e.join e' = some whole) :
    whole.isMessageComplete = false := by
  unfold LlhttpEvent.join at h
  split at h <;> first | (cases h; rfl) | cases h

theorem joinSpans_isMessageComplete {events : List LlhttpEvent}
    (h : ∀ e ∈ events, e.isMessageComplete = false) :
    ∀ e ∈ joinSpans events, e.isMessageComplete = false := by
  induction events with
  | nil => exact h
  | cons e events ih =>
    have hrest := ih fun e he => h e (List.mem_cons_of_mem _ he)
    rw [joinSpans]
    cases hjoined : joinSpans events with
    | nil => simpa using h e List.mem_cons_self
    | cons e' joined =>
      rw [hjoined] at hrest
      dsimp only
      cases hwhole : e.join e' with
      | none => simpa using ⟨h e List.mem_cons_self, by simpa using hrest⟩
      | some whole =>
        simp only [List.mem_cons, forall_eq_or_imp] at hrest ⊢
        exact ⟨LlhttpEvent.join_isMessageComplete hwhole, hrest.2⟩

/-- Only `on_message_complete` makes a request complete. -/
theorem complete_callback {ctx ctx' : HttpParserCtx L} {e : LlhttpEvent} {ok : Bool}
    (hcallback : callback ctx e = some (ctx', ok)) (he : e.isMessageComplete = false)
    (hctx : ctx.request.complete = false) : ctx'.request.complete = false := by
  cases e with
  | messageBegin => cases hcallback; rfl
  | url span => cases hcallback; exact hctx
  | headerField span => cases hcallback; exact hctx
  | headerValue span =>
    cases hcallback
    unfold onHeaderValue
    split <;> exact hctx
  | headersComplete method keepAlive contentLength =>
    cases hcallback
    unfold onHeadersComplete
    dsimp only
    split <;> exact hctx
  | body span =>
    rw [callback, onBody] at hcallback
    split at hcallback
    · cases hcallback
      exact hctx
    · obtain ⟨capacity, -, heq⟩ := Option.map_eq_some_iff.mp hcallback
      cases heq
      exact hctx
  | chunkBoundary => cases hcallback; exact hctx
  | messageComplete => cases he

theorem complete_deliver {ctx ctx' : HttpParserCtx L} {events : List LlhttpEvent} {ok : Bool}
    (hdeliver : deliver ctx events = some (ctx', ok))
    (hevents : ∀ e ∈ events, e.isMessageComplete = false)
    (hctx : ctx.request.complete = false) : ctx'.request.complete = false := by
  induction events generalizing ctx with
  | nil =>
    cases hdeliver
    exact hctx
  | cons e events ih =>
    rw [deliver] at hdeliver
    have he := hevents e List.mem_cons_self
    rcases hcallback : callback ctx e with _ | ⟨ctx₁, _ | _⟩
    · rw [hcallback] at hdeliver
      cases hdeliver
    · rw [hcallback] at hdeliver
      cases hdeliver
      exact complete_callback hcallback he hctx
    · rw [hcallback] at hdeliver
      exact ih hdeliver (fun e he => hevents e (List.mem_cons_of_mem _ he))
        (complete_callback hcallback he hctx)

/-- A proper beginning of a request, fed to a parser that waits for one, leaves no complete
request. -/
theorem httpParserFeed_prefix {ctx ctx' : HttpParserCtx L} {begun missing : List UInt8}
    {maxBodySize : UInt32} {result : ℤ} (hparser : ctx.parser = L.init)
    (hrequest : IsRequest L maxBodySize (begun ++ missing)) (hbegun : begun ≠ [])
    (hmissing : missing ≠ []) (hfeed : httpParserFeed ctx begun = some (ctx', result)) :
    ctx'.request.complete = false := by
  have hok := hrequest.completes.execute_prefix hmissing
  have hevents := joinSpans_isMessageComplete (StreamParser.of_outcome_ok hok)
  -- the first callback is `on_message_begin`, which clears the flag
  obtain ⟨events, hfirst⟩ : ∃ events,
      joinSpans (L.parser.execute L.init begun).events = .messageBegin :: events := by
    obtain ⟨b, rest, state, first, hbytes, hstep⟩ := hrequest.begins
    obtain ⟨b', begun, rfl⟩ := List.exists_cons_of_ne_nil hbegun
    obtain ⟨rfl, -⟩ := List.cons.inj hbytes
    obtain ⟨more, hmore⟩ : ∃ more, (L.parser.execute L.init (b' :: begun)).events =
        (.messageBegin :: first) ++ more := StreamParser.events_execute_cons hstep
    exact ⟨joinSpans (first ++ more), by rw [hmore, List.cons_append, joinSpans_messageBegin]⟩
  rw [hfirst] at hevents
  simp only [httpParserFeed, hparser, hfirst, hok, deliver, callback] at hfeed
  have hincomplete {ctx₁ : HttpParserCtx L} {ok : Bool} (hdeliver : deliver (onMessageBegin
      { ctx with parser := (L.parser.execute L.init begun).state }) events = some (ctx₁, ok)) :
      ctx₁.request.complete = false :=
    complete_deliver hdeliver (fun e he => hevents e (List.mem_cons_of_mem _ he)) rfl
  rcases hdeliver : deliver (onMessageBegin
    { ctx with parser := (L.parser.execute L.init begun).state }) events with _ | ⟨ctx₁, _ | _⟩
  · rw [hdeliver] at hfeed
    cases hfeed
  · rw [hdeliver] at hfeed
    cases hfeed
    exact (hincomplete hdeliver : ctx₁.request.complete = false)
  · rw [hdeliver] at hfeed
    cases hfeed
    exact hincomplete hdeliver

/-- **A read that completes no request** dispatches nothing. -/
theorem step_of_prefix {conn : HttpConn L S} {read missing : List UInt8} {maxBodySize : UInt32}
    (hready : Ready conn) (hread : read ≠ [])
    (hrequest : IsRequest L maxBodySize (conn.recvBuf ++ read ++ missing))
    (hmissing : missing ≠ []) : ((connMachine L S).step (some conn) read).2 = none := by
  have hbegun : conn.recvBuf ++ read ≠ [] := by simp [hread]
  simp only [connMachine, hready.state_eq, true_or, if_true, httpConnOnReadable, if_neg hread]
  cases growRecvBuf conn with
  | none => rfl
  | some size =>
    dsimp only
    cases hfeed : httpParserFeed conn.parserCtx (conn.recvBuf ++ read) with
    | none => rfl
    | some fed =>
      obtain ⟨ctx, result⟩ := fed
      have hincomplete := httpParserFeed_prefix hready.parser_eq hrequest hbegun hmissing hfeed
      dsimp only
      split_ifs with hneg hcomplete
      · rfl
      · rw [hincomplete] at hcomplete
        cases hcomplete
      · rfl

/-! ### Runs -/

theorem dispatched_cons_of_request {conn conn' : HttpConn L S} {read : List UInt8}
    {request : DispatchedRequest}
    (hstep : (connMachine L S).step (some conn) read = (some conn', some request))
    (reads : List (List UInt8)) :
    dispatched conn (read :: reads) = request :: dispatched conn' reads := by
  rw [dispatched, Machine.results_cons, hstep]
  exact List.reduceOption_cons_of_some _ _

theorem length_dispatched_cons_of_none {conn : HttpConn L S} {read : List UInt8}
    (hstep : ((connMachine L S).step (some conn) read).2 = none) (reads : List (List UInt8)) :
    (dispatched conn (read :: reads)).length ≤ reads.length := by
  rw [dispatched, Machine.results_cons, hstep, List.reduceOption_cons_of_none]
  exact length_results_reduceOption_le _ reads

/-- A stream that begins with a request and of which at least as many bytes were read. -/
theorem exists_rest_of_le_length {buffer request more requests : List UInt8}
    (hstream : buffer ++ more = request ++ requests) (hlen : request.length ≤ buffer.length) :
    ∃ rest, buffer = request ++ rest ∧ rest ++ more = requests := by
  obtain ⟨rest, hbuffer⟩ := List.prefix_of_prefix_length_le
    (hstream ▸ List.prefix_append request requests) (List.prefix_append buffer more) hlen
  refine ⟨rest, hbuffer.symm, ?_⟩
  rw [← hbuffer, List.append_assoc] at hstream
  exact List.append_cancel_left hstream

/-- A read that ends inside a request dispatches nothing. -/
theorem length_dispatched_cons_of_lt {conn : HttpConn L S} {read request more requests : List UInt8}
    {maxBodySize : UInt32} (hready : Ready conn) (hread : read ≠ [])
    (hrequest : IsRequest L maxBodySize request)
    (hstream : conn.recvBuf ++ read ++ more = request ++ requests)
    (hlt : (conn.recvBuf ++ read).length < request.length) (reads : List (List UInt8)) :
    (dispatched conn (read :: reads)).length ≤ reads.length := by
  obtain ⟨missing, hmissing, -⟩ := exists_rest_of_le_length hstream.symm hlt.le
  have hne : missing ≠ [] := by
    rintro rfl
    rw [List.append_nil] at hmissing
    exact hlt.ne (congrArg List.length hmissing.symm)
  have hnone := step_of_prefix hready hread (hmissing ▸ hrequest) hne
  exact length_dispatched_cons_of_none hnone reads

/-- When every read completes the next request, the requests are dispatched as if they were fed
whole. -/
theorem dispatched_eq_requestsOf {maxBodySize : UInt32} {reads requests : List (List UInt8)}
    (hwrite : ∀ response, (S.serialize response true).isSome)
    (hrequests : ∀ request ∈ requests, IsRequest L maxBodySize request)
    (hreads : ∀ read ∈ reads, read ≠ []) {conn : HttpConn L S} (hready : Ready conn)
    (hmax : conn.parserCtx.maxBodySize = maxBodySize)
    (hstream : conn.recvBuf ++ reads.flatten = requests.flatten)
    (hcompletes : EachReadCompletes conn.recvBuf.length reads requests) :
    dispatched conn reads = requestsOf S conn.parserCtx requests := by
  induction reads generalizing conn requests with
  | nil =>
    cases requests with
    | nil => rfl
    | cons request requests => cases hcompletes
  | cons read reads ih =>
    cases requests with
    | nil => cases hcompletes
    | cons request requests =>
      obtain ⟨hle, hlimit, hrest⟩ := hcompletes
      rw [← List.length_append] at hle hlimit hrest
      rw [List.flatten_cons, List.flatten_cons, ← List.append_assoc] at hstream
      obtain ⟨rest, hbuf, hstream'⟩ := exists_rest_of_le_length hstream hle
      have hrequest := hmax ▸ hrequests request List.mem_cons_self
      obtain ⟨conn', hstep, hready', hctx', hbuf'⟩ := step_of_request hwrite hready hrequest
        (hreads read List.mem_cons_self) hbuf hlimit
      rw [dispatched_cons_of_request hstep, requestsOf, ← hctx']
      refine congrArg (_ :: ·) (ih (fun r hr => hrequests r (List.mem_cons_of_mem _ hr))
        (fun r hr => hreads r (List.mem_cons_of_mem _ hr)) hready' ?_ (by rwa [hbuf']) ?_)
      · rw [hctx', maxBodySize_afterRequest hrequest (hle.trans hlimit), hmax]
      · rw [hbuf, List.length_append, Nat.add_sub_cancel_left] at hrest
        rwa [hbuf']

/-- If no more reads than requests dispatch all the requests, every read completed the next
one. -/
theorem eachReadCompletes_of_dispatched {maxBodySize : UInt32} {reads requests : List (List UInt8)}
    (hwrite : ∀ response, (S.serialize response true).isSome)
    (hrequests : ∀ request ∈ requests, IsRequest L maxBodySize request)
    (hreads : ∀ read ∈ reads, read ≠ []) {conn : HttpConn L S} (hready : Ready conn)
    (hmax : conn.parserCtx.maxBodySize = maxBodySize)
    (hstream : conn.recvBuf ++ reads.flatten = requests.flatten)
    (hlimit : requests.flatten.length ≤ recvLimit) (hcount : reads.length ≤ requests.length)
    (hdispatched : (dispatched conn reads).length = requests.length) :
    EachReadCompletes conn.recvBuf.length reads requests := by
  induction reads generalizing conn requests with
  | nil =>
    cases requests with
    | nil => trivial
    | cons request requests => cases hdispatched
  | cons read reads ih =>
    cases requests with
    | nil => exact absurd hcount (Nat.not_succ_le_zero _)
    | cons request requests =>
      have hrequest := hrequests request List.mem_cons_self
      have hread := hreads read List.mem_cons_self
      rw [List.flatten_cons, List.flatten_cons, ← List.append_assoc] at hstream
      have hbuffered : (conn.recvBuf ++ read).length ≤ recvLimit := by
        refine le_trans ?_ hlimit
        rw [List.flatten_cons, ← hstream]
        exact (List.prefix_append _ _).length_le
      rw [EachReadCompletes, ← List.length_append]
      by_cases hle : request.length ≤ (conn.recvBuf ++ read).length
      · obtain ⟨rest, hbuf, hstream'⟩ := exists_rest_of_le_length hstream hle
        obtain ⟨conn', hstep, hready', hctx', hbuf'⟩ := step_of_request hwrite hready
          (hmax.symm ▸ hrequest) hread hbuf hbuffered
        rw [dispatched_cons_of_request hstep] at hdispatched
        refine ⟨hle, hbuffered, ?_⟩
        rw [hbuf, List.length_append, Nat.add_sub_cancel_left, ← hbuf']
        refine ih (fun r hr => hrequests r (List.mem_cons_of_mem _ hr))
          (fun r hr => hreads r (List.mem_cons_of_mem _ hr)) hready' ?_ (by rwa [hbuf']) ?_
          (Nat.le_of_succ_le_succ hcount) (Nat.succ.inj hdispatched)
        · rw [hctx', maxBodySize_afterRequest (hmax.symm ▸ hrequest) (hle.trans hbuffered), hmax]
        · rw [List.flatten_cons, List.length_append] at hlimit
          exact (Nat.le_add_left _ _).trans hlimit
      · -- the read ends inside the request, and dispatches nothing
        have hfew :=
          length_dispatched_cons_of_lt hready hread hrequest hstream (not_le.mp hle) reads
        rw [hdispatched, List.length_cons] at hfew
        rw [List.length_cons, List.length_cons] at hcount
        omega

theorem length_le_of_eachReadCompletes {buffered : ℕ} {reads requests : List (List UInt8)}
    (h : EachReadCompletes buffered reads requests) :
    ∀ request ∈ requests, request.length ≤ recvLimit := by
  induction reads generalizing buffered requests with
  | nil =>
    cases requests with
    | nil => exact fun request hrequest => absurd hrequest List.not_mem_nil
    | cons request requests => cases h
  | cons read reads ih =>
    cases requests with
    | nil => cases h
    | cons request requests =>
      obtain ⟨hle, hlimit, hrest⟩ := h
      intro r hr
      rcases List.mem_cons.mp hr with rfl | hr
      · exact hle.trans hlimit
      · exact ih hrest r hr

theorem eachReadCompletes_self {requests : List (List UInt8)}
    (h : ∀ request ∈ requests, request.length ≤ recvLimit) :
    EachReadCompletes 0 requests requests := by
  induction requests with
  | nil => trivial
  | cons request requests ih =>
    rw [EachReadCompletes, Nat.zero_add, Nat.sub_self]
    exact ⟨le_rfl, h request List.mem_cons_self, ih fun r hr => h r (List.mem_cons_of_mem _ hr)⟩

theorem ready_httpConnAccept (maxRequestBody : UInt32) :
    Ready (httpConnAccept L S maxRequestBody) :=
  ⟨rfl, rfl, ⟨16, le_rfl, by omega, rfl⟩, rfl⟩

/-- Requests that arrive each in a read of its own are dispatched one by one. -/
theorem dispatched_whole {maxRequestBody : UInt32} {requests : List (List UInt8)}
    (hwrite : ∀ response, (S.serialize response true).isSome)
    (hrequests : ∀ request ∈ requests, IsRequest L maxRequestBody request)
    (hlimit : ∀ request ∈ requests, request.length ≤ recvLimit) :
    dispatched (httpConnAccept L S maxRequestBody) requests =
      requestsOf S (httpParserInit L maxRequestBody) requests := by
  refine dispatched_eq_requestsOf hwrite hrequests (fun request hrequest => ?_)
    (ready_httpConnAccept maxRequestBody) rfl rfl (eachReadCompletes_self hlimit)
  obtain ⟨b, rest, -, -, rfl, -⟩ := (hrequests request hrequest).begins
  exact List.cons_ne_nil b rest

/-- **How a stream may be cut.** A stream of requests is cut into reads. If every read completes
the next request, the connection dispatches what it dispatches when each request arrives in a read
of its own, each request once and in order. Conversely, for a stream that fits the receive buffer
and no more reads than requests, it does so only if every read completes the next request. -/
theorem dispatched_cut_eq_whole (L : Llhttp) (S : Service) (maxRequestBody : UInt32)
    (requests reads : List (List UInt8))
    (hrequests : ∀ request ∈ requests, IsRequest L maxRequestBody request)
    (hreads : ∀ read ∈ reads, read ≠ []) (hstream : reads.flatten = requests.flatten)
    (hwrite : ∀ response, (S.serialize response true).isSome) :
    let conn := httpConnAccept L S maxRequestBody
    (EachReadCompletes 0 reads requests →
      dispatched conn reads = dispatched conn requests ∧
        (dispatched conn reads).length = requests.length) ∧
    (requests.flatten.length ≤ recvLimit → reads.length ≤ requests.length →
      dispatched conn reads = dispatched conn requests → EachReadCompletes 0 reads requests) := by
  intro conn
  have hready : Ready conn := ready_httpConnAccept maxRequestBody
  constructor
  · intro hcompletes
    have hcut : dispatched conn reads = requestsOf S conn.parserCtx requests :=
      dispatched_eq_requestsOf hwrite hrequests hreads hready rfl hstream hcompletes
    have hwhole : dispatched conn requests = requestsOf S conn.parserCtx requests :=
      dispatched_whole hwrite hrequests (length_le_of_eachReadCompletes hcompletes)
    rw [hcut, hwhole, length_requestsOf]
    exact ⟨rfl, rfl⟩
  · intro hlimit hcount hsame
    refine eachReadCompletes_of_dispatched hwrite hrequests hreads hready rfl hstream hlimit
      hcount ?_
    rw [hsame, dispatched_whole hwrite hrequests, length_requestsOf]
    exact fun request hrequest => (List.sublist_flatten_of_mem hrequest).length_le.trans hlimit

/-! ### Two cuts of a stream of requests -/

/-- The states of a parser of `GET` requests without headers. -/
inductive GetState where
  | start
  | method (matched : ℕ)
  | url
  | version (matched : ℕ)

/-- A parser of `GET` requests without headers, which does with each byte what llhttp does. CR and
LF before a request are skipped; the numbers are the error codes for a bad method, URL and
version. -/
def getLlhttp : Llhttp where
  State := GetState
  init := .start
  step
    | .start, b =>
      if b = 13 ∨ b = 10 then .ok (.start, [])
      else if b = 71 then .ok (.method 1, [.messageBegin])
      else .error 6
    | .method matched, b =>
      if (CString.ofString "GET ").bytes.getD matched 0 = b then
        .ok (if matched = 3 then .url else .method (matched + 1), [])
      else .error 6
    | .url, b =>
      if b = 32 then .ok (.version 0, [])
      else if b = 13 ∨ b = 10 then .error 7
      else .ok (.url, [.url [b]])
    | .version matched, b =>
      if (CString.ofString "HTTP/1.1\r\n\r\n").bytes.getD matched 0 = b then
        if matched = 11 then
          .ok (.start, [.headersComplete (.ofString "GET") true 0, .messageComplete])
        else .ok (.version (matched + 1), [])
      else .error 9

/-- A service whose responses are empty. -/
def emptyService : Service where
  Response := Unit
  Wire := Unit
  parseError := ()
  respond s3 _ := (s3, ())
  serialize _ _ := some ()

/-- A request without headers. -/
def getRoot : List UInt8 := (CString.ofString "GET / HTTP/1.1\r\n\r\n").bytes

theorem isRequest_getRoot : IsRequest getLlhttp 100 getRoot where
  begins := ⟨_, _, _, _, rfl, rfl⟩
  completes := ⟨rfl, rfl⟩
  message := ⟨[.url [47]], .ofString "GET", 0, [], rfl, by decide, by decide⟩
  body_le := by decide
  body_le_length := by decide

/-- Two requests, the first read ending inside the second request. -/
theorem dispatched_cut_eq_whole_two_requests :
    (dispatched (httpConnAccept getLlhttp emptyService 100)
      [getRoot ++ getRoot.take 3, getRoot.drop 3]).length = 2 :=
  ((dispatched_cut_eq_whole getLlhttp emptyService 100 [getRoot, getRoot]
    [getRoot ++ getRoot.take 3, getRoot.drop 3]
    (fun request hrequest => by
      rw [show request = getRoot by simpa using hrequest]
      exact isRequest_getRoot)
    (by decide) rfl (fun _ => rfl)).1 ⟨by decide, by decide, by decide, by decide, trivial⟩).2

/-- A request that arrives in two reads is not dispatched at all, and of two requests that arrive
in one read the second one is not. -/
theorem dispatched_cut_ne_whole :
    (dispatched (httpConnAccept getLlhttp emptyService 100) [getRoot]).length = 1 ∧
    dispatched (httpConnAccept getLlhttp emptyService 100) [getRoot.take 1, getRoot.drop 1] = [] ∧
    (dispatched (httpConnAccept getLlhttp emptyService 100) [getRoot, getRoot]).length = 2 ∧
    (dispatched (httpConnAccept getLlhttp emptyService 100) [getRoot ++ getRoot]).length = 1 := by
  decide

end LightFS.Access
