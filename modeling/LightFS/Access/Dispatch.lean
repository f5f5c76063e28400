import LightFS.Access.HeaderInterpreters
import LightFS.Access.HttpServer
import LightFS.Access.ResponseIsolation

/-!
# The service behind a connection

`http_conn_dispatch` routes a request, checks its signature if it has one, and calls the handler of
its operation (`src/access/http_server.c`). With that, and with the responses of
`LightFS.Access.HttpResponse`, the parameter of a connection becomes a definition (`accessService`).

A connection is then a gate, which lets requests through to their handlers or refuses them
(`verdicts`). The fields of a request are not cleared before the next one is read, so a request is
checked with the authorization of the last request up to it that has one: a request without a
signature is refused behind one with a wrong signature, and is let through behind one with a right
signature, or when no request so far had any. This is what a connection answers, however its stream
of requests is cut, as long as every read completes the next request (`answered_eq_verdicts`).

For any run of the server, whatever is read, every response whose write is pending was submitted by
a read of its connection, which has not changed since, and is the decision on what was read
(`responses_sound`). No response has the status 405 or 500: operations without a handler are not
routed, and no handler fails.

The allocation of a write request succeeds here.

## Main definitions

* `dispatchOutcome`, `accessService`.
* `ownAuthorization`, `Verdict`, `gateVerdict`, `verdicts` — the gate.
* `answered` — the responses a connection writes.
* `Submission.Answers`, `SubmitsAnswer` — what a response answers.

## Main results

* `dispatchOutcome_eq`, `authorization_dispatchOutcome`.
* `answered_eq_verdicts`.
* `connOrigin_of_step`, `responses_sound`.
-/

namespace LightFS.Access

open Library

variable {L : Llhttp}

/-! ### The code -/

/-- `http_conn_dispatch` up to the call of a handler: what `s3_route_parse` leaves in the request,
and the outcome. -/
def dispatchOutcome (s3 : S3Request) (dispatched : DispatchedRequest) : S3Request × Outcome :=
  match s3RouteParse dispatched.method.toCString dispatched.uri.toCString
    (headerStrings dispatched.headers) s3 with
  | (s3, false) => (s3, .badRoute)
  | (s3, true) =>
    if s3.authorization.bytes ≠ [] ∧ sigv4Validate s3.authorization.toCString ≠ .ok then
      (s3, .badSignature)
    else (s3, .routed s3)

/-- The service of the HTTP server. -/
abbrev accessService : Service where
  Response := Outcome
  Wire := Submission
  parseError := .badSyntax
  respond := dispatchOutcome
  serialize outcome keepAlive := some ⟨outcome, keepAlive, true⟩

/-! ### The decision -/

/-- The outcome of a request whose fields are those `s3_route_parse` left. -/
def decision (method uri : CString) (s3 : S3Request) : Outcome :=
  if ¬ IsRouted method uri then .badRoute
  else if s3.authorization.bytes = [] ∨ sigv4Validate s3.authorization.toCString = .ok then
    .routed s3
  else .badSignature

/-- The fields and the outcome of a request. -/
theorem dispatchOutcome_eq (s3 : S3Request) (dispatched : DispatchedRequest) :
    dispatchOutcome s3 dispatched =
      let s3 := (s3RouteParse dispatched.method.toCString dispatched.uri.toCString
        (headerStrings dispatched.headers) s3).1
      (s3, decision dispatched.method.toCString dispatched.uri.toCString s3) := by
  have hrouted := s3RouteParse_succeeds_iff dispatched.method.toCString dispatched.uri.toCString
    (headerStrings dispatched.headers) s3
  rw [dispatchOutcome]
  rcases hparse : s3RouteParse dispatched.method.toCString dispatched.uri.toCString
    (headerStrings dispatched.headers) s3 with ⟨s3, _ | _⟩ <;> rw [hparse] at hrouted
  · have hnot : ¬ IsRouted dispatched.method.toCString dispatched.uri.toCString :=
      fun h => Bool.false_ne_true (hrouted.mpr h)
    simp only [decision, if_pos hnot]
  · simp only [decision, if_neg (not_not.mpr (hrouted.mp rfl)), ne_eq, ← not_or, ite_not]
    split_ifs <;> rfl

theorem snd_dispatchOutcome (s3 : S3Request) (dispatched : DispatchedRequest) :
    (dispatchOutcome s3 dispatched).2 = decision dispatched.method.toCString
      dispatched.uri.toCString (dispatchOutcome s3 dispatched).1 := by
  rw [dispatchOutcome_eq]

/-! ### The abstract gate -/

/-- A header for the authorization: with its exact name, if the request is routed, or else with its
name in any case. -/
def ownAuthorization (dispatched : DispatchedRequest) : Option (CharArray s3MaxHeaderLength) :=
  let exact :=
    if IsRouted dispatched.method.toCString dispatched.uri.toCString then
      lastHeader (RouteNames .authorization) dispatched.headers
    else none
  (exact.or (lastHeader (HeaderNames · .authorization) dispatched.headers)).map Prod.snd

/-- The authorization that a request is checked with: its own, or else what is left of the requests
before it. -/
def authorizationFor (left : CharArray s3MaxHeaderLength) (dispatched : DispatchedRequest) :
    CharArray s3MaxHeaderLength :=
  (ownAuthorization dispatched).getD left

/-- What becomes of a request. -/
inductive Verdict where
  | malformed
  | unrouted
  | refused
  | served (operation : S3Operation) (bucket key : List UInt8)
deriving DecidableEq

/-- The verdict that an outcome stands for. -/
def Outcome.verdict : Outcome → Verdict
  | badSyntax => .malformed
  | badRoute => .unrouted
  | badSignature => .refused
  | routed request => .served request.operation request.bucket.bytes request.key.bytes

/-- The operation that a method and a URI ask for. -/
def requestedOperation (method uri : CString) : S3Operation :=
  if keyPart uri = [] ∧ ∃ text ∈ listTexts, text.bytes <:+: uriQuery uri then .listObjects
  else methodToOperation method

/-- The verdict on a request, for the authorization that it is checked with. -/
def gateVerdict (authorization : CharArray s3MaxHeaderLength) (dispatched : DispatchedRequest) :
    Verdict :=
  let method := dispatched.method.toCString
  let uri := dispatched.uri.toCString
  if ¬ IsRouted method uri then .unrouted
  else if authorization.bytes = [] ∨ sigv4Validate authorization.toCString = .ok then
    .served (requestedOperation method uri) (bucketPart uri) (keyPart uri)
  else .refused

/-- The authorization of the last request that has one. -/
def lastAuthorization (requests : List DispatchedRequest) : Option (CharArray s3MaxHeaderLength) :=
  requests.reverse.findSome? ownAuthorization

/-- The verdicts on the requests of a connection: each is checked with the authorization of the last
request up to it that has one. -/
def verdicts (left : CharArray s3MaxHeaderLength) (requests : List DispatchedRequest) :
    List Verdict :=
  requests.mapIdx fun i request =>
    gateVerdict ((lastAuthorization (requests.take (i + 1))).getD left) request

theorem verdicts_cons (left : CharArray s3MaxHeaderLength) (request : DispatchedRequest)
    (requests : List DispatchedRequest) :
    verdicts left (request :: requests) = gateVerdict (authorizationFor left request) request ::
      verdicts (authorizationFor left request) requests := by
  have hlast (rest : List DispatchedRequest) :
      (lastAuthorization (request :: rest)).getD left =
        (lastAuthorization rest).getD (authorizationFor left request) := by
    rw [lastAuthorization, lastAuthorization, List.reverse_cons, List.findSome?_append,
      authorizationFor]
    cases rest.reverse.findSome? ownAuthorization with
    | none => cases h : ownAuthorization request <;> simp [h]
    | some authorization => rfl
  simp only [verdicts, List.mapIdx_cons, List.take_succ_cons, hlast]
  rfl

/-! ### What a dispatch does -/

/-- The authorization that is left in a request whose headers have been read. -/
theorem authorization_dispatchOutcome (s3 : S3Request) (dispatched : DispatchedRequest) :
    (dispatchOutcome (readHeaders s3 dispatched.headers) dispatched).1.authorization =
      authorizationFor s3.authorization dispatched := by
  rw [dispatchOutcome_eq]
  refine Sum.inr.inj ((get_s3RouteParse dispatched.method.toCString dispatched.uri.toCString
    dispatched.headers _ .authorization).trans ?_)
  rw [get_readHeaders, authorizationFor, ownAuthorization]
  have hread : ∀ header : HeaderSlot, S3Field.authorization.read header.2 = .inr header.2 :=
    fun header => congrArg Sum.inr (CharArray.strncpy_toCString header.2)
  have hroute : ∀ header : HeaderSlot, S3Field.authorization.routeRead header.2 = .inr header.2 :=
    fun _ => rfl
  have hleft : s3.get .authorization = .inr s3.authorization := rfl
  simp only [hread, hroute, hleft]
  split_ifs
  · cases lastHeader (RouteNames .authorization) dispatched.headers with
    | some header => rfl
    | none => cases lastHeader (HeaderNames · .authorization) dispatched.headers <;> rfl
  · cases lastHeader (HeaderNames · .authorization) dispatched.headers <;> rfl

/-- The outcome of a request is the verdict of the gate. -/
theorem verdict_dispatchOutcome (s3 : S3Request) (dispatched : DispatchedRequest) :
    (dispatchOutcome s3 dispatched).2.verdict =
      gateVerdict (dispatchOutcome s3 dispatched).1.authorization dispatched := by
  rw [dispatchOutcome_eq]
  dsimp only
  rw [decision, gateVerdict]
  by_cases hrouted : IsRouted dispatched.method.toCString dispatched.uri.toCString
  · obtain ⟨hbucket, hkey, hoperation⟩ :=
      names_s3RouteParse hrouted (headerStrings dispatched.headers) s3
    simp only [if_neg (not_not.mpr hrouted)]
    split_ifs
    · rw [Outcome.verdict, hbucket, hkey, hoperation]
      rfl
    · rfl
  · simp only [if_pos hrouted]
    rfl

/-- The status that a verdict is reported with. -/
def Verdict.status : Verdict → UInt32
  | malformed => 400
  | unrouted => 400
  | refused => 403
  | served .deleteObject _ _ => 204
  | served _ _ _ => 200

/-- A verdict and its status. -/
def Verdict.report (verdict : Verdict) : Verdict × UInt32 := (verdict, verdict.status)

/-- What an outcome stands for, and the status of its response. -/
def Outcome.report (outcome : Outcome) : Verdict × UInt32 :=
  (outcome.verdict, outcome.response.httpStatus)

/-- An outcome has a handler for its operation, if it has one. -/
def Outcome.Handled (outcome : Outcome) : Prop :=
  ∀ s3, outcome = .routed s3 → s3.operation ∈
    [.putObject, .getObject, .headObject, .deleteObject, S3Operation.listObjects]

/-- The operation of a request that is routed has a handler. -/
theorem handled_dispatchOutcome (s3 : S3Request) (dispatched : DispatchedRequest) :
    (dispatchOutcome s3 dispatched).2.Handled := by
  intro routed heq
  rw [dispatchOutcome_eq] at heq
  dsimp only at heq
  rw [decision] at heq
  split_ifs at heq with hrouted hsigned
  obtain rfl := Outcome.routed.inj heq
  obtain ⟨-, -, hoperation⟩ := names_s3RouteParse hrouted (headerStrings dispatched.headers) s3
  obtain ⟨-, hmethod⟩ := methodToOperation_cases hrouted.operation_ne
  rw [hoperation]
  split_ifs
  · decide
  · rcases hmethod with hmethod | hmethod | hmethod | hmethod <;> rw [hmethod] <;> decide

/-- The status of a response. No handler fails. -/
theorem Outcome.Handled.httpStatus_eq {outcome : Outcome} (h : outcome.Handled) :
    outcome.response.httpStatus = outcome.verdict.status := by
  have herror (error : S3Error) : error.response.httpStatus = error.status := rfl
  cases outcome with
  | badSyntax => rw [response, buildResponse, fillErrorResponse_eq, herror]; rfl
  | badRoute => rw [response, buildResponse, fillErrorResponse_eq, herror]; rfl
  | badSignature => rw [response, buildResponse, fillErrorResponse_eq, herror]; rfl
  | routed s3 =>
    have hs3 := h s3 rfl
    rw [response, buildResponse, verdict]
    cases hoperation : s3.operation with
    | putObject | getObject | headObject | deleteObject => rfl
    | listObjects =>
      dsimp only
      rw [s3HandlerList_eq]
      rfl
    | putBucket | deleteBucket | unknown =>
      rw [hoperation] at hs3
      exact absurd hs3 (by decide)

theorem Outcome.Handled.report_eq {outcome : Outcome} (h : outcome.Handled) :
    outcome.report = outcome.verdict.report := by
  rw [report, Verdict.report, h.httpStatus_eq]

/-- Only `on_message_complete` reads the headers. -/
theorem s3_callback {ctx ctx' : HttpParserCtx L} {e : LlhttpEvent}
    (he : e.isMessageComplete = false) (h : callback ctx e = some (ctx', true)) :
    ctx'.request.s3 = ctx.request.s3 := by
  cases e with
  | messageComplete => cases he
  | headerValue span =>
    cases h
    unfold onHeaderValue
    split_ifs <;> rfl
  | headersComplete method keepAlive contentLength =>
    cases h
    unfold onHeadersComplete
    dsimp only
    split_ifs <;> rfl
  | body span =>
    obtain ⟨capacity, rfl, -, -⟩ := onBody_eq_some h
    rfl
  | _ =>
    cases h
    rfl

theorem s3_deliver {ctx ctx' : HttpParserCtx L} {events : List LlhttpEvent}
    (hevents : ∀ e ∈ events, e.isMessageComplete = false)
    (h : deliver ctx events = some (ctx', true)) : ctx'.request.s3 = ctx.request.s3 := by
  induction events generalizing ctx with
  | nil =>
    cases h
    rfl
  | cons e events ih =>
    obtain ⟨ctx₁, hcallback, hrest⟩ := deliver_cons_eq_some h
    exact (ih (fun e he => hevents e (List.mem_cons_of_mem _ he)) hrest).trans
      (s3_callback (hevents e List.mem_cons_self) hcallback)

theorem isMessageComplete_of_isPart {e : LlhttpEvent} (h : e.isPart) :
    e.isMessageComplete = false := by
  cases e <;> first | rfl | cases h

/-- The callbacks of a message leave the old fields, with the headers of the message read on top of
them. -/
theorem s3_of_isMessage {ctx ctx' : HttpParserCtx L} {events : List LlhttpEvent}
    (hmessage : IsMessage events) (h : deliver ctx events = some (ctx', true)) :
    ctx'.request.s3 = readHeaders ctx.request.s3 ctx'.headers := by
  obtain ⟨head, method, contentLength, tail, rfl, hhead, htail⟩ := hmessage
  rw [← List.cons_append, ← List.cons_append, ← List.append_assoc, deliver_append] at h
  rcases hbefore : deliver ctx (.messageBegin :: head ++
      .headersComplete method true contentLength :: tail) with _ | ⟨ctx₁, _ | _⟩ <;>
    rw [hbefore] at h
  · cases h
  · cases h
  · cases h
    have hsame : ctx₁.request.s3 = ctx.request.s3 := by
      refine s3_deliver (fun e he => ?_) hbefore
      rw [List.cons_append, List.mem_cons, List.mem_append, List.mem_cons] at he
      rcases he with rfl | he | rfl | he
      · rfl
      · exact isMessageComplete_of_isPart (hhead e he)
      · rfl
      · exact isMessageComplete_of_isPart (htail e he)
    exact congrArg (readHeaders · _) hsame

/-! ### The responses of a connection -/

/-- A connection reads, and its writes complete before the next read; the results are the responses
that it writes. -/
def answerMachine (L : Llhttp) (S : Service) :
    Machine (Option (HttpConn L S)) (List UInt8) (Option S.Wire) where
  step conn read :=
    (((connMachine L S).step conn read).1,
      conn.bind fun conn =>
        if conn.state = .reading ∨ conn.state = .idle then
          (httpConnOnReadable conn read false).bind fun (conn, _, _) => conn.writeReq
        else none)

/-- The responses a connection writes, when these bytes are read one after the other. -/
def answered {S : Service} (conn : HttpConn L S) (reads : List (List UInt8)) : List S.Wire :=
  ((answerMachine L S).results (some conn) reads).reduceOption

theorem answered_cons_of_some {S : Service} {conn conn' : HttpConn L S} {read : List UInt8}
    {wire : S.Wire} {dispatched : Option DispatchedRequest}
    (hstep : (connMachine L S).step (some conn) read = (some conn', dispatched))
    (hwire : ((answerMachine L S).step (some conn) read).2 = some wire)
    (reads : List (List UInt8)) : answered conn (read :: reads) = wire :: answered conn' reads := by
  have hconn : ((answerMachine L S).step (some conn) read).1 = some conn' := congrArg Prod.fst hstep
  rw [answered, Machine.results_cons, hwire, hconn]
  exact List.reduceOption_cons_of_some _ _

/-- The response to a read that completes a request. -/
theorem answer_of_request {S : Service} {conn : HttpConn L S} {read request rest : List UInt8}
    {wire : S.Wire} (hready : Ready conn)
    (hrequest : IsRequest L conn.parserCtx.maxBodySize request) (hread : read ≠ [])
    (hbuf : conn.recvBuf ++ read = request ++ rest)
    (hlen : (conn.recvBuf ++ read).length ≤ recvLimit)
    (hwire : S.serialize (S.respond (received conn.parserCtx request).request.s3
      (received conn.parserCtx request).dispatchedRequest).2 true = some wire) :
    ((answerMachine L S).step (some conn) read).2 = some wire := by
  have hlength : request.length + rest.length ≤ recvLimit := by
    rw [← List.length_append, ← hbuf]
    exact hlen
  rw [List.length_append] at hlen
  obtain ⟨size, hgrow, -⟩ := growRecvBuf_spec hready.size_ok (by omega)
  obtain ⟨-, hcomplete, halive, -⟩ := deliver_received hrequest (by omega)
  have hfeed := httpParserFeed_request hready.parser_eq hrequest (by omega) rest
  rw [← hbuf] at hfeed
  have hreadable := httpConnOnReadable_of_feed hgrow hread hfeed hcomplete false
  simp only [answerMachine, Option.bind_some, hready.state_eq, true_or, if_true, hreadable]
  simp only [httpConnDispatch, connWriteResponse, sockWritevAsync, halive, hwire]
  rfl

/-- The authorization that a request leaves is the one that it was checked with. -/
theorem gate_of_request {ctx : HttpParserCtx L} {request : List UInt8}
    (hrequest : IsRequest L ctx.maxBodySize request) (hlen : request.length ≤ recvLimit) :
    let arrived := received ctx request
    (afterRequest accessService ctx request).request.s3.authorization =
        authorizationFor ctx.request.s3.authorization arrived.dispatchedRequest ∧
      (dispatchOutcome arrived.request.s3 arrived.dispatchedRequest).2.verdict =
        gateVerdict (authorizationFor ctx.request.s3.authorization arrived.dispatchedRequest)
          arrived.dispatchedRequest := by
  intro arrived
  have harrived := s3_of_isMessage hrequest.message (deliver_received hrequest hlen).1
  have hs3 : arrived.request.s3 =
      readHeaders ctx.request.s3 arrived.dispatchedRequest.headers := harrived
  have hafter : (afterRequest accessService ctx request).request.s3 =
      (dispatchOutcome arrived.request.s3 arrived.dispatchedRequest).1 := rfl
  rw [hafter, verdict_dispatchOutcome, hs3, authorization_dispatchOutcome]
  exact ⟨rfl, rfl⟩

/-- The responses to a stream of requests are the verdicts of the gate. -/
theorem verdicts_answered {maxBodySize : UInt32} {reads requests : List (List UInt8)}
    (hrequests : ∀ request ∈ requests, IsRequest L maxBodySize request)
    (hreads : ∀ read ∈ reads, read ≠ []) {conn : HttpConn L accessService} (hready : Ready conn)
    (hmax : conn.parserCtx.maxBodySize = maxBodySize)
    (hstream : conn.recvBuf ++ reads.flatten = requests.flatten)
    (hcompletes : EachReadCompletes conn.recvBuf.length reads requests) :
    (answered conn reads).map (fun answer => answer.outcome.report) =
      (verdicts conn.parserCtx.request.s3.authorization (dispatched conn reads)).map
        Verdict.report := by
  have hwrite : ∀ response, (accessService.serialize response true).isSome := fun _ => rfl
  induction reads generalizing conn requests with
  | nil => rfl
  | cons read reads ih =>
    cases requests with
    | nil => cases hcompletes
    | cons request requests =>
      obtain ⟨hle, hlimit, hrest⟩ := hcompletes
      rw [← List.length_append] at hle hlimit hrest
      rw [List.flatten_cons, List.flatten_cons, ← List.append_assoc] at hstream
      obtain ⟨rest, hbuf, hstream'⟩ := exists_rest_of_le_length hstream hle
      have hrequest := hmax ▸ hrequests request List.mem_cons_self
      have hread := hreads read List.mem_cons_self
      obtain ⟨conn', hstep, hready', hctx', hbuf'⟩ :=
        step_of_request hwrite hready hrequest hread hbuf hlimit
      have hanswer := answer_of_request hready hrequest hread hbuf hlimit rfl
      have hreport := (handled_dispatchOutcome (received conn.parserCtx request).request.s3
        (received conn.parserCtx request).dispatchedRequest).report_eq
      obtain ⟨hleft, hverdict⟩ := gate_of_request hrequest (hle.trans hlimit)
      rw [dispatched_cons_of_request hstep, answered_cons_of_some hstep hanswer, List.map_cons,
        verdicts_cons, List.map_cons, ← hverdict, ← hreport, ← hleft, ← hctx']
      refine congrArg (_ :: ·) (ih (fun r hr => hrequests r (List.mem_cons_of_mem _ hr))
        (fun r hr => hreads r (List.mem_cons_of_mem _ hr)) hready' ?_ (by rwa [hbuf']) ?_)
      · rw [hctx', maxBodySize_afterRequest hrequest (hle.trans hlimit), hmax]
      · rw [hbuf, List.length_append, Nat.add_sub_cancel_left] at hrest
        rwa [hbuf']

/-- **The connection is a gate.** A stream of requests is read so that every read completes the next
request. Then the requests that are dispatched are those of the stream, in order, and each is
answered; each answer is the verdict on its request, which is checked with the authorization of the
last request up to it that has one, and has the status of the verdict. -/
theorem answered_eq_verdicts (L : Llhttp) (maxRequestBody : UInt32)
    (requests reads : List (List UInt8))
    (hrequests : ∀ request ∈ requests, IsRequest L maxRequestBody request)
    (hreads : ∀ read ∈ reads, read ≠ []) (hstream : reads.flatten = requests.flatten)
    (hcompletes : EachReadCompletes 0 reads requests) :
    let conn := httpConnAccept L accessService maxRequestBody
    let arrived := requestsOf accessService conn.parserCtx requests
    dispatched conn reads = arrived ∧
      (answered conn reads).map (fun answer => answer.outcome.report) =
        (verdicts .empty arrived).map Verdict.report := by
  intro conn arrived
  have hready : Ready conn := ready_httpConnAccept maxRequestBody
  have hdispatched : dispatched conn reads = arrived :=
    dispatched_eq_requestsOf (fun _ => rfl) hrequests hreads hready rfl hstream hcompletes
  refine ⟨hdispatched, ?_⟩
  rw [← hdispatched]
  exact verdicts_answered hrequests hreads hready rfl hstream hcompletes

/-- A parser of requests `GET /` of two bytes: the second says with which authorization. -/
def signedLlhttp : Llhttp where
  State := Bool
  init := false
  step
    | false, b => if b = 71 then .ok (true, [.messageBegin, .url [47]]) else .error 6
    | true, b =>
      let authorization : List LlhttpEvent :=
        if b = 33 then [.headerField (literal "Authorization"),
          .headerValue (literal "AWS4-HMAC-SHA256 Credential=a, Signature=b")]
        else if b = 63 then [.headerField (literal "Authorization"), .headerValue (literal "a")]
        else []
      .ok (false, authorization ++ [.headersComplete (.ofString "GET") true 0, .messageComplete])

/-- The bytes with which `signedLlhttp` reads a request. -/
theorem isRequest_signed {b : UInt8} (hb : b ∈ [33, 45, 63]) :
    IsRequest signedLlhttp 100 [71, b] := by
  simp only [List.mem_cons, List.not_mem_nil, or_false] at hb
  rcases hb with rfl | rfl | rfl
  · exact ⟨⟨_, _, _, _, rfl, rfl⟩, ⟨rfl, rfl⟩, ⟨[.url [47], _, _], .ofString "GET", 0, [], rfl,
      by decide, by decide⟩, by decide, by decide⟩
  · exact ⟨⟨_, _, _, _, rfl, rfl⟩, ⟨rfl, rfl⟩, ⟨[.url [47]], .ofString "GET", 0, [], rfl,
      by decide, by decide⟩, by decide, by decide⟩
  · exact ⟨⟨_, _, _, _, rfl, rfl⟩, ⟨rfl, rfl⟩, ⟨[.url [47], _, _], .ofString "GET", 0, [], rfl,
      by decide, by decide⟩, by decide, by decide⟩

/-- Five requests: without authorization, with a right one, without, with a wrong one, without. The
third is checked with the right one and the last with the wrong one. The first read ends inside the
second request. -/
theorem answered_eq_verdicts_five_requests :
    let reads : List (List UInt8) := [[71, 45, 71], [33], [71, 45], [71, 63], [71, 45]]
    (answered (httpConnAccept signedLlhttp accessService 100) reads).map
      (fun answer => answer.outcome.report) =
        List.replicate 3 (.served .getObject [] [], 200) ++ List.replicate 2 (.refused, 403) := by
  intro reads
  have hcompletes : EachReadCompletes 0 reads
      [[71, 45], [71, 33], [71, 45], [71, 63], [71, 45]] := by
    simp [reads, EachReadCompletes, recvLimit]
  refine (answered_eq_verdicts signedLlhttp 100 [[71, 45], [71, 33], [71, 45], [71, 63], [71, 45]]
    reads (fun request hrequest => ?_) (by decide) rfl hcompletes).2.trans (by decide)
  simp only [List.mem_cons, List.not_mem_nil, or_false] at hrequest
  rcases hrequest with rfl | rfl | rfl | rfl | rfl <;> exact isRequest_signed (by decide)

/-! ### Any run of the server -/

/-- A response answers what `http_parser_feed` has left and returned: bytes that are not HTTP are
answered with an error, on a connection that is not kept alive; a complete request is answered with
the decision on it, on a connection that is kept alive if the request says so. -/
structure Submission.Answers (answer : Submission) (ctx : HttpParserCtx L) (result : ℤ) : Prop where
  outcome_eq :
    result < 0 ∧ answer.outcome = .badSyntax ∧ answer.keepAlive = false ∨
    0 ≤ result ∧ ctx.request.complete = true ∧ answer.keepAlive = ctx.request.keepAlive ∧
      answer.outcome = decision ctx.request.method.toCString ctx.request.uri.toCString
        (dispatchOutcome ctx.request.s3 ctx.dispatchedRequest).1
  status_eq : answer.outcome.response.httpStatus = answer.outcome.verdict.status

/-- A read submits a response and leaves it pending: the response answers what the parser makes of
the receive buffer with the bytes that were read. -/
def SubmitsAnswer (conn conn' : HttpConn L accessService) (read : List UInt8)
    (answer : Submission) : Prop :=
  (∃ dispatched events,
    httpConnOnReadable conn read false = some (conn', dispatched, events)) ∧
  ∃ ctx result, httpParserFeed conn.parserCtx (conn.recvBuf ++ read) = some (ctx, result) ∧
    answer.Answers ctx result

theorem writeReq_onWriteComplete {S : Service} (conn : HttpConn L S) :
    (onWriteComplete conn).writeReq = none := by
  rw [onWriteComplete, httpConnOnWriteDone]
  split_ifs <;> rfl

/-- The write that `conn_write_response` leaves pending. -/
theorem writeReq_connWriteResponse {conn : HttpConn L accessService} {outcome : Outcome}
    {inline : Bool} {answer : Submission}
    (h : (connWriteResponse conn outcome inline).1.writeReq = some answer) :
    inline = false ∧ answer = ⟨outcome, conn.parserCtx.request.keepAlive, true⟩ := by
  cases inline with
  | false => exact ⟨rfl, (Option.some.inj h).symm⟩
  | true => cases (writeReq_onWriteComplete _).symm.trans h

/-- What `http_conn_on_readable` leaves pending answers what it has read. -/
theorem submitsAnswer_of_readable {conn conn' : HttpConn L accessService} {read : List UInt8}
    {inline : Bool} {dispatched : Option DispatchedRequest} {events : List ConnEvent}
    (hnone : conn.writeReq = none)
    (h : httpConnOnReadable conn read inline = some (conn', dispatched, events))
    {answer : Submission} (hanswer : conn'.writeReq = some answer) :
    inline = false ∧ SubmitsAnswer conn conn' read answer := by
  have hpending : conn.writeReq ≠ some answer := hnone ▸ (Option.some_ne_none answer).symm
  have hcall := h
  rw [httpConnOnReadable] at h
  rcases hgrow : growRecvBuf conn with _ | size <;> rw [hgrow] at h
  · cases h
    exact absurd hanswer hpending
  dsimp only at h
  split_ifs at h with hread
  · cases h
    exact absurd hanswer hpending
  rcases hfeed : httpParserFeed conn.parserCtx (conn.recvBuf ++ read) with _ | ⟨ctx, result⟩ <;>
    rw [hfeed] at h
  · cases h
  dsimp only at h
  split_ifs at h with hresult hcomplete
  · -- the bytes are not HTTP
    cases h
    obtain ⟨rfl, rfl⟩ := writeReq_connWriteResponse hanswer
    exact ⟨rfl, ⟨_, _, hcall⟩, ctx, result, hfeed, .inl ⟨hresult, rfl, rfl⟩,
      Outcome.Handled.httpStatus_eq (by rintro _ ⟨⟩)⟩
  · -- the request is dispatched
    cases h
    obtain ⟨rfl, rfl⟩ := writeReq_connWriteResponse hanswer
    exact ⟨rfl, ⟨_, _, hcall⟩, ctx, result, hfeed, .inr ⟨not_lt.mp hresult, hcomplete, rfl,
      snd_dispatchOutcome ctx.request.s3 ctx.dispatchedRequest⟩,
      Outcome.Handled.httpStatus_eq (handled_dispatchOutcome _ _)⟩
  · cases h
    exact absurd hanswer hpending

/-- Where a connection of the server comes from, after a step: it was there, it is new, it was
polled, or its write was completed. -/
inductive ConnOrigin {S : Service} (server : HttpServer L S) (op : ServerStep)
    (c' : ServerConn L S) : Prop where
  | kept (c : ServerConn L S) (hc : c ∈ server.connList) (hid : c.id = c'.id)
      (hconn : c'.conn = c.conn)
  | accepted (n : UInt32) (hconn : c'.conn = httpConnAccept L S n)
  | polled (c : ServerConn L S) (hc : c ∈ server.connList) (hid : c.id = c'.id) (recv : RecvResult)
      (inline : Bool) (now : UInt64) (hop : op = .poll c'.id recv inline now)
      (events : List ConnEvent)
      (hpoll : pollReadable c.conn recv.bytes inline = some (c'.conn, events))
  | completed (c : ServerConn L S) (hc : c ∈ server.connList) (hid : c.id = c'.id)
      (hconn : c'.conn = (writeCompleted c.conn).1)

theorem connOrigin_of_step {S : Service} {server server' : HttpServer L S} {op : ServerStep}
    (hstep : ((serverMachine L S).step (some server) op).1 = some server') {c' : ServerConn L S}
    (hc' : c' ∈ server'.connList) : ConnOrigin server op c' := by
  have hkept {c : ServerConn L S} (hc : c ∈ server.connList) : ConnOrigin server op c :=
    .kept c hc rfl rfl
  have hfound {id : ℕ} {c : ServerConn L S} (hfind : server.find id = some c) :
      c ∈ server.connList ∧ c.id = id :=
    ⟨List.mem_of_find?_eq_some hfind, by simpa using List.find?_some hfind⟩
  have hclose {id : ℕ} (hc' : c' ∈ (server.close id).connList) : ConnOrigin server op c' :=
    hkept (List.mem_of_mem_eraseP hc')
  cases op with
  | writeComplete id =>
    rcases hfind : server.find id with _ | c <;> simp only [serverMachine, hfind] at hstep <;>
      cases hstep
    · exact hkept hc'
    · rcases eq_or_mem_of_mem_upsert hc' with rfl | hc'
      · exact .completed c (hfound hfind).1 rfl rfl
      · exact hkept hc'
  | accept now =>
    cases hstep
    rw [HttpServer.accept] at hc'
    split_ifs at hc'
    · exact hkept hc'
    · rcases List.mem_append.mp hc' with hc' | hc'
      · exact hkept hc'
      · obtain rfl := List.mem_singleton.mp hc'
        exact .accepted server.maxRequestBody rfl
  | poll id recv inline now =>
    rcases hfind : server.find id with _ | c <;> simp only [serverMachine, hfind] at hstep
    · cases hstep
      exact hkept hc'
    obtain ⟨hc, rfl⟩ := hfound hfind
    rw [pollConn] at hstep
    rcases hpoll : pollReadable c.conn recv.bytes inline with _ | ⟨conn, events⟩ <;>
      rw [hpoll] at hstep
    · cases hstep
    dsimp only at hstep
    split_ifs at hstep <;> cases hstep
    · exact hclose hc'
    all_goals
      rcases eq_or_mem_of_mem_upsert hc' with rfl | hc'
      · exact .polled c hc rfl recv inline now rfl events hpoll
      · exact hkept hc'
  | checkTimeout id now =>
    rcases hfind : server.find id with _ | c <;> simp only [serverMachine, hfind] at hstep
    · cases hstep
      exact hkept hc'
    · split_ifs at hstep <;> cases hstep
      · exact hclose hc'
      · exact hkept hc'
  | timeoutsChecked now =>
    cases hstep
    exact hkept hc'

/-- A response that is pending after a step was pending before on the same connection, which has not
changed, or the step is the read that has submitted it. -/
theorem pending_step {server server' : HttpServer L accessService} {op : ServerStep}
    (hok : ServerOk server)
    (hstep : ((serverMachine L accessService).step (some server) op).1 = some server')
    {c' : ServerConn L accessService} (hc' : c' ∈ server'.connList) {answer : Submission}
    (hanswer : c'.conn.writeReq = some answer) :
    ∃ c ∈ server.connList, c.id = c'.id ∧ (c'.conn = c.conn ∨
      ∃ recv now, op = .poll c'.id recv false now ∧
        SubmitsAnswer c.conn c'.conn recv.bytes answer) := by
  cases connOrigin_of_step hstep hc' with
  | kept c hc hid hconn => exact ⟨c, hc, hid, .inl hconn⟩
  | accepted n hconn =>
    rw [hconn] at hanswer
    cases hanswer
  | polled c hc hid recv inline now hop events hpoll =>
    refine ⟨c, hc, hid, ?_⟩
    by_cases hstate : c.conn.state = .reading ∨ c.conn.state = .idle
    · have hnone : c.conn.writeReq = none := by
        rw [← Option.not_isSome_iff_eq_none, (hok.conn_ok c hc).writeReq_iff]
        rcases hstate with hstate | hstate <;> simp [hstate]
      obtain ⟨dispatched, hread⟩ := pollReadable_cases hstate hpoll
      obtain ⟨rfl, hsubmits⟩ := submitsAnswer_of_readable hnone hread hanswer
      exact .inr ⟨recv, now, hop, hsubmits⟩
    · rw [pollReadable, if_neg hstate] at hpoll
      exact .inl (Prod.mk.inj (Option.some.inj hpoll)).1.symm
  | completed c hc hid hconn =>
    refine ⟨c, hc, hid, .inl (hconn.trans ?_)⟩
    rw [hconn] at hanswer
    rw [writeCompleted] at hanswer ⊢
    split_ifs at hanswer ⊢
    · cases (writeReq_onWriteComplete c.conn).symm.trans hanswer
    · rfl

/-- **Responses answer their requests.** In every run of the server, with any bytes, clients, write
completions and time-outs, a response whose write is pending was submitted by a read of its
connection in the run, and the connection has not changed since then; the response answers what the
parser has made of the bytes that were read. This is about the response that is submitted, not about
the bytes in the static buffers that its write will read. -/
theorem responses_sound (L : Llhttp) (config : HttpServerConfig) (steps : List ServerStep)
    {server : HttpServer L accessService}
    (hrun : (serverMachine L accessService).run (some (httpServerCreate L accessService config))
      steps = some server)
    {c : ServerConn L accessService} (hc : c ∈ server.connList) {answer : Submission}
    (hanswer : c.conn.writeReq = some answer) :
    ∃ before recv now after earlier c₀, steps = before ++ .poll c.id recv false now :: after ∧
      (serverMachine L accessService).run (some (httpServerCreate L accessService config)) before =
        some earlier ∧
      c₀ ∈ earlier.connList ∧ c₀.id = c.id ∧ SubmitsAnswer c₀.conn c.conn recv.bytes answer := by
  -- from the last step back to the read
  induction steps using List.reverseRecOn generalizing server c with
  | nil =>
    cases hrun
    exact absurd hc List.not_mem_nil
  | append_singleton steps op ih =>
    rw [Machine.run_append] at hrun
    have hfollowed := followed_run (L := L) (S := accessService) config steps
    rcases hserver : (serverMachine L accessService).run
        (some (httpServerCreate L accessService config)) steps with _ | s
    · rw [hserver] at hrun
      cases hrun
    rw [hserver] at hrun hfollowed
    obtain ⟨c₁, hc₁, hid, hsame | ⟨recv, now, rfl, hsubmits⟩⟩ :=
      pending_step hfollowed.1 hrun hc hanswer
    · obtain ⟨before, recv, now, after, earlier, c₀, rfl, hearlier, hc₀, hid₀, hsubmits⟩ :=
        ih hserver hc₁ (hsame ▸ hanswer)
      refine ⟨before, recv, now, after ++ [op], earlier, c₀, ?_, hearlier, hc₀, hid₀.trans hid,
        hsame ▸ hsubmits⟩
      rw [hid, List.append_assoc, List.cons_append]
    · exact ⟨steps, recv, now, [], s, c₁, rfl, hserver, hc₁, hid, hsubmits⟩

/-- A client sends a request, and the response waits for its socket while another client comes. -/
theorem responses_sound_getRoot :
    let steps : List ServerStep := [.accept 0, .poll 0 (.data getRoot) false 1, .accept 2]
    ∃ server c answer, (serverMachine getLlhttp accessService).run
        (some (httpServerCreate getLlhttp accessService ⟨0, 0, 0, 0⟩)) steps = some server ∧
      c ∈ server.connList ∧ c.conn.writeReq = some answer ∧
      ∃ before recv now after earlier c₀, steps = before ++ .poll c.id recv false now :: after ∧
        (serverMachine getLlhttp accessService).run
          (some (httpServerCreate getLlhttp accessService ⟨0, 0, 0, 0⟩)) before = some earlier ∧
        c₀ ∈ earlier.connList ∧ c₀.id = c.id ∧ SubmitsAnswer c₀.conn c.conn recv.bytes answer :=
  ⟨_, _, _, rfl, List.mem_cons_self, rfl,
    responses_sound getLlhttp ⟨0, 0, 0, 0⟩
      [.accept 0, .poll 0 (.data getRoot) false 1, .accept 2] rfl List.mem_cons_self rfl⟩

end LightFS.Access
