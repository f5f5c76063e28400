import Mathlib.Algebra.Group.Int.Defs
import LightFS.Library.CString
import LightFS.Library.StreamParser

/-!
# The HTTP parser of a connection

The parser context of a connection (`src/access/http_parser.c`). The syntax of HTTP is parsed by
llhttp, which is not part of the repository; what it does with one byte is a parameter (`Llhttp`).
llhttp hands the parts of a message to callbacks as spans of the buffer it is given, a span ending
where the buffer ends (`joinSpans`), and the callbacks collect the request in the context.

Character arrays are modelled by the strings they hold and the body buffer by the bytes written
to it; `header_ptrs` only points to the header slots below `header_count`. Allocations succeed.
The loop that doubles the capacity of the body buffer may not end: the callback is then `none`.

## Main definitions

* `LlhttpEvent`, `Llhttp`, `joinSpans`, `Llhttp.callbacks`.
* `HttpRequest`, `HttpParserCtx`, and the callbacks `onMessageBegin` … `onMessageComplete`.
* `deliver`, `httpParserFeed`, `httpParserReset`.

## Main results

* `deliver_isMessage` — the callbacks of a request within the limits complete it.
-/

namespace LightFS.Access

open Library

/-! ### llhttp -/

/-- A callback of llhttp with its arguments; `on_headers_complete` reads the method, the
keep-alive flag and the content length from the parser. No callback is set for the boundaries of
chunks. -/
inductive LlhttpEvent where
  | messageBegin
  | url (span : List UInt8)
  | headerField (span : List UInt8)
  | headerValue (span : List UInt8)
  | headersComplete (method : CString) (keepAlive : Bool) (contentLength : UInt64)
  | body (span : List UInt8)
  | chunkBoundary
  | messageComplete

namespace LlhttpEvent

/-- Two pieces of one span. -/
def join : LlhttpEvent → LlhttpEvent → Option LlhttpEvent
  | url a, url b => some (url (a ++ b))
  | headerField a, headerField b => some (headerField (a ++ b))
  | headerValue a, headerValue b => some (headerValue (a ++ b))
  | body a, body b => some (body (a ++ b))
  | _, _ => none

/-- llhttp stops here, because `on_message_complete` returns `HPE_PAUSED`. -/
def isMessageComplete : LlhttpEvent → Bool
  | messageComplete => true
  | _ => false

/-- The bytes of the body in a callback. -/
def bodyBytes : LlhttpEvent → List UInt8
  | body span => span
  | _ => []

end LlhttpEvent

/-- The callbacks for the events of one buffer: the pieces of a span are handed over together. -/
def joinSpans : List LlhttpEvent → List LlhttpEvent
  | [] => []
  | e :: rest =>
    match joinSpans rest with
    | [] => [e]
    | e' :: joined =>
      match e.join e' with
      | some whole => whole :: joined
      | none => e :: e' :: joined

/-- What llhttp does with one byte, and its state after `llhttp_init` or `llhttp_reset`. -/
structure Llhttp where
  State : Type
  init : State
  step : State → UInt8 → Except ℕ (State × List LlhttpEvent)

/-- `HPE_USER`, the error for a callback that returns `-1`. -/
abbrev hpeUser : ℕ := 24

namespace Llhttp

variable (L : Llhttp)

/-- llhttp with the callbacks of the server. -/
def parser : StreamParser UInt8 L.State LlhttpEvent ℕ := ⟨L.step, LlhttpEvent.isMessageComplete⟩

/-- The callbacks llhttp makes for a buffer that begins at the start of a message. -/
def callbacks (data : List UInt8) : List LlhttpEvent :=
  joinSpans (L.parser.execute L.init data).events

end Llhttp

/-! ### The context -/

/-- `HTTP_MAX_HEADERS`. -/
abbrev httpMaxHeaders : ℕ := 64

/-- `HTTP_MAX_URI`. -/
abbrev httpMaxUri : ℕ := 4096

/-- `HTTP_METHOD_MAX`. -/
abbrev httpMethodMax : ℕ := 16

/-- `HTTP_DEFAULT_BODY_BUF`. -/
abbrev httpDefaultBodyBuf : ℕ := 65536

/-- `S3_MAX_HEADER_LENGTH`. -/
abbrev s3MaxHeaderLength : ℕ := 256

/-- `s3_operation_t`. -/
inductive S3Operation where
  | putObject
  | getObject
  | deleteObject
  | headObject
  | listObjects
  | putBucket
  | deleteBucket
  | unknown
deriving DecidableEq

/-- `s3_request_t`, without the fields for customer keys, which nothing sets. -/
structure S3Request where
  bucket : CharArray 255
  key : CharArray 1024
  operation : S3Operation
  contentLength : UInt64
  contentType : CharArray s3MaxHeaderLength
  authorization : CharArray s3MaxHeaderLength
  host : CharArray s3MaxHeaderLength
  date : CharArray s3MaxHeaderLength
deriving DecidableEq

/-- `http_request_t`. -/
structure HttpRequest where
  s3 : S3Request
  method : CharArray (httpMethodMax - 1)
  uri : CharArray (httpMaxUri - 1)
  /-- The bytes written to the body buffer, `none` for a null pointer. -/
  body : Option (List UInt8)
  bodyLen : ℕ
  bodyCapacity : ℕ
  complete : Bool
  keepAlive : Bool

/-- `http_parser_ctx_t`. -/
structure HttpParserCtx (L : Llhttp) where
  parser : L.State
  request : HttpRequest
  headerNames : ℕ → CharArray s3MaxHeaderLength
  headerValues : ℕ → CharArray s3MaxHeaderLength
  headerCount : ℕ
  curHeaderName : CharArray s3MaxHeaderLength
  parsingHeaderValue : Bool
  errorFlag : Bool
  lastError : ℕ
  maxBodySize : UInt32

variable {L : Llhttp}

/-- `http_parser_init`, and the limit that `http_conn_accept` sets after it. -/
def httpParserInit (L : Llhttp) (maxBodySize : UInt32) : HttpParserCtx L where
  parser := L.init
  request :=
    { s3 := ⟨.empty, .empty, .putObject, 0, .empty, .empty, .empty, .empty⟩
      method := .empty
      uri := .empty
      body := none
      bodyLen := 0
      bodyCapacity := 0
      complete := false
      keepAlive := false }
  headerNames _ := .empty
  headerValues _ := .empty
  headerCount := 0
  curHeaderName := .empty
  parsingHeaderValue := false
  errorFlag := false
  lastError := 0
  maxBodySize := maxBodySize

/-- The headers in the table. -/
def HttpParserCtx.headers (ctx : HttpParserCtx L) :
    List (CharArray s3MaxHeaderLength × CharArray s3MaxHeaderLength) :=
  (List.range ctx.headerCount).map fun i => (ctx.headerNames i, ctx.headerValues i)

/-! ### Callbacks -/

/-- `on_message_begin`. -/
def onMessageBegin (ctx : HttpParserCtx L) : HttpParserCtx L :=
  { ctx with
    request :=
      { ctx.request with
        method := .empty
        uri := .empty
        body := none
        bodyLen := 0
        bodyCapacity := 0
        complete := false
        keepAlive := false }
    headerCount := 0
    parsingHeaderValue := false
    errorFlag := false }

/-- `on_url`. -/
def onUrl (ctx : HttpParserCtx L) (data : List UInt8) : HttpParserCtx L :=
  let copyLen := if data.length < httpMaxUri - 1 then data.length else httpMaxUri - 1
  { ctx with request := { ctx.request with uri := .strncpy (.ofMemory (data.take copyLen)) } }

/-- The header whose value was being read is finished. -/
def finishHeader (ctx : HttpParserCtx L) : ℕ :=
  if ctx.parsingHeaderValue ∧ ctx.headerCount < httpMaxHeaders then ctx.headerCount + 1
  else ctx.headerCount

/-- `on_header_field`. -/
def onHeaderField (ctx : HttpParserCtx L) (data : List UInt8) : HttpParserCtx L :=
  let copyLen := if data.length < s3MaxHeaderLength then data.length else s3MaxHeaderLength
  { ctx with
    headerCount := finishHeader ctx
    parsingHeaderValue := false
    curHeaderName := .strncpy (.ofMemory (data.take copyLen)) }

/-- `on_header_value`. -/
def onHeaderValue (ctx : HttpParserCtx L) (data : List UInt8) : HttpParserCtx L :=
  if httpMaxHeaders ≤ ctx.headerCount then ctx
  else
    let name := if ctx.parsingHeaderValue then ctx.headerNames ctx.headerCount
      else ctx.curHeaderName
    let value := if ctx.parsingHeaderValue then ctx.headerValues ctx.headerCount else .empty
    let copyLen :=
      if data.length < s3MaxHeaderLength - value.length then data.length
      else s3MaxHeaderLength - value.length
    { ctx with
      headerNames := Function.update ctx.headerNames ctx.headerCount name
      headerValues := Function.update ctx.headerValues ctx.headerCount
        (.strncpy (.ofMemory (value.bytes ++ data.take copyLen)))
      parsingHeaderValue := true }

/-- `on_headers_complete`. -/
def onHeadersComplete (ctx : HttpParserCtx L) (method : CString) (keepAlive : Bool)
    (contentLength : UInt64) : HttpParserCtx L :=
  let request := { ctx.request with method := .strncpy method, keepAlive := keepAlive }
  { ctx with
    headerCount := finishHeader ctx
    request :=
      if 0 < contentLength then
        { request with
          body := some []
          bodyCapacity :=
            if contentLength.toNat < httpDefaultBodyBuf then contentLength.toNat
            else httpDefaultBodyBuf }
      else request }

/-- The loop of `on_body`: the `size_t` capacity is doubled until it is large enough. After 64
rounds the capacity is zero and the loop does not end. -/
def growCapacity (needed : ℕ) : ℕ → ℕ → Option ℕ
  | 0, _ => none
  | fuel + 1, capacity =>
    if needed ≤ capacity then some capacity else growCapacity needed fuel (capacity * 2 % 2 ^ 64)

/-- The capacity of the body buffer that `on_body` needs for `needed` bytes. -/
def bodyCapacityFor (request : HttpRequest) (needed : ℕ) : Option ℕ :=
  if request.body = none ∨ request.bodyCapacity < needed then
    (growCapacity needed 65
      (if request.bodyCapacity ≠ 0 then request.bodyCapacity * 2 % 2 ^ 32
        else httpDefaultBodyBuf)).map (· % 2 ^ 32)
  else some request.bodyCapacity

/-- The bytes of a span are written behind the body received so far. -/
def appendBody (ctx : HttpParserCtx L) (data : List UInt8) (capacity : ℕ) : HttpParserCtx L :=
  { ctx with
    request :=
      { ctx.request with
        body := some ((ctx.request.body.getD []).take ctx.request.bodyLen ++ data)
        bodyLen := (ctx.request.bodyLen + data.length) % 2 ^ 32
        bodyCapacity := capacity } }

/-- `on_body`: the context and whether the callback returned `0`; `none` when it does not
return. -/
def onBody (ctx : HttpParserCtx L) (data : List UInt8) : Option (HttpParserCtx L × Bool) :=
  let needed := ctx.request.bodyLen + data.length
  if 0 < ctx.maxBodySize ∧ ctx.maxBodySize.toNat < needed then
    some ({ ctx with errorFlag := true, lastError := hpeUser }, false)
  else
    (bodyCapacityFor ctx.request needed).map fun capacity => (appendBody ctx data capacity, true)

/-- A header of the request, read by `on_message_complete`. -/
def readHeader (s3 : S3Request) (name value : CharArray s3MaxHeaderLength) : S3Request :=
  if strcasecmpEq name.toCString (.ofString "content-length") then
    { s3 with contentLength := strtoull value.toCString }
  else if strcasecmpEq name.toCString (.ofString "content-type") then
    { s3 with contentType := .strncpy value.toCString }
  else if strcasecmpEq name.toCString (.ofString "authorization") then
    { s3 with authorization := .strncpy value.toCString }
  else if strcasecmpEq name.toCString (.ofString "host") then
    { s3 with host := .strncpy value.toCString }
  else if strcasecmpEq name.toCString (.ofString "x-amz-date") then
    { s3 with date := .strncpy value.toCString }
  else s3

/-- `on_message_complete`. -/
def onMessageComplete (ctx : HttpParserCtx L) : HttpParserCtx L :=
  { ctx with
    request :=
      { ctx.request with
        s3 := ctx.headers.foldl (fun s3 header => readHeader s3 header.1 header.2) ctx.request.s3
        complete := true } }

/-- One callback. -/
def callback (ctx : HttpParserCtx L) : LlhttpEvent → Option (HttpParserCtx L × Bool)
  | .messageBegin => some (onMessageBegin ctx, true)
  | .url span => some (onUrl ctx span, true)
  | .headerField span => some (onHeaderField ctx span, true)
  | .headerValue span => some (onHeaderValue ctx span, true)
  | .headersComplete method keepAlive contentLength =>
    some (onHeadersComplete ctx method keepAlive contentLength, true)
  | .body span => onBody ctx span
  | .chunkBoundary => some (ctx, true)
  | .messageComplete => some (onMessageComplete ctx, true)

/-- The callbacks of a buffer, up to the first that fails. -/
def deliver : HttpParserCtx L → List LlhttpEvent → Option (HttpParserCtx L × Bool)
  | ctx, [] => some (ctx, true)
  | ctx, e :: rest =>
    match callback ctx e with
    | some (ctx, true) => deliver ctx rest
    | failed => failed

/-! ### Feeding bytes -/

/-- A `ptrdiff_t` cast to `int`. -/
def toInt32 (n : ℕ) : ℤ :=
  if n % 2 ^ 32 < 2 ^ 31 then (n % 2 ^ 32 : ℕ) else (n % 2 ^ 32 : ℕ) - 2 ^ 32

/-- `http_parser_feed`: the context and the number of bytes consumed, or `-1`. llhttp has an error
position when it was paused. -/
def httpParserFeed (ctx : HttpParserCtx L) (data : List UInt8) : Option (HttpParserCtx L × ℤ) :=
  let run := L.parser.execute ctx.parser data
  match deliver { ctx with parser := run.state } (joinSpans run.events) with
  | none => none
  | some (ctx, false) => some ({ ctx with errorFlag := true, lastError := hpeUser }, -1)
  | some (ctx, true) =>
    match run.outcome with
    | .error code => some ({ ctx with errorFlag := true, lastError := code }, -1)
    | .paused => some (ctx, toInt32 run.consumed)
    | .ok => some (ctx, 0)

/-- `http_request_destroy`. -/
def httpRequestDestroy (request : HttpRequest) : HttpRequest :=
  { request with body := none, bodyLen := 0, bodyCapacity := 0 }

/-- `http_parser_reset`. -/
def httpParserReset (ctx : HttpParserCtx L) : HttpParserCtx L :=
  { ctx with
    request := httpRequestDestroy ctx.request
    parser := L.init
    headerCount := 0
    parsingHeaderValue := false
    errorFlag := false }

/-! ### The callbacks of a message -/

/-- A callback in the middle of a message. -/
def LlhttpEvent.isPart : LlhttpEvent → Bool
  | .url _ | .headerField _ | .headerValue _ | .body _ | .chunkBoundary => true
  | _ => false

/-- The number of body bytes in the callbacks. -/
def bodyLength (events : List LlhttpEvent) : ℕ := (events.flatMap LlhttpEvent.bodyBytes).length

/-- The callbacks of one message, on a connection that is kept alive. -/
def IsMessage (events : List LlhttpEvent) : Prop :=
  ∃ head method contentLength tail,
    events = .messageBegin :: (head ++ .headersComplete method true contentLength ::
      (tail ++ [.messageComplete])) ∧
    (∀ e ∈ head, e.isPart) ∧ ∀ e ∈ tail, e.isPart

/-- The capacity of the body buffer is a `uint32_t`, and zero as long as there is no buffer. -/
structure BodyRoom (request : HttpRequest) : Prop where
  capacity_lt : request.bodyCapacity < 2 ^ 32
  capacity_of_none : request.body = none → request.bodyCapacity = 0

/-- What the callbacks in the middle of a message with `n` bytes of the body leave. -/
structure PartsDelivered (ctx : HttpParserCtx L) (n : ℕ) (ctx' : HttpParserCtx L) : Prop where
  room : BodyRoom ctx'.request
  bodyLen_eq : ctx'.request.bodyLen = ctx.request.bodyLen + n
  keepAlive_eq : ctx'.request.keepAlive = ctx.request.keepAlive
  maxBodySize_eq : ctx'.maxBodySize = ctx.maxBodySize

theorem deliver_append (ctx : HttpParserCtx L) (events events' : List LlhttpEvent) :
    deliver ctx (events ++ events') =
      match deliver ctx events with
      | some (ctx', true) => deliver ctx' events'
      | failed => failed := by
  induction events generalizing ctx with
  | nil => rfl
  | cons e events ih =>
    rw [List.cons_append, deliver, deliver]
    rcases callback ctx e with _ | ⟨ctx', _ | _⟩
    · rfl
    · rfl
    · exact ih ctx'

/-- The loop ends with a 32-bit capacity when no more than `2 ^ 31` bytes are needed. -/
theorem growCapacity_spec {needed capacity : ℕ} (fuel : ℕ) (hneeded : needed ≤ 2 ^ 31)
    (hcapacity : capacity < 2 ^ 32) (hfuel : needed ≤ capacity * 2 ^ fuel) :
    ∃ c < 2 ^ 32, growCapacity needed (fuel + 1) capacity = some c := by
  induction fuel generalizing capacity with
  | zero => exact ⟨capacity, hcapacity, if_pos (by simpa using hfuel)⟩
  | succ fuel ih =>
    rw [growCapacity]
    split_ifs with henough
    · exact ⟨capacity, hcapacity, rfl⟩
    · rw [Nat.mod_eq_of_lt (by omega)]
      refine ih (by omega) ?_
      rwa [Nat.mul_assoc, ← Nat.pow_succ']

theorem bodyCapacityFor_spec {request : HttpRequest} (hroom : BodyRoom request) {needed : ℕ}
    (hneeded : needed ≤ 2 ^ 31) : ∃ c < 2 ^ 32, bodyCapacityFor request needed = some c := by
  rw [bodyCapacityFor]
  split_ifs with hgrow hcapacity
  · have hsmall : request.bodyCapacity * 2 < 2 ^ 32 := by
      rcases hgrow with hnone | hlt
      · exact absurd (hroom.capacity_of_none hnone) hcapacity
      · omega
    obtain ⟨c, hc, hgrown⟩ := growCapacity_spec 64 hneeded hsmall (by omega)
    rw [Nat.mod_eq_of_lt hsmall, hgrown]
    exact ⟨c, hc, congrArg some (Nat.mod_eq_of_lt hc)⟩
  · have hdefault : httpDefaultBodyBuf = 65536 := rfl
    obtain ⟨c, hc, hgrown⟩ : ∃ c < 2 ^ 32, growCapacity needed 65 httpDefaultBodyBuf = some c :=
      growCapacity_spec 64 hneeded (by omega) (by omega)
    rw [hgrown]
    exact ⟨c, hc, congrArg some (Nat.mod_eq_of_lt hc)⟩
  · exact ⟨request.bodyCapacity, hroom.capacity_lt, rfl⟩

/-- A callback in the middle of a message succeeds while the body stays within its limit. -/
theorem callback_part {ctx : HttpParserCtx L} {e : LlhttpEvent} (he : e.isPart)
    (hroom : BodyRoom ctx.request)
    (hmax : ctx.request.bodyLen + e.bodyBytes.length ≤ ctx.maxBodySize.toNat)
    (hlen : ctx.request.bodyLen + e.bodyBytes.length ≤ 2 ^ 31) :
    ∃ ctx', callback ctx e = some (ctx', true) ∧
      PartsDelivered ctx e.bodyBytes.length ctx' := by
  cases e with
  | messageBegin => cases he
  | headersComplete => cases he
  | messageComplete => cases he
  | url span => exact ⟨_, rfl, ⟨hroom.capacity_lt, hroom.capacity_of_none⟩, rfl, rfl, rfl⟩
  | headerField span => exact ⟨_, rfl, hroom, rfl, rfl, rfl⟩
  | chunkBoundary => exact ⟨_, rfl, hroom, rfl, rfl, rfl⟩
  | headerValue span =>
    refine ⟨onHeaderValue ctx span, rfl, ?_⟩
    unfold onHeaderValue
    split
    · exact ⟨hroom, rfl, rfl, rfl⟩
    · exact ⟨hroom, rfl, rfl, rfl⟩
  | body span =>
    obtain ⟨c, hc, hcapacity⟩ := bodyCapacityFor_spec hroom hlen
    have hwithin : ¬ (0 < ctx.maxBodySize ∧
        ctx.maxBodySize.toNat < ctx.request.bodyLen + span.length) := fun h =>
      absurd h.2 (not_lt.mpr hmax)
    have hbytes : (LlhttpEvent.body span).bodyBytes.length = span.length := rfl
    refine ⟨appendBody ctx span c, ?_, ⟨hc, nofun⟩, Nat.mod_eq_of_lt (by omega), rfl, rfl⟩
    rw [callback, onBody, if_neg hwithin]
    exact congrArg (Option.map _) hcapacity

theorem bodyLength_cons (e : LlhttpEvent) (events : List LlhttpEvent) :
    bodyLength (e :: events) = e.bodyBytes.length + bodyLength events := by
  simp [bodyLength]

theorem bodyLength_append (events events' : List LlhttpEvent) :
    bodyLength (events ++ events') = bodyLength events + bodyLength events' := by
  simp [bodyLength]

theorem deliver_parts {ctx : HttpParserCtx L} {events : List LlhttpEvent}
    (hparts : ∀ e ∈ events, e.isPart) (hroom : BodyRoom ctx.request)
    (hmax : ctx.request.bodyLen + bodyLength events ≤ ctx.maxBodySize.toNat)
    (hlen : ctx.request.bodyLen + bodyLength events ≤ 2 ^ 31) :
    ∃ ctx', deliver ctx events = some (ctx', true) ∧
      PartsDelivered ctx (bodyLength events) ctx' := by
  induction events generalizing ctx with
  | nil => exact ⟨ctx, rfl, hroom, rfl, rfl, rfl⟩
  | cons e events ih =>
    rw [bodyLength_cons] at hmax hlen ⊢
    obtain ⟨ctx₁, hcallback, hroom₁, hbodyLen₁, halive₁, hmax₁⟩ :=
      callback_part (hparts e List.mem_cons_self) hroom (by omega) (by omega)
    obtain ⟨ctx₂, hdeliver, hroom₂, hbodyLen₂, halive₂, hmax₂⟩ :=
      ih (fun e he => hparts e (List.mem_cons_of_mem _ he)) hroom₁
        (by rw [hbodyLen₁, hmax₁]; omega) (by rw [hbodyLen₁]; omega)
    refine ⟨ctx₂, ?_, hroom₂, by omega, halive₂.trans halive₁, hmax₂.trans hmax₁⟩
    rw [deliver, hcallback]
    exact hdeliver

theorem bodyRoom_onHeadersComplete {ctx : HttpParserCtx L} (hroom : BodyRoom ctx.request)
    (method : CString) (keepAlive : Bool) (contentLength : UInt64) :
    BodyRoom (onHeadersComplete ctx method keepAlive contentLength).request := by
  unfold onHeadersComplete
  dsimp only
  split_ifs with hlength hsmall
  · exact ⟨hsmall.trans (show httpDefaultBodyBuf < 2 ^ 32 by decide), nofun⟩
  · exact ⟨show httpDefaultBodyBuf < 2 ^ 32 by decide, nofun⟩
  · exact ⟨hroom.capacity_lt, hroom.capacity_of_none⟩

theorem bodyLen_onHeadersComplete (ctx : HttpParserCtx L) (method : CString) (keepAlive : Bool)
    (contentLength : UInt64) :
    (onHeadersComplete ctx method keepAlive contentLength).request.bodyLen =
      ctx.request.bodyLen := by
  unfold onHeadersComplete
  dsimp only
  split_ifs <;> rfl

theorem keepAlive_onHeadersComplete (ctx : HttpParserCtx L) (method : CString) (keepAlive : Bool)
    (contentLength : UInt64) :
    (onHeadersComplete ctx method keepAlive contentLength).request.keepAlive = keepAlive := by
  unfold onHeadersComplete
  dsimp only
  split_ifs <;> rfl

/-- **The callbacks of a message** whose body is within the limit succeed and leave a complete
request that keeps the connection alive. -/
theorem deliver_isMessage (ctx : HttpParserCtx L) {events : List LlhttpEvent}
    (hmessage : IsMessage events) (hmax : bodyLength events ≤ ctx.maxBodySize.toNat)
    (hlen : bodyLength events ≤ 2 ^ 31) :
    ∃ ctx', deliver ctx events = some (ctx', true) ∧ ctx'.request.complete = true ∧
      ctx'.request.keepAlive = true ∧ ctx'.maxBodySize = ctx.maxBodySize := by
  obtain ⟨head, method, contentLength, tail, rfl, hhead, htail⟩ := hmessage
  simp only [bodyLength_cons, bodyLength_append, LlhttpEvent.bodyBytes, List.length_nil]
    at hmax hlen
  have hbegin : (onMessageBegin ctx).request.bodyLen = 0 := rfl
  have hlimit : (onMessageBegin ctx).maxBodySize = ctx.maxBodySize := rfl
  obtain ⟨ctx₁, hdeliver₁, hroom₁, hbodyLen₁, -, hmax₁⟩ : ∃ ctx₁, deliver (onMessageBegin ctx)
      head = some (ctx₁, true) ∧ PartsDelivered (onMessageBegin ctx) (bodyLength head) ctx₁ :=
    deliver_parts hhead ⟨Nat.two_pow_pos 32, fun _ => rfl⟩ (by rw [hbegin, hlimit]; omega)
      (by rw [hbegin]; omega)
  -- `on_headers_complete` keeps the length of the body and its room
  have hcomplete₁ := bodyRoom_onHeadersComplete hroom₁ method true contentLength
  have hlength₁ := bodyLen_onHeadersComplete ctx₁ method true contentLength
  have hmax₁' : (onHeadersComplete ctx₁ method true contentLength).maxBodySize =
      ctx.maxBodySize := hmax₁
  obtain ⟨ctx₂, hdeliver₂, -, -, halive₂, hmax₂⟩ :=
    deliver_parts htail hcomplete₁ (by rw [hlength₁, hmax₁']; omega) (by rw [hlength₁]; omega)
  refine ⟨onMessageComplete ctx₂, ?_, rfl, ?_, hmax₂.trans hmax₁'⟩
  · simp only [deliver, callback, deliver_append, hdeliver₁, hdeliver₂]
  · exact halive₂.trans (keepAlive_onHeadersComplete ctx₁ method true contentLength)

end LightFS.Access
