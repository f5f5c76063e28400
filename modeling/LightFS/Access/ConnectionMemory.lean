import LightFS.Access.BodyBuffer
import LightFS.Library.Heap

/-!
# The memory of the HTTP server

A connection of the HTTP server (`src/access/http_server.c`, `http_parser.c`) is allocated when it
is accepted, together with its receive buffer. The parser allocates a buffer for the body of a
request and grows it, and a response has a request of the socket layer. Here these are blocks of a
heap, and every allocation can fail.

From the creation of a server to its destruction, whatever is received, whatever the parser reports
and whichever allocations fail: no block is accessed after its release or released twice, every
access is inside its block, and in the end everything is released but receive buffers that could not
be grown, whose address is overwritten with the null pointer (`http_server_memory`). This is for
servers whose limit for the body of a request is at most `2 ^ 31` bytes; beyond that the loop in
`on_body` that doubles the size of the buffer need not end.

llhttp appears as the order in which it makes its callbacks (`ParserPhase`): it does not begin a
message before it has been reset, since `on_message_complete` pauses it. `spdk_sock_close` may
complete a pending write. Buffers are modelled by their sizes.

## Main definitions

* `ConnRecord`, `ServerRecord`, `Block`.
* `InMemory.httpConnOnReadable`, `InMemory.onWriteComplete`, `InMemory.httpConnClose`.
* `PollInput`, `InMemory.httpServerPoll`, `serverLifetime`.

## Main results

* `ConnRecord.Ok` — the invariant of a connection.
* `http_server_memory`.
-/

namespace LightFS.Access

open Library

/-! ### Blocks -/

/-- How far llhttp is with a message. -/
inductive ParserPhase where
  | start
  | head
  | rest
  | paused

/-- The callbacks that llhttp can make next. -/
def ParserPhase.next : ParserPhase → LlhttpEvent → Option ParserPhase
  | .start, .messageBegin => some .head
  | .head, .url _ | .head, .headerField _ | .head, .headerValue _ => some .head
  | .head, .headersComplete _ _ _ => some .rest
  | .rest, .body _ | .rest, .chunkBoundary => some .rest
  | .rest, .headerField _ | .rest, .headerValue _ => some .rest
  | .rest, .messageComplete => some .paused
  | _, _ => none

/-- `http_conn_t` and its parser context, as far as they concern memory: pointers, sizes, and the
flags that the code branches on. -/
structure ConnRecord where
  recvBuf : Option ℕ
  recvBufSize : ℕ
  recvLen : ℕ
  body : Option ℕ
  bodyLen : ℕ
  bodyCapacity : ℕ
  maxBodySize : ℕ
  complete : Bool
  keepAlive : Bool
  parser : ParserPhase
  writeReq : Option ℕ
  state : ConnState

/-- `http_server_t`. -/
structure ServerRecord where
  connList : List ℕ
  maxConnections : ℕ
  maxRequestBody : ℕ

/-- What is allocated. -/
inductive Block where
  | server (record : ServerRecord)
  | conn (record : ConnRecord)
  | bytes (size : ℕ)
  /-- A `struct spdk_sock_request`. -/
  | request

namespace Block

def server? : Block → Option ServerRecord
  | server record => some record
  | _ => none

def conn? : Block → Option ConnRecord
  | conn record => some record
  | _ => none

/-- The block is a buffer with room for so many bytes. -/
def room? (n : ℕ) : Block → Option Unit
  | bytes size => if n ≤ size then some () else none
  | _ => none

end Block

/-! ### The code of a connection -/

/-- What happens to a response: whether it is serialized, whether there is memory for its request,
and whether the write completes inside `spdk_sock_writev_async`. -/
structure WriteOutcome where
  serialized : Bool
  succeeds : Bool
  inline : Bool

/-- What a read meets: whether the receive buffer can be grown, the number of bytes received, the
callbacks of llhttp with the outcomes of their allocations, whether llhttp fails, and the number of
bytes consumed. -/
structure ReadInput where
  growSucceeds : Bool
  nread : ℕ
  callbacks : List (LlhttpEvent × Bool)
  failed : Bool
  consumed : ℕ
  write : WriteOutcome

namespace InMemory

/-- The first bytes of a buffer are written. -/
def touch : Option ℕ → ℕ → HeapM Block Unit
  | none, _ => fun _ => none
  | some p, n => load (Block.room? n) p

/-- `http_request_destroy`. -/
def httpRequestDestroy (r : ConnRecord) : HeapM Block ConnRecord := do
  free r.body
  return { r with body := none, bodyLen := 0, bodyCapacity := 0 }

/-- `http_parser_reset`. -/
def httpParserReset (r : ConnRecord) : HeapM Block ConnRecord := do
  let r ← httpRequestDestroy r
  return { r with parser := .start }

/-- `http_conn_on_write_done`. -/
def httpConnOnWriteDone (r : ConnRecord) : HeapM Block ConnRecord :=
  if r.keepAlive ∧ r.state ≠ .closing then do
    let r ← httpParserReset r
    return { r with state := .reading }
  else return { r with state := .closing }

/-- `on_write_complete`. -/
def onWriteComplete (r : ConnRecord) : HeapM Block ConnRecord := do
  let req := r.writeReq
  let r ← httpConnOnWriteDone { r with writeReq := none }
  free req
  return r

/-- `conn_write_response`. -/
def connWriteResponse (write : WriteOutcome) (r : ConnRecord) : HeapM Block ConnRecord :=
  if write.serialized then do
    match ← malloc write.succeeds .request with
    | none => return { r with state := .closing }
    | some req =>
      let r := { r with writeReq := some req, state := .writing }
      if write.inline then onWriteComplete r else return r
  else return { r with state := .closing }

/-- `on_message_begin`. The address of a body is not looked at. -/
def onMessageBegin (r : ConnRecord) : ConnRecord :=
  { r with body := none, bodyLen := 0, bodyCapacity := 0, complete := false, keepAlive := false }

/-- `on_headers_complete`. -/
def onHeadersComplete (r : ConnRecord) (keepAlive : Bool) (contentLength : UInt64)
    (succeeds : Bool) : HeapM Block ConnRecord :=
  let r := { r with keepAlive := keepAlive }
  if 0 < contentLength then do
    let allocSize :=
      if contentLength.toNat < httpDefaultBodyBuf then contentLength.toNat else httpDefaultBodyBuf
    let body ← malloc succeeds (.bytes allocSize)
    return { r with body := body, bodyCapacity := allocSize }
  else return r

/-- The copy of a span behind the body received so far. -/
def appendBody (r : ConnRecord) (length : ℕ) : HeapM Block (ConnRecord × Bool) := do
  touch r.body (r.bodyLen + length)
  return ({ r with bodyLen := (r.bodyLen + length) % 2 ^ 32 }, true)

/-- `on_body`: the connection and whether the callback returned `0`. There is no result when the
loop does not end. -/
def onBody (r : ConnRecord) (length : ℕ) (succeeds : Bool) : HeapM Block (ConnRecord × Bool) :=
  let needed := r.bodyLen + length
  if 0 < r.maxBodySize ∧ r.maxBodySize < needed then return (r, false)
  else if r.body = none ∨ r.bodyCapacity < needed then
    match growCapacity needed 65
      (if r.bodyCapacity ≠ 0 then r.bodyCapacity * 2 % 2 ^ 32 else httpDefaultBodyBuf) with
    | none => fun _ => none
    | some newCap => do
      match ← realloc succeeds r.body (.bytes newCap) with
      | none => return (r, false)
      | some p => appendBody { r with body := some p, bodyCapacity := newCap % 2 ^ 32 } length
  else appendBody r length

/-- One callback; the others only write into the connection itself. -/
def callback (r : ConnRecord) (event : LlhttpEvent) (succeeds : Bool) :
    HeapM Block (ConnRecord × Bool) :=
  match event with
  | .messageBegin => return (onMessageBegin r, true)
  | .headersComplete _ keepAlive contentLength => do
    let r ← onHeadersComplete r keepAlive contentLength succeeds
    return (r, true)
  | .body span => onBody r span.length succeeds
  | .messageComplete => return ({ r with complete := true }, true)
  | _ => return (r, true)

/-- The callbacks of a buffer, up to the first that fails. -/
def deliver (r : ConnRecord) : List (LlhttpEvent × Bool) → HeapM Block (ConnRecord × Bool)
  | [] => return (r, true)
  | (event, succeeds) :: rest =>
    match r.parser.next event with
    | none => return (r, true)
    | some phase => do
      match ← callback { r with parser := phase } event succeeds with
      | (r, true) => deliver r rest
      | failed => return failed

/-- The free space of the receive buffer, a `uint32_t`. -/
def space (r : ConnRecord) : ℕ := (2 ^ 32 + r.recvBufSize - r.recvLen) % 2 ^ 32

/-- `http_conn_on_readable` behind the growth of the receive buffer. -/
def receive (input : ReadInput) (r : ConnRecord) : HeapM Block ConnRecord :=
  let nread := min input.nread (space r)
  if nread = 0 then return { r with state := .closing }
  else do
    touch r.recvBuf (r.recvLen + nread)
    let (r, delivered) ← deliver { r with recvLen := r.recvLen + nread } input.callbacks
    if input.failed ∨ ¬ delivered then connWriteResponse input.write { r with keepAlive := false }
    else
      let r := { r with recvLen := r.recvLen - min input.consumed r.recvLen }
      if r.complete then connWriteResponse input.write { r with state := .dispatching }
      else return r

/-- `http_conn_on_readable`. A growth to a size that is `0` as a `uint32_t` releases the buffer; if
there is no memory for a growth the buffer stays, but the connection has lost its address. -/
def httpConnOnReadable (input : ReadInput) (r : ConnRecord) : HeapM Block ConnRecord :=
  if space r < 4096 then do
    let size := r.recvBufSize * 2 % 2 ^ 32
    if size = 0 then
      free r.recvBuf
      return { r with recvBuf := none, recvBufSize := size, state := .closing }
    else
      match ← realloc input.growSucceeds r.recvBuf (.bytes size) with
      | none => return { r with recvBuf := none, recvBufSize := size, state := .closing }
      | some p => receive input { r with recvBuf := some p, recvBufSize := size }
  else receive input r

/-- The socket layer completes the pending write, if there is one and it does. -/
def settleWrite (completes : Bool) (r : ConnRecord) : HeapM Block ConnRecord :=
  if completes ∧ r.writeReq ≠ none then onWriteComplete r else return r

/-- `http_conn_close`, but for the connection itself. `spdk_sock_close` may complete the pending
write. -/
def httpConnClose (completes : Bool) (r : ConnRecord) : HeapM Block Unit := do
  let r ← settleWrite completes r
  let r ← httpRequestDestroy r
  free r.writeReq
  free r.recvBuf

end InMemory

/-! ### The code of the server -/

/-- `http_server_config_t`. -/
structure MemoryConfig where
  maxConnections : ℕ
  maxRequestBody : ℕ

/-- `DEFAULT_MAX_CONNECTIONS`. -/
def defaultMaxConnections : ℕ := 1024

/-- `DEFAULT_MAX_REQUEST_BODY`. -/
def defaultMaxRequestBody : ℕ := 64 * 1024 * 1024

/-- `DEFAULT_RECV_BUF_SIZE`. -/
def defaultRecvBufSize : ℕ := 65536

/-- What a poll meets: the connections whose writes complete, the connections that are accepted with
the outcomes of their allocations, what is read from each connection, the connections that have
expired if it is time to look for them, and the connections whose write completes when their socket
is closed. -/
structure PollInput where
  written : ℕ → Bool
  accepted : List (Bool × Bool)
  read : ℕ → ReadInput
  expired : Option (ℕ → Bool)
  completes : ℕ → Bool

namespace InMemory

/-- A connection behind `calloc` and `http_parser_init`, with its receive buffer. -/
def acceptedConn (maxBodySize : ℕ) (recvBuf : Option ℕ) : ConnRecord where
  recvBuf := recvBuf
  recvBufSize := defaultRecvBufSize
  recvLen := 0
  body := none
  bodyLen := 0
  bodyCapacity := 0
  maxBodySize := maxBodySize
  complete := false
  keepAlive := false
  parser := .start
  writeReq := none
  state := .reading

/-- `http_conn_accept`. -/
def httpConnAccept (p : ℕ) (connSucceeds bufSucceeds : Bool) : HeapM Block Unit := do
  let s ← load Block.server? p
  if s.maxConnections ≤ s.connList.length then return
  match ← malloc connSucceeds (.conn (acceptedConn s.maxRequestBody none)) with
  | none => return
  | some c =>
    match ← malloc bufSucceeds (.bytes defaultRecvBufSize) with
    | none => free (some c)
    | some buf =>
      store c (.conn (acceptedConn s.maxRequestBody (some buf)))
      store p (.server { s with connList := s.connList ++ [c] })

/-- A call on a connection reads it at its entry and writes it at its end. -/
def withConn (c : ℕ) (call : ConnRecord → HeapM Block ConnRecord) : HeapM Block ConnState := do
  let r ← load Block.conn? c
  let r ← call r
  store c (.conn r)
  return r.state

/-- `http_conn_close`. -/
def closeConn (p c : ℕ) (completes : Bool) : HeapM Block Unit := do
  let s ← load Block.server? p
  store p (.server { s with connList := s.connList.erase c })
  let r ← load Block.conn? c
  httpConnClose completes r
  free (some c)

/-- `spdk_sock_group_poll`, for one connection. -/
def completeWrite (c : ℕ) (written : Bool) : HeapM Block Unit := do
  let _ ← withConn c (settleWrite written)

/-- A connection is read in the states `CONN_READING` and `CONN_IDLE`. -/
def readConn (input : ReadInput) (r : ConnRecord) : HeapM Block ConnRecord :=
  if r.state = .reading ∨ r.state = .idle then httpConnOnReadable input r else return r

/-- The body of the loop of `http_server_poll`. -/
def pollConn (p c : ℕ) (input : ReadInput) (completes : Bool) : HeapM Block Unit := do
  let state ← withConn c (readConn input)
  if state = .closing then closeConn p c completes else return

/-- The body of the loop of `check_timeouts`. -/
def checkTimeout (p c : ℕ) (expired completes : Bool) : HeapM Block Unit := do
  let r ← load Block.conn? c
  if expired ∧ (r.state = .reading ∨ r.state = .idle) then closeConn p c completes else return

/-- A loop over the connections of the server, `TAILQ_FOREACH_SAFE`. The body removes at most the
connection it is called with. -/
def forEachConn (p : ℕ) (body : ℕ → HeapM Block Unit) : HeapM Block Unit := do
  let s ← load Block.server? p
  s.connList.forM body

/-- `http_server_poll`. -/
def httpServerPoll (p : ℕ) (input : PollInput) : HeapM Block Unit := do
  forEachConn p fun c => completeWrite c (input.written c)
  input.accepted.forM fun succeeds => httpConnAccept p succeeds.1 succeeds.2
  forEachConn p fun c => pollConn p c (input.read c) (input.completes c)
  match input.expired with
  | none => return
  | some expired => forEachConn p fun c => checkTimeout p c (expired c) (input.completes c)

/-- The fields of a new server; `0` stands for a default. -/
def createdServer (config : MemoryConfig) : ServerRecord where
  connList := []
  maxConnections :=
    if 0 < config.maxConnections then config.maxConnections else defaultMaxConnections
  maxRequestBody :=
    if 0 < config.maxRequestBody then config.maxRequestBody else defaultMaxRequestBody

/-- `http_server_create`. -/
def httpServerCreate (config : MemoryConfig) (succeeds listens groups : Bool) :
    HeapM Block (Option ℕ) := do
  match ← malloc succeeds (.server (createdServer config)) with
  | none => return none
  | some p =>
    if listens ∧ groups then return some p
    else
      free (some p)
      return none

/-- `http_server_destroy`. -/
def httpServerDestroy (p : ℕ) (completes : ℕ → Bool) : HeapM Block Unit := do
  forEachConn p fun c => closeConn p c (completes c)
  free (some p)

end InMemory

/-- A server from its creation to its destruction. -/
def serverLifetime (config : MemoryConfig) (succeeds listens groups : Bool)
    (polls : List PollInput) (completes : ℕ → Bool) : HeapM Block Unit := do
  match ← InMemory.httpServerCreate config succeeds listens groups with
  | none => return
  | some p =>
    polls.forM (InMemory.httpServerPoll p)
    InMemory.httpServerDestroy p completes

/-! ### What a connection owns -/

/-- The block of a pointer to a buffer. -/
def bufferBlocks (p : Option ℕ) (size : ℕ) : List (ℕ × Block) := p.toList.map (·, .bytes size)

/-- The block of a pointer to a write request. -/
def requestBlocks (p : Option ℕ) : List (ℕ × Block) := p.toList.map (·, .request)

namespace ConnRecord

/-- The blocks that the pointers of a connection own. -/
def blocks (r : ConnRecord) : List (ℕ × Block) :=
  bufferBlocks r.recvBuf r.recvBufSize ++
    (bufferBlocks r.body r.bodyCapacity ++ requestBlocks r.writeReq)

/-- What holds of a connection between the calls. -/
structure Ok (r : ConnRecord) : Prop where
  /-- The receive buffer is doubled. -/
  recvBufSize_eq : r.recvBuf ≠ none → ∃ k ≤ 31, r.recvBufSize = 2 ^ k
  recvLen_le : r.recvBuf ≠ none → r.recvLen ≤ r.recvBufSize
  closing_of_recvBuf : r.recvBuf = none → r.state = .closing
  maxBodySize_mem : 0 < r.maxBodySize ∧ r.maxBodySize ≤ 2 ^ 31
  bodyCapacity_lt : r.bodyCapacity < 2 ^ 32
  bodyCapacity_le : r.body = none → r.bodyCapacity ≤ httpDefaultBodyBuf
  /-- There is no body before the headers are complete. -/
  body_eq_none : r.parser = .start ∨ r.parser = .head → r.body = none
  /-- There is a write request only while a response is written. -/
  writeReq_eq_none : r.state ≠ .writing → r.writeReq = none

/-- What the calls of the parser leave alone. -/
structure Frame (r r' : ConnRecord) : Prop where
  recvBuf : r'.recvBuf = r.recvBuf
  writeReq : r'.writeReq = r.writeReq
  state : r'.state = r.state

/-- The blocks with those of the body in front. -/
theorem perm_body (r : ConnRecord) : r.blocks.Perm (bufferBlocks r.body r.bodyCapacity ++
    (bufferBlocks r.recvBuf r.recvBufSize ++ requestBlocks r.writeReq)) :=
  List.perm_append_comm_assoc ..

/-- The blocks with the write request in front. -/
theorem perm_writeReq (r : ConnRecord) :
    r.blocks.Perm (requestBlocks r.writeReq ++ { r with writeReq := none }.blocks) := by
  refine List.Perm.trans ?_ List.perm_append_comm
  simp [blocks, requestBlocks]

theorem Ok.destroyed {r : ConnRecord} (h : r.Ok) :
    ConnRecord.Ok { r with body := none, bodyLen := 0, bodyCapacity := 0 } :=
  { h with
    bodyCapacity_lt := Nat.two_pow_pos 32
    bodyCapacity_le := fun _ => Nat.zero_le _
    body_eq_none := fun _ => rfl }

end ConnRecord

namespace InMemory

variable {r : ConnRecord}

/-- The body is released. -/
theorem spec_httpRequestDestroy (r : ConnRecord) : Spec r.blocks (httpRequestDestroy r)
    fun r' owned => r' = { r with body := none, bodyLen := 0, bodyCapacity := 0 } ∧
      owned = r'.blocks := by
  refine Spec.of_perm ?_ r.perm_body
  exact Returns.bind ((returns_free_pointer _ _).frame _) (Spec.pure ⟨rfl, rfl⟩)

/-- The end of a write. -/
theorem spec_httpConnOnWriteDone (h : r.Ok) (hreq : r.writeReq = none) :
    Spec r.blocks (httpConnOnWriteDone r) fun r' owned =>
      owned = r'.blocks ∧ r'.Ok ∧ r'.writeReq = none := by
  rw [httpConnOnWriteDone]
  split_ifs with halive
  · have hreset : Spec r.blocks (httpParserReset r) fun r' owned => owned = r'.blocks ∧
        r' = { r with body := none, bodyLen := 0, bodyCapacity := 0, parser := .start } := by
      refine Spec.bind (spec_httpRequestDestroy r) ?_
      rintro _ _ ⟨rfl, rfl⟩
      exact Spec.pure ⟨rfl, rfl⟩
    refine Spec.bind hreset ?_
    rintro _ _ ⟨rfl, rfl⟩
    exact Spec.pure ⟨rfl, { h.destroyed with
      closing_of_recvBuf := fun hnone => absurd (h.closing_of_recvBuf hnone) halive.2
      body_eq_none := fun _ => rfl
      writeReq_eq_none := fun _ => hreq }, hreq⟩
  · exact Spec.pure ⟨rfl, { h with
      closing_of_recvBuf := fun _ => rfl
      writeReq_eq_none := fun _ => hreq }, hreq⟩

/-- The request of a write is released when the write completes. -/
theorem spec_onWriteComplete (h : r.Ok) : Spec r.blocks (onWriteComplete r) fun r' owned =>
    owned = r'.blocks ∧ r'.Ok ∧ r'.writeReq = none := by
  have hok : ConnRecord.Ok { r with writeReq := none } := { h with
    writeReq_eq_none := fun _ => rfl }
  have hperm : r.blocks.Perm ({ r with writeReq := none }.blocks ++ requestBlocks r.writeReq) :=
    r.perm_writeReq.trans List.perm_append_comm
  refine Spec.of_perm (Spec.bind ((spec_httpConnOnWriteDone hok rfl).frame _) ?_) hperm
  rintro r' _ ⟨_, rfl, rfl, hok', hreq'⟩
  have hfree : Returns (requestBlocks r.writeReq ++ r'.blocks) (free r.writeReq) () r'.blocks :=
    (returns_free_pointer _ _).frame _
  exact Returns.bind (hfree.of_perm List.perm_append_comm) (Spec.pure ⟨rfl, hok', hreq'⟩)

/-- A response is written, or the connection closes. -/
theorem spec_connWriteResponse (write : WriteOutcome) (h : r.Ok) (hbuf : r.recvBuf ≠ none)
    (hreq : r.writeReq = none) : Spec r.blocks (connWriteResponse write r) fun r' owned =>
      owned = r'.blocks ∧ r'.Ok := by
  have hclosing : ConnRecord.Ok { r with state := .closing } := { h with
    closing_of_recvBuf := fun _ => rfl
    writeReq_eq_none := fun _ => hreq }
  rw [connWriteResponse]
  by_cases hserialized : write.serialized = true
  · rw [if_pos hserialized]
    rcases hsucceeds : write.succeeds
    · exact Returns.bind (returns_malloc_false _) (Spec.pure ⟨rfl, hclosing⟩)
    · refine Spec.bind_malloc fun q => ?_
      have hok : ConnRecord.Ok { r with writeReq := some q, state := .writing } := { h with
        closing_of_recvBuf := fun hnone => absurd hnone hbuf
        writeReq_eq_none := fun hstate => absurd rfl hstate }
      have hperm : ((q, Block.request) :: r.blocks).Perm
          { r with writeReq := some q, state := .writing }.blocks := by
        refine List.Perm.trans ?_ (ConnRecord.perm_writeReq _).symm
        simp [requestBlocks, ConnRecord.blocks, hreq]
      by_cases hinline : write.inline = true
      · simp only [if_pos hinline]
        refine Spec.of_perm (Spec.weaken (spec_onWriteComplete hok) ?_) hperm
        rintro r' owned ⟨howned, hok', -⟩
        exact ⟨howned, hok'⟩
      · simp only [if_neg hinline]
        exact Spec.pure_of_perm hperm ⟨rfl, hok⟩
  · rw [if_neg hserialized]
    exact Spec.pure ⟨rfl, hclosing⟩

/-! ### Callbacks -/

/-- A buffer has room for the bytes that are written. -/
theorem returns_touch {p : Option ℕ} {size n : ℕ} (hp : p ≠ none) (hn : n ≤ size)
    {pre : List (ℕ × Block)} (hpre : bufferBlocks p size ⊆ pre) :
    Returns pre (touch p n) () pre := by
  obtain ⟨q, rfl⟩ := Option.ne_none_iff_exists'.mp hp
  exact returns_load (hpre List.mem_cons_self) (if_pos hn)

/-- A span is copied into a body that has room for it. -/
theorem spec_appendBody {length : ℕ} (h : r.Ok) (hbody : r.body ≠ none)
    (hrest : r.parser ≠ .start ∧ r.parser ≠ .head) (hroom : r.bodyLen + length ≤ r.bodyCapacity) :
    Spec r.blocks (appendBody r length) fun result owned =>
      owned = result.1.blocks ∧ result.1.Ok ∧ r.Frame result.1 := by
  have hsub : bufferBlocks r.body r.bodyCapacity ⊆ r.blocks := fun b hb =>
    r.perm_body.mem_iff.mpr (List.mem_append_left _ hb)
  refine Returns.bind (returns_touch hbody hroom hsub) (Spec.pure ⟨rfl, ?_, rfl, rfl, rfl⟩)
  exact { h with body_eq_none := fun hparser => absurd hparser (by tauto) }

/-- The body grows, or the callback fails. -/
theorem spec_onBody (length : ℕ) (succeeds : Bool) (h : r.Ok)
    (hrest : r.parser ≠ .start ∧ r.parser ≠ .head) :
    Spec r.blocks (onBody r length succeeds) fun result owned =>
      owned = result.1.blocks ∧ result.1.Ok ∧ r.Frame result.1 := by
  rw [onBody]
  by_cases hlimit : 0 < r.maxBodySize ∧ r.maxBodySize < r.bodyLen + length
  · simp only [if_pos hlimit]
    exact Spec.pure ⟨rfl, h, rfl, rfl, rfl⟩
  · have hmax := h.maxBodySize_mem
    simp only [if_neg hlimit]
    by_cases hgrow : r.body = none ∨ r.bodyCapacity < r.bodyLen + length
    · simp only [if_pos hgrow]
      obtain ⟨c, hc, hgrown⟩ : ∃ c < 2 ^ 32, growCapacity (r.bodyLen + length) 65
          (if r.bodyCapacity ≠ 0 then r.bodyCapacity * 2 % 2 ^ 32 else httpDefaultBodyBuf) =
            some c := by
        have hdefault : httpDefaultBodyBuf = 65536 := rfl
        have hdouble : r.bodyCapacity * 2 < 2 ^ 32 := by
          rcases hgrow with hnone | hlt
          · have hsmall := h.bodyCapacity_le hnone
            omega
          · omega
        refine growCapacity_spec 64 (by omega) ?_ ?_ <;> split_ifs <;> omega
      simp only [hgrown, Nat.mod_eq_of_lt hc]
      refine Spec.of_perm (Spec.bind ((spec_realloc succeeds (Block.bytes c)
        (returns_free_pointer r.body (Block.bytes r.bodyCapacity))).frame _) ?_) r.perm_body
      rintro q _ ⟨_, rfl, ⟨-, rfl, rfl⟩ | ⟨p, rfl, rfl⟩⟩
      · exact Spec.pure_of_perm r.perm_body.symm ⟨rfl, h, rfl, rfl, rfl⟩
      · have hok : ConnRecord.Ok { r with body := some p, bodyCapacity := c } := { h with
          bodyCapacity_lt := hc
          bodyCapacity_le := nofun
          body_eq_none := fun hparser => absurd hparser (by tauto) }
        refine Spec.of_perm (Spec.weaken (spec_appendBody hok nofun hrest
          (le_of_growCapacity hgrown)) ?_) (ConnRecord.perm_body
            { r with body := some p, bodyCapacity := c }).symm
        rintro result owned ⟨howned, hok', hframe⟩
        exact ⟨howned, hok', hframe.recvBuf, hframe.writeReq, hframe.state⟩
    · simp only [if_neg hgrow]
      have hgrow' := not_or.mp hgrow
      exact spec_appendBody h hgrow'.1 hrest (not_lt.mp hgrow'.2)

/-- The headers are complete, and a body may be allocated; there was none. -/
theorem spec_onHeadersComplete (keepAlive : Bool) (contentLength : UInt64) (succeeds : Bool)
    (h : r.Ok) (hbody : r.body = none) :
    Spec r.blocks (onHeadersComplete { r with parser := .rest } keepAlive contentLength succeeds)
      fun r' owned => owned = r'.blocks ∧ r'.Ok ∧ r.Frame r' := by
  rw [onHeadersComplete]
  by_cases hlength : 0 < contentLength
  · simp only [if_pos hlength]
    have hdefault : httpDefaultBodyBuf = 65536 := rfl
    generalize hsize : (if contentLength.toNat < httpDefaultBodyBuf then contentLength.toNat
      else httpDefaultBodyBuf) = size
    have hle : size ≤ httpDefaultBodyBuf := by
      rw [← hsize]
      split_ifs <;> omega
    have hok (p : Option ℕ) : ConnRecord.Ok { r with
        keepAlive := keepAlive, parser := .rest, body := p, bodyCapacity := size } := { h with
      bodyCapacity_lt := by dsimp only; omega
      bodyCapacity_le := fun _ => hle
      body_eq_none := fun hparser => absurd hparser (by simp) }
    have hblocks : r.blocks = bufferBlocks r.recvBuf r.recvBufSize ++ requestBlocks r.writeReq := by
      rw [ConnRecord.blocks, hbody]
      rfl
    cases succeeds
    · refine Returns.bind (returns_malloc_false _) (Spec.pure ⟨?_, hok none, rfl, rfl, rfl⟩)
      rw [hblocks]
      rfl
    · refine Spec.bind_malloc fun p => ?_
      refine Spec.pure_of_perm ?_ ⟨rfl, hok (some p), rfl, rfl, rfl⟩
      rw [hblocks]
      exact (ConnRecord.perm_body { r with body := some p, bodyCapacity := size }).symm
  · simp only [if_neg hlength]
    exact Spec.pure ⟨rfl, { h with body_eq_none := fun hparser => absurd hparser (by simp) }, rfl,
      rfl, rfl⟩

/-- **One callback**, in the order of llhttp. -/
theorem spec_callback {event : LlhttpEvent} {phase : ParserPhase} (succeeds : Bool) (h : r.Ok)
    (hnext : r.parser.next event = some phase) :
    Spec r.blocks (callback { r with parser := phase } event succeeds) fun result owned =>
      owned = result.1.blocks ∧ result.1.Ok ∧ r.Frame result.1 := by
  -- a callback in the middle of a message leaves the phase as it is
  have hsame (hphase : phase = r.parser) : ConnRecord.Ok { r with parser := phase } := by
    rw [hphase]
    exact h
  cases hparser : r.parser with
  | start =>
    rw [hparser] at hnext
    have hbody := h.body_eq_none (.inl hparser)
    cases event with
    | messageBegin =>
      refine Spec.pure ⟨?_, { h.destroyed with body_eq_none := fun _ => rfl }, rfl, rfl, rfl⟩
      rw [ConnRecord.blocks, hbody]
      rfl
    | _ => cases hnext
  | head =>
    rw [hparser] at hnext
    have hbody := h.body_eq_none (.inr hparser)
    cases event with
    | headersComplete method keepAlive contentLength =>
      obtain rfl := Option.some.inj hnext
      refine Spec.bind (spec_onHeadersComplete keepAlive contentLength succeeds h hbody) ?_
      exact fun r' owned hpost => Spec.pure hpost
    | messageBegin => cases hnext
    | body span => cases hnext
    | chunkBoundary => cases hnext
    | messageComplete => cases hnext
    | _ =>
      have hphase : phase = r.parser := (Option.some.inj hnext).symm.trans hparser.symm
      exact Spec.pure ⟨rfl, hsame hphase, rfl, rfl, rfl⟩
  | rest =>
    rw [hparser] at hnext
    cases event with
    | body span =>
      have hphase : phase = .rest := (Option.some.inj hnext).symm
      refine Spec.weaken
        (spec_onBody span.length succeeds (hsame (hphase.trans hparser.symm)) ?_) ?_
      · simp [hphase]
      · rintro result owned ⟨howned, hok, hframe⟩
        exact ⟨howned, hok, hframe.recvBuf, hframe.writeReq, hframe.state⟩
    | messageComplete =>
      obtain rfl := Option.some.inj hnext
      exact Spec.pure ⟨rfl, { h with body_eq_none := fun hparser => absurd hparser (by simp) }, rfl,
        rfl, rfl⟩
    | messageBegin => cases hnext
    | url span => cases hnext
    | headersComplete method keepAlive contentLength => cases hnext
    | _ =>
      have hphase : phase = r.parser := (Option.some.inj hnext).symm.trans hparser.symm
      exact Spec.pure ⟨rfl, hsame hphase, rfl, rfl, rfl⟩
  | paused =>
    rw [hparser] at hnext
    cases event <;> cases hnext

/-- The callbacks of a buffer. -/
theorem spec_deliver (callbacks : List (LlhttpEvent × Bool)) (h : r.Ok) :
    Spec r.blocks (deliver r callbacks) fun result owned =>
      owned = result.1.blocks ∧ result.1.Ok ∧ r.Frame result.1 := by
  induction callbacks generalizing r with
  | nil => exact Spec.pure ⟨rfl, h, rfl, rfl, rfl⟩
  | cons call rest ih =>
    obtain ⟨event, succeeds⟩ := call
    rw [deliver]
    cases hnext : r.parser.next event with
    | none => exact Spec.pure ⟨rfl, h, rfl, rfl, rfl⟩
    | some phase =>
      refine Spec.bind (spec_callback succeeds h hnext) ?_
      rintro ⟨r', ok⟩ _ ⟨rfl, hok, hframe⟩
      cases ok with
      | false => exact Spec.pure ⟨rfl, hok, hframe⟩
      | true =>
        refine Spec.weaken (ih hok) ?_
        rintro result owned ⟨howned, hok', hframe'⟩
        exact ⟨howned, hok', hframe'.recvBuf.trans hframe.recvBuf,
          hframe'.writeReq.trans hframe.writeReq, hframe'.state.trans hframe.state⟩

/-! ### Reads -/

theorem space_eq (h : r.Ok) (hbuf : r.recvBuf ≠ none) :
    space r = r.recvBufSize - r.recvLen := by
  have hle := h.recvLen_le hbuf
  obtain ⟨k, hk, hsize⟩ := h.recvBufSize_eq hbuf
  have hpow : 2 ^ k ≤ 2 ^ 31 := Nat.pow_le_pow_right Nat.two_pos hk
  rw [space]
  omega

/-- What is read goes to the receive buffer, to the parser and to a response. -/
theorem spec_receive (input : ReadInput) (h : r.Ok) (hbuf : r.recvBuf ≠ none)
    (hreq : r.writeReq = none) :
    Spec r.blocks (receive input r) fun r' owned => owned = r'.blocks ∧ r'.Ok := by
  have hspace := space_eq h hbuf
  have hle := h.recvLen_le hbuf
  rw [receive]
  by_cases hzero : min input.nread (space r) = 0
  · simp only [if_pos hzero]
    exact Spec.pure ⟨rfl, { h with
      closing_of_recvBuf := fun _ => rfl
      writeReq_eq_none := fun _ => hreq }⟩
  · simp only [if_neg hzero]
    have hread : r.recvLen + min input.nread (space r) ≤ r.recvBufSize := by omega
    refine Returns.bind (returns_touch hbuf hread (List.subset_append_left _ _)) ?_
    have hok : ConnRecord.Ok { r with recvLen := r.recvLen + min input.nread (space r) } := { h with
      recvLen_le := fun _ => hread }
    refine Spec.bind (spec_deliver input.callbacks hok) ?_
    rintro ⟨r', delivered⟩ _ ⟨rfl, hok', hframe⟩
    have hbuf' : r'.recvBuf ≠ none := hframe.recvBuf ▸ hbuf
    have hreq' : r'.writeReq = none := hframe.writeReq.trans hreq
    dsimp only
    by_cases hfailed : input.failed = true ∨ ¬ delivered = true
    · rw [if_pos hfailed]
      have hclosed : ConnRecord.Ok { r' with keepAlive := false } := { hok' with }
      exact spec_connWriteResponse input.write hclosed hbuf' hreq'
    · rw [if_neg hfailed]
      have hdropped : ConnRecord.Ok { r' with
          recvLen := r'.recvLen - min input.consumed r'.recvLen } := { hok' with
        recvLen_le := fun hbuf => (Nat.sub_le _ _).trans (hok'.recvLen_le hbuf) }
      by_cases hcomplete : r'.complete = true
      · rw [if_pos hcomplete]
        refine spec_connWriteResponse input.write { hdropped with
          closing_of_recvBuf := fun hnone => absurd hnone hbuf'
          writeReq_eq_none := fun _ => hreq' } hbuf' hreq'
      · rw [if_neg hcomplete]
        exact Spec.pure ⟨rfl, hdropped⟩

/-- Blocks that are lost are buffers, and there are none unless `fails`. -/
structure Lost (fails : Prop) (lost : List (ℕ × Block)) : Prop where
  bytes : ∀ b ∈ lost, ∃ size, b.2 = .bytes size
  fails_of_ne_nil : lost ≠ [] → fails

theorem Lost.nil {fails : Prop} : Lost fails [] :=
  ⟨fun _ hb => absurd hb List.not_mem_nil, fun h => absurd rfl h⟩

theorem Lost.append {fails : Prop} {lost lost' : List (ℕ × Block)} (h : Lost fails lost)
    (h' : Lost fails lost') : Lost fails (lost ++ lost') where
  bytes b hb := (List.mem_append.mp hb).elim (h.bytes b) (h'.bytes b)
  fails_of_ne_nil hne := by
    by_cases hlost : lost = []
    · rw [hlost, List.nil_append] at hne
      exact h'.fails_of_ne_nil hne
    · exact h.fails_of_ne_nil hlost

/-- **A read.** The receive buffer is lost if it cannot be grown. -/
theorem spec_httpConnOnReadable (input : ReadInput) (h : r.Ok) (hbuf : r.recvBuf ≠ none)
    (hreq : r.writeReq = none) :
    Spec r.blocks (httpConnOnReadable input r) fun r' owned => ∃ lost,
      owned = r'.blocks ++ lost ∧ r'.Ok ∧ Lost (input.growSucceeds = false) lost := by
  have hle := h.recvLen_le hbuf
  rw [httpConnOnReadable]
  by_cases hspace : space r < 4096
  · simp only [if_pos hspace]
    have hnone (size : ℕ) : ConnRecord.Ok { r with
        recvBuf := none, recvBufSize := size, state := .closing } := { h with
      recvBufSize_eq := fun hsome => absurd rfl hsome
      recvLen_le := fun hsome => absurd rfl hsome
      closing_of_recvBuf := fun _ => rfl
      writeReq_eq_none := fun _ => hreq }
    by_cases hzero : r.recvBufSize * 2 % 2 ^ 32 = 0
    · simp only [if_pos hzero]
      refine Returns.bind ((returns_free_pointer _ _).frame _)
        (Spec.pure ⟨[], ?_, hnone _, .nil⟩)
      rw [List.append_nil]
      rfl
    · simp only [if_neg hzero]
      have hrealloc := spec_realloc input.growSucceeds (Block.bytes (r.recvBufSize * 2 % 2 ^ 32))
        (returns_free_pointer r.recvBuf (Block.bytes r.recvBufSize))
      refine Spec.bind (hrealloc.frame _) ?_
      rintro q _ ⟨_, rfl, ⟨hfails, rfl, rfl⟩ | ⟨p, rfl, rfl⟩⟩
      · -- the address of the old buffer is overwritten
        refine Spec.pure_of_perm List.perm_append_comm
          ⟨bufferBlocks r.recvBuf r.recvBufSize, rfl, hnone _, ?_, fun _ => hfails⟩
        intro b hb
        obtain ⟨p, -, rfl⟩ := List.mem_map.mp hb
        exact ⟨r.recvBufSize, rfl⟩
      · obtain ⟨k, hk, hsize⟩ := h.recvBufSize_eq hbuf
        have hk' : k ≠ 31 := by
          rintro rfl
          exact hzero (by rw [hsize]; rfl)
        have hpow : 2 ^ (k + 1) ≤ 2 ^ 31 := Nat.pow_le_pow_right Nat.two_pos (by omega)
        have hdouble : r.recvBufSize * 2 % 2 ^ 32 = 2 ^ (k + 1) := by
          rw [hsize, ← Nat.pow_succ, Nat.mod_eq_of_lt (by omega)]
        have hok : ConnRecord.Ok { r with
            recvBuf := some p, recvBufSize := r.recvBufSize * 2 % 2 ^ 32 } := { h with
          recvBufSize_eq := fun _ => ⟨k + 1, by omega, hdouble⟩
          recvLen_le := fun _ => by
            dsimp only
            rw [hdouble, Nat.pow_succ]
            omega
          closing_of_recvBuf := nofun }
        refine Spec.weaken (spec_receive input hok nofun hreq) ?_
        rintro r' owned ⟨rfl, hok'⟩
        exact ⟨[], (List.append_nil _).symm, hok', .nil⟩
  · simp only [if_neg hspace]
    refine Spec.weaken (spec_receive input h hbuf hreq) ?_
    rintro r' owned ⟨rfl, hok'⟩
    exact ⟨[], (List.append_nil _).symm, hok', .nil⟩

theorem spec_settleWrite (completes : Bool) (h : r.Ok) :
    Spec r.blocks (settleWrite completes r) fun r' owned => owned = r'.blocks ∧ r'.Ok := by
  rw [settleWrite]
  split_ifs
  · exact Spec.weaken (spec_onWriteComplete h) fun _ _ hpost => ⟨hpost.1, hpost.2.1⟩
  · exact Spec.pure ⟨rfl, h⟩

/-- A connection that is read has a buffer and no pending write. -/
theorem spec_readConn (input : ReadInput) (h : r.Ok) :
    Spec r.blocks (readConn input r) fun r' owned => ∃ lost,
      owned = r'.blocks ++ lost ∧ r'.Ok ∧ Lost (input.growSucceeds = false) lost := by
  rw [readConn]
  split_ifs with hstate
  · have hbuf : r.recvBuf ≠ none := fun hnone => by
      rw [h.closing_of_recvBuf hnone] at hstate
      simp at hstate
    have hreq : r.writeReq = none := h.writeReq_eq_none fun hwriting => by
      rw [hwriting] at hstate
      simp at hstate
    exact spec_httpConnOnReadable input h hbuf hreq
  · exact Spec.pure ⟨[], (List.append_nil _).symm, h, .nil⟩

/-- **A connection releases what it owns** when it closes. -/
theorem spec_httpConnClose (completes : Bool) (h : r.Ok) :
    Returns r.blocks (httpConnClose completes r) () [] := by
  refine Spec.bind (spec_settleWrite completes h) ?_
  rintro r' _ ⟨rfl, -⟩
  refine Spec.bind (spec_httpRequestDestroy r') ?_
  rintro _ _ ⟨rfl, rfl⟩
  have hreq := (returns_free_pointer r'.writeReq Block.request).frame
    (bufferBlocks r'.recvBuf r'.recvBufSize)
  refine Returns.bind (hreq.of_perm List.perm_append_comm) ?_
  exact returns_free_pointer _ _

/-! ### The server -/

/-- A connection with what it owns. -/
def connBlocks (conn : ℕ × ConnRecord) : List (ℕ × Block) := (conn.1, .conn conn.2) :: conn.2.blocks

/-- What a server with these connections owns. -/
def serverBlocks (p : ℕ) (s : ServerRecord) (conns : List (ℕ × ConnRecord)) : List (ℕ × Block) :=
  (p, .server s) :: conns.flatMap connBlocks

/-- The list of a server has exactly its connections, which are in order. -/
structure Serves (s : ServerRecord) (conns : List (ℕ × ConnRecord)) : Prop where
  connList_eq : s.connList = conns.map Prod.fst
  ok : ∀ conn ∈ conns, conn.2.Ok
  maxRequestBody_mem : 0 < s.maxRequestBody ∧ s.maxRequestBody ≤ 2 ^ 31

/-- What a program leaves of a server `s`: all connections but those in `handled`, and buffers that
are lost. -/
def Leaves (p : ℕ) (s : ServerRecord) (handled : List ℕ) (fails : Prop)
    (owned : List (ℕ × Block)) : Prop :=
  ∃ s' conns lost, owned = serverBlocks p s' conns ++ lost ∧ Serves s' conns ∧ Lost fails lost ∧
    ∀ c ∈ s.connList, c ∉ handled → c ∈ s'.connList

variable {p : ℕ} {s : ServerRecord} {conns : List (ℕ × ConnRecord)} {fails : Prop}

/-- The blocks of one connection, the server's own block and those of the other connections. -/
theorem perm_serverBlocks {i : ℕ} {conn : ℕ × ConnRecord} (hconn : conns[i]? = some conn) :
    (serverBlocks p s conns).Perm (conn.2.blocks ++
      ((conn.1, .conn conn.2) :: serverBlocks p s (conns.eraseIdx i))) := by
  refine ((perm_flatMap_eraseIdx connBlocks hconn).cons _).trans ?_
  have hmove : ((p, Block.server s) :: (connBlocks conn ++
      (conns.eraseIdx i).flatMap connBlocks)).Perm
      (connBlocks conn ++ serverBlocks p s (conns.eraseIdx i)) := List.perm_middle.symm
  exact hmove.trans List.perm_middle.symm

/-- A connection of the list is one of the connections. -/
theorem Serves.exists_getElem? (hs : Serves s conns) {c : ℕ} (hc : c ∈ s.connList) :
    ∃ (i : ℕ) (r : ConnRecord), conns[i]? = some (c, r) ∧ r.Ok := by
  rw [hs.connList_eq] at hc
  obtain ⟨⟨c', r⟩, hmem, rfl⟩ := List.mem_map.mp hc
  obtain ⟨i, hi⟩ := List.mem_iff_getElem?.mp hmem
  exact ⟨i, r, hi, hs.ok _ hmem⟩

/-- The connections have different addresses. -/
theorem nodup_connList (hs : Serves s conns)
    (hnodup : ((serverBlocks p s conns).map Prod.fst).Nodup) : s.connList.Nodup := by
  have hsub : ∀ conns : List (ℕ × ConnRecord),
      (conns.map Prod.fst).Sublist ((conns.flatMap connBlocks).map Prod.fst) := by
    intro conns
    induction conns with
    | nil => exact List.Sublist.refl _
    | cons conn conns ih =>
      rw [List.flatMap_cons, List.map_append, List.map_cons]
      exact (ih.trans (List.sublist_append_right _ _)).cons_cons conn.1
  rw [hs.connList_eq]
  exact ((List.nodup_cons.mp hnodup).2).sublist (hsub conns)

/-- **A call on a connection** leaves the others alone. -/
theorem spec_withConn {call : ConnRecord → HeapM Block ConnRecord} {i c : ℕ} {r : ConnRecord}
    (hs : Serves s conns) (hconn : conns[i]? = some (c, r))
    (hcall : Spec r.blocks (call r) fun r' owned => ∃ lost,
      owned = r'.blocks ++ lost ∧ r'.Ok ∧ Lost fails lost) :
    Spec (serverBlocks p s conns) (withConn c call) fun state owned => ∃ r' lost,
      state = r'.state ∧ owned = serverBlocks p s (conns.set i (c, r')) ++ lost ∧
        Serves s (conns.set i (c, r')) ∧ Lost fails lost := by
  obtain ⟨hi, hget⟩ := List.getElem?_eq_some_iff.mp hconn
  refine Spec.of_perm ?_ (perm_serverBlocks hconn)
  refine Returns.bind (returns_load (List.mem_append_right _ List.mem_cons_self) rfl) ?_
  refine Spec.bind (hcall.frame _) ?_
  rintro r' _ ⟨_, rfl, lost, rfl, hok, hlost⟩
  refine Returns.bind (returns_store _ List.perm_middle) ?_
  have hset : (conns.set i (c, r'))[i]? = some (c, r') := List.getElem?_set_self hi
  refine Spec.pure_of_perm ?_ ⟨r', lost, rfl, rfl, ?_, hlost⟩
  · have hperm := perm_serverBlocks (p := p) (s := s) hset
    rw [List.eraseIdx_set_eq] at hperm
    refine List.Perm.trans ?_ (hperm.append_right lost).symm
    refine List.perm_middle.symm.trans ?_
    rw [List.append_assoc, List.append_assoc]
    exact List.perm_append_comm.append_left _
  · refine ⟨?_, ?_, hs.maxRequestBody_mem⟩
    · rw [hs.connList_eq, List.map_set]
      have hfst : (conns.map Prod.fst)[i]? = some c := by rw [List.getElem?_map, hconn]; rfl
      obtain ⟨hi', rfl⟩ := List.getElem?_eq_some_iff.mp hfst
      exact (List.set_getElem_self hi').symm
    · intro conn hmem
      rcases List.mem_or_eq_of_mem_set hmem with hmem | rfl
      · exact hs.ok conn hmem
      · exact hok

/-- **A connection is closed** and leaves the list. -/
theorem spec_closeConn {i c : ℕ} {r : ConnRecord} (completes : Bool) (hs : Serves s conns)
    (hconn : conns[i]? = some (c, r)) :
    Spec (serverBlocks p s conns) (closeConn p c completes) fun _ owned =>
      owned = serverBlocks p { s with connList := s.connList.erase c } (conns.eraseIdx i) ∧
        Serves { s with connList := s.connList.erase c } (conns.eraseIdx i) := by
  refine Spec.of_nodup fun hnodup => ?_
  have hok : r.Ok := hs.ok _ (List.mem_of_getElem? hconn)
  have hserves : Serves { s with connList := s.connList.erase c } (conns.eraseIdx i) := by
    refine ⟨?_, fun conn hmem => hs.ok conn (List.mem_of_mem_eraseIdx hmem), hs.maxRequestBody_mem⟩
    have hfst : s.connList[i]? = some c := by rw [hs.connList_eq, List.getElem?_map, hconn]; rfl
    obtain ⟨hi, rfl⟩ := List.getElem?_eq_some_iff.mp hfst
    dsimp only
    rw [(nodup_connList hs hnodup).erase_getElem, ← List.eraseIdx_map, hs.connList_eq]
  refine Returns.bind (returns_load List.mem_cons_self rfl) ?_
  refine Returns.bind (returns_store _ (List.Perm.refl _)) ?_
  refine Spec.of_perm ?_ (perm_serverBlocks hconn)
  refine Returns.bind (returns_load (List.mem_append_right _ List.mem_cons_self) rfl) ?_
  refine Returns.bind ((spec_httpConnClose completes hok).frame _) ?_
  refine (returns_free (List.Perm.refl _)).weaken ?_
  rintro _ _ ⟨-, rfl⟩
  exact ⟨rfl, hserves⟩

/-- A closed connection is the only one that leaves. -/
theorem leaves_of_closed {c : ℕ} {conns' : List (ℕ × ConnRecord)} {owned : List (ℕ × Block)}
    (howned : owned = serverBlocks p { s with connList := s.connList.erase c } conns' ∧
      Serves { s with connList := s.connList.erase c } conns') : Leaves p s [c] fails owned := by
  refine ⟨_, _, [], howned.1.trans (List.append_nil _).symm, howned.2, .nil, fun c' hc' hne => ?_⟩
  have hne' : c' ≠ c := fun heq => hne (List.mem_singleton.mpr heq)
  exact (List.mem_erase_of_ne hne').mpr hc'

theorem ok_acceptedConn {n : ℕ} (hn : 0 < n ∧ n ≤ 2 ^ 31) (buf : ℕ) :
    (acceptedConn n (some buf)).Ok where
  recvBufSize_eq _ := ⟨16, by decide, rfl⟩
  recvLen_le _ := Nat.zero_le _
  closing_of_recvBuf := nofun
  maxBodySize_mem := hn
  bodyCapacity_lt := Nat.two_pow_pos 32
  bodyCapacity_le _ := Nat.zero_le _
  body_eq_none _ := rfl
  writeReq_eq_none _ := rfl

theorem Serves.leaves (hs : Serves s conns) (handled : List ℕ) :
    Leaves p s handled fails (serverBlocks p s conns) :=
  ⟨s, conns, [], (List.append_nil _).symm, hs, .nil, fun _ hc _ => hc⟩

/-- **A connection is accepted**, or nothing changes. -/
theorem spec_httpConnAccept (connSucceeds bufSucceeds : Bool) (hs : Serves s conns) :
    Spec (serverBlocks p s conns) (httpConnAccept p connSucceeds bufSucceeds)
      fun _ owned => Leaves p s [] fails owned := by
  refine Returns.bind (returns_load List.mem_cons_self rfl) ?_
  split_ifs
  · exact Spec.pure (hs.leaves _)
  cases connSucceeds
  · exact Returns.bind (returns_malloc_false _) (Spec.pure (hs.leaves _))
  refine Spec.bind_malloc fun c => ?_
  cases bufSucceeds
  · refine Returns.bind (returns_malloc_false _) ?_
    refine (returns_free (List.Perm.refl _)).weaken ?_
    rintro _ _ ⟨-, rfl⟩
    exact hs.leaves _
  refine Spec.bind_malloc fun buf => ?_
  refine Returns.bind (returns_store _ (List.Perm.swap _ _ _)) ?_
  -- the new connection is the last one of the list
  let conn := (c, acceptedConn s.maxRequestBody (some buf))
  have hperm : ((c, Block.conn conn.2) :: (buf, Block.bytes defaultRecvBufSize) ::
      serverBlocks p s conns).Perm
        ((p, Block.server s) :: (conns ++ [conn]).flatMap connBlocks) := by
    have hfront : (connBlocks conn ++ serverBlocks p s conns).Perm
        ((p, Block.server s) :: (connBlocks conn ++ conns.flatMap connBlocks)) := List.perm_middle
    exact hfront.trans ((perm_flatMap_append_singleton connBlocks conns conn).symm.cons _)
  refine (returns_store _ hperm).weaken ?_
  rintro _ _ ⟨-, rfl⟩
  refine ⟨_, conns ++ [conn], [], (List.append_nil _).symm, ⟨?_, ?_, hs.maxRequestBody_mem⟩, .nil,
    fun c' hc' _ => List.mem_append_left _ hc'⟩
  · rw [List.map_append, hs.connList_eq]
    rfl
  · intro conn' hmem
    rcases List.mem_append.mp hmem with hmem | hmem
    · exact hs.ok conn' hmem
    · rw [List.mem_singleton.mp hmem]
      exact ok_acceptedConn hs.maxRequestBody_mem buf

/-! ### Polls -/

/-- The program keeps a server in order that has the connections `handled`, and no other connection
leaves. -/
def Tends (p : ℕ) (handled : List ℕ) (fails : Prop) (prog : HeapM Block Unit) : Prop :=
  ∀ ⦃s conns⦄, Serves s conns → handled ⊆ s.connList →
    Spec (serverBlocks p s conns) prog fun _ owned => Leaves p s handled fails owned

/-- The buffers that are lost stay so. -/
theorem Spec.leaves_append {handled : List ℕ} {prog : HeapM Block Unit}
    {pre lost : List (ℕ × Block)} (hlost : Lost fails lost)
    (hprog : Spec pre prog fun _ owned => Leaves p s handled fails owned) :
    Spec (pre ++ lost) prog fun _ owned => Leaves p s handled fails owned := by
  refine (hprog.frame lost).weaken ?_
  rintro _ _ ⟨_, rfl, s', conns, lost', rfl, hs, hlost', hkept⟩
  exact ⟨s', conns, lost' ++ lost, List.append_assoc .., hs, hlost'.append hlost, hkept⟩

theorem tends_completeWrite (c : ℕ) (written : Bool) :
    Tends p [c] fails (completeWrite c written) := by
  intro s conns hs hc
  obtain ⟨i, r, hconn, hok⟩ := hs.exists_getElem? (hc List.mem_cons_self)
  have hcall : Spec r.blocks (settleWrite written r) fun r' owned => ∃ lost,
      owned = r'.blocks ++ lost ∧ r'.Ok ∧ Lost fails lost := by
    refine (spec_settleWrite written hok).weaken ?_
    rintro r' _ ⟨rfl, hok'⟩
    exact ⟨[], (List.append_nil _).symm, hok', .nil⟩
  refine Spec.bind (spec_withConn hs hconn hcall) ?_
  rintro _ _ ⟨r', lost, -, rfl, hs', hlost⟩
  exact Spec.pure ⟨s, _, lost, rfl, hs', hlost, fun _ hc _ => hc⟩

theorem tends_pollConn (c : ℕ) {input : ReadInput} (completes : Bool)
    (hfails : input.growSucceeds = false → fails) :
    Tends p [c] fails (pollConn p c input completes) := by
  intro s conns hs hc
  obtain ⟨i, r, hconn, hok⟩ := hs.exists_getElem? (hc List.mem_cons_self)
  refine Spec.bind (spec_withConn hs hconn (spec_readConn input hok)) ?_
  rintro _ _ ⟨r', lost, rfl, rfl, hs', hlost⟩
  have hlost' : Lost fails lost := ⟨hlost.bytes, fun hne => hfails (hlost.fails_of_ne_nil hne)⟩
  refine Spec.leaves_append hlost' ?_
  split_ifs
  · have hconn' : (conns.set i (c, r'))[i]? = some (c, r') :=
      List.getElem?_set_self (List.getElem?_eq_some_iff.mp hconn).1
    exact (spec_closeConn completes hs' hconn').weaken fun _ _ => leaves_of_closed
  · exact Spec.pure (hs'.leaves _)

theorem tends_checkTimeout (c : ℕ) (expired completes : Bool) :
    Tends p [c] fails (checkTimeout p c expired completes) := by
  intro s conns hs hc
  obtain ⟨i, r, hconn, -⟩ := hs.exists_getElem? (hc List.mem_cons_self)
  have hmem : (c, Block.conn r) ∈ serverBlocks p s conns :=
    (perm_serverBlocks hconn).mem_iff.mpr (List.mem_append_right _ List.mem_cons_self)
  refine Returns.bind (returns_load hmem rfl) ?_
  split_ifs
  · exact (spec_closeConn completes hs hconn).weaken fun _ _ => leaves_of_closed
  · exact Spec.pure (hs.leaves _)

/-- **A loop over connections** of which each body handles its own. -/
theorem Tends.forM {body : ℕ → HeapM Block Unit} (hbody : ∀ c, Tends p [c] fails (body c))
    {l : List ℕ} (hl : l.Nodup) : Tends p l fails (l.forM body) := by
  induction l with
  | nil => exact fun s conns hs _ => Spec.pure (hs.leaves _)
  | cons c l ih =>
    intro s conns hs hsub
    obtain ⟨hc, hl⟩ := List.nodup_cons.mp hl
    have hfirst : [c] ⊆ s.connList :=
      List.cons_subset.mpr ⟨hsub List.mem_cons_self, List.nil_subset _⟩
    refine Spec.bind (hbody c hs hfirst) ?_
    rintro _ _ ⟨s₁, conns₁, lost₁, rfl, hs₁, hlost₁, hkept₁⟩
    have hsub₁ : l ⊆ s₁.connList := fun c' hc' =>
      hkept₁ c' (hsub (List.mem_cons_of_mem _ hc')) fun heq => hc (List.mem_singleton.mp heq ▸ hc')
    refine Spec.leaves_append hlost₁ ((ih hl hs₁ hsub₁).weaken ?_)
    rintro _ _ ⟨s₂, conns₂, lost₂, howned, hs₂, hlost₂, hkept₂⟩
    refine ⟨s₂, conns₂, lost₂, howned, hs₂, hlost₂, fun c' hc' hnot => ?_⟩
    obtain ⟨hne, hnot⟩ := not_or.mp (List.mem_cons.not.mp hnot)
    exact hkept₂ c' (hkept₁ c' hc' fun heq => hne (List.mem_singleton.mp heq)) hnot

/-- The program keeps a server in order, whatever becomes of the connections. -/
def Keeps (p : ℕ) (fails : Prop) (prog : HeapM Block Unit) : Prop :=
  ∀ ⦃s conns⦄, Serves s conns →
    Spec (serverBlocks p s conns) prog fun _ owned => Leaves p s s.connList fails owned

theorem Leaves.all {s' : ServerRecord} {handled : List ℕ} {owned : List (ℕ × Block)}
    (h : Leaves p s handled fails owned) : Leaves p s' s'.connList fails owned := by
  obtain ⟨s₁, conns₁, lost, howned, hs₁, hlost, -⟩ := h
  exact ⟨s₁, conns₁, lost, howned, hs₁, hlost, fun _ hc hnot => absurd hc hnot⟩

theorem Keeps.pure : Keeps p fails (pure ()) := fun _ _ hs => Spec.pure (hs.leaves _)

theorem Keeps.bind {first next : HeapM Block Unit} (hfirst : Keeps p fails first)
    (hnext : Keeps p fails next) : Keeps p fails (first >>= fun _ => next) := by
  intro s conns hs
  refine Spec.bind (hfirst hs) ?_
  rintro _ _ ⟨s₁, conns₁, lost₁, rfl, hs₁, hlost₁, -⟩
  exact Spec.leaves_append hlost₁ ((hnext hs₁).weaken fun _ _ => Leaves.all)

theorem Keeps.forM {ι : Type} {body : ι → HeapM Block Unit} {l : List ι}
    (hbody : ∀ i ∈ l, Keeps p fails (body i)) : Keeps p fails (l.forM body) := by
  induction l with
  | nil => exact Keeps.pure
  | cons i l ih =>
    exact Keeps.bind (hbody i List.mem_cons_self)
      (ih fun j hj => hbody j (List.mem_cons_of_mem _ hj))

theorem keeps_forEachConn {body : ℕ → HeapM Block Unit} (hbody : ∀ c, Tends p [c] fails (body c)) :
    Keeps p fails (forEachConn p body) := by
  intro s conns hs
  refine Spec.of_nodup fun hnodup => ?_
  refine Returns.bind (returns_load List.mem_cons_self rfl) ?_
  exact Tends.forM hbody (nodup_connList hs hnodup) hs (List.Subset.refl _)

/-- **A poll.** -/
theorem keeps_httpServerPoll {input : PollInput}
    (hfails : (∃ c, (input.read c).growSucceeds = false) → fails) :
    Keeps p fails (httpServerPoll p input) := by
  have haccept : Keeps p fails
      (input.accepted.forM fun succeeds => httpConnAccept p succeeds.1 succeeds.2) :=
    Keeps.forM fun succeeds _ _ _ hs =>
      (spec_httpConnAccept succeeds.1 succeeds.2 hs).weaken fun _ _ => Leaves.all
  refine Keeps.bind (keeps_forEachConn fun c => tends_completeWrite c _) (Keeps.bind haccept
    (Keeps.bind (keeps_forEachConn fun c => tends_pollConn c _ fun hc => hfails ⟨c, hc⟩) ?_))
  cases input.expired with
  | none => exact Keeps.pure
  | some expired => exact keeps_forEachConn fun c => tends_checkTimeout c _ _

/-! ### Lifetimes -/

/-- The connections are closed one by one. -/
theorem spec_closeAll (completes : ℕ → Bool) (hs : Serves s conns) :
    Spec (serverBlocks p s conns)
      ((conns.map Prod.fst).forM fun c => closeConn p c (completes c))
      fun _ owned => ∃ s', owned = [(p, .server s')] := by
  induction conns generalizing s with
  | nil => exact Spec.pure ⟨s, rfl⟩
  | cons conn conns ih =>
    have hconn : (conn :: conns)[0]? = some (conn.1, conn.2) := rfl
    refine Spec.bind (spec_closeConn (completes conn.1) hs hconn) ?_
    rintro _ _ ⟨rfl, hs'⟩
    exact ih hs'

/-- **A server is destroyed** with everything it owns. -/
theorem spec_httpServerDestroy (completes : ℕ → Bool) (hs : Serves s conns) :
    Returns (serverBlocks p s conns) (httpServerDestroy p completes) () [] := by
  have hloop : Spec (serverBlocks p s conns)
      (forEachConn p fun c => closeConn p c (completes c))
      fun _ owned => ∃ s', owned = [(p, .server s')] := by
    refine Returns.bind (returns_load List.mem_cons_self rfl) ?_
    rw [hs.connList_eq]
    exact spec_closeAll completes hs
  refine Spec.bind hloop ?_
  rintro _ _ ⟨s', rfl⟩
  exact returns_free (List.Perm.refl _)

/-- A server is created without connections. -/
theorem spec_httpServerCreate {config : MemoryConfig} (succeeds listens groups : Bool)
    (hlimit : config.maxRequestBody ≤ 2 ^ 31) :
    Spec [] (httpServerCreate config succeeds listens groups) fun result owned =>
      result = none ∧ owned = [] ∨
        ∃ p s, result = some p ∧ owned = serverBlocks p s [] ∧ Serves s [] := by
  have hserves : Serves (createdServer config) [] := by
    refine ⟨rfl, fun _ hmem => absurd hmem List.not_mem_nil, ?_⟩
    have hdefault : defaultMaxRequestBody = 64 * 1024 * 1024 := rfl
    dsimp only [createdServer]
    split_ifs <;> omega
  rw [httpServerCreate]
  cases succeeds
  · exact Returns.bind (returns_malloc_false _) (Spec.pure (.inl ⟨rfl, rfl⟩))
  refine Spec.bind_malloc fun p => ?_
  dsimp only
  split_ifs
  · exact Spec.pure (.inr ⟨p, _, rfl, rfl, hserves⟩)
  · exact Returns.bind (returns_free (List.Perm.refl _)) (Spec.pure (.inl ⟨rfl, rfl⟩))

end InMemory

open InMemory

/-- A poll that accepts a connection and reads so much from it. -/
def acceptAndRead (growSucceeds : Bool) (nread : ℕ) : PollInput where
  written _ := true
  accepted := [(true, true)]
  read _ := ⟨growSucceeds, nread,
    [(.messageBegin, true), (.headersComplete (.ofString "PUT") true 5, true),
      (.body [1, 2, 3, 4, 5], true), (.messageComplete, true)],
    false, nread, ⟨true, true, false⟩⟩
  expired := some fun c => c == 3
  completes _ := false

/-- A receive buffer that is full and cannot be grown stays allocated. -/
example : ((serverLifetime ⟨0, 0⟩ true true true
    [{ acceptAndRead true 65000 with
        read := fun _ => ⟨true, 65000, [], false, 0, ⟨true, true, true⟩⟩ },
      acceptAndRead false 100] (fun _ => true) Heap.empty).map fun r => (r.2.blocks 2).isSome) =
    some true := by
  decide +kernel

end LightFS.Access
