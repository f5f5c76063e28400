import LightFS.Access.HttpParser

/-!
# Requests on one connection

Requests that are kept alive share one parser context: `http_parser_reset` and `on_message_begin`
stand between the callbacks of one request and those of the next. This file compares the second
request on a context with the same request on a fresh one.

What is not cleared are the fields that `on_message_complete` fills from the headers, and the header
tables. The fields keep what an earlier request sent, unless the headers of the later one name them;
and a request with headers and trailers counts one slot of the tables that it never writes, because
`on_headers_complete` finishes the last header and leaves it marked as unfinished. The condition
under which nothing of this shows is exact (`second_request_eq_fresh_iff`).

## Main definitions

* `HeaderCallbacks`, `RequestCallbacks` — the callbacks llhttp makes for a request.
* `RequestCallbacks.slots` — the header slots a request counts, and which of them it writes.
* `S3Field` — the fields that are read from headers.

## Main results

* `headers_deliver` — the header table after the callbacks of a request.
* `second_request_eq_fresh_iff`.
-/

namespace LightFS.Access

open Library

variable {L : Llhttp}

/-- A header in the table. -/
abbrev HeaderSlot : Type := CharArray s3MaxHeaderLength × CharArray s3MaxHeaderLength

/-! ### The callbacks of a request -/

/-- The callbacks for one header: its name in pieces, then its value in pieces. -/
structure HeaderCallbacks where
  namePieces : List (List UInt8)
  name_ne : namePieces ≠ []
  valuePieces : List (List UInt8)
  value_ne : valuePieces ≠ []

/-- The name `on_header_field` copies from a piece. -/
def copyName (data : List UInt8) : CharArray s3MaxHeaderLength :=
  .strncpy (.ofMemory (data.take
    (if data.length < s3MaxHeaderLength then data.length else s3MaxHeaderLength)))

/-- The value after `on_header_value` has appended a piece. -/
def appendValue (value : CharArray s3MaxHeaderLength) (data : List UInt8) :
    CharArray s3MaxHeaderLength :=
  .strncpy (.ofMemory (value.bytes ++ data.take
    (if data.length < s3MaxHeaderLength - value.length then data.length
      else s3MaxHeaderLength - value.length)))

namespace HeaderCallbacks

def events (h : HeaderCallbacks) : List LlhttpEvent :=
  h.namePieces.map .headerField ++ h.valuePieces.map .headerValue

/-- What the table keeps of a header: the last piece of the name, and the value. -/
def slot (h : HeaderCallbacks) : HeaderSlot :=
  (copyName (h.namePieces.getLast h.name_ne), h.valuePieces.foldl appendValue .empty)

end HeaderCallbacks

/-- The slots that headers are written to. -/
def writtenSlots (hs : List HeaderCallbacks) : List (Option HeaderSlot) :=
  hs.map fun h => some h.slot

/-- The callbacks for one request. The body comes in spans, between boundaries of chunks; trailers
follow the last chunk. -/
structure RequestCallbacks where
  urlPieces : List (List UInt8)
  headers : List HeaderCallbacks
  method : CString
  keepAlive : Bool
  contentLength : UInt64
  /-- The spans of the body, `none` for the boundary of a chunk. -/
  body : List (Option (List UInt8))
  trailers : List HeaderCallbacks

namespace RequestCallbacks

def bodyEvent : Option (List UInt8) → LlhttpEvent
  | some span => .body span
  | none => .chunkBoundary

def events (r : RequestCallbacks) : List LlhttpEvent :=
  .messageBegin :: (r.urlPieces.map .url ++ (r.headers.flatMap HeaderCallbacks.events ++
    (.headersComplete r.method r.keepAlive r.contentLength :: (r.body.map bodyEvent ++
      (r.trailers.flatMap HeaderCallbacks.events ++ [.messageComplete])))))

/-- The header slots that a request counts, `none` for one that it does not write: the headers,
then, if there are trailers, the slot skipped by `on_headers_complete` and all trailers but the
last one. -/
def slots (r : RequestCallbacks) : List (Option HeaderSlot) :=
  (writtenSlots r.headers ++
    if r.trailers = [] then []
    else (if r.headers = [] then [] else [none]) ++ writtenSlots r.trailers.dropLast).take
      httpMaxHeaders

end RequestCallbacks

/-! ### Headers -/

/-- A header is added to the table. -/
def addHeader (ctx : HttpParserCtx L) (h : HeaderCallbacks) : HttpParserCtx L :=
  if httpMaxHeaders ≤ finishHeader ctx then
    { ctx with
      headerCount := finishHeader ctx
      parsingHeaderValue := false
      curHeaderName := h.slot.1 }
  else
    { ctx with
      headerCount := finishHeader ctx
      parsingHeaderValue := true
      curHeaderName := h.slot.1
      headerNames := Function.update ctx.headerNames (finishHeader ctx) h.slot.1
      headerValues := Function.update ctx.headerValues (finishHeader ctx) h.slot.2 }

/-- Callbacks that always succeed. -/
theorem deliver_map {α : Type} {event : α → LlhttpEvent}
    {on : HttpParserCtx L → α → HttpParserCtx L}
    (h : ∀ ctx a, callback ctx (event a) = some (on ctx a, true)) (ctx : HttpParserCtx L)
    (l : List α) : deliver ctx (l.map event) = some (l.foldl on ctx, true) := by
  induction l generalizing ctx with
  | nil => rfl
  | cons a l ih =>
    rw [List.map_cons, deliver, h]
    exact ih _

theorem deliver_append_of_some {ctx ctx' : HttpParserCtx L} {events : List LlhttpEvent}
    (h : deliver ctx events = some (ctx', true)) (events' : List LlhttpEvent) :
    deliver ctx (events ++ events') = deliver ctx' events' := by
  rw [deliver_append, h]

theorem foldl_onHeaderField (ctx : HttpParserCtx L) (pieces : List (List UInt8))
    (hne : pieces ≠ []) :
    pieces.foldl onHeaderField ctx =
      { ctx with
        headerCount := finishHeader ctx
        parsingHeaderValue := false
        curHeaderName := copyName (pieces.getLast hne) } := by
  induction pieces generalizing ctx with
  | nil => exact absurd rfl hne
  | cons piece pieces ih =>
    rw [List.foldl_cons]
    by_cases hnil : pieces = []
    · subst hnil
      rfl
    · rw [ih _ hnil, List.getLast_cons hnil]
      -- the first piece has finished the header before
      simp [onHeaderField, finishHeader]

theorem foldl_onHeaderValue_of_parsing {ctx : HttpParserCtx L}
    (hcount : ctx.headerCount < httpMaxHeaders) (hparsing : ctx.parsingHeaderValue = true)
    (pieces : List (List UInt8)) :
    pieces.foldl onHeaderValue ctx =
      { ctx with
        headerValues := Function.update ctx.headerValues ctx.headerCount
          (pieces.foldl appendValue (ctx.headerValues ctx.headerCount)) } := by
  induction pieces generalizing ctx with
  | nil => simp only [List.foldl_nil, Function.update_eq_self]
  | cons piece pieces ih =>
    have hstep : onHeaderValue ctx piece = { ctx with
        headerValues := Function.update ctx.headerValues ctx.headerCount
          (appendValue (ctx.headerValues ctx.headerCount) piece) } := by
      rw [onHeaderValue, if_neg (not_le.mpr hcount)]
      simp only [hparsing, if_true, Function.update_eq_self, appendValue]
    rw [List.foldl_cons, hstep]
    refine (ih ?_ ?_).trans ?_
    · exact hcount
    · exact hparsing
    · simp only [Function.update_self, Function.update_idem, List.foldl_cons]

theorem foldl_onHeaderValue {ctx : HttpParserCtx L} (hparsing : ctx.parsingHeaderValue = false)
    (pieces : List (List UInt8)) (hne : pieces ≠ []) :
    pieces.foldl onHeaderValue ctx =
      if httpMaxHeaders ≤ ctx.headerCount then ctx
      else
        { ctx with
          parsingHeaderValue := true
          headerNames := Function.update ctx.headerNames ctx.headerCount ctx.curHeaderName
          headerValues := Function.update ctx.headerValues ctx.headerCount
            (pieces.foldl appendValue .empty) } := by
  split_ifs with hcount
  · clear hne
    induction pieces with
    | nil => rfl
    | cons piece pieces ih =>
      rw [List.foldl_cons, onHeaderValue, if_pos hcount, ih]
  · obtain ⟨piece, rest, rfl⟩ := List.exists_cons_of_ne_nil hne
    have hstep : onHeaderValue ctx piece = { ctx with
        parsingHeaderValue := true
        headerNames := Function.update ctx.headerNames ctx.headerCount ctx.curHeaderName
        headerValues := Function.update ctx.headerValues ctx.headerCount
          (appendValue .empty piece) } := by
      rw [onHeaderValue, if_neg hcount]
      simp only [hparsing, Bool.false_eq_true, if_false, appendValue]
    rw [List.foldl_cons, hstep]
    refine (foldl_onHeaderValue_of_parsing ?_ rfl rest).trans ?_
    · exact not_le.mp hcount
    · simp only [Function.update_self, Function.update_idem, List.foldl_cons]

theorem deliver_header (ctx : HttpParserCtx L) (h : HeaderCallbacks) :
    deliver ctx h.events = some (addHeader ctx h, true) := by
  have hnames : deliver ctx (h.namePieces.map .headerField) =
      some (h.namePieces.foldl onHeaderField ctx, true) := deliver_map (fun _ _ => rfl) ctx _
  rw [HeaderCallbacks.events, deliver_append_of_some hnames, foldl_onHeaderField ctx _ h.name_ne]
  refine (deliver_map (fun _ _ => rfl) _ h.valuePieces).trans ?_
  rw [foldl_onHeaderValue rfl _ h.value_ne]
  rfl

theorem deliver_headers (ctx : HttpParserCtx L) (hs : List HeaderCallbacks) :
    deliver ctx (hs.flatMap HeaderCallbacks.events) = some (hs.foldl addHeader ctx, true) := by
  induction hs generalizing ctx with
  | nil => rfl
  | cons h hs ih =>
    rw [List.flatMap_cons, deliver_append_of_some (deliver_header ctx h), ih]
    rfl

/-! ### The header table -/

/-- The fields after the headers of a table were read. -/
def readHeaders (s3 : S3Request) (headers : List HeaderSlot) : S3Request :=
  headers.foldl (fun s3 header => readHeader s3 header.1 header.2) s3

/-- The content of a header slot. -/
def HttpParserCtx.headerSlot (ctx : HttpParserCtx L) (i : ℕ) : HeaderSlot :=
  (ctx.headerNames i, ctx.headerValues i)

/-- Since the context `ctx₀`, the first slots of the header table were written, or skipped, as
listed, and all others are as they were. -/
def Filled (ctx₀ ctx : HttpParserCtx L) (slots : List (Option HeaderSlot)) : Prop :=
  ∀ i, ctx.headerSlot i = (slots[i]?.join).getD (ctx₀.headerSlot i)

/-- The header table of a request in progress: the next header goes behind the listed slots. The
fields read from headers are those of `ctx₀`. -/
structure Recorded (ctx₀ ctx : HttpParserCtx L) (slots : List (Option HeaderSlot)) : Prop where
  filled : Filled ctx₀ ctx slots
  finish_eq : finishHeader ctx = slots.length
  length_le : slots.length ≤ httpMaxHeaders
  s3_eq : ctx.request.s3 = ctx₀.request.s3

section Slots

variable {ctx₀ ctx ctx' : HttpParserCtx L} {slots : List (Option HeaderSlot)}

theorem finishHeader_of_le (h : httpMaxHeaders ≤ ctx.headerCount) :
    finishHeader ctx = ctx.headerCount :=
  if_neg fun hlt => absurd hlt.2 (not_lt.mpr h)

theorem getElem?_join_append_singleton {i : ℕ} (hi : i ≠ slots.length) (o : Option HeaderSlot) :
    ((slots ++ [o])[i]?).join = (slots[i]?).join := by
  rcases Nat.lt_or_ge i slots.length with hlt | hge
  · rw [List.getElem?_append_left hlt]
  · have hgt : slots.length + 1 ≤ i := by omega
    rw [List.getElem?_eq_none hge, List.getElem?_eq_none (by simpa using hgt)]

/-- A list that is cut twice. -/
theorem take_append_take (l l' : List (Option HeaderSlot)) (n : ℕ) :
    (l.take n ++ l').take n = (l ++ l').take n := by
  rcases Nat.le_total l.length n with hle | hge
  · rw [List.take_of_length_le hle]
  · have hlen : (l.take n).length = n := List.length_take_of_le hge
    rw [List.take_append_of_le_length hge, List.take_append_of_le_length (le_of_eq hlen.symm),
      List.take_take, min_self]

theorem take_prefix_take_append (l l' : List (Option HeaderSlot)) (n : ℕ) :
    l.take n <+: (l ++ l').take n := by
  rw [List.take_append]
  exact List.prefix_append _ _

theorem Recorded.of_eq (h : Recorded ctx₀ ctx slots) (hnames : ctx'.headerNames = ctx.headerNames)
    (hvalues : ctx'.headerValues = ctx.headerValues) (hcount : ctx'.headerCount = ctx.headerCount)
    (hparsing : ctx'.parsingHeaderValue = ctx.parsingHeaderValue)
    (hs3 : ctx'.request.s3 = ctx.request.s3) : Recorded ctx₀ ctx' slots where
  filled i := by
    rw [← h.filled i, HttpParserCtx.headerSlot, HttpParserCtx.headerSlot, hnames, hvalues]
  finish_eq := by
    rw [← h.finish_eq, finishHeader, finishHeader, hcount, hparsing]
  length_le := h.length_le
  s3_eq := hs3.trans h.s3_eq

theorem recorded_onMessageBegin (ctx : HttpParserCtx L) : Recorded ctx (onMessageBegin ctx) [] :=
  ⟨fun _ => rfl, rfl, Nat.zero_le _, rfl⟩

theorem Recorded.addHeader (h : Recorded ctx₀ ctx slots) (header : HeaderCallbacks) :
    Recorded ctx₀ (addHeader ctx header) ((slots ++ [some header.slot]).take httpMaxHeaders) := by
  rw [Access.addHeader, h.finish_eq]
  split_ifs with hfull
  · have htake : (slots ++ [some header.slot]).take httpMaxHeaders = slots := by
      rw [← le_antisymm h.length_le hfull, List.take_left]
    rw [htake]
    exact ⟨h.filled, finishHeader_of_le hfull, h.length_le, h.s3_eq⟩
  · have hlen : (slots ++ [some header.slot]).length ≤ httpMaxHeaders := by
      rw [List.length_append, List.length_singleton]
      exact not_le.mp hfull
    rw [List.take_of_length_le hlen]
    refine ⟨fun i => ?_, ?_, hlen, h.s3_eq⟩
    · by_cases hi : i = slots.length
      · subst hi
        simp [HttpParserCtx.headerSlot]
      · rw [getElem?_join_append_singleton hi, ← h.filled i]
        simp [HttpParserCtx.headerSlot, Function.update_of_ne hi]
    · rw [List.length_append, List.length_singleton]
      exact if_pos ⟨rfl, not_le.mp hfull⟩

/-- Headers are written behind one another until the table is full. -/
theorem Recorded.addHeaders (h : Recorded ctx₀ ctx slots) (hs : List HeaderCallbacks) :
    Recorded ctx₀ (hs.foldl Access.addHeader ctx)
      ((slots ++ writtenSlots hs).take httpMaxHeaders) := by
  induction hs generalizing ctx slots with
  | nil =>
    rw [writtenSlots, List.map_nil, List.append_nil, List.take_of_length_le h.length_le]
    exact h
  | cons header hs ih =>
    have hnext := ih (h.addHeader header)
    rw [take_append_take, List.append_assoc] at hnext
    exact hnext

/-- After a header is added, it is the one being read, unless the table is full. -/
theorem parsing_addHeader (ctx : HttpParserCtx L) (header : HeaderCallbacks) :
    (addHeader ctx header).parsingHeaderValue = true ∨
      httpMaxHeaders ≤ (addHeader ctx header).headerCount := by
  rw [addHeader]
  split_ifs with hfull
  · exact .inr hfull
  · exact .inl rfl

theorem s3_onHeadersComplete (ctx : HttpParserCtx L) (method : CString) (keepAlive : Bool)
    (contentLength : UInt64) :
    (onHeadersComplete ctx method keepAlive contentLength).request.s3 = ctx.request.s3 := by
  unfold onHeadersComplete
  dsimp only
  split_ifs <;> rfl

/-- `on_headers_complete` without a header being read. -/
theorem Recorded.onHeadersComplete (h : Recorded ctx₀ ctx slots)
    (hparsing : ctx.parsingHeaderValue = false) (method : CString) (keepAlive : Bool)
    (contentLength : UInt64) :
    Recorded ctx₀ (onHeadersComplete ctx method keepAlive contentLength) slots := by
  have hcount : finishHeader ctx = ctx.headerCount := by simp [finishHeader, hparsing]
  exact h.of_eq rfl rfl hcount rfl (s3_onHeadersComplete ..)

/-- `on_headers_complete` counts the header being read and leaves it marked as being read, so that
the next header skips a slot. -/
theorem Recorded.onHeadersComplete_skips (h : Recorded ctx₀ ctx slots)
    (hparsing : ctx.parsingHeaderValue = true ∨ httpMaxHeaders ≤ ctx.headerCount)
    (method : CString) (keepAlive : Bool) (contentLength : UInt64) :
    Recorded ctx₀ (Access.onHeadersComplete ctx method keepAlive contentLength)
      ((slots ++ [none]).take httpMaxHeaders) := by
  have hs3 := (s3_onHeadersComplete ctx method keepAlive contentLength).trans h.s3_eq
  have hfinish : finishHeader (Access.onHeadersComplete ctx method keepAlive contentLength) =
      if ctx.parsingHeaderValue ∧ slots.length < httpMaxHeaders then slots.length + 1
      else slots.length := by
    rw [← h.finish_eq]
    rfl
  rcases Nat.lt_or_ge slots.length httpMaxHeaders with hlt | hfull
  · have htrue : ctx.parsingHeaderValue = true := by
      refine hparsing.resolve_right fun hge => ?_
      have hcount := (finishHeader_of_le hge).symm.trans h.finish_eq
      omega
    have hlen : (slots ++ [none]).length ≤ httpMaxHeaders := by
      rw [List.length_append, List.length_singleton]
      exact hlt
    rw [List.take_of_length_le hlen]
    refine ⟨fun i => ?_, ?_, hlen, hs3⟩
    · refine (h.filled i).trans ?_
      by_cases hi : i = slots.length
      · subst hi
        simp
      · rw [getElem?_join_append_singleton hi]
    · rw [hfinish, if_pos ⟨htrue, hlt⟩, List.length_append, List.length_singleton]
  · have htake : (slots ++ [none]).take httpMaxHeaders = slots := by
      rw [← le_antisymm h.length_le hfull, List.take_left]
    rw [htake]
    refine ⟨h.filled, ?_, h.length_le, hs3⟩
    rw [hfinish, if_neg fun hlt => absurd hlt.2 (not_lt.mpr hfull)]

/-- The headers of a table, when slots behind the counted ones may have been written. -/
theorem Recorded.headers_eq (h : Recorded ctx₀ ctx slots) {counted : List (Option HeaderSlot)}
    (hslots : counted <+: slots) (hcount : ctx.headerCount = counted.length) :
    ctx.headers = counted.mapIdx fun i o => o.getD (ctx₀.headerSlot i) := by
  obtain ⟨rest, rfl⟩ := hslots
  rw [HttpParserCtx.headers, hcount]
  refine List.ext_getElem (by simp) fun i hi hi' => ?_
  have hlt : i < counted.length := by simpa using hi'
  have hslot := h.filled i
  rw [List.getElem?_append_left hlt, List.getElem?_eq_getElem hlt, Option.join_some] at hslot
  simpa [HttpParserCtx.headerSlot] using hslot

theorem parsing_of_recorded_nil (h : Recorded ctx₀ ctx []) : ctx.parsingHeaderValue = false := by
  have hfinish := h.finish_eq
  rw [finishHeader, List.length_nil] at hfinish
  split_ifs at hfinish with hparsing
  by_contra htrue
  refine hparsing ⟨by simpa using htrue, ?_⟩
  rw [hfinish]
  exact Nat.succ_pos _

end Slots

/-! ### The callbacks of a request, one after the other -/

/-- The context when the callbacks for the headers are made. -/
def afterHeaders (ctx : HttpParserCtx L) (r : RequestCallbacks) : HttpParserCtx L :=
  r.headers.foldl addHeader (r.urlPieces.foldl onUrl (onMessageBegin ctx))

/-- The callbacks up to the last header, and those that follow. -/
theorem deliver_afterHeaders (ctx : HttpParserCtx L) (r : RequestCallbacks)
    (events : List LlhttpEvent) :
    deliver ctx (.messageBegin :: (r.urlPieces.map .url ++
      (r.headers.flatMap HeaderCallbacks.events ++ events))) =
        deliver (afterHeaders ctx r) events := by
  have hurl : deliver (onMessageBegin ctx) (r.urlPieces.map .url) =
      some (r.urlPieces.foldl onUrl (onMessageBegin ctx), true) := deliver_map (fun _ _ => rfl) _ _
  have hheaders : deliver (r.urlPieces.foldl onUrl (onMessageBegin ctx))
      (r.headers.flatMap HeaderCallbacks.events) = some (afterHeaders ctx r, true) :=
    deliver_headers _ _
  rw [deliver, callback]
  dsimp only
  rw [deliver_append_of_some hurl, deliver_append_of_some hheaders]

theorem deliver_events (ctx : HttpParserCtx L) (r : RequestCallbacks) :
    deliver ctx r.events =
      match deliver (onHeadersComplete (afterHeaders ctx r) r.method r.keepAlive r.contentLength)
        (r.body.map RequestCallbacks.bodyEvent) with
      | some (ctx', true) => some (onMessageComplete (r.trailers.foldl addHeader ctx'), true)
      | failed => failed := by
  rw [RequestCallbacks.events, deliver_afterHeaders, deliver, callback]
  dsimp only
  rw [deliver_append]
  rcases deliver _ (r.body.map _) with _ | ⟨ctx', _ | _⟩
  · rfl
  · rfl
  · exact deliver_append_of_some (deliver_headers _ _) _

theorem recorded_foldl_onUrl {ctx₀ ctx : HttpParserCtx L} {slots : List (Option HeaderSlot)}
    (h : Recorded ctx₀ ctx slots) (pieces : List (List UInt8)) :
    Recorded ctx₀ (pieces.foldl onUrl ctx) slots := by
  induction pieces generalizing ctx with
  | nil => exact h
  | cons piece pieces ih => exact ih (h.of_eq rfl rfl rfl rfl rfl)

theorem deliver_cons_eq_some {ctx ctx' : HttpParserCtx L} {e : LlhttpEvent}
    {events : List LlhttpEvent} (h : deliver ctx (e :: events) = some (ctx', true)) :
    ∃ ctx₁, callback ctx e = some (ctx₁, true) ∧ deliver ctx₁ events = some (ctx', true) := by
  rw [deliver] at h
  rcases hcallback : callback ctx e with _ | ⟨ctx₁, _ | _⟩ <;> rw [hcallback] at h
  · cases h
  · cases h
  · exact ⟨ctx₁, rfl, h⟩

theorem onBody_eq_some {ctx ctx' : HttpParserCtx L} {data : List UInt8}
    (h : onBody ctx data = some (ctx', true)) :
    ∃ capacity, ctx' = appendBody ctx data capacity ∧
      ¬ (0 < ctx.maxBodySize ∧ ctx.maxBodySize.toNat < ctx.request.bodyLen + data.length) ∧
      bodyCapacityFor ctx.request (ctx.request.bodyLen + data.length) = some capacity := by
  rw [onBody] at h
  split_ifs at h with hlimit
  · cases h
  · obtain ⟨capacity, hcapacity, hctx⟩ := Option.map_eq_some_iff.mp h
    exact ⟨capacity, (Prod.mk.inj hctx).1.symm, hlimit, hcapacity⟩

/-- The spans of the body leave the headers alone. -/
theorem Recorded.deliver_body {ctx₀ ctx ctx' : HttpParserCtx L} {slots : List (Option HeaderSlot)}
    {body : List (Option (List UInt8))} (h : Recorded ctx₀ ctx slots)
    (hdeliver : deliver ctx (body.map RequestCallbacks.bodyEvent) = some (ctx', true)) :
    Recorded ctx₀ ctx' slots ∧ ctx'.headerCount = ctx.headerCount := by
  induction body generalizing ctx with
  | nil =>
    obtain rfl : ctx = ctx' := by simpa [deliver] using hdeliver
    exact ⟨h, rfl⟩
  | cons span body ih =>
    obtain ⟨ctx₁, hcallback, hrest⟩ := deliver_cons_eq_some hdeliver
    cases span with
    | none =>
      obtain rfl : ctx = ctx₁ := by simpa [RequestCallbacks.bodyEvent, callback] using hcallback
      exact ih h hrest
    | some data =>
      obtain ⟨capacity, rfl, -, -⟩ := onBody_eq_some hcallback
      have hspan : Recorded ctx₀ (appendBody ctx data capacity) slots :=
        h.of_eq rfl rfl rfl rfl rfl
      obtain ⟨hrecorded, hcount⟩ := ih hspan hrest
      exact ⟨hrecorded, hcount⟩

theorem recorded_afterHeaders (ctx : HttpParserCtx L) (r : RequestCallbacks) :
    Recorded ctx (afterHeaders ctx r) ((writtenSlots r.headers).take httpMaxHeaders) :=
  (recorded_foldl_onUrl (recorded_onMessageBegin ctx) r.urlPieces).addHeaders r.headers

/-- The header table after `on_headers_complete`. -/
theorem recorded_onHeadersComplete (ctx : HttpParserCtx L) (r : RequestCallbacks) :
    Recorded ctx (onHeadersComplete (afterHeaders ctx r) r.method r.keepAlive r.contentLength)
      ((writtenSlots r.headers ++ if r.headers = [] then [] else [none]).take httpMaxHeaders) := by
  have hrecorded := recorded_afterHeaders ctx r
  split_ifs with hnil
  · rw [List.append_nil]
    have hempty : Recorded ctx (afterHeaders ctx r) [] := by
      rwa [hnil, writtenSlots, List.map_nil, List.take_nil] at hrecorded
    exact hrecorded.onHeadersComplete (parsing_of_recorded_nil hempty) ..
  · rw [← take_append_take]
    refine hrecorded.onHeadersComplete_skips ?_ ..
    rw [afterHeaders, ← List.dropLast_append_getLast hnil, List.foldl_append]
    exact parsing_addHeader _ _

theorem headerCount_addHeader (ctx : HttpParserCtx L) (header : HeaderCallbacks) :
    (addHeader ctx header).headerCount = finishHeader ctx := by
  rw [addHeader]
  split_ifs <;> rfl

/-- The callbacks of a request that completes, with the header table before the trailers. -/
theorem exists_recorded_of_deliver {ctx ctx' : HttpParserCtx L} {r : RequestCallbacks}
    (h : deliver ctx r.events = some (ctx', true)) :
    ∃ ctx₁, Recorded ctx ctx₁
        ((writtenSlots r.headers ++ if r.headers = [] then [] else [none]).take httpMaxHeaders) ∧
      ctx₁.headerCount = finishHeader (afterHeaders ctx r) ∧
      ctx' = onMessageComplete (r.trailers.foldl addHeader ctx₁) := by
  rw [deliver_events] at h
  rcases hbody : deliver (onHeadersComplete (afterHeaders ctx r) r.method r.keepAlive
    r.contentLength) (r.body.map RequestCallbacks.bodyEvent) with _ | ⟨ctx₁, _ | _⟩ <;>
    rw [hbody] at h
  · cases h
  · cases h
  · obtain ⟨hrecorded, hcount⟩ := (recorded_onHeadersComplete ctx r).deliver_body hbody
    exact ⟨ctx₁, hrecorded, hcount, (Prod.mk.inj (Option.some.inj h)).1.symm⟩

/-- **The headers of a request.** The callbacks of a request leave a table whose counted slots are
those the request wrote, and the old content where it skipped a slot; the fields are read from that
table, on top of the old ones. -/
theorem headers_deliver {ctx ctx' : HttpParserCtx L} {r : RequestCallbacks}
    (h : deliver ctx r.events = some (ctx', true)) :
    ctx'.headers = (r.slots.mapIdx fun i o => o.getD (ctx.headerSlot i)) ∧
      ctx'.request.s3 = readHeaders ctx.request.s3 ctx'.headers := by
  obtain ⟨ctx₁, hrecorded, hcount, rfl⟩ := exists_recorded_of_deliver h
  have htrailers := hrecorded.addHeaders r.trailers
  refine ⟨?_, congrArg (readHeaders · _) htrailers.s3_eq⟩
  by_cases hnil : r.trailers = []
  · -- without trailers, the headers are those `on_headers_complete` counted
    rw [RequestCallbacks.slots, if_pos hnil, List.append_nil, hnil]
    exact hrecorded.headers_eq (take_prefix_take_append ..)
      (hcount.trans (recorded_afterHeaders ctx r).finish_eq)
  · -- the last trailer is not counted
    have hbefore := hrecorded.addHeaders r.trailers.dropLast
    rw [take_append_take, List.append_assoc] at hbefore
    have hlast : r.trailers.foldl addHeader ctx₁ =
        addHeader (r.trailers.dropLast.foldl addHeader ctx₁) (r.trailers.getLast hnil) := by
      conv_lhs => rw [← List.dropLast_append_getLast hnil, List.foldl_append]
      rfl
    rw [RequestCallbacks.slots, if_neg hnil, hlast]
    refine (hbefore.addHeader _).headers_eq ?_
      ((headerCount_addHeader _ _).trans hbefore.finish_eq)
    rw [take_append_take]
    exact take_prefix_take_append ..

/-! ### Fields read from headers -/

/-- The fields of `s3_request_t` that `on_message_complete` reads from headers. -/
inductive S3Field where
  | contentLength
  | contentType
  | authorization
  | host
  | date
deriving DecidableEq

/-- The header a field is read from. -/
def S3Field.header : S3Field → CString
  | .contentLength => .ofString "content-length"
  | .contentType => .ofString "content-type"
  | .authorization => .ofString "authorization"
  | .host => .ofString "host"
  | .date => .ofString "x-amz-date"

/-- The value of a field. -/
def S3Request.get (s3 : S3Request) : S3Field → UInt64 ⊕ CharArray s3MaxHeaderLength
  | .contentLength => .inl s3.contentLength
  | .contentType => .inr s3.contentType
  | .authorization => .inr s3.authorization
  | .host => .inr s3.host
  | .date => .inr s3.date

/-- The number or the text, whichever the field holds. -/
def S3Field.choose (number : UInt64) (text : CharArray s3MaxHeaderLength) :
    S3Field → UInt64 ⊕ CharArray s3MaxHeaderLength
  | .contentLength => .inl number
  | _ => .inr text

/-- The value of a field for a header. -/
def S3Field.read (value : CharArray s3MaxHeaderLength) :
    S3Field → UInt64 ⊕ CharArray s3MaxHeaderLength
  | .contentLength => .inl (strtoull value.toCString)
  | _ => .inr (.strncpy value.toCString)

/-- A header names a field. -/
def HeaderNames (header : HeaderSlot) (field : S3Field) : Prop :=
  strcasecmpEq header.1.toCString field.header = true

instance (header : HeaderSlot) (field : S3Field) : Decidable (HeaderNames header field) :=
  inferInstanceAs (Decidable (_ = true))

theorem HeaderNames.unique {header : HeaderSlot} {field field' : S3Field}
    (h : HeaderNames header field) (h' : HeaderNames header field') : field = field' := by
  have heq : field.header.bytes.map toLower = field'.header.bytes.map toLower :=
    (of_decide_eq_true h).symm.trans (of_decide_eq_true h')
  revert heq
  cases field <;> cases field' <;> decide

/-- The first field that meets a condition is set, to a number or to a text. -/
def S3Request.setFirst (s3 : S3Request) (p : S3Field → Prop) [DecidablePred p] (number : UInt64)
    (text : CharArray s3MaxHeaderLength) : S3Request :=
  if p .contentLength then { s3 with contentLength := number }
  else if p .contentType then { s3 with contentType := text }
  else if p .authorization then { s3 with authorization := text }
  else if p .host then { s3 with host := text }
  else if p .date then { s3 with date := text }
  else s3

/-- A field set to the number or to the text, whichever it holds. -/
def S3Request.set (s3 : S3Request) (number : UInt64) (text : CharArray s3MaxHeaderLength) :
    S3Field → S3Request
  | .contentLength => { s3 with contentLength := number }
  | .contentType => { s3 with contentType := text }
  | .authorization => { s3 with authorization := text }
  | .host => { s3 with host := text }
  | .date => { s3 with date := text }

theorem S3Request.get_set (s3 : S3Request) (number : UInt64) (text : CharArray s3MaxHeaderLength)
    (field field' : S3Field) :
    (s3.set number text field).get field' =
      if field = field' then field'.choose number text else s3.get field' := by
  cases field <;> cases field' <;> rfl

theorem S3Request.setFirst_of_unique (s3 : S3Request) {p : S3Field → Prop} [DecidablePred p]
    {field : S3Field} (hp : p field) (hother : ∀ field', field' ≠ field → ¬ p field')
    (number : UInt64) (text : CharArray s3MaxHeaderLength) :
    s3.setFirst p number text = s3.set number text field := by
  cases field <;> simp [setFirst, set, hp, hother]

/-- A condition that only one field meets sets that field. -/
theorem S3Request.get_setFirst (s3 : S3Request) {p : S3Field → Prop} [DecidablePred p]
    (hunique : ∀ {field field'}, p field → p field' → field = field') (number : UInt64)
    (text : CharArray s3MaxHeaderLength) (field : S3Field) :
    (s3.setFirst p number text).get field =
      if p field then field.choose number text else s3.get field := by
  by_cases hp : ∃ field', p field'
  · obtain ⟨field', hp⟩ := hp
    have hother : ∀ field, field ≠ field' → ¬ p field := fun _ hne h => hne (hunique h hp)
    rw [s3.setFirst_of_unique hp hother, get_set]
    refine if_congr ⟨?_, hunique hp⟩ rfl rfl
    rintro rfl
    exact hp
  · have hnone := not_exists.mp hp
    rw [setFirst, if_neg (hnone _), if_neg (hnone _), if_neg (hnone _), if_neg (hnone _),
      if_neg (hnone _), if_neg (hnone _)]

theorem get_readHeader (s3 : S3Request) (header : HeaderSlot) (field : S3Field) :
    (readHeader s3 header.1 header.2).get field =
      if HeaderNames header field then field.read header.2 else s3.get field := by
  have hset : readHeader s3 header.1 header.2 = s3.setFirst (HeaderNames header)
      (strtoull header.2.toCString) (.strncpy header.2.toCString) := rfl
  rw [hset, s3.get_setFirst HeaderNames.unique]
  cases field <;> rfl

theorem S3Request.ext_get {s s' : S3Request} (hbucket : s.bucket = s'.bucket)
    (hkey : s.key = s'.key) (hoperation : s.operation = s'.operation)
    (hget : ∀ field, s.get field = s'.get field) : s = s' := by
  cases s
  cases s'
  simp only [S3Request.mk.injEq]
  exact ⟨hbucket, hkey, hoperation, Sum.inl.inj (hget .contentLength),
    Sum.inr.inj (hget .contentType), Sum.inr.inj (hget .authorization),
    Sum.inr.inj (hget .host), Sum.inr.inj (hget .date)⟩

theorem names_readHeader (s3 : S3Request) (name value : CharArray s3MaxHeaderLength) :
    (readHeader s3 name value).bucket = s3.bucket ∧ (readHeader s3 name value).key = s3.key ∧
      (readHeader s3 name value).operation = s3.operation := by
  rw [readHeader]
  split_ifs <;> exact ⟨rfl, rfl, rfl⟩

theorem names_readHeaders (s3 : S3Request) (headers : List HeaderSlot) :
    (readHeaders s3 headers).bucket = s3.bucket ∧ (readHeaders s3 headers).key = s3.key ∧
      (readHeaders s3 headers).operation = s3.operation := by
  induction headers generalizing s3 with
  | nil => exact ⟨rfl, rfl, rfl⟩
  | cons header headers ih =>
    obtain ⟨hbucket, hkey, hoperation⟩ := ih (readHeader s3 header.1 header.2)
    obtain ⟨hbucket', hkey', hoperation'⟩ := names_readHeader s3 header.1 header.2
    exact ⟨hbucket.trans hbucket', hkey.trans hkey', hoperation.trans hoperation'⟩

/-- A field read from headers forgets its old value exactly when a header names it. -/
theorem get_readHeaders_eq_iff (s s' : S3Request) (headers : List HeaderSlot) (field : S3Field) :
    (readHeaders s headers).get field = (readHeaders s' headers).get field ↔
      s.get field = s'.get field ∨ ∃ header ∈ headers, HeaderNames header field := by
  induction headers generalizing s s' with
  | nil => simp [readHeaders]
  | cons header headers ih =>
    have hcons := ih (readHeader s header.1 header.2) (readHeader s' header.1 header.2)
    rw [get_readHeader, get_readHeader] at hcons
    refine hcons.trans ?_
    by_cases hf : HeaderNames header field
    · simp [hf]
    · simp [hf]

/-- The fields read from headers are the same for two old values exactly when each field had the
same old value or is named by a header. -/
theorem readHeaders_eq_iff {s s' : S3Request} (hbucket : s.bucket = s'.bucket)
    (hkey : s.key = s'.key) (hoperation : s.operation = s'.operation)
    (headers : List HeaderSlot) :
    readHeaders s headers = readHeaders s' headers ↔
      ∀ field, s.get field = s'.get field ∨ ∃ header ∈ headers, HeaderNames header field := by
  constructor
  · intro heq field
    rw [← get_readHeaders_eq_iff, heq]
  · intro hfields
    obtain ⟨hb, hk, ho⟩ := names_readHeaders s headers
    obtain ⟨hb', hk', ho'⟩ := names_readHeaders s' headers
    refine S3Request.ext_get ?_ ?_ ?_ fun field =>
      (get_readHeaders_eq_iff s s' headers field).mpr (hfields field)
    · rw [hb, hb', hbucket]
    · rw [hk, hk', hkey]
    · rw [ho, ho', hoperation]

/-! ### Two contexts -/

/-- The contexts differ at most in what is not cleared between requests. -/
def SameMessage (ctx ctx' : HttpParserCtx L) : Prop :=
  ∃ s3 names values name lastError, ctx =
    { ctx' with
      request := { ctx'.request with s3 := s3 }
      headerNames := names
      headerValues := values
      curHeaderName := name
      lastError := lastError }

theorem SameMessage.request_eq_iff {ctx ctx' : HttpParserCtx L} (h : SameMessage ctx ctx') :
    ctx.request = ctx'.request ↔ ctx.request.s3 = ctx'.request.s3 := by
  obtain ⟨s3, names, values, name, lastError, rfl⟩ := h
  constructor
  · exact congrArg HttpRequest.s3
  · intro hs3
    obtain rfl : s3 = ctx'.request.s3 := hs3
    rfl

theorem SameMessage.callback {ctx ctx' d' : HttpParserCtx L} {e : LlhttpEvent}
    (h : SameMessage ctx ctx') (hcallback : callback ctx' e = some (d', true)) :
    ∃ d, Access.callback ctx e = some (d, true) ∧ SameMessage d d' := by
  obtain ⟨s3, names, values, name, lastError, hctx⟩ := h
  cases e with
  | body span =>
    obtain ⟨capacity, rfl, hlimit, hcapacity⟩ := onBody_eq_some hcallback
    refine ⟨appendBody ctx span capacity, ?_, s3, names, values, name, lastError, by rw [hctx]; rfl⟩
    rw [hctx, Access.callback, onBody, if_neg hlimit]
    exact congrArg (Option.map _) hcapacity
  | headerValue span =>
    cases hcallback
    refine ⟨_, rfl, ?_⟩
    subst hctx
    by_cases hfull : httpMaxHeaders ≤ ctx'.headerCount
    · rw [onHeaderValue, onHeaderValue, if_pos hfull, if_pos hfull]
      exact ⟨s3, names, values, name, lastError, rfl⟩
    · rw [onHeaderValue, onHeaderValue, if_neg hfull, if_neg hfull]
      exact ⟨s3, _, _, name, lastError, rfl⟩
  | headersComplete method keepAlive contentLength =>
    cases hcallback
    refine ⟨_, rfl, s3, names, values, name, lastError, ?_⟩
    subst hctx
    unfold onHeadersComplete
    dsimp only
    split_ifs <;> rfl
  | messageBegin | url | headerField | chunkBoundary | messageComplete =>
    cases hcallback
    subst hctx
    exact ⟨_, rfl, _, _, _, _, _, rfl⟩

theorem SameMessage.deliver {ctx ctx' d' : HttpParserCtx L} {events : List LlhttpEvent}
    (h : SameMessage ctx ctx') (hdeliver : deliver ctx' events = some (d', true)) :
    ∃ d, Access.deliver ctx events = some (d, true) ∧ SameMessage d d' := by
  induction events generalizing ctx ctx' with
  | nil =>
    cases hdeliver
    exact ⟨ctx, rfl, h⟩
  | cons e events ih =>
    obtain ⟨ctx₁', hcallback', hrest⟩ := deliver_cons_eq_some hdeliver
    obtain ⟨ctx₁, hcallback, hsame⟩ := h.callback hcallback'
    rw [Access.deliver, hcallback]
    exact ih hsame hrest

theorem maxBodySize_deliver {ctx ctx' : HttpParserCtx L} {events : List LlhttpEvent}
    (h : deliver ctx events = some (ctx', true)) : ctx'.maxBodySize = ctx.maxBodySize := by
  induction events generalizing ctx with
  | nil =>
    cases h
    rfl
  | cons e events ih =>
    obtain ⟨ctx₁, hcallback, hrest⟩ := deliver_cons_eq_some h
    refine (ih hrest).trans ?_
    cases e with
    | headerValue span =>
      cases hcallback
      unfold onHeaderValue
      split_ifs <;> rfl
    | body span =>
      obtain ⟨capacity, rfl, -, -⟩ := onBody_eq_some hcallback
      rfl
    | _ =>
      cases hcallback
      rfl

/-! ### The second request -/

/-- A header of a table was written, or is the old content of a slot that was skipped. -/
theorem mem_mapIdx_getD_iff (slots : List (Option HeaderSlot)) (f : ℕ → HeaderSlot)
    (header : HeaderSlot) :
    (header ∈ slots.mapIdx fun i o => o.getD (f i)) ↔
      some header ∈ slots ∨ ∃ i, slots[i]? = some none ∧ f i = header := by
  constructor
  · intro hmem
    obtain ⟨i, hi, rfl⟩ := List.mem_mapIdx.mp hmem
    cases hslot : slots[i] with
    | none => exact .inr ⟨i, by rw [List.getElem?_eq_getElem hi, hslot], rfl⟩
    | some slot => exact .inl (hslot ▸ List.getElem_mem hi)
  · rintro (hmem | ⟨i, hi, rfl⟩)
    · obtain ⟨i, hi⟩ := List.mem_iff_getElem?.mp hmem
      exact List.mem_iff_getElem?.mpr ⟨i, by rw [List.getElem?_mapIdx, hi]; rfl⟩
    · exact List.mem_iff_getElem?.mpr ⟨i, by rw [List.getElem?_mapIdx, hi]; rfl⟩

/-- The slots of two tables that are counted alike agree exactly when they agree on the slots that
were skipped. -/
theorem mapIdx_getD_eq_iff (slots : List (Option HeaderSlot)) (f g : ℕ → HeaderSlot) :
    (slots.mapIdx fun i o => o.getD (f i)) = (slots.mapIdx fun i o => o.getD (g i)) ↔
      ∀ i, slots[i]? = some none → f i = g i := by
  constructor
  · intro heq i hi
    have hslot := congrArg (·[i]?) heq
    simpa [List.getElem?_mapIdx, hi] using hslot
  · intro hskipped
    refine List.ext_getElem? fun i => ?_
    rw [List.getElem?_mapIdx, List.getElem?_mapIdx]
    cases hi : slots[i]? with
    | none => rfl
    | some o =>
      cases o with
      | none => exact congrArg some (hskipped i hi)
      | some slot => rfl

theorem getElem?_writtenSlots_ne (hs : List HeaderCallbacks) (i : ℕ) :
    (writtenSlots hs)[i]? ≠ some none := by
  rw [writtenSlots, List.getElem?_map]
  cases hs[i]? <;> simp

/-- The slot that a request skips. -/
theorem RequestCallbacks.slots_eq_none_iff (r : RequestCallbacks) (i : ℕ) :
    r.slots[i]? = some none ↔
      i = r.headers.length ∧ r.headers ≠ [] ∧ r.trailers ≠ [] ∧
        r.headers.length < httpMaxHeaders := by
  have hlen : (writtenSlots r.headers).length = r.headers.length := List.length_map _
  have hrest : ∀ j, (if r.trailers = [] then []
      else (if r.headers = [] then [] else [none]) ++ writtenSlots r.trailers.dropLast)[j]? =
        some none ↔ j = 0 ∧ r.headers ≠ [] ∧ r.trailers ≠ [] := by
    intro j
    split_ifs with htrailers hheaders
    · simp [htrailers]
    · simpa [hheaders] using getElem?_writtenSlots_ne r.trailers.dropLast j
    · cases j with
      | zero => simp [htrailers, hheaders]
      | succ j => simpa using getElem?_writtenSlots_ne r.trailers.dropLast j
  rw [slots, List.getElem?_take]
  by_cases hi : i < httpMaxHeaders
  · rw [if_pos hi]
    rcases Nat.lt_or_ge i r.headers.length with hlt | hge
    · rw [List.getElem?_append_left (hlen ▸ hlt)]
      simp only [getElem?_writtenSlots_ne, false_iff]
      omega
    · rw [List.getElem?_append_right (hlen ▸ hge), hrest, hlen]
      constructor
      · rintro ⟨hzero, hheaders, htrailers⟩
        exact ⟨by omega, hheaders, htrailers, by omega⟩
      · rintro ⟨rfl, hheaders, htrailers, -⟩
        exact ⟨Nat.sub_self _, hheaders, htrailers⟩
  · rw [if_neg hi]
    simp only [reduceCtorEq, false_iff]
    omega

theorem not_headerNames_empty (field : S3Field) : ¬ HeaderNames (.empty, .empty) field := by
  cases field <;> decide

/-- The headers of a fresh context name the fields that the written slots name. -/
theorem exists_headerNames_iff (r : RequestCallbacks) (field : S3Field) :
    (∃ header ∈ r.slots.mapIdx fun _ o => o.getD (.empty, .empty), HeaderNames header field) ↔
      ∃ header, some header ∈ r.slots ∧ HeaderNames header field := by
  constructor
  · rintro ⟨header, hmem, hnames⟩
    rcases (mem_mapIdx_getD_iff r.slots (fun _ => (.empty, .empty)) header).mp hmem with
      hslot | ⟨i, -, rfl⟩
    · exact ⟨header, hslot, hnames⟩
    · exact absurd hnames (not_headerNames_empty field)
  · rintro ⟨header, hmem, hnames⟩
    exact ⟨header, (mem_mapIdx_getD_iff r.slots _ header).mpr (.inl hmem), hnames⟩

/-- The value of a field that no header was read for. -/
def S3Field.unset : S3Field → UInt64 ⊕ CharArray s3MaxHeaderLength
  | .contentLength => .inl 0
  | _ => .inr .empty

/-- A request behind an earlier one and the same request on a new connection differ at most in the
old values. -/
theorem exists_deliver_reset {maxBodySize : UInt32} {second : RequestCallbacks}
    {ctx fresh : HttpParserCtx L} (hmax : ctx.maxBodySize = maxBodySize)
    (hsecond : deliver (httpParserInit L maxBodySize) second.events = some (fresh, true)) :
    ∃ ctx', deliver (httpParserReset ctx) second.events = some (ctx', true) ∧
      SameMessage ctx' fresh := by
  obtain ⟨fresh₁, hbegin, hrest⟩ := deliver_cons_eq_some hsecond
  cases hbegin
  have hsame : SameMessage (onMessageBegin (httpParserReset ctx))
      (onMessageBegin (httpParserInit L maxBodySize)) := by
    refine ⟨ctx.request.s3, ctx.headerNames, ctx.headerValues, ctx.curHeaderName, ctx.lastError, ?_⟩
    rw [← hmax]
    rfl
  exact hsame.deliver hrest

/-- **What a request sees of the one before it.** For the callbacks of two requests that complete
on a fresh context: after the first and a reset, the second leaves the request and the headers it
leaves on a fresh context if and only if the slot of the header table that it skips, if any, is
empty, and each field that holds something is named by one of its counted headers. -/
theorem second_request_eq_fresh_iff (maxBodySize : UInt32) (first second : RequestCallbacks)
    {ctx fresh : HttpParserCtx L}
    (hfirst : deliver (httpParserInit L maxBodySize) first.events = some (ctx, true))
    (hsecond : deliver (httpParserInit L maxBodySize) second.events = some (fresh, true)) :
    (∃ ctx', deliver (httpParserReset ctx) second.events = some (ctx', true) ∧
      ctx'.request = fresh.request ∧ ctx'.headers = fresh.headers) ↔
    (second.headers ≠ [] → second.trailers ≠ [] → second.headers.length < httpMaxHeaders →
      ctx.headerSlot second.headers.length = (.empty, .empty)) ∧
    ∀ field, ctx.request.s3.get field = field.unset ∨
      ∃ header, some header ∈ second.slots ∧ HeaderNames header field := by
  obtain ⟨ctx', hdeliver, hsame'⟩ := exists_deliver_reset (maxBodySize_deliver hfirst) hsecond
  obtain ⟨hheaders, hs3⟩ := headers_deliver hdeliver
  obtain ⟨hfreshHeaders, hfreshS3⟩ := headers_deliver hsecond
  have hresult : (∃ ctx'', deliver (httpParserReset ctx) second.events = some (ctx'', true) ∧
      ctx''.request = fresh.request ∧ ctx''.headers = fresh.headers) ↔
        ctx'.headers = fresh.headers ∧ ctx'.request = fresh.request := by
    constructor
    · rintro ⟨ctx'', hctx'', hrequest, hheaders⟩
      obtain rfl : ctx' = ctx'' := (Prod.mk.inj (Option.some.inj (hdeliver.symm.trans hctx''))).1
      exact ⟨hheaders, hrequest⟩
    · rintro ⟨hheaders, hrequest⟩
      exact ⟨ctx', hdeliver, hrequest, hheaders⟩
  have hskipped : ctx'.headers = fresh.headers ↔
      (second.headers ≠ [] → second.trailers ≠ [] → second.headers.length < httpMaxHeaders →
        ctx.headerSlot second.headers.length = (.empty, .empty)) := by
    rw [hheaders, hfreshHeaders, mapIdx_getD_eq_iff]
    constructor
    · intro hslots h₁ h₂ h₃
      exact hslots _ ((second.slots_eq_none_iff _).mpr ⟨rfl, h₁, h₂, h₃⟩)
    · intro hslot i hi
      obtain ⟨rfl, h₁, h₂, h₃⟩ := (second.slots_eq_none_iff i).mp hi
      exact hslot h₁ h₂ h₃
  rw [hresult, ← hskipped]
  refine and_congr_right fun heq => ?_
  obtain ⟨hbucket, hkey, hoperation⟩ :=
    names_readHeaders (httpParserInit L maxBodySize).request.s3 ctx.headers
  rw [← (headers_deliver hfirst).2] at hbucket hkey hoperation
  have hreset : (httpParserReset ctx).request.s3 = ctx.request.s3 := rfl
  rw [hsame'.request_eq_iff, hs3, hfreshS3, heq, hreset, readHeaders_eq_iff hbucket hkey hoperation]
  refine forall_congr' fun field => or_congr ?_ ?_
  · cases field <;> rfl
  · rw [hfreshHeaders]
    exact exists_headerNames_iff second field

/-- An llhttp for callbacks that are given by hand. -/
def silentLlhttp : Llhttp where
  State := Unit
  init := ()
  step _ _ := .ok ((), [])

/-- A header in one piece. -/
def plainHeader (name value : String) : HeaderCallbacks where
  namePieces := [(CString.ofString name).bytes]
  name_ne := List.cons_ne_nil _ _
  valuePieces := [(CString.ofString value).bytes]
  value_ne := List.cons_ne_nil _ _

/-- The callbacks of a `GET /` that keeps the connection alive. -/
def plainGet (headers : List HeaderCallbacks) : RequestCallbacks where
  urlPieces := [[47]]
  headers := headers
  method := .ofString "GET"
  keepAlive := true
  contentLength := 0
  body := []
  trailers := []

/-- Two requests that are both signed. -/
theorem second_request_eq_fresh_iff_signed :
    let first := plainGet [plainHeader "Authorization" "A"]
    let second := plainGet [plainHeader "Authorization" "B"]
    ∃ ctx fresh, deliver (httpParserInit silentLlhttp 100) first.events = some (ctx, true) ∧
      deliver (httpParserInit silentLlhttp 100) second.events = some (fresh, true) ∧
      ∃ ctx', deliver (httpParserReset ctx) second.events = some (ctx', true) ∧
        ctx'.request = fresh.request ∧ ctx'.headers = fresh.headers := by
  intro first second
  refine ⟨_, _, rfl, rfl, (second_request_eq_fresh_iff 100 first second rfl rfl).mpr ⟨?_, ?_⟩⟩
  · intro _ htrailers
    exact absurd rfl htrailers
  · intro field
    cases field with
    | authorization =>
      exact .inr ⟨(plainHeader "Authorization" "B").slot, List.mem_cons_self, by decide⟩
    | _ => exact .inl rfl

/-- The second request is not signed, and is dispatched with the signature of the first. -/
theorem second_request_signed_by_first :
    let first := plainGet [plainHeader "Authorization" "A"]
    let second := plainGet []
    ((deliver (httpParserInit silentLlhttp 100) first.events).bind fun r =>
      deliver (httpParserReset r.1) second.events).map (·.1.request.s3.authorization) =
        some (.strncpy (.ofString "A")) ∧
    (deliver (httpParserInit silentLlhttp 100) second.events).map
      (·.1.request.s3.authorization) = some .empty := by
  decide

end LightFS.Access
