import LightFS.Library.ByteCursor
import LightFS.Access.SpanReassembly

/-!
# The header table

The headers of a request are copied to two arrays of fixed size, a row for each header, through a
third one for the name that is being read. The strings in the rows are the model of the callbacks;
this file has the stores by which the callbacks write them, byte by byte, and shows that none of
them leaves its row or the table (`deliverStores_inBounds`) and that the strings are what the stores
leave in memory (`HoldsHeaders.deliver`).

Without trailers the table holds the first headers of the request, cut to their rows
(`header_table`). With trailers it also counts a row that nothing was written to, and shows what an
earlier request left there (`trailers_invent_no_header_iff`).

## Main definitions

* `HeaderStore`, `callbackStores`, `deliverStores` — the stores of the callbacks.
* `HeaderMemory`, `HoldsHeaders` — the arrays as memory, and the strings in them.
* `HeaderField` — a header whose name comes in one span.
* `RequestCallbacks.Sent` — a header or trailer of a request.

## Main results

* `deliverStores_inBounds`, `HoldsHeaders.deliver`.
* `header_table`, `trailers_invent_no_header_iff`.
-/

namespace LightFS.Access

open Library

variable {L : Llhttp}

/-! ### Stores -/

/-- The arrays for headers in `http_parser_ctx_t`; `cur_header_name` has one row. -/
inductive HeaderArray where
  | curHeaderName
  | headerNames
  | headerValues
deriving DecidableEq

/-- A `memcpy` to a row of an array, or a NUL that is written to it. -/
structure HeaderStore where
  array : HeaderArray
  row : ℕ
  offset : ℕ
  data : List UInt8

/-- The store writes to one of the 64 rows, and inside it. -/
def HeaderStore.InBounds (store : HeaderStore) : Prop :=
  store.row < httpMaxHeaders ∧ store.offset + store.data.length ≤ s3MaxHeaderLength + 1

/-- A span is written behind the first `length` bytes of a row, as far as there is room, and a NUL
behind it. -/
def appendStores (array : HeaderArray) (row length : ℕ) (data : List UInt8) : List HeaderStore :=
  let copyLen :=
    if data.length < s3MaxHeaderLength - length then data.length else s3MaxHeaderLength - length
  [⟨array, row, length, data.take copyLen⟩, ⟨array, row, length + copyLen, [0]⟩]

/-- The stores of `on_header_field`. -/
def onHeaderFieldStores (data : List UInt8) : List HeaderStore :=
  appendStores .curHeaderName 0 0 data

/-- The stores of `on_header_value`. -/
def onHeaderValueStores (ctx : HttpParserCtx L) (data : List UInt8) : List HeaderStore :=
  if httpMaxHeaders ≤ ctx.headerCount then []
  else if ctx.parsingHeaderValue then
    appendStores .headerValues ctx.headerCount (ctx.headerValues ctx.headerCount).length data
  else
    ⟨.headerNames, ctx.headerCount, 0, ctx.curHeaderName.terminated⟩ ::
      ⟨.headerValues, ctx.headerCount, 0, [0]⟩ :: appendStores .headerValues ctx.headerCount 0 data

/-- The stores of a callback to the arrays for headers. -/
def callbackStores (ctx : HttpParserCtx L) : LlhttpEvent → List HeaderStore
  | .headerField span => onHeaderFieldStores span
  | .headerValue span => onHeaderValueStores ctx span
  | _ => []

/-- The stores of the callbacks of a buffer, up to the first that fails. -/
def deliverStores : HttpParserCtx L → List LlhttpEvent → List HeaderStore
  | _, [] => []
  | ctx, e :: rest =>
    callbackStores ctx e ++
      match callback ctx e with
      | some (ctx, true) => deliverStores ctx rest
      | _ => []

theorem inBounds_appendStores {row length : ℕ} (array : HeaderArray) (hrow : row < httpMaxHeaders)
    (hlength : length ≤ s3MaxHeaderLength) (data : List UInt8) :
    ∀ store ∈ appendStores array row length data, store.InBounds := by
  intro store hstore
  simp only [appendStores, List.mem_cons, List.not_mem_nil, or_false] at hstore
  rcases hstore with rfl | rfl
  · refine ⟨hrow, ?_⟩
    rw [List.length_take]
    dsimp only
    split_ifs <;> omega
  · refine ⟨hrow, ?_⟩
    rw [List.length_singleton]
    dsimp only
    split_ifs <;> omega

theorem inBounds_onHeaderValueStores (ctx : HttpParserCtx L) (data : List UInt8) :
    ∀ store ∈ onHeaderValueStores ctx data, store.InBounds := by
  rw [onHeaderValueStores]
  split_ifs with hfull
  · exact List.forall_mem_nil _
  · have hvalue : (ctx.headerValues ctx.headerCount).length ≤ s3MaxHeaderLength :=
      (ctx.headerValues ctx.headerCount).length_le
    exact inBounds_appendStores _ (not_le.mp hfull) hvalue data
  · have hrow : ctx.headerCount < httpMaxHeaders := not_le.mp hfull
    have hname : ctx.curHeaderName.length ≤ s3MaxHeaderLength := ctx.curHeaderName.length_le
    refine List.forall_mem_cons.mpr ⟨⟨hrow, ?_⟩, List.forall_mem_cons.mpr ⟨⟨hrow, ?_⟩, ?_⟩⟩
    · rw [CString.length_terminated]
      exact (Nat.zero_add _).trans_le (Nat.succ_le_succ hname)
    · exact Nat.succ_le_succ (Nat.zero_le _)
    · exact inBounds_appendStores _ hrow (Nat.zero_le _) data

/-- The callbacks stay in the arrays, whatever they are given. -/
theorem deliverStores_inBounds (ctx : HttpParserCtx L) (events : List LlhttpEvent) :
    ∀ store ∈ deliverStores ctx events, store.InBounds := by
  induction events generalizing ctx with
  | nil => exact List.forall_mem_nil _
  | cons e events ih =>
    rw [deliverStores, List.forall_mem_append]
    constructor
    · cases e with
      | headerField span =>
        exact inBounds_appendStores _ (Nat.succ_pos _) (Nat.zero_le _) span
      | headerValue span => exact inBounds_onHeaderValueStores ctx span
      | _ => exact List.forall_mem_nil _
    · rcases callback ctx e with _ | ⟨ctx', _ | _⟩
      · exact List.forall_mem_nil _
      · exact List.forall_mem_nil _
      · exact ih ctx'

/-! ### The strings in memory -/

/-- The contents of the arrays. -/
abbrev HeaderMemory : Type := HeaderArray → ℕ → List UInt8

/-- The memory after a store. -/
def HeaderStore.apply (mem : HeaderMemory) (store : HeaderStore) : HeaderMemory :=
  Function.update mem store.array (Function.update (mem store.array) store.row
    (overwrite (mem store.array store.row) store.offset store.data))

/-- A row with a string and its NUL at the start. -/
structure HoldsString (row : List UInt8) (s : CharArray s3MaxHeaderLength) : Prop where
  length_eq : row.length = s3MaxHeaderLength + 1
  starts : s.terminated <+: row

/-- The arrays hold the strings of a context. -/
structure HoldsHeaders (mem : HeaderMemory) (ctx : HttpParserCtx L) : Prop where
  current : HoldsString (mem .curHeaderName 0) ctx.curHeaderName
  names : ∀ i < httpMaxHeaders, HoldsString (mem .headerNames i) (ctx.headerNames i)
  values : ∀ i < httpMaxHeaders, HoldsString (mem .headerValues i) (ctx.headerValues i)

/-- The string that is read from bytes with a NUL behind them. -/
theorem isPrefix_terminated_ofMemory (mem rest : List UInt8) :
    (CString.ofMemory mem).terminated <+: mem ++ 0 :: rest := by
  change mem.takeWhile (· ≠ 0) ++ [0] <+: _
  induction mem with
  | nil => exact ⟨rest, rfl⟩
  | cons b mem ih =>
    by_cases hb : b = 0
    · subst hb
      exact ⟨mem ++ 0 :: rest, rfl⟩
    · rw [List.takeWhile_cons_of_pos (by simpa using hb), List.cons_append, List.cons_append]
      exact (List.prefix_cons_inj b).mpr ih

/-- What `appendStores` leaves in a row that starts with a string. -/
theorem holdsString_append {row : List UInt8} {value : CharArray s3MaxHeaderLength}
    (hlength : row.length = s3MaxHeaderLength + 1) (hvalue : value.bytes <+: row)
    (data : List UInt8) :
    HoldsString (overwrite row value.length (data.take
      (if data.length < s3MaxHeaderLength - value.length then data.length
        else s3MaxHeaderLength - value.length) ++ [0])) (appendValue value data) := by
  have hle : value.length ≤ s3MaxHeaderLength := value.length_le
  rw [appendValue]
  generalize hspan : data.take _ = span
  have hspanLength : value.length + span.length ≤ s3MaxHeaderLength := by
    rw [← hspan, List.length_take]
    split_ifs <;> omega
  refine ⟨?_, ?_⟩
  · rw [length_overwrite, hlength]
    rw [List.length_append, List.length_singleton]
    omega
  · have hfits : (CString.ofMemory (value.bytes ++ span)).bytes.length ≤ s3MaxHeaderLength :=
      (List.takeWhile_prefix _).length_le.trans (by rw [List.length_append]; exact hspanLength)
    have htake : row.take value.length = value.bytes := (List.prefix_iff_eq_take.mp hvalue).symm
    rw [CString.terminated, CharArray.strncpy_bytes_of_le hfits, overwrite, htake,
      ← List.append_assoc, List.append_assoc (value.bytes ++ span)]
    exact isPrefix_terminated_ofMemory _ _

/-- The memory after a span is appended to a row. -/
theorem foldl_apply_appendStores {mem : HeaderMemory} {array : HeaderArray} {row length : ℕ}
    (hlength : length ≤ (mem array row).length) (data : List UInt8) :
    (appendStores array row length data).foldl HeaderStore.apply mem =
      Function.update mem array (Function.update (mem array) row
        (overwrite (mem array row) length (data.take
          (if data.length < s3MaxHeaderLength - length then data.length
            else s3MaxHeaderLength - length) ++ [0]))) := by
  have hcopy : (data.take (if data.length < s3MaxHeaderLength - length then data.length
      else s3MaxHeaderLength - length)).length =
        if data.length < s3MaxHeaderLength - length then data.length
        else s3MaxHeaderLength - length := by
    rw [List.length_take]
    split_ifs <;> omega
  rw [← overwrite_overwrite hlength, hcopy]
  simp only [appendStores, List.foldl_cons, List.foldl_nil, HeaderStore.apply,
    Function.update_self, Function.update_idem]

section Memory

variable {mem : HeaderMemory} {ctx : HttpParserCtx L}

theorem HoldsString.bytes_prefix_row {row : List UInt8} {s : CharArray s3MaxHeaderLength}
    (h : HoldsString row s) : s.bytes <+: row :=
  (List.prefix_append _ _).trans h.starts

theorem HoldsHeaders.onHeaderField (h : HoldsHeaders mem ctx) (data : List UInt8) :
    HoldsHeaders ((onHeaderFieldStores data).foldl HeaderStore.apply mem)
      (onHeaderField ctx data) := by
  rw [onHeaderFieldStores, foldl_apply_appendStores (Nat.zero_le _)]
  refine ⟨?_, fun i hi => ?_, fun i hi => ?_⟩
  · rw [Function.update_self, Function.update_self]
    have hname : HoldsString _ (appendValue .empty data) :=
      holdsString_append h.current.length_eq List.nil_prefix data
    exact hname
  · rw [Function.update_of_ne (by decide)]
    exact h.names i hi
  · rw [Function.update_of_ne (by decide)]
    exact h.values i hi

/-- A row that is written with a string and its NUL. -/
theorem holdsString_overwrite {row : List UInt8} (hlength : row.length = s3MaxHeaderLength + 1)
    (s : CharArray s3MaxHeaderLength) : HoldsString (overwrite row 0 s.terminated) s where
  length_eq := by
    have hle : s.length ≤ s3MaxHeaderLength := s.length_le
    rw [length_overwrite, hlength]
    rw [CString.length_terminated, hlength, Nat.zero_add]
    exact Nat.succ_le_succ hle
  starts := List.prefix_append _ _

/-- One row of an array is written. -/
theorem holdsString_update {rows : ℕ → List UInt8} {strings : ℕ → CharArray s3MaxHeaderLength}
    (h : ∀ i < httpMaxHeaders, HoldsString (rows i) (strings i)) {row : List UInt8}
    {s : CharArray s3MaxHeaderLength} (hrow : HoldsString row s) (k : ℕ) :
    ∀ i < httpMaxHeaders,
      HoldsString (Function.update rows k row i) (Function.update strings k s i) := by
  intro i hi
  by_cases hik : i = k
  · subst hik
    rwa [Function.update_self, Function.update_self]
  · rw [Function.update_of_ne hik, Function.update_of_ne hik]
    exact h i hi

/-- Callbacks that write no header keep the arrays. -/
theorem HoldsHeaders.of_eq {ctx' : HttpParserCtx L} (h : HoldsHeaders mem ctx)
    (hcurrent : ctx'.curHeaderName = ctx.curHeaderName)
    (hnames : ctx'.headerNames = ctx.headerNames)
    (hvalues : ctx'.headerValues = ctx.headerValues) : HoldsHeaders mem ctx' where
  current := hcurrent ▸ h.current
  names := hnames ▸ h.names
  values := hvalues ▸ h.values

/-- A row of the names is written. -/
theorem HoldsHeaders.setName (h : HoldsHeaders mem ctx) {row : List UInt8}
    {s : CharArray s3MaxHeaderLength} (hrow : HoldsString row s) (i : ℕ) :
    HoldsHeaders
      (Function.update mem .headerNames (Function.update (mem .headerNames) i row))
      { ctx with headerNames := Function.update ctx.headerNames i s } := by
  refine ⟨?_, ?_, ?_⟩
  · rw [Function.update_of_ne (by decide)]
    exact h.current
  · rw [Function.update_self]
    exact holdsString_update h.names hrow i
  · rw [Function.update_of_ne (by decide)]
    exact h.values

/-- A row of the values is written. -/
theorem HoldsHeaders.setValue (h : HoldsHeaders mem ctx) {row : List UInt8}
    {s : CharArray s3MaxHeaderLength} (hrow : HoldsString row s) (i : ℕ) :
    HoldsHeaders
      (Function.update mem .headerValues (Function.update (mem .headerValues) i row))
      { ctx with headerValues := Function.update ctx.headerValues i s } := by
  refine ⟨?_, ?_, ?_⟩
  · rw [Function.update_of_ne (by decide)]
    exact h.current
  · rw [Function.update_of_ne (by decide)]
    exact h.names
  · rw [Function.update_self]
    exact holdsString_update h.values hrow i

/-- A span is appended to a value. -/
theorem HoldsHeaders.appendValue (h : HoldsHeaders mem ctx) {i : ℕ} (hi : i < httpMaxHeaders)
    (data : List UInt8) :
    HoldsHeaders ((appendStores .headerValues i (ctx.headerValues i).length data).foldl
        HeaderStore.apply mem)
      { ctx with
        headerValues := Function.update ctx.headerValues i
          (appendValue (ctx.headerValues i) data) } := by
  have hvalue := h.values i hi
  have hlength : (ctx.headerValues i).length ≤ (mem .headerValues i).length :=
    hvalue.bytes_prefix_row.length_le
  rw [foldl_apply_appendStores hlength]
  exact h.setValue (holdsString_append hvalue.length_eq hvalue.bytes_prefix_row data) i

theorem HoldsHeaders.onHeaderValue (h : HoldsHeaders mem ctx) (data : List UInt8) :
    HoldsHeaders ((onHeaderValueStores ctx data).foldl HeaderStore.apply mem)
      (onHeaderValue ctx data) := by
  rw [onHeaderValueStores, Access.onHeaderValue]
  split_ifs with hfull hparsing
  · exact h
  · refine (h.appendValue (not_le.mp hfull) data).of_eq rfl ?_ rfl
    exact Function.update_eq_self ..
  · -- the name is copied and the value is emptied before the span is appended
    have hrow := not_le.mp hfull
    have hname := h.setName
      (holdsString_overwrite (h.names _ hrow).length_eq ctx.curHeaderName) ctx.headerCount
    have hempty := hname.setValue
      (holdsString_overwrite (hname.values _ hrow).length_eq .empty) ctx.headerCount
    have happend := hempty.appendValue hrow data
    dsimp only at happend
    rw [Function.update_self, Function.update_idem] at happend
    exact happend.of_eq rfl rfl rfl

theorem HoldsHeaders.callback {ctx' : HttpParserCtx L} {ok : Bool} {e : LlhttpEvent}
    (h : HoldsHeaders mem ctx) (hcallback : callback ctx e = some (ctx', ok)) :
    HoldsHeaders ((callbackStores ctx e).foldl HeaderStore.apply mem) ctx' := by
  cases e with
  | headerField span =>
    cases hcallback
    exact h.onHeaderField span
  | headerValue span =>
    cases hcallback
    exact h.onHeaderValue span
  | body span =>
    rw [Access.callback, onBody] at hcallback
    split_ifs at hcallback with hlimit
    · cases hcallback
      exact h.of_eq rfl rfl rfl
    · obtain ⟨capacity, -, hctx⟩ := Option.map_eq_some_iff.mp hcallback
      cases hctx
      exact h.of_eq rfl rfl rfl
  | _ =>
    cases hcallback
    exact h.of_eq rfl rfl rfl

/-- **The strings are what the stores leave.** If the arrays hold the strings of a context, then
after the stores of some callbacks they hold the strings of the context after them. -/
theorem HoldsHeaders.deliver {ctx' : HttpParserCtx L} {ok : Bool} {events : List LlhttpEvent}
    (h : HoldsHeaders mem ctx) (hdeliver : deliver ctx events = some (ctx', ok)) :
    HoldsHeaders ((deliverStores ctx events).foldl HeaderStore.apply mem) ctx' := by
  induction events generalizing mem ctx with
  | nil =>
    cases hdeliver
    exact h
  | cons e events ih =>
    rw [Access.deliver] at hdeliver
    rw [deliverStores, List.foldl_append]
    rcases hcallback : Access.callback ctx e with _ | ⟨ctx₁, _ | _⟩ <;> rw [hcallback] at hdeliver
    · cases hdeliver
    · cases hdeliver
      exact h.callback hcallback
    · exact ih (h.callback hcallback) hdeliver

end Memory

/-! ### Headers without trailers -/

/-- A header whose name comes in one span and whose value comes in some. -/
structure HeaderField where
  name : CString
  valuePieces : List CString
  value_ne : valuePieces ≠ []

namespace HeaderField

/-- The value of a header. -/
def value (h : HeaderField) : List UInt8 := h.valuePieces.flatMap CString.bytes

def events (h : HeaderField) : List LlhttpEvent :=
  .headerField h.name.bytes :: h.valuePieces.map fun piece => .headerValue piece.bytes

def callbacks (h : HeaderField) : HeaderCallbacks where
  namePieces := [h.name.bytes]
  name_ne := List.cons_ne_nil _ _
  valuePieces := h.valuePieces.map CString.bytes
  value_ne := mt List.map_eq_nil_iff.mp h.value_ne

theorem events_callbacks (h : HeaderField) : h.callbacks.events = h.events := by
  rw [HeaderCallbacks.events, callbacks, List.map_map]
  rfl

theorem name_slot (h : HeaderField) :
    h.callbacks.slot.1.bytes = h.name.bytes.take s3MaxHeaderLength :=
  bytes_copyName h.name.nul_free

theorem value_slot (h : HeaderField) :
    h.callbacks.slot.2.bytes = h.value.take s3MaxHeaderLength := by
  have hnul : ∀ piece ∈ h.callbacks.valuePieces, 0 ∉ piece := by
    intro piece hpiece
    obtain ⟨s, -, rfl⟩ := List.mem_map.mp hpiece
    exact s.nul_free
  refine (foldl_appendValue .empty hnul).trans ?_
  rw [value, List.flatMap_def]
  rfl

end HeaderField

/-- **The header table without trailers.** For every list of headers, and any context before: at the
end of the headers the table counts as many as there are, up to 64, and holds the name and the value
of each, cut to 256 bytes. No store leaves the 64 rows or the 257 bytes of a row. -/
theorem header_table (ctx : HttpParserCtx L) (urlPieces : List (List UInt8))
    (headers : List HeaderField) (method : CString) (keepAlive : Bool) (contentLength : UInt64) :
    let events := .messageBegin :: (urlPieces.map .url ++ (headers.flatMap HeaderField.events ++
      [.headersComplete method keepAlive contentLength]))
    (∃ ctx', deliver ctx events = some (ctx', true) ∧
      ctx'.headerCount = min headers.length httpMaxHeaders ∧
      ∀ (i : ℕ) (h : HeaderField), i < ctx'.headerCount → headers[i]? = some h →
        (ctx'.headerNames i).bytes = h.name.bytes.take s3MaxHeaderLength ∧
        (ctx'.headerValues i).bytes = h.value.take s3MaxHeaderLength) ∧
    ∀ store ∈ deliverStores ctx events, store.InBounds := by
  intro events
  refine ⟨?_, deliverStores_inBounds ctx events⟩
  let r : RequestCallbacks :=
    ⟨urlPieces, headers.map HeaderField.callbacks, method, keepAlive, contentLength, [], []⟩
  have hevents : headers.flatMap HeaderField.events =
      r.headers.flatMap HeaderCallbacks.events := by
    rw [List.flatMap_map]
    exact List.flatMap_congr fun h _ => h.events_callbacks.symm
  have hrecorded := recorded_afterHeaders ctx r
  have hcount : finishHeader (afterHeaders ctx r) = min headers.length httpMaxHeaders := by
    rw [hrecorded.finish_eq, List.length_take, writtenSlots, List.length_map, List.length_map,
      Nat.min_comm]
  refine ⟨onHeadersComplete (afterHeaders ctx r) method keepAlive contentLength, ?_, hcount, ?_⟩
  · simp only [events, hevents]
    exact (deliver_afterHeaders ctx r _).trans rfl
  · intro i h hi hget
    have hlt : i < httpMaxHeaders := (hi.trans_eq hcount).trans_le (Nat.min_le_right _ _)
    have hslot : (afterHeaders ctx r).headerSlot i = h.callbacks.slot := by
      rw [hrecorded.filled i, List.getElem?_take_of_lt hlt, writtenSlots, List.getElem?_map,
        List.getElem?_map, hget]
      rfl
    have hname := h.name_slot
    have hvalue := h.value_slot
    rw [← hslot] at hname hvalue
    exact ⟨hname, hvalue⟩

/-! ### Trailers -/

/-- A name and a value, as the table keeps them, of a header or trailer of a request. -/
def RequestCallbacks.Sent (r : RequestCallbacks) (header : HeaderSlot) : Prop :=
  ∃ h ∈ r.headers ++ r.trailers, header = h.whole.slot

instance (r : RequestCallbacks) (header : HeaderSlot) : Decidable (r.Sent header) :=
  inferInstanceAs (Decidable (∃ h ∈ _, _))

/-- What is true of all headers of a table with skipped slots. -/
theorem forall_mem_mapIdx_getD_iff (slots : List (Option HeaderSlot)) (f : ℕ → HeaderSlot)
    (P : HeaderSlot → Prop) :
    (∀ header ∈ slots.mapIdx fun i o => o.getD (f i), P header) ↔
      (∀ slot, some slot ∈ slots → P slot) ∧ ∀ i, slots[i]? = some none → P (f i) := by
  constructor
  · intro hall
    refine ⟨fun slot hslot => ?_, fun i hi => ?_⟩
    · exact hall slot ((mem_mapIdx_getD_iff slots f slot).mpr (.inl hslot))
    · exact hall _ ((mem_mapIdx_getD_iff slots f _).mpr (.inr ⟨i, hi, rfl⟩))
  · rintro ⟨hwritten, hskipped⟩ header hheader
    rcases (mem_mapIdx_getD_iff slots f header).mp hheader with hslot | ⟨i, hi, rfl⟩
    · exact hwritten header hslot
    · exact hskipped i hi

/-- The slots that are written and counted, when the table has room. -/
theorem RequestCallbacks.some_mem_slots_iff {r : RequestCallbacks} (htrailers : r.trailers ≠ [])
    (hcount : r.headers.length + r.trailers.length < httpMaxHeaders) (slot : HeaderSlot) :
    some slot ∈ r.slots ↔ ∃ h ∈ r.headers ++ r.trailers.dropLast, h.slot = slot := by
  have hroom : (writtenSlots r.headers ++ ((if r.headers = [] then [] else [none]) ++
      writtenSlots r.trailers.dropLast)).length ≤ httpMaxHeaders := by
    simp only [List.length_append, writtenSlots, List.length_map, List.length_dropLast]
    split_ifs <;> simp only [List.length_nil, List.length_singleton] <;> omega
  have hgap : some slot ∉ if r.headers = [] then ([] : List (Option HeaderSlot)) else [none] := by
    split_ifs <;> simp
  rw [slots, if_neg htrailers, List.take_of_length_le hroom]
  simp only [List.mem_append, hgap, false_or, writtenSlots, List.mem_map, Option.some.injEq,
    or_and_right, exists_or]

/-- **Trailers and the header table.** For every request with trailers that completes, on any
context: all headers in the table are headers or trailers of the request if and only if those it
writes are, that is, no name was split so that its rest is a header it did not send, and, if it has
headers, so is the old content of the slot behind them. -/
theorem trailers_invent_no_header_iff {ctx ctx' : HttpParserCtx L} {r : RequestCallbacks}
    (htrailers : r.trailers ≠ [])
    (hcount : r.headers.length + r.trailers.length < httpMaxHeaders)
    (hdeliver : deliver ctx r.events = some (ctx', true)) :
    (∀ header ∈ ctx'.headers, r.Sent header) ↔
      (∀ h ∈ r.headers ++ r.trailers.dropLast, r.Sent h.slot) ∧
      (r.headers = [] ∨ r.Sent (ctx.headerSlot r.headers.length)) := by
  rw [(headers_deliver hdeliver).1, forall_mem_mapIdx_getD_iff]
  refine and_congr ?_ ?_
  · constructor
    · intro hwritten h hmem
      exact hwritten _ ((r.some_mem_slots_iff htrailers hcount _).mpr ⟨h, hmem, rfl⟩)
    · intro hwritten slot hslot
      obtain ⟨h, hmem, rfl⟩ := (r.some_mem_slots_iff htrailers hcount slot).mp hslot
      exact hwritten h hmem
  · constructor
    · intro hskipped
      by_cases hheaders : r.headers = []
      · exact .inl hheaders
      · exact .inr (hskipped _ ((r.slots_eq_none_iff _).mpr ⟨rfl, hheaders, htrailers, by omega⟩))
    · intro hslot i hi
      obtain ⟨rfl, hheaders, -, -⟩ := (r.slots_eq_none_iff i).mp hi
      exact hslot.resolve_left hheaders

/-- A chunked request with trailers. -/
def chunkedPut (headers trailers : List HeaderCallbacks) : RequestCallbacks where
  urlPieces := [[47]]
  headers := headers
  method := .ofString "PUT"
  keepAlive := true
  contentLength := 0
  body := [some [1], none]
  trailers := trailers

/-- A request with a trailer and without headers shows its headers only. -/
theorem trailers_invent_no_header_iff_no_headers :
    let r := chunkedPut [] [plainHeader "A" "a", plainHeader "B" "b"]
    ∃ ctx', deliver (httpParserInit silentLlhttp 100) r.events = some (ctx', true) ∧
      ∀ header ∈ ctx'.headers, r.Sent header := by
  intro r
  have hdeliver : deliver (httpParserInit silentLlhttp 100) r.events = some (_, true) := rfl
  refine ⟨_, hdeliver, (trailers_invent_no_header_iff (List.cons_ne_nil _ _) (by decide)
    hdeliver).mpr ⟨?_, .inl rfl⟩⟩
  intro h hmem
  obtain rfl := List.mem_singleton.mp hmem
  exact ⟨_, List.mem_cons_self, rfl⟩

/-- A request with a header and a trailer shows the `Authorization` of the request before it. -/
theorem trailer_shows_old_authorization :
    let first := plainGet [plainHeader "Host" "h", plainHeader "Authorization" "A"]
    let second := chunkedPut [plainHeader "Host" "h"] [plainHeader "B" "b"]
    let authorization : HeaderSlot :=
      (.strncpy (.ofString "Authorization"), .strncpy (.ofString "A"))
    ∃ ctx ctx', deliver (httpParserInit silentLlhttp 100) first.events = some (ctx, true) ∧
      deliver (httpParserReset ctx) second.events = some (ctx', true) ∧
      authorization ∈ ctx'.headers ∧ ¬ second.Sent authorization :=
  ⟨_, _, rfl, rfl, by decide, by decide⟩

end LightFS.Access
