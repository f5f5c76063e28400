import Mathlib.Data.List.Infix
import LightFS.Access.HttpResponse
import LightFS.Library.CrlfText
import LightFS.Library.SlotArray

/-!
# The bytes of a response

What `http_response_serialize` (`src/access/http_response.c`) gives to the socket, as bytes. Three
of the lengths come from `snprintf` and are right as long as the text fits its buffer; the lengths
of the status lines are written by hand, and eight of the ten count the NUL of the literal. So the
head of a response is well formed exactly when its status is none of these eight
(`response_head_iff`).

## Main definitions

* `Iovec.bytes`, `transmitted` — the bytes that `iovec`s cover.
* `WellFormedResponse` — status line, header lines, an empty line and the body.

## Main results

* `transmitted_iovecs` — the bytes of a response, part by part.
* `response_head_iff`.
-/

namespace LightFS.Access

open Library

/-! ### Bytes -/

/-- The bytes that an `iovec` covers. -/
def Iovec.bytes (mem : ScratchMemory) (entry : Iovec) : List UInt8 :=
  slots (entry.base.load mem) entry.len

/-- The bytes that `iovec`s cover, one behind the other. -/
def transmitted (mem : ScratchMemory) (iov : List Iovec) : List UInt8 :=
  iov.flatMap (Iovec.bytes mem)

/-- The bytes of the body that a response points to. -/
def S3Response.bodyBytes (response : S3Response) (mem : ScratchMemory) : List UInt8 :=
  response.bodyEntry.elim [] (Iovec.bytes mem)

@[simp] theorem bytes_constant (mem : ScratchMemory) (s : String) :
    (Iovec.constant s).bytes mem = literal s :=
  slots_getD_length (literal s) 0

/-- The code and the reason that are sent for a status. -/
def statusParts (status : UInt32) : ℕ × String :=
  match status.toNat with
  | 200 => (200, "OK")
  | 204 => (204, "No Content")
  | 206 => (206, "Partial Content")
  | 400 => (400, "Bad Request")
  | 403 => (403, "Forbidden")
  | 404 => (404, "Not Found")
  | 405 => (405, "Method Not Allowed")
  | 413 => (413, "Payload Too Large")
  | 500 => (500, "Internal Server Error")
  | 503 => (503, "Service Unavailable")
  | _ => (500, "Internal Server Error")

/-- The statuses whose length in `status_table` counts the NUL of the literal. -/
def overlongStatuses : List UInt32 := [200, 204, 206, 400, 403, 404, 405, 413]

/-- The statuses in `status_table`. -/
def listedStatuses : List UInt32 := overlongStatuses ++ [500, 503]

/-- A fact about the table is checked entry by entry. -/
theorem forall_mem_listedStatuses {P : UInt32 → Prop} [DecidablePred P]
    (h : (listedStatuses.all fun status => decide (P status)) = true) :
    ∀ status ∈ listedStatuses, P status := fun status hstatus =>
  of_decide_eq_true (List.all_eq_true.mp h status hstatus)

/-- The status and the reason on the wire. -/
def statusText (status : UInt32) : List UInt8 :=
  decimal (statusParts status).1 ++ literal " " ++ literal (statusParts status).2

/-- The byte that is sent behind the status line of some statuses. -/
def strayNul (status : UInt32) : List UInt8 := if status ∈ overlongStatuses then [0] else []

/-- A status that is not listed is sent as 500. -/
theorem status_of_notMem {status : UInt32} (h : status ∉ listedStatuses) :
    statusEntry status = statusEntry 500 ∧ statusParts status = statusParts 500 := by
  have hne : ∀ n ∈ listedStatuses.map UInt32.toNat, status.toNat ≠ n := by
    intro n hn heq
    obtain ⟨listed, hlisted, rfl⟩ := List.mem_map.mp hn
    exact h (UInt32.toNat_inj.mp heq ▸ hlisted)
  constructor
  · rw [statusEntry]
    split
    case h_11 => rfl
    all_goals
      rename_i heq
      exact absurd heq (hne _ (by decide))
  · rw [statusParts]
    split
    case h_11 => rfl
    all_goals
      rename_i heq
      exact absurd heq (hne _ (by decide))

/-- The table: its entries hold the status and the reason, and eight of the lengths are one too
large. -/
theorem statusEntry_of_mem : ∀ status ∈ listedStatuses,
    statusEntry status = ⟨.constant (statusText status ++ crlf),
      (statusText status ++ crlf).length + (strayNul status).length⟩ :=
  forall_mem_listedStatuses (by decide +kernel)

theorem statusEntry_eq (status : UInt32) :
    statusEntry status = ⟨.constant (statusText status ++ crlf),
      (statusText status ++ crlf).length + (strayNul status).length⟩ := by
  by_cases h : status ∈ listedStatuses
  · exact statusEntry_of_mem status h
  · have hover : status ∉ overlongStatuses := fun hmem => h (List.mem_append_left _ hmem)
    obtain ⟨hentry, hparts⟩ := status_of_notMem h
    have htext : statusText status = statusText 500 := by rw [statusText, hparts, statusText]
    have hstray : strayNul status = strayNul 500 := if_neg hover
    rw [hentry, htext, hstray]
    exact statusEntry_of_mem 500 (by decide)

theorem bytes_statusEntry (mem : ScratchMemory) (status : UInt32) :
    (statusEntry status).bytes mem = statusText status ++ crlf ++ strayNul status := by
  rw [statusEntry_eq, Iovec.bytes]
  refine (slots_getD (Nat.le_add_right _ _) 0).trans ?_
  rw [Nat.add_sub_cancel_left, strayNul]
  split_ifs <;> rfl

/-! ### The parts of a response -/

theorem literal_crlf : literal "\r\n" = crlf := by decide

/-- A text in a buffer, read back. -/
theorem slots_store_append (buf : Buffer) (a b : List UInt8) :
    slots (buf.store 0 (a ++ b)) a.length = a := by
  refine List.ext_getElem (length_slots _ _) fun i hi hi' => ?_
  rw [getElem_slots, Buffer.store_zero_apply, List.getElem?_append_left hi',
    List.getElem?_eq_getElem hi', Option.getD_some]

/-- A text that fits its buffer is sent as it is. -/
theorem slots_snprintf_of_lt (buf : Buffer) {size : ℕ} {text : List UInt8}
    (h : text.length < size) : slots (buf.snprintf 0 size text) text.length = text := by
  rw [Buffer.snprintf_of_lt _ h, slots_store_append]

/-- A text that does not fit its buffer is sent from its beginning. -/
theorem exists_slots_snprintf (buf : Buffer) {size : ℕ} {a : List UInt8} (h : a.length < size)
    (b : List UInt8) :
    ∃ rest, slots (buf.snprintf 0 size (a ++ b)) (a ++ b).length = a ++ rest := by
  have htake : (a ++ b).take (size - 1) = a ++ b.take (size - 1 - a.length) := by
    rw [List.take_append, List.take_of_length_le (by omega)]
  rw [Buffer.snprintf, if_neg (by omega), htake, List.append_assoc, List.length_append,
    slots_eq_append, slots_store_append]
  exact ⟨_, rfl⟩

namespace S3Response

variable (response : S3Response) (mem : ScratchMemory)

/-- The header `Content-Type` as it is sent. A text that does not fit its buffer is cut, and what
stands behind the buffer is sent in the place of the rest. -/
def typeBytes : List UInt8 :=
  match response.contentTypeText with
  | some text => slots ((mem .ctBuf).snprintf 0 Scratch.ctBuf.size text) text.length
  | none =>
    if response.bodyEntry.isSome then literal "Content-Type: application/xml\r\n" else []

/-- The header `Connection`. -/
def connectionText (keepAlive : Bool) : List UInt8 :=
  literal (if keepAlive then "Connection: keep-alive\r\n" else "Connection: close\r\n")

theorem transmitted_contentTypeEntries :
    transmitted (formatTexts mem response.text) response.contentTypeEntries =
      response.typeBytes mem := by
  rw [contentTypeEntries, typeBytes]
  rcases htext : response.contentTypeText with _ | text
  · dsimp only
    split_ifs
    · exact (List.flatMap_singleton _ _).trans (bytes_constant _ _)
    · rfl
  · refine (List.flatMap_singleton _ _).trans ?_
    show slots (formatTexts mem response.text .ctBuf) text.length = _
    rw [formatTexts, show response.text .ctBuf = some text from htext, Option.elim_some]

/-- A header in a buffer that it fits. -/
theorem bytes_formatted {b : Scratch} {text : List UInt8} (htext : response.text b = some text)
    (hfits : text.length < b.size) :
    Iovec.bytes (formatTexts mem response.text) ⟨.scratch b, text.length⟩ = text := by
  show slots (formatTexts mem response.text b) text.length = text
  rw [formatTexts, htext, Option.elim_some]
  exact slots_snprintf_of_lt _ hfits

/-- A header that is there or not, in a buffer that it fits. -/
theorem map_bytes_toList {b : Scratch} {text : Option (List UInt8)}
    (htext : response.text b = text) (hfits : ∀ t, text = some t → t.length < b.size) :
    (text.toList.map fun text => (⟨.scratch b, text.length⟩ : Iovec)).map
      (Iovec.bytes (formatTexts mem response.text)) = text.toList := by
  rcases text with _ | text
  · rfl
  · exact congrArg ([·]) (response.bytes_formatted mem htext (hfits text rfl))

theorem map_bytes_etag :
    (response.etagText.toList.map fun text => (⟨.scratch .etagBuf, text.length⟩ : Iovec)).map
      (Iovec.bytes (formatTexts mem response.text)) = response.etagText.toList :=
  response.map_bytes_toList mem rfl fun _ => response.length_etagText_lt

theorem map_bytes_contentLength :
    (response.contentLengthText.toList.map
      fun text => (⟨.scratch .clBuf, text.length⟩ : Iovec)).map
        (Iovec.bytes (formatTexts mem response.text)) = response.contentLengthText.toList :=
  response.map_bytes_toList mem rfl fun _ => response.length_contentLengthText_lt

theorem flatten_toList (text : Option (List UInt8)) : text.toList.flatten = text.getD [] := by
  rcases text with _ | text
  · rfl
  · exact List.append_nil text

/-- The bytes of a response, part by part. -/
theorem transmitted_iovecs (keepAlive : Bool) :
    transmitted (formatTexts mem response.text) (response.iovecs keepAlive) =
      literal "HTTP/1.1 " ++ (statusText response.httpStatus ++ crlf ++
        strayNul response.httpStatus) ++ response.typeBytes mem ++ response.etagText.getD [] ++
        response.contentLengthText.getD [] ++ connectionText keepAlive ++ crlf ++
        response.bodyBytes (formatTexts mem response.text) := by
  have hbody : transmitted (formatTexts mem response.text) response.bodyEntry.toList =
      response.bodyBytes (formatTexts mem response.text) := by
    rw [bodyBytes]
    rcases response.bodyEntry with _ | entry
    · rfl
    · exact List.flatMap_singleton _ _
  have htype := response.transmitted_contentTypeEntries mem
  simp only [transmitted, iovecs, List.flatMap_append] at hbody htype ⊢
  simp only [List.flatMap_def] at hbody htype ⊢
  rw [map_bytes_etag, map_bytes_contentLength, flatten_toList, flatten_toList, hbody, htype,
    ← literal_crlf]
  simp only [List.map_cons, List.map_nil, List.flatten_cons, List.flatten_nil, List.append_nil,
    bytes_constant, bytes_statusEntry, connectionText]
  rfl

end S3Response

/-! ### Well-formed heads -/

/-- A text without CR, LF and NUL. -/
def LineText (text : List UInt8) : Prop := ∀ b ∈ text, b ≠ 13 ∧ b ≠ 10 ∧ b ≠ 0

instance : DecidablePred LineText := fun text =>
  List.decidableBAll (fun b => b ≠ 13 ∧ b ≠ 10 ∧ b ≠ 0) text

/-- A header line: a name, a colon and a value. -/
def HeaderLine (line : List UInt8) : Prop :=
  LineText line ∧ ∃ name value, name ≠ [] ∧ line = name ++ literal ": " ++ value

/-- The bytes are a status line with a code of three digits, header lines, an empty line and the
body; the code is the status, if `status_table` has it. -/
def WellFormedResponse (status : UInt32) (bytes body : List UInt8) : Prop :=
  ∃ (code reason : List UInt8) (headers : List (List UInt8)),
    bytes = literal "HTTP/1.1 " ++ code ++ literal " " ++ reason ++ crlf ++
      headers.flatMap (· ++ crlf) ++ crlf ++ body ∧
    code.length = 3 ∧ (∀ b ∈ code, isDigitByte b = true) ∧
    (status ∈ listedStatuses → code = decimal status.toNat) ∧ LineText reason ∧
    ∀ line ∈ headers, HeaderLine line

theorem LineText.append {a b : List UInt8} (ha : LineText a) (hb : LineText b) :
    LineText (a ++ b) := by
  intro c hc
  exact (List.mem_append.mp hc).elim (ha c) (hb c)

theorem lineText_of_digits {text : List UInt8} (h : ∀ b ∈ text, isDigitByte b = true) :
    LineText text := by
  intro b hb
  have hdigit : 48 ≤ b ∧ b ≤ 57 := of_decide_eq_true (h b hb)
  have hlower : 48 ≤ b.toNat := UInt8.le_iff_toNat_le.mp hdigit.1
  refine ⟨?_, ?_, ?_⟩ <;> rintro rfl <;> exact absurd hlower (by decide)

theorem lineText_decimal (n : ℕ) : LineText (decimal n) :=
  lineText_of_digits fun _ => isDigitByte_of_mem_decimal

/-- Bytes that are header lines, each ended by CR LF. -/
def HeaderBytes (bytes : List UInt8) : Prop :=
  ∃ headers : List (List UInt8), bytes = headers.flatMap (· ++ crlf) ∧
    ∀ line ∈ headers, HeaderLine line

theorem headerBytes_nil : HeaderBytes [] := ⟨[], rfl, fun _ h => absurd h List.not_mem_nil⟩

theorem HeaderBytes.append {a b : List UInt8} (ha : HeaderBytes a) (hb : HeaderBytes b) :
    HeaderBytes (a ++ b) := by
  obtain ⟨headers, rfl, hheaders⟩ := ha
  obtain ⟨headers', rfl, hheaders'⟩ := hb
  refine ⟨headers ++ headers', List.flatMap_append.symm, fun line hline => ?_⟩
  exact (List.mem_append.mp hline).elim (hheaders line) (hheaders' line)

theorem headerBytes_line (name value : List UInt8) (hname : LineText name) (hne : name ≠ [])
    (hvalue : LineText value) : HeaderBytes (name ++ literal ": " ++ value ++ crlf) := by
  refine ⟨[name ++ literal ": " ++ value], (List.flatMap_singleton _ _).symm, fun line hline => ?_⟩
  obtain rfl := List.mem_singleton.mp hline
  exact ⟨(hname.append (by decide)).append hvalue, name, value, hne, rfl⟩

section Headers

variable (response : S3Response)

/-- The header `Content-Type`, for a type of one line that is not too long. -/
theorem typeBytes_eq (mem : ScratchMemory)
    (htype : ∀ contentType, response.contentType = some contentType →
      contentType.bytes.length ≤ s3MaxHeaderLength ∧ LineText contentType.bytes) :
    response.typeBytes mem = [] ∨ ∃ value, LineText value ∧
      response.typeBytes mem = literal "Content-Type: " ++ value ++ crlf := by
  rw [S3Response.typeBytes]
  rcases htext : response.contentTypeText with _ | text
  · dsimp only
    split_ifs
    · refine .inr ⟨literal "application/xml", by decide, ?_⟩
      decide +kernel
    · exact .inl rfl
  · have hfits : text.length < Scratch.ctBuf.size :=
      S3Response.length_text_lt (fun contentType h => (htype contentType h).1) .ctBuf text htext
    obtain ⟨contentType, hcontentType, htext⟩ := Option.bind_eq_some_iff.mp htext
    split_ifs at htext
    obtain rfl := Option.some.inj htext
    refine .inr ⟨contentType.bytes, (htype contentType hcontentType).2, ?_⟩
    dsimp only
    rw [slots_snprintf_of_lt _ hfits, literal_crlf]

/-- The header `ETag`. -/
theorem etagText_eq :
    response.etagText.getD [] = [] ∨
      response.etagText.getD [] = literal "ETag: " ++ response.etag.bytes ++ crlf := by
  rw [S3Response.etagText]
  split_ifs
  · exact .inl rfl
  · rw [Option.getD_some, literal_crlf]
    exact .inr rfl

theorem headerBytes_typeBytes (mem : ScratchMemory)
    (htype : ∀ contentType, response.contentType = some contentType →
      contentType.bytes.length ≤ s3MaxHeaderLength ∧ LineText contentType.bytes) :
    HeaderBytes (response.typeBytes mem) := by
  rcases typeBytes_eq response mem htype with hnil | ⟨value, hvalue, hbytes⟩
  · rw [hnil]
    exact headerBytes_nil
  · rw [hbytes]
    exact headerBytes_line (literal "Content-Type") value (by decide) (by decide) hvalue

theorem headerBytes_etagText {response : S3Response} (hetag : LineText response.etag.bytes) :
    HeaderBytes (response.etagText.getD []) := by
  rcases etagText_eq response with hnil | hbytes
  · rw [hnil]
    exact headerBytes_nil
  · rw [hbytes]
    exact headerBytes_line (literal "ETag") _ (by decide) (by decide) hetag

theorem headerBytes_contentLengthText : HeaderBytes (response.contentLengthText.getD []) := by
  rw [S3Response.contentLengthText]
  rcases response.bodyEntry with _ | entry
  · exact headerBytes_nil
  · rw [Option.map_some, Option.getD_some, literal_crlf]
    exact headerBytes_line (literal "Content-Length") _ (by decide) (by decide) (lineText_decimal _)

theorem headerBytes_connectionText (keepAlive : Bool) :
    HeaderBytes (S3Response.connectionText keepAlive) := by
  have hline : S3Response.connectionText keepAlive = literal "Connection" ++ literal ": " ++
      literal (if keepAlive then "keep-alive" else "close") ++ crlf := by
    revert keepAlive
    decide +kernel
  rw [hline]
  refine headerBytes_line _ _ (by decide) (by decide) ?_
  split_ifs <;> decide

end Headers

/-! ### Status lines -/

theorem statusParts_of_mem : ∀ status ∈ listedStatuses,
    (decimal (statusParts status).1).length = 3 ∧ LineText (literal (statusParts status).2) ∧
      (statusParts status).1 = status.toNat :=
  forall_mem_listedStatuses (by decide +kernel)

/-- The code has three digits, and is the status if that is listed. -/
theorem statusParts_spec (status : UInt32) :
    (decimal (statusParts status).1).length = 3 ∧ LineText (literal (statusParts status).2) ∧
      (status ∈ listedStatuses → (statusParts status).1 = status.toNat) := by
  by_cases h : status ∈ listedStatuses
  · obtain ⟨hlen, hreason, hcode⟩ := statusParts_of_mem status h
    exact ⟨hlen, hreason, fun _ => hcode⟩
  · obtain ⟨hlen, hreason, -⟩ := statusParts_of_mem 500 (by decide)
    rw [(status_of_notMem h).2]
    exact ⟨hlen, hreason, fun hmem => absurd hmem h⟩

theorem lineText_http : LineText (literal "HTTP/1.1 ") := by decide

theorem lineText_blank : LineText (literal " ") := by decide

theorem lineText_statusLine (status : UInt32) :
    LineText (literal "HTTP/1.1 " ++ statusText status) := by
  obtain ⟨-, hreason, -⟩ := statusParts_spec status
  exact lineText_http.append (((lineText_decimal _).append lineText_blank).append hreason)

/-- Behind the status line of a well-formed response there is no NUL. -/
theorem WellFormedResponse.head_ne_nul {status : UInt32} {line rest body : List UInt8}
    (hline : LineText line) (h : WellFormedResponse status (line ++ crlf ++ rest) body) :
    rest.head? ≠ some 0 := by
  obtain ⟨code, reason, headers, heq, -, hcode, -, hreason, hheaders⟩ := h
  -- both texts end their first line at the first LF
  have hlf : ∀ {text : List UInt8}, LineText text → 10 ∉ text ++ [13] := by
    intro text htext hmem
    rcases List.mem_append.mp hmem with hmem | hmem
    · exact (htext 10 hmem).2.1 rfl
    · exact absurd hmem (by decide)
  have hfirst : LineText (literal "HTTP/1.1 " ++ code ++ literal " " ++ reason) :=
    ((lineText_http.append (lineText_of_digits hcode)).append lineText_blank).append hreason
  have hsplit : (line ++ [13]) ++ 10 :: rest =
      (literal "HTTP/1.1 " ++ code ++ literal " " ++ reason ++ [13]) ++
        10 :: (headers.flatMap (· ++ crlf) ++ crlf ++ body) := by
    simpa [crlf] using heq
  obtain ⟨-, hrest⟩ := append_cons_inj_of_notMem (hlf hline) (hlf hfirst) hsplit
  rw [hrest]
  rcases headers with _ | ⟨first, headers⟩
  · simp [crlf]
  · obtain ⟨htext, name, value, hne, rfl⟩ := hheaders first List.mem_cons_self
    obtain ⟨b, name, rfl⟩ := List.exists_cons_of_ne_nil hne
    have hb : b ≠ 0 := (htext b (by simp)).2.2
    simpa using hb

/-- **When a response is well formed.** For every response whose type has at most 256 bytes and
whose type and etag have no CR, LF or NUL, in both connection modes: when `http_response_serialize`
returns a number of entries, these are no more than `max_iov` and their bytes are a status line,
header lines, an empty line and the body, if and only if the status is none of the eight whose
length in `status_table` counts the NUL. -/
theorem response_head_iff (mem mem' : ScratchMemory) (response : S3Response) (keepAlive : Bool)
    (maxIov : ℤ) (iov : List Iovec)
    (hserialize : httpResponseSerialize mem response keepAlive maxIov = (mem', some iov))
    (htype : ∀ contentType, response.contentType = some contentType →
      contentType.bytes.length ≤ 256 ∧ LineText contentType.bytes)
    (hetag : LineText response.etag.bytes) :
    (iov.length ≤ maxIov ∧
        WellFormedResponse response.httpStatus (transmitted mem' iov) (response.bodyBytes mem')) ↔
      response.httpStatus ∉ ([200, 204, 206, 400, 403, 404, 405, 413] : List UInt32) := by
  rcases httpResponseSerialize_reaches mem response keepAlive maxIov with ⟨hnone, -⟩ | ⟨heq, hlen⟩
  · rw [hserialize] at hnone
    exact absurd hnone (Option.some_ne_none _)
  rw [hserialize] at heq
  obtain ⟨rfl, hiov⟩ := Prod.mk.inj heq
  obtain rfl := Option.some.inj hiov
  rw [response.transmitted_iovecs]
  constructor
  · rintro ⟨-, hwf⟩ hover
    have hstray : strayNul response.httpStatus = [0] := if_pos hover
    rw [hstray] at hwf
    simp only [List.append_assoc] at hwf
    rw [← List.append_assoc (literal "HTTP/1.1 "), ← List.append_assoc _ crlf] at hwf
    exact hwf.head_ne_nul (lineText_statusLine _) rfl
  · intro hover
    have hstray : strayNul response.httpStatus = [] := if_neg hover
    obtain ⟨hcode, hreason, hstatus⟩ := statusParts_spec response.httpStatus
    obtain ⟨headers, hbytes, hheaders⟩ := (((headerBytes_typeBytes response mem htype).append
      (headerBytes_etagText hetag)).append (headerBytes_contentLengthText response)).append
        (headerBytes_connectionText keepAlive)
    refine ⟨hlen, decimal (statusParts response.httpStatus).1,
      literal (statusParts response.httpStatus).2, headers, ?_, hcode,
      fun b hb => isDigitByte_of_mem_decimal hb, fun hmem => by rw [hstatus hmem], hreason,
      hheaders⟩
    rw [hstray, ← hbytes, statusText]
    simp only [List.append_assoc, List.nil_append]

/-- A response with status 503, a type, an etag and a body. -/
def busyResponse : S3Response where
  httpStatus := 503
  contentType := some (.ofString "text/plain")
  body := some (.constant (literal "busy"))
  bodyLength := 4
  etag := .strncpy (.ofString "\"a\"")

/-- The response with status 503 is well formed. -/
theorem response_head_iff_503 :
    ∃ mem' iov, httpResponseSerialize (fun _ _ => 0) busyResponse false 16 = (mem', some iov) ∧
      WellFormedResponse 503 (transmitted mem' iov) (literal "busy") := by
  have htype (contentType : CString) (h : busyResponse.contentType = some contentType) :
      contentType.bytes.length ≤ 256 ∧ LineText contentType.bytes := by
    obtain rfl := Option.some.inj h
    decide
  refine ⟨_, _, rfl, ?_⟩
  exact ((response_head_iff (fun _ _ => 0) _ busyResponse false 16 _ rfl htype
    (by decide)).mpr (by decide)).2

/-- A response with status 200 and nothing else: a NUL stands in front of its first header. -/
theorem response_head_200 :
    ∃ mem' iov, httpResponseSerialize (fun _ _ => 0) { S3Response.zero with httpStatus := 200 }
        false 16 = (mem', some iov) ∧
      transmitted mem' iov = literal "HTTP/1.1 200 OK" ++ crlf ++
        (0 :: literal "Connection: close" ++ crlf ++ crlf) ∧
      ¬ WellFormedResponse 200 (transmitted mem' iov) [] := by
  have hbytes : transmitted (fun _ _ => 0)
      (S3Response.iovecs { S3Response.zero with httpStatus := 200 } false) =
      literal "HTTP/1.1 200 OK" ++ crlf ++
        (0 :: literal "Connection: close" ++ crlf ++ crlf) := by
    decide +kernel
  refine ⟨_, _, rfl, hbytes, fun hwf => ?_⟩
  have hline : LineText (literal "HTTP/1.1 200 OK") := by decide
  have hwf : WellFormedResponse 200 (literal "HTTP/1.1 200 OK" ++ crlf ++
      (0 :: literal "Connection: close" ++ crlf ++ crlf)) [] := hbytes ▸ hwf
  exact hwf.head_ne_nul hline rfl

end LightFS.Access
