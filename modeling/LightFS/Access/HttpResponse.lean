import LightFS.Access.HttpParser
import LightFS.Library.FormattedText

/-!
# Responses

The responses of the HTTP server, from the handlers of the operations
(`src/access/access_handlers.c`, `src/access/s3_xml.c`) to the `iovec`s that are given to the socket
(`src/access/http_response.c`). The texts of a response that are not constant are formatted in
static buffers (`Scratch`), and the `iovec`s point there: a response is sent from memory that
belongs to all connections.

For every outcome of a request this file says what the code leaves behind: the texts in the static
buffers (`Outcome.text`) and the `iovec`s (`S3Response.iovecs`). None of them depends on what was in
the buffers before, and an `iovec` that points to a buffer covers exactly the text in it.

Pointers that the functions compare with `NULL` are not null here, as in all calls of the server.

## Main definitions

* `Scratch`, `ScratchMemory`, `Pointer`, `Iovec`, `S3Response`.
* `s3XmlSerializeListObjects`, `s3XmlSerializeError`, `fillErrorResponse`, `httpResponseSerialize`.
* `Outcome`, `buildResponse`, `respond`.

## Main results

* `s3XmlSerializeListObjects_of_lt` — a document that fits is written whole.
* `httpResponseSerialize_eq`, `respond_eq`.
-/

namespace LightFS.Access

open Library

/-! ### Static buffers -/

/-- The static buffers in which responses are formatted. -/
inductive Scratch where
  | etagBuf
  | clBuf
  | ctBuf
  | errBuf
  | responseBuffer
deriving DecidableEq

/-- The size of a buffer. -/
def Scratch.size : Scratch → ℕ
  | etagBuf => s3MaxHeaderLength + 16
  | clBuf => 64
  | ctBuf => s3MaxHeaderLength + 32
  | errBuf => 512
  | responseBuffer => 4096

/-- The contents of the static buffers. -/
abbrev ScratchMemory := Scratch → Buffer

/-- Where a response points: to memory that is not written to, like a string literal with its NUL,
or to a static buffer. -/
inductive Pointer where
  | constant (bytes : List UInt8)
  | scratch (b : Scratch)
deriving DecidableEq

/-- The byte at an offset. -/
def Pointer.load (mem : ScratchMemory) : Pointer → ℕ → UInt8
  | constant bytes, i => bytes.getD i 0
  | scratch b, i => mem b i

/-- `struct iovec`. -/
structure Iovec where
  base : Pointer
  len : ℕ
deriving DecidableEq

/-- The macro `S`: a string literal without its NUL. -/
def Iovec.constant (s : String) : Iovec := ⟨.constant (literal s), (literal s).length⟩

/-- `s3_response_t`, without `content_range`, which no code reads. -/
structure S3Response where
  httpStatus : UInt32
  contentType : Option CString
  body : Option Pointer
  bodyLength : UInt32
  etag : CharArray s3MaxHeaderLength

/-- The zeroed response. -/
def S3Response.zero : S3Response := ⟨0, none, none, 0, .empty⟩

/-! ### XML documents -/

/-- One `snprintf` at the cursor of `s3_xml_serialize_list_objects`, with the test of its result:
the buffer, and the cursor unless the function returns. -/
def xmlPut (size : ℕ) : Buffer × Option ℕ → List UInt8 → Buffer × Option ℕ
  | (buf, none), _ => (buf, none)
  | (buf, some pos), text =>
    (buf.snprintf pos (size - pos) text,
      if size - pos ≤ text.length then none else some (pos + text.length))

/-- The head of the document of `s3_xml_serialize_list_objects`. -/
def listHead (bucket keyPrefix marker : CString) (maxKeys : ℤ) : List UInt8 :=
  literal "<?xml version=\"1.0\" encoding=\"UTF-8\"?>\n" ++
  literal "<ListBucketResult xmlns=\"http://s3.amazonaws.com/doc/2006-03-01/\">\n" ++
  literal "<Name>" ++ bucket.bytes ++ literal "</Name>" ++
  literal "<Prefix>" ++ keyPrefix.bytes ++ literal "</Prefix>" ++
  literal "<Marker>" ++ marker.bytes ++ literal "</Marker>" ++
  literal "<MaxKeys>" ++ signedDecimal maxKeys ++ literal "</MaxKeys>"

/-- The truncation element. -/
def listTruncated (marker : CString) (isTruncated : Bool) : List UInt8 :=
  if isTruncated then
    literal "<IsTruncated>true</IsTruncated>" ++
      literal "<NextMarker>" ++ marker.bytes ++ literal "</NextMarker>"
  else literal "<IsTruncated>false</IsTruncated>"

/-- The element of a key. -/
def listContents (key : CString) : List UInt8 :=
  literal "<Contents><Key>" ++ key.bytes ++ literal "</Key></Contents>"

/-- The texts that `s3_xml_serialize_list_objects` puts one behind the other. -/
def listPieces (bucket keyPrefix marker : CString) (maxKeys : ℤ) (keys : List CString)
    (isTruncated : Bool) : List (List UInt8) :=
  listHead bucket keyPrefix marker maxKeys :: listTruncated marker isTruncated ::
    (keys.map listContents ++ [literal "</ListBucketResult>\n"])

/-- `s3_xml_serialize_list_objects`: the buffer, and the length of the document, `none` for `-1`. -/
def s3XmlSerializeListObjects (buf : Buffer) (size : ℕ) (bucket keyPrefix marker : CString)
    (maxKeys : ℤ) (keys : List CString) (isTruncated : Bool) : Buffer × Option ℕ :=
  if size = 0 then (buf, none)
  else
    (listPieces bucket keyPrefix marker maxKeys keys isTruncated).foldl (xmlPut size) (buf, some 0)

/-- The document of `s3_xml_serialize_error`. -/
def errorDocument (code message : CString) : List UInt8 :=
  literal "<?xml version=\"1.0\" encoding=\"UTF-8\"?>\n" ++ literal "<Error>" ++
  literal "<Code>" ++ code.bytes ++ literal "</Code>" ++
  literal "<Message>" ++ message.bytes ++ literal "</Message>" ++ literal "</Error>\n"

theorem length_errorDocument_pos (code message : CString) :
    0 < (errorDocument code message).length := by
  simp only [errorDocument, List.length_append, length_literal, String.reduceToList,
    List.length_cons]
  omega

/-- `s3_xml_serialize_error`: the buffer, and what `snprintf` returns, or `-1`. -/
def s3XmlSerializeError (buf : Buffer) (size : ℕ) (code message : CString) : Buffer × ℤ :=
  if size = 0 then (buf, -1)
  else (buf.snprintf 0 size (errorDocument code message),
    snprintfResult (errorDocument code message))

/-! ### The handlers -/

/-- The arguments of a call of `fill_error_response`. All documents of the source fit the buffer. -/
structure S3Error where
  status : UInt32
  code : CString
  message : CString
  fits : (errorDocument code message).length < Scratch.errBuf.size

theorem length_errorDocument_lt {code message : String}
    (h : code.toList.length + message.toList.length ≤ 400) :
    (errorDocument (.ofString code) (.ofString message)).length < Scratch.errBuf.size := by
  have hcode := length_ofString_le code
  have hmessage := length_ofString_le message
  simp only [errorDocument, List.length_append, length_literal, String.reduceToList,
    List.length_cons, List.length_nil, Scratch.size]
  omega

/-- `fill_error_response`. -/
def fillErrorResponseOf (mem : ScratchMemory) (status : UInt32) (code message : CString) :
    ScratchMemory × S3Response :=
  let (buf, w) := s3XmlSerializeError (mem .errBuf) Scratch.errBuf.size code message
  (Function.update mem .errBuf buf,
    { S3Response.zero with
      httpStatus := status
      contentType := some (.ofString "application/xml")
      body := some (.scratch .errBuf)
      bodyLength := if 0 < w then UInt32.ofNat w.toNat else 0 })

/-- `fill_error_response` in the calls of the source. -/
def fillErrorResponse (mem : ScratchMemory) (error : S3Error) : ScratchMemory × S3Response :=
  fillErrorResponseOf mem error.status error.code error.message

/-- `s3_handler_put`. -/
def s3HandlerPut (response : S3Response) : S3Response :=
  { response with
    httpStatus := 200
    etag := .strncpy (.ofString "\"d41d8cd98f00b204e9800998ecf8427e\"")
    contentType := some (.ofString "application/xml") }

/-- `s3_handler_get`. -/
def s3HandlerGet (response : S3Response) : S3Response :=
  { response with
    httpStatus := 200
    body := some (.constant (literal "placeholder_response_data"))
    bodyLength := UInt32.ofNat (literal "placeholder_response_data").length
    contentType := some (.ofString "binary/octet-stream") }

/-- `s3_handler_delete`. -/
def s3HandlerDelete (response : S3Response) : S3Response :=
  { response with httpStatus := 204, body := none, bodyLength := 0 }

/-- `s3_handler_list`; the response is `none` for `-1`. -/
def s3HandlerList (mem : ScratchMemory) (request : S3Request) (response : S3Response) :
    ScratchMemory × Option S3Response :=
  let (buf, written) := s3XmlSerializeListObjects (mem .responseBuffer) Scratch.responseBuffer.size
    request.bucket.toCString (.ofString "") (.ofString "") 1000
    [.ofString "example1.txt", .ofString "example2.txt"] false
  (Function.update mem .responseBuffer buf, written.map fun written =>
    { response with
      httpStatus := 200
      body := some (.scratch .responseBuffer)
      bodyLength := UInt32.ofNat written
      contentType := some (.ofString "application/xml") })

/-- What the server has found out about a request when it makes the response. -/
inductive Outcome where
  /-- `http_parser_feed` has failed. -/
  | badSyntax
  /-- `s3_route_parse` has failed. -/
  | badRoute
  /-- `sigv4_validate` has failed. -/
  | badSignature
  | routed (request : S3Request)

/-- The error for bytes that are not HTTP. -/
def syntaxError : S3Error where
  status := 400
  code := .ofString "InvalidRequest"
  message := .ofString "HTTP parse error"
  fits := length_errorDocument_lt (by simp)

/-- The error for a request that is not routed. -/
def routeError : S3Error where
  status := 400
  code := .ofString "InvalidRequest"
  message := .ofString "Could not parse request"
  fits := length_errorDocument_lt (by simp)

/-- The error for a wrong signature. -/
def signatureError : S3Error where
  status := 403
  code := .ofString "SignatureDoesNotMatch"
  message := .ofString "The request signature does not match"
  fits := length_errorDocument_lt (by simp)

/-- The error for an operation without a handler. -/
def methodError : S3Error where
  status := 405
  code := .ofString "MethodNotAllowed"
  message := .ofString ""
  fits := length_errorDocument_lt (by simp)

/-- The error for a handler that fails. -/
def handlerError : S3Error where
  status := 500
  code := .ofString "InternalError"
  message := .ofString "Handler failed"
  fits := length_errorDocument_lt (by simp)

/-- The response that `http_conn_on_readable` and `http_conn_dispatch` make. -/
def buildResponse (mem : ScratchMemory) : Outcome → ScratchMemory × S3Response
  | .badSyntax => fillErrorResponse mem syntaxError
  | .badRoute => fillErrorResponse mem routeError
  | .badSignature => fillErrorResponse mem signatureError
  | .routed request =>
    match request.operation with
    | .putObject => (mem, s3HandlerPut .zero)
    | .getObject => (mem, s3HandlerGet .zero)
    | .headObject => (mem, { s3HandlerGet .zero with body := none, bodyLength := 0 })
    | .deleteObject => (mem, s3HandlerDelete .zero)
    | .listObjects =>
      match s3HandlerList mem request .zero with
      | (mem, some response) => (mem, response)
      | (mem, none) => fillErrorResponse mem handlerError
    | .putBucket | .deleteBucket | .unknown => fillErrorResponse mem methodError

/-! ### Serialization -/

/-- `status_table`, and the entry for other codes. The lengths are those of the source. -/
def statusEntry (status : UInt32) : Iovec :=
  match status.toNat with
  | 200 => ⟨.constant (literal "200 OK\r\n"), 9⟩
  | 204 => ⟨.constant (literal "204 No Content\r\n"), 17⟩
  | 206 => ⟨.constant (literal "206 Partial Content\r\n"), 22⟩
  | 400 => ⟨.constant (literal "400 Bad Request\r\n"), 18⟩
  | 403 => ⟨.constant (literal "403 Forbidden\r\n"), 16⟩
  | 404 => ⟨.constant (literal "404 Not Found\r\n"), 16⟩
  | 405 => ⟨.constant (literal "405 Method Not Allowed\r\n"), 25⟩
  | 413 => ⟨.constant (literal "413 Payload Too Large\r\n"), 24⟩
  | 500 => ⟨.constant (literal "500 Internal Server Error\r\n"), 27⟩
  | 503 => ⟨.constant (literal "503 Service Unavailable\r\n"), 25⟩
  | _ => ⟨.constant (literal "500 Internal Server Error\r\n"), 27⟩

/-- `http_response_serialize` while it runs: the static buffers and the entries of `iov`, `none`
once it has returned `-1`. -/
structure Serializer where
  mem : ScratchMemory
  iov : Option (List Iovec)

namespace Serializer

/-- `if (max_iov - n < 1) return -1;`. -/
def room (s : Serializer) (maxIov : ℤ) : Serializer :=
  { s with iov := s.iov.filter fun iov => decide (1 ≤ maxIov - iov.length) }

/-- `iov[n++] = entry;`. -/
def push (s : Serializer) (entry : Iovec) : Serializer :=
  { s with iov := s.iov.map (· ++ [entry]) }

/-- A header that is formatted in its buffer. -/
def format (s : Serializer) (b : Scratch) (text : List UInt8) : Serializer :=
  match s.iov with
  | none => s
  | some iov =>
    { mem := Function.update s.mem b ((s.mem b).snprintf 0 b.size text)
      iov := some (iov ++ [⟨.scratch b, text.length⟩]) }

end Serializer

namespace S3Response

/-- The entry of the body, if there is one. -/
def bodyEntry (response : S3Response) : Option Iovec :=
  response.body.bind fun body =>
    if 0 < response.bodyLength then some ⟨body, response.bodyLength.toNat⟩ else none

/-- The header `Content-Type`, if the response has a type. -/
def contentTypeText (response : S3Response) : Option (List UInt8) :=
  response.contentType.bind fun contentType =>
    if contentType.bytes = [] then none
    else some (literal "Content-Type: " ++ contentType.bytes ++ literal "\r\n")

/-- The header `ETag`. -/
def etagText (response : S3Response) : Option (List UInt8) :=
  if response.etag.bytes = [] then none
  else some (literal "ETag: " ++ response.etag.bytes ++ literal "\r\n")

/-- The header `Content-Length`. -/
def contentLengthText (response : S3Response) : Option (List UInt8) :=
  response.bodyEntry.map fun _ =>
    literal "Content-Length: " ++ decimal response.bodyLength.toNat ++ literal "\r\n"

end S3Response

/-- The header `Content-Type`, with the type of XML for a body without a type. -/
def Serializer.contentType (s : Serializer) (response : S3Response) : Serializer :=
  match response.contentTypeText with
  | some text => s.format .ctBuf text
  | none =>
    if response.bodyEntry.isSome then s.push (.constant "Content-Type: application/xml\r\n") else s

/-- `http_response_serialize`: the static buffers, and the entries of `iov`, `none` for `-1`. -/
def httpResponseSerialize (mem : ScratchMemory) (response : S3Response) (keepAlive : Bool)
    (maxIov : ℤ) : ScratchMemory × Option (List Iovec) :=
  if maxIov < 2 then (mem, none)
  else
    let s : Serializer := ⟨mem, some [.constant "HTTP/1.1 ", statusEntry response.httpStatus]⟩
    let s := s.room maxIov
    let s := s.contentType response
    let s := response.etagText.elim s fun text => (s.room maxIov).format .etagBuf text
    let s := response.contentLengthText.elim s fun text => (s.room maxIov).format .clBuf text
    let s := (s.room maxIov).push
      (.constant (if keepAlive then "Connection: keep-alive\r\n" else "Connection: close\r\n"))
    let s := (s.room maxIov).push (.constant "\r\n")
    let s := response.bodyEntry.elim s fun body => (s.room maxIov).push body
    (s.mem, s.iov)

/-- `HTTP_IOV_MAX`. -/
abbrev httpIovMax : ℤ := 16

/-- Whether the response says that the connection is kept alive: it is not when its input is not
HTTP. -/
def Outcome.keepAlive : Outcome → Bool → Bool
  | badSyntax, _ => false
  | _, keepAlive => keepAlive

/-- The response to a request, up to the `iovec`s that `conn_write_response` gives to the socket. -/
def respond (mem : ScratchMemory) (outcome : Outcome) (keepAlive : Bool) :
    ScratchMemory × Option (List Iovec) :=
  let (mem, response) := buildResponse mem outcome
  httpResponseSerialize mem response (outcome.keepAlive keepAlive) httpIovMax

/-! ### What a response leaves behind -/

/-- A text, if there is one, in a buffer. -/
def putText (mem : ScratchMemory) (b : Scratch) (text : Option (List UInt8)) : ScratchMemory :=
  text.elim mem fun text => Function.update mem b ((mem b).store 0 (text ++ [0]))

theorem putText_apply (mem : ScratchMemory) (b b' : Scratch) (text : Option (List UInt8)) :
    putText mem b text b' =
      if b' = b then text.elim (mem b) fun text => (mem b).store 0 (text ++ [0]) else mem b' := by
  rcases text with _ | text
  · split_ifs with h
    · rw [h]
      rfl
    · rfl
  · exact Function.update_apply mem b _ b'

/-- Texts in the static buffers. -/
def putTexts (mem : ScratchMemory) (text : Scratch → Option (List UInt8)) : ScratchMemory :=
  fun b => (text b).elim (mem b) fun text => (mem b).store 0 (text ++ [0])

/-- The text that `http_response_serialize` formats in a buffer. -/
def S3Response.text (response : S3Response) : Scratch → Option (List UInt8)
  | .ctBuf => response.contentTypeText
  | .etagBuf => response.etagText
  | .clBuf => response.contentLengthText
  | .errBuf | .responseBuffer => none

/-- The entry of the header `Content-Type`. -/
def S3Response.contentTypeEntries (response : S3Response) : List Iovec :=
  match response.contentTypeText with
  | some text => [⟨.scratch .ctBuf, text.length⟩]
  | none =>
    if response.bodyEntry.isSome then [.constant "Content-Type: application/xml\r\n"] else []

/-- The entries of `iov`. -/
def S3Response.iovecs (response : S3Response) (keepAlive : Bool) : List Iovec :=
  [.constant "HTTP/1.1 ", statusEntry response.httpStatus] ++ response.contentTypeEntries ++
  (response.etagText.toList.map fun text => ⟨.scratch .etagBuf, text.length⟩) ++
  (response.contentLengthText.toList.map fun text => ⟨.scratch .clBuf, text.length⟩) ++
  [.constant (if keepAlive then "Connection: keep-alive\r\n" else "Connection: close\r\n")] ++
  [.constant "\r\n"] ++ response.bodyEntry.toList

/-- What formatting texts leaves in the static buffers, where each is cut to the size of its
buffer. -/
def formatTexts (mem : ScratchMemory) (text : Scratch → Option (List UInt8)) : ScratchMemory :=
  fun b => (text b).elim (mem b) fun text => (mem b).snprintf 0 b.size text

theorem formatTexts_eq_putTexts (mem : ScratchMemory) {text : Scratch → Option (List UInt8)}
    (hfits : ∀ b t, text b = some t → t.length < b.size) :
    formatTexts mem text = putTexts mem text := by
  funext b
  rw [formatTexts, putTexts]
  rcases htext : text b with _ | t
  · rfl
  · exact Buffer.snprintf_of_lt _ (hfits b t htext)

/-- A text, if there is one, formatted in a buffer. -/
def formatText (mem : ScratchMemory) (b : Scratch) (text : Option (List UInt8)) : ScratchMemory :=
  text.elim mem fun text => Function.update mem b ((mem b).snprintf 0 b.size text)

theorem formatText_apply (mem : ScratchMemory) (b b' : Scratch) (text : Option (List UInt8)) :
    formatText mem b text b' =
      if b' = b then text.elim (mem b) fun text => (mem b).snprintf 0 b.size text else mem b' := by
  rcases text with _ | text
  · split_ifs with h
    · rw [h]
      rfl
    · rfl
  · exact Function.update_apply mem b _ b'

theorem S3Response.formatTexts_text (mem : ScratchMemory) (response : S3Response) :
    formatText (formatText (formatText mem .ctBuf response.contentTypeText) .etagBuf
      response.etagText) .clBuf response.contentLengthText = formatTexts mem response.text := by
  funext b
  cases b <;> simp [formatText_apply, formatTexts, text]

namespace Serializer

variable {mem : ScratchMemory} {iov : List Iovec} {maxIov : ℤ} {s : Serializer}

/-- The function has written these entries, or it has returned because there was no room for one
more. -/
def Reaches (s : Serializer) (maxIov : ℤ) (mem : ScratchMemory) (iov : List Iovec) : Prop :=
  s.iov = none ∧ maxIov ≤ iov.length ∨ s = ⟨mem, some iov⟩ ∧ iov.length ≤ maxIov

/-- With room for one more entry, or with none, after the test for room. -/
theorem Reaches.room (h : s.Reaches maxIov mem iov) :
    (s.room maxIov).iov = none ∧ maxIov ≤ iov.length ∨
      s.room maxIov = ⟨mem, some iov⟩ ∧ iov.length < maxIov := by
  rcases h with ⟨hnone, hmax⟩ | ⟨rfl, hmax⟩
  · refine .inl ⟨?_, hmax⟩
    rw [Serializer.room, hnone]
    rfl
  · by_cases hroom : 1 ≤ maxIov - iov.length
    · refine .inr ⟨?_, by omega⟩
      rw [Serializer.room, Option.filter_some, if_pos (decide_eq_true hroom)]
    · refine .inl ⟨?_, by omega⟩
      rw [Serializer.room, Option.filter_some, if_neg fun h => hroom (of_decide_eq_true h)]

theorem format_of_none (h : s.iov = none) (b : Scratch) (text : List UInt8) :
    s.format b text = s := by
  rw [format, h]

theorem Reaches.push (h : s.Reaches maxIov mem iov) (entry : Iovec) :
    ((s.room maxIov).push entry).Reaches maxIov mem (iov ++ [entry]) := by
  rcases h.room with ⟨hnone, hmax⟩ | ⟨hroom, hmax⟩
  · refine .inl ⟨?_, by simp; omega⟩
    rw [Serializer.push, hnone]
    rfl
  · refine .inr ⟨?_, by simp; omega⟩
    rw [hroom]
    rfl

theorem Reaches.format (h : s.Reaches maxIov mem iov) (b : Scratch) (text : List UInt8) :
    ((s.room maxIov).format b text).Reaches maxIov (formatText mem b (some text))
      (iov ++ [⟨.scratch b, text.length⟩]) := by
  rcases h.room with ⟨hnone, hmax⟩ | ⟨hroom, hmax⟩
  · refine .inl ⟨?_, by simp; omega⟩
    rw [format_of_none hnone, hnone]
  · refine .inr ⟨?_, by simp; omega⟩
    rw [hroom]
    rfl

/-- A header that is there or not. -/
theorem Reaches.elim_format (h : s.Reaches maxIov mem iov) (b : Scratch)
    (text : Option (List UInt8)) :
    (text.elim s fun text => (s.room maxIov).format b text).Reaches maxIov (formatText mem b text)
      (iov ++ text.toList.map fun text => ⟨.scratch b, text.length⟩) := by
  rcases text with _ | text
  · rw [Option.toList_none, List.map_nil, List.append_nil]
    exact h
  · exact h.format b text

/-- The body, which is there or not. -/
theorem Reaches.elim_push (h : s.Reaches maxIov mem iov) (entry : Option Iovec) :
    (entry.elim s fun entry => (s.room maxIov).push entry).Reaches maxIov mem
      (iov ++ entry.toList) := by
  rcases entry with _ | entry
  · rw [Option.toList_none, List.append_nil]
    exact h
  · exact h.push entry

/-- The test for room is made also when there is no header `Content-Type`. -/
theorem Reaches.contentType (h : s.Reaches maxIov mem iov) (response : S3Response) :
    ((s.room maxIov).contentType response).Reaches maxIov
      (formatText mem .ctBuf response.contentTypeText) (iov ++ response.contentTypeEntries) := by
  rw [Serializer.contentType, S3Response.contentTypeEntries]
  rcases response.contentTypeText with _ | text
  · dsimp only
    split_ifs
    · exact h.push _
    · rw [List.append_nil]
      exact h.room.imp_right fun hroom => ⟨hroom.1, hroom.2.le⟩
  · exact h.format .ctBuf text

end Serializer

theorem S3Response.length_contentTypeEntries_le (response : S3Response) :
    response.contentTypeEntries.length ≤ 1 := by
  rw [contentTypeEntries]
  rcases response.contentTypeText with _ | text
  · dsimp only
    split_ifs <;> simp
  · exact le_rfl

theorem length_toList_le {α : Type*} (x : Option α) : x.toList.length ≤ 1 := by
  rcases x with _ | x
  · exact Nat.zero_le _
  · exact le_rfl

/-- There are at most eight entries. -/
theorem S3Response.length_iovecs_le (response : S3Response) (keepAlive : Bool) :
    (response.iovecs keepAlive).length ≤ 8 := by
  have htype := response.length_contentTypeEntries_le
  have hetag := length_toList_le response.etagText
  have hlength := length_toList_le response.contentLengthText
  have hbody := length_toList_le response.bodyEntry
  simp only [iovecs, List.length_append, List.length_cons, List.length_nil, List.length_map]
  omega

/-- `http_response_serialize` returns `-1` or all entries of the response. -/
theorem httpResponseSerialize_reaches (mem : ScratchMemory) (response : S3Response)
    (keepAlive : Bool) (maxIov : ℤ) :
    ((httpResponseSerialize mem response keepAlive maxIov).2 = none ∧
        maxIov ≤ (response.iovecs keepAlive).length) ∨
      (httpResponseSerialize mem response keepAlive maxIov =
          (formatTexts mem response.text, some (response.iovecs keepAlive)) ∧
        (response.iovecs keepAlive).length ≤ maxIov) := by
  rw [httpResponseSerialize]
  by_cases hmax : maxIov < 2
  · rw [if_pos hmax]
    refine .inl ⟨rfl, ?_⟩
    simp only [S3Response.iovecs, List.length_append, List.length_cons]
    omega
  · rw [if_neg hmax]
    have hstart : Serializer.Reaches
        ⟨mem, some [.constant "HTTP/1.1 ", statusEntry response.httpStatus]⟩ maxIov mem
        [.constant "HTTP/1.1 ", statusEntry response.httpStatus] :=
      .inr ⟨rfl, by simp only [List.length_cons, List.length_nil]; omega⟩
    have hheaders := ((hstart.contentType response).elim_format .etagBuf
      response.etagText).elim_format .clBuf response.contentLengthText
    have hend := (hheaders.push (.constant (if keepAlive then
      "Connection: keep-alive\r\n" else "Connection: close\r\n"))).push (.constant "\r\n")
    rw [S3Response.formatTexts_text] at hend
    rcases hend.elim_push response.bodyEntry with hnone | ⟨heq, hlength⟩
    · exact .inl hnone
    · exact .inr ⟨congrArg (fun s : Serializer => (s.mem, s.iov)) heq, hlength⟩

/-- A response whose texts fit their buffers is serialized whole. -/
theorem httpResponseSerialize_eq (mem : ScratchMemory) {response : S3Response} (keepAlive : Bool)
    {maxIov : ℤ} (hmax : 8 < maxIov)
    (hfits : ∀ b text, response.text b = some text → text.length < b.size) :
    httpResponseSerialize mem response keepAlive maxIov =
      (putTexts mem response.text, some (response.iovecs keepAlive)) := by
  have hlength := response.length_iovecs_le keepAlive
  rcases httpResponseSerialize_reaches mem response keepAlive maxIov with ⟨-, hfull⟩ | ⟨heq, -⟩
  · omega
  · rw [heq, formatTexts_eq_putTexts mem hfits]

theorem S3Response.length_etagText_lt (response : S3Response) {text : List UInt8}
    (h : response.etagText = some text) : text.length < Scratch.etagBuf.size := by
  have hlen := response.etag.length_le
  rw [etagText] at h
  split_ifs at h
  obtain rfl := Option.some.inj h
  simp only [List.length_append, length_literal, String.reduceToList, List.length_cons,
    List.length_nil, Scratch.size]
  omega

theorem S3Response.length_contentLengthText_lt (response : S3Response) {text : List UInt8}
    (h : response.contentLengthText = some text) : text.length < Scratch.clBuf.size := by
  obtain ⟨body, -, rfl⟩ := Option.map_eq_some_iff.mp h
  have hlen : (decimal response.bodyLength.toNat).length ≤ 10 :=
    length_decimal_le (by decide) (response.bodyLength.toNat_lt.trans (by decide))
  simp only [List.length_append, length_literal, String.reduceToList, List.length_cons,
    List.length_nil, Scratch.size]
  omega

/-- The texts of a response fit their buffers unless its type is too long. -/
theorem S3Response.length_text_lt {response : S3Response}
    (htype : ∀ contentType, response.contentType = some contentType →
      contentType.bytes.length ≤ s3MaxHeaderLength) (b : Scratch) (text : List UInt8)
    (htext : response.text b = some text) : text.length < b.size := by
  cases b with
  | ctBuf =>
    obtain ⟨contentType, hcontentType, htext⟩ := Option.bind_eq_some_iff.mp htext
    have hlen := htype contentType hcontentType
    split_ifs at htext
    obtain rfl := Option.some.inj htext
    simp only [List.length_append, length_literal, String.reduceToList, List.length_cons,
      List.length_nil, Scratch.size]
    omega
  | etagBuf => exact response.length_etagText_lt htext
  | clBuf => exact response.length_contentLengthText_lt htext
  | errBuf => exact nomatch htext
  | responseBuffer => exact nomatch htext

/-- Pieces that fit are put one behind the other. -/
theorem foldl_xmlPut (buf : Buffer) {size : ℕ} (text : List UInt8) {pieces : List (List UInt8)}
    (h : text.length + pieces.flatten.length < size) :
    pieces.foldl (xmlPut size) (buf.store 0 (text ++ [0]), some text.length) =
      (buf.store 0 (text ++ pieces.flatten ++ [0]), some (text ++ pieces.flatten).length) := by
  induction pieces generalizing text with
  | nil => rw [List.foldl_nil, List.flatten_nil, List.append_nil]
  | cons piece pieces ih =>
    rw [List.flatten_cons, List.length_append] at h
    have hfits : piece.length < size - text.length := by omega
    have hput : xmlPut size (buf.store 0 (text ++ [0]), some text.length) piece =
        (buf.store 0 (text ++ piece ++ [0]), some (text ++ piece).length) := by
      rw [xmlPut, Buffer.snprintf_of_lt _ hfits, Buffer.store_store, if_neg (by omega),
        List.length_append]
    rw [List.foldl_cons, hput, ih _ (by rw [List.length_append]; omega), List.flatten_cons,
      List.append_assoc text]

/-- A document that fits is written whole. -/
theorem s3XmlSerializeListObjects_of_lt (buf : Buffer) {size : ℕ}
    {bucket keyPrefix marker : CString} {maxKeys : ℤ} {keys : List CString} {isTruncated : Bool}
    (h : (listPieces bucket keyPrefix marker maxKeys keys isTruncated).flatten.length < size) :
    s3XmlSerializeListObjects buf size bucket keyPrefix marker maxKeys keys isTruncated =
      (buf.store 0 ((listPieces bucket keyPrefix marker maxKeys keys isTruncated).flatten ++ [0]),
        some (listPieces bucket keyPrefix marker maxKeys keys isTruncated).flatten.length) := by
  have hsize : size ≠ 0 := by omega
  rw [s3XmlSerializeListObjects, if_neg hsize, listPieces, List.foldl_cons]
  rw [listPieces, List.flatten_cons, List.length_append] at h
  have hfits : (listHead bucket keyPrefix marker maxKeys).length < size - 0 := by omega
  rw [xmlPut, Buffer.snprintf_of_lt _ hfits, if_neg (by omega), Nat.zero_add, foldl_xmlPut _ _ h]
  rfl

/-! ### The response to a request -/

/-- The document of `s3_handler_list`. -/
def listDocument (bucket : CharArray 255) : List UInt8 :=
  (listPieces bucket.toCString (.ofString "") (.ofString "") 1000
    [.ofString "example1.txt", .ofString "example2.txt"] false).flatten

theorem length_listDocument_lt (bucket : CharArray 255) :
    (listDocument bucket).length < Scratch.responseBuffer.size := by
  have hbucket := bucket.length_le
  have hempty : (CString.ofString "").bytes.length = 0 := Nat.le_zero.mp (length_ofString_le "")
  have hfirst := length_ofString_le "example1.txt"
  have hsecond := length_ofString_le "example2.txt"
  have hmax : (signedDecimal 1000).length ≤ 4 := length_decimal_le (by decide) (by decide)
  simp only [String.reduceToList, List.length_cons, List.length_nil] at hfirst hsecond
  simp only [listDocument, listPieces, listHead, listTruncated, listContents, Bool.false_eq_true,
    if_false, List.map_cons, List.map_nil, List.flatten_cons, List.flatten_append, List.flatten_nil,
    List.length_append, length_literal, String.reduceToList, List.length_cons, List.length_nil,
    hempty, Scratch.size]
  omega

/-- The error that a request is answered with. -/
def Outcome.error : Outcome → Option S3Error
  | badSyntax => some syntaxError
  | badRoute => some routeError
  | badSignature => some signatureError
  | routed request =>
    match request.operation with
    | .putBucket | .deleteBucket | .unknown => some methodError
    | _ => none

/-- The text that making the response to a request leaves in a buffer. -/
def Outcome.bodyText (outcome : Outcome) : Scratch → Option (List UInt8)
  | .errBuf => outcome.error.map fun error => errorDocument error.code error.message
  | .responseBuffer =>
    match outcome with
    | routed request =>
      if request.operation = .listObjects then some (listDocument request.bucket) else none
    | _ => none
  | .etagBuf | .clBuf | .ctBuf => none

/-- The response to a request. -/
def Outcome.response (outcome : Outcome) : S3Response := (buildResponse (fun _ _ => 0) outcome).2

/-- The response with an error document. -/
def S3Error.response (error : S3Error) : S3Response :=
  { S3Response.zero with
    httpStatus := error.status
    contentType := some (.ofString "application/xml")
    body := some (.scratch .errBuf)
    bodyLength := UInt32.ofNat (errorDocument error.code error.message).length }

theorem fillErrorResponse_eq (mem : ScratchMemory) (error : S3Error) :
    fillErrorResponse mem error =
      (putText mem .errBuf (some (errorDocument error.code error.message)), error.response) := by
  have hpos : 0 < ((errorDocument error.code error.message).length : ℤ) :=
    Int.natCast_pos.mpr (length_errorDocument_pos _ _)
  have hsize : Scratch.errBuf.size = 512 := rfl
  have hfits := error.fits
  have hresult : snprintfResult (errorDocument error.code error.message) =
      (errorDocument error.code error.message).length := if_pos (by omega)
  rw [fillErrorResponse, fillErrorResponseOf, s3XmlSerializeError, if_neg (by omega)]
  dsimp only
  rw [hresult, if_pos hpos, Buffer.snprintf_of_lt _ error.fits]
  rfl

/-- The response with the list of a bucket. -/
def listResponse (bucket : CharArray 255) : S3Response :=
  { S3Response.zero with
    httpStatus := 200
    body := some (.scratch .responseBuffer)
    bodyLength := UInt32.ofNat (listDocument bucket).length
    contentType := some (.ofString "application/xml") }

theorem s3HandlerList_eq (mem : ScratchMemory) (request : S3Request) :
    s3HandlerList mem request .zero =
      (putText mem .responseBuffer (some (listDocument request.bucket)),
        some (listResponse request.bucket)) := by
  rw [s3HandlerList, s3XmlSerializeListObjects_of_lt _ (length_listDocument_lt request.bucket)]
  rfl

theorem putText_eq_putTexts (mem : ScratchMemory) {b : Scratch} {t : List UInt8}
    {text : Scratch → Option (List UInt8)} (hb : text b = some t) (hne : ∀ b' ≠ b, text b' = none) :
    putText mem b (some t) = putTexts mem text := by
  funext b'
  rw [putText_apply, putTexts]
  split_ifs with h
  · rw [h, hb]
  · rw [hne b' h]
    rfl

/-- How a response is made: the texts it leaves in the buffers, none of them in a buffer of
`http_response_serialize`, and a body that is constant or one of the texts. -/
structure Makes (outcome : Outcome) (text : Scratch → Option (List UInt8)) (response : S3Response) :
    Prop where
  build_eq : ∀ mem, buildResponse mem outcome = (putTexts mem text, response)
  contentType_le : ∀ contentType, response.contentType = some contentType →
    contentType.bytes.length ≤ s3MaxHeaderLength
  body_eq : ∀ b, response.body = some (.scratch b) →
    ∃ t, text b = some t ∧ response.bodyLength.toNat = t.length

theorem length_xmlType_le : (CString.ofString "application/xml").bytes.length ≤ s3MaxHeaderLength :=
  (length_ofString_le _).trans (by simp [s3MaxHeaderLength])

theorem length_octetType_le :
    (CString.ofString "binary/octet-stream").bytes.length ≤ s3MaxHeaderLength :=
  (length_ofString_le _).trans (by simp [s3MaxHeaderLength])

theorem Outcome.makes_error {outcome : Outcome} {error : S3Error}
    (herror : outcome.error = some error)
    (hbuild : ∀ mem, buildResponse mem outcome = fillErrorResponse mem error)
    (hlist : outcome.bodyText .responseBuffer = none) :
    Makes outcome outcome.bodyText error.response where
  build_eq mem := by
    have htext : outcome.bodyText .errBuf = some (errorDocument error.code error.message) := by
      rw [bodyText, herror]
      rfl
    rw [hbuild, fillErrorResponse_eq, putText_eq_putTexts mem htext]
    intro b hb
    cases b with
    | errBuf => exact absurd rfl hb
    | responseBuffer => exact hlist
    | _ => rfl
  contentType_le := by
    rintro _ ⟨rfl⟩
    exact length_xmlType_le
  body_eq := by
    rintro _ ⟨rfl⟩
    refine ⟨errorDocument error.code error.message, by rw [bodyText, herror]; rfl, ?_⟩
    exact UInt32.toNat_ofNat_of_lt' (error.fits.trans (by decide))

theorem Outcome.makes_list {request : S3Request} (h : request.operation = .listObjects) :
    Makes (.routed request) (bodyText (.routed request)) (listResponse request.bucket) where
  build_eq mem := by
    have htext : bodyText (.routed request) .responseBuffer = some (listDocument request.bucket) :=
      if_pos h
    rw [buildResponse, h]
    dsimp only
    rw [s3HandlerList_eq, putText_eq_putTexts mem htext]
    intro b hb
    cases b with
    | responseBuffer => exact absurd rfl hb
    | errBuf =>
      rw [bodyText, error, h]
      rfl
    | _ => rfl
  contentType_le := by
    rintro _ ⟨rfl⟩
    exact length_xmlType_le
  body_eq := by
    rintro _ ⟨rfl⟩
    refine ⟨listDocument request.bucket, if_pos h, ?_⟩
    exact UInt32.toNat_ofNat_of_lt' ((length_listDocument_lt _).trans (by decide))

/-- A response that is made without the buffers. -/
theorem Outcome.makes_constant {outcome : Outcome} {response : S3Response}
    (hbuild : ∀ mem, buildResponse mem outcome = (mem, response))
    (htext : outcome.bodyText = fun _ => none)
    (htype : ∀ contentType, response.contentType = some contentType →
      contentType.bytes.length ≤ s3MaxHeaderLength)
    (hbody : ∀ b, response.body ≠ some (.scratch b)) : Makes outcome outcome.bodyText response where
  build_eq mem := by
    rw [hbuild, htext]
    rfl
  contentType_le := htype
  body_eq b hb := absurd hb (hbody b)

theorem Makes.response_eq {outcome : Outcome} {response : S3Response}
    (h : Makes outcome outcome.bodyText response) :
    Makes outcome outcome.bodyText outcome.response := by
  have heq : outcome.response = response := congrArg Prod.snd (h.build_eq _)
  rwa [heq]

/-- Only lists and errors leave a text for the body. -/
theorem bodyText_routed_eq_none {request : S3Request} (hlist : request.operation ≠ .listObjects)
    (herror : (Outcome.routed request).error = none) :
    (Outcome.routed request).bodyText = fun _ => none := by
  funext b
  cases b with
  | errBuf =>
    rw [Outcome.bodyText, herror]
    rfl
  | responseBuffer => exact if_neg hlist
  | _ => rfl

theorem Outcome.makes (outcome : Outcome) : Makes outcome outcome.bodyText outcome.response := by
  cases outcome with
  | badSyntax => exact .response_eq (makes_error rfl (fun _ => rfl) rfl)
  | badRoute => exact .response_eq (makes_error rfl (fun _ => rfl) rfl)
  | badSignature => exact .response_eq (makes_error rfl (fun _ => rfl) rfl)
  | routed request =>
    rcases request with
      ⟨bucket, key, operation, contentLength, contentType, authorization, host, date⟩
    cases operation with
    | putObject =>
      refine .response_eq (makes_constant (fun _ => rfl) (bodyText_routed_eq_none nofun rfl)
        ?_ nofun)
      rintro _ ⟨rfl⟩
      exact length_xmlType_le
    | getObject =>
      refine .response_eq (makes_constant (fun _ => rfl) (bodyText_routed_eq_none nofun rfl)
        ?_ nofun)
      rintro _ ⟨rfl⟩
      exact length_octetType_le
    | headObject =>
      refine .response_eq (makes_constant (fun _ => rfl) (bodyText_routed_eq_none nofun rfl)
        ?_ nofun)
      rintro _ ⟨rfl⟩
      exact length_octetType_le
    | deleteObject =>
      exact .response_eq (makes_constant (fun _ => rfl) (bodyText_routed_eq_none nofun rfl)
        nofun nofun)
    | listObjects => exact .response_eq (makes_list rfl)
    | putBucket => exact .response_eq (makes_error rfl (fun _ => rfl) rfl)
    | deleteBucket => exact .response_eq (makes_error rfl (fun _ => rfl) rfl)
    | unknown => exact .response_eq (makes_error rfl (fun _ => rfl) rfl)

/-- The text that the response to a request leaves in a buffer. -/
def Outcome.text (outcome : Outcome) (b : Scratch) : Option (List UInt8) :=
  (outcome.response.text b).or (outcome.bodyText b)

theorem Outcome.putTexts_putTexts (mem : ScratchMemory) (outcome : Outcome) :
    putTexts (putTexts mem outcome.bodyText) outcome.response.text = putTexts mem outcome.text := by
  funext b
  cases b <;> simp [putTexts, Outcome.text, S3Response.text, Outcome.bodyText]

/-- The texts and the `iovec`s of the response to a request. -/
theorem respond_eq (mem : ScratchMemory) (outcome : Outcome) (keepAlive : Bool) :
    respond mem outcome keepAlive = (putTexts mem outcome.text,
      some (outcome.response.iovecs (outcome.keepAlive keepAlive))) := by
  have h := outcome.makes
  rw [respond, h.build_eq]
  dsimp only
  rw [httpResponseSerialize_eq _ _ (by decide) (S3Response.length_text_lt h.contentType_le),
    outcome.putTexts_putTexts]

theorem statusEntry_base (status : UInt32) :
    ∃ bytes, (statusEntry status).base = .constant bytes := by
  rw [statusEntry]
  split <;> exact ⟨_, rfl⟩

theorem S3Response.text_of_mem_contentTypeEntries {response : S3Response} {entry : Iovec}
    {b : Scratch} (hentry : entry ∈ response.contentTypeEntries) (hb : entry.base = .scratch b) :
    ∃ t, response.text b = some t ∧ entry.len = t.length := by
  rw [contentTypeEntries] at hentry
  rcases htext : response.contentTypeText with _ | t
  · rw [htext] at hentry
    dsimp only at hentry
    split_ifs at hentry
    · obtain rfl := List.mem_singleton.mp hentry
      exact nomatch hb
    · exact absurd hentry List.not_mem_nil
  · rw [htext] at hentry
    obtain rfl := List.mem_singleton.mp hentry
    obtain rfl := Pointer.scratch.inj hb
    exact ⟨t, htext, rfl⟩

/-- The entry of a header that is there or not. -/
theorem text_of_mem_toList_map {text : Option (List UInt8)} {entry : Iovec} {b b' : Scratch}
    (hentry : entry ∈ text.toList.map fun text => (⟨.scratch b', text.length⟩ : Iovec))
    (hb : entry.base = .scratch b) : b' = b ∧ ∃ t, text = some t ∧ entry.len = t.length := by
  obtain ⟨t, ht, rfl⟩ := List.mem_map.mp hentry
  exact ⟨Pointer.scratch.inj hb, t, Option.mem_toList.mp ht, rfl⟩

/-- The body points where the response does. -/
theorem S3Response.bodyEntry_eq_some {response : S3Response} {entry : Iovec}
    (h : response.bodyEntry = some entry) :
    response.body = some entry.base ∧ entry.len = response.bodyLength.toNat := by
  obtain ⟨body, hbody, h⟩ := Option.bind_eq_some_iff.mp h
  split_ifs at h
  obtain rfl := Option.some.inj h
  exact ⟨hbody, rfl⟩

theorem Outcome.text_of_response_text {outcome : Outcome} {b : Scratch} {t : List UInt8}
    (h : outcome.response.text b = some t) : outcome.text b = some t := by
  rw [text, h, Option.some_or]

theorem Outcome.text_of_bodyText {outcome : Outcome} {b : Scratch} {t : List UInt8}
    (h : outcome.bodyText b = some t) : outcome.text b = some t := by
  cases b with
  | errBuf => exact h
  | responseBuffer => exact h
  | _ => exact nomatch h

/-- An `iovec` that points to a buffer covers the text that the response has left there. -/
theorem Outcome.text_of_mem_iovecs {outcome : Outcome} {keepAlive : Bool} {entry : Iovec}
    {b : Scratch} (hentry : entry ∈ outcome.response.iovecs keepAlive)
    (hb : entry.base = .scratch b) :
    ∃ t, outcome.text b = some t ∧ entry.len = t.length := by
  simp only [S3Response.iovecs, List.mem_append, List.mem_cons, List.not_mem_nil, or_false,
    Option.mem_toList] at hentry
  rcases hentry with (((((((rfl | rfl) | htype) | hetag) | hlength) | rfl) | rfl) | hbody)
  · exact nomatch hb
  · obtain ⟨bytes, hbytes⟩ := statusEntry_base outcome.response.httpStatus
    exact nomatch hbytes.symm.trans hb
  · obtain ⟨t, ht, hlen⟩ := S3Response.text_of_mem_contentTypeEntries htype hb
    exact ⟨t, text_of_response_text ht, hlen⟩
  · obtain ⟨rfl, t, ht, hlen⟩ := text_of_mem_toList_map hetag hb
    exact ⟨t, text_of_response_text ht, hlen⟩
  · obtain ⟨rfl, t, ht, hlen⟩ := text_of_mem_toList_map hlength hb
    exact ⟨t, text_of_response_text ht, hlen⟩
  · exact nomatch hb
  · exact nomatch hb
  · obtain ⟨hbase, hlen⟩ := S3Response.bodyEntry_eq_some hbody
    obtain ⟨t, ht, hbodyLen⟩ := outcome.makes.body_eq b (hb ▸ hbase)
    exact ⟨t, text_of_bodyText ht, hlen.trans hbodyLen⟩

end LightFS.Access
