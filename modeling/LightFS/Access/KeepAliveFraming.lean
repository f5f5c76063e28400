import LightFS.Access.ResponseFraming
import LightFS.Library.Framing

/-!
# Responses on a connection that is kept alive

On a connection that is kept alive the end of a response must be seen from the response itself: from
its header `Content-Length`. `http_response_serialize` (`src/access/http_response.c`) sends this
header only with a body, so a response without one, such as the response to a PUT, has no visible
end. A client (`client`) that reads heads up to the empty line and bodies by `Content-Length`
recovers a list of responses exactly when all of them have a body and no line of their type or etag
is in the way (`keepAlive_framing_iff`).

The type and the etag are copied into the head as they are. A response is undisturbed by them
(`Sending.Undisturbed`) when the lines they bring are neither empty nor a `Content-Length`; this is
the case for all values that a header may have (`Sending.undisturbed_of_lineText`).

## Main definitions

* `contentLengthOf`, `readResponse`, `client` — the client.
* `Sending` — a response that is serialized for a connection that is kept alive.
* `Sending.Undisturbed`.

## Main results

* `Sending.readResponse_iff`, `Sending.undisturbed_of_lineText`.
* `keepAlive_framing_iff`.
-/

namespace LightFS.Access

open Library

/-! ### The client -/

/-- The value of a line with the name `Content-Length`, in upper or lower case; it is `none` for a
value that is not a number. -/
def contentLengthOf (line : List UInt8) : Option (Option ℕ) :=
  if 58 ∈ line ∧ (line.takeWhile (· ≠ 58)).map toLower = literal "content-length" then
    some (decimalValue (((line.dropWhile (· ≠ 58)).drop 1).dropWhile (· = 32)))
  else none

/-- The values of the lines with the name `Content-Length`. -/
def contentLengths (head : List UInt8) : List (Option ℕ) :=
  (splitLines head).filterMap contentLengthOf

/-- Read one response: its head up to the empty line, its body by the one `Content-Length` in the
head, and what follows. -/
def readResponse (bytes : List UInt8) : Option ((List UInt8 × List UInt8) × List UInt8) :=
  (splitHead bytes).bind fun split =>
    match contentLengths split.1 with
    | [some n] =>
      if n ≤ split.2.length then some ((split.1, split.2.take n), split.2.drop n) else none
    | _ => none

/-- A response that is read has one `Content-Length`, the length of its body. -/
theorem readResponse_eq_some_iff {stream head body rest : List UInt8} :
    readResponse stream = some ((head, body), rest) ↔
      splitHead stream = some (head, body ++ rest) ∧ contentLengths head = [some body.length] := by
  rw [readResponse, Option.bind_eq_some_iff]
  constructor
  · rintro ⟨⟨head', rest'⟩, hsplit, hread⟩
    dsimp only at hread
    split at hread
    next n hlengths =>
      split_ifs at hread with hle
      obtain ⟨hmessage, rfl⟩ := Prod.mk.inj (Option.some.inj hread)
      obtain ⟨rfl, rfl⟩ := Prod.mk.inj hmessage
      rw [List.take_append_drop, List.length_take, Nat.min_eq_left hle]
      exact ⟨hsplit, hlengths⟩
    next => exact absurd hread.symm (Option.some_ne_none _)
  · rintro ⟨hsplit, hlengths⟩
    refine ⟨_, hsplit, ?_⟩
    dsimp only
    rw [hlengths]
    dsimp only
    rw [if_pos (by rw [List.length_append]; omega), List.take_left, List.drop_left]

/-- The client as a reader of heads and bodies. -/
def client : MessageReader UInt8 (List UInt8 × List UInt8) where
  symbols message := message.1 ++ message.2
  read := readResponse
  append_of_read h := by
    obtain ⟨hsplit, -⟩ := readResponse_eq_some_iff.mp h
    rw [List.append_assoc]
    exact append_of_splitHead hsplit

/-- A line with a name. -/
theorem contentLengthOf_append {name : List UInt8} (hname : 58 ∉ name) (value : List UInt8) :
    contentLengthOf (name ++ 58 :: value) =
      if name.map toLower = literal "content-length" then
        some (decimalValue (value.dropWhile (· = 32)))
      else none := by
  have hne : ∀ b ∈ name, decide (b ≠ 58) = true := fun b hb =>
    decide_eq_true fun h => hname (h ▸ hb)
  have htake : (name ++ 58 :: value).takeWhile (· ≠ 58) = name := by
    rw [List.takeWhile_append_of_pos hne, List.takeWhile_cons_of_neg (by simp), List.append_nil]
  have hdrop : (name ++ 58 :: value).dropWhile (· ≠ 58) = 58 :: value := by
    rw [List.dropWhile_append_of_pos hne, List.dropWhile_cons_of_neg (by simp)]
  rw [contentLengthOf, htake, hdrop]
  simp

theorem contentLengthOf_of_notMem {line : List UInt8} (h : 58 ∉ line) :
    contentLengthOf line = none :=
  if_neg fun hline => h hline.1

/-- The names of the headers: how they are sent, and which of them a client takes for
`Content-Length`. -/
theorem headerNames :
    (literal "Content-Length: " = literal "Content-Length" ++ 58 :: [32] ∧
      58 ∉ literal "Content-Length" ∧
      (literal "Content-Length").map toLower = literal "content-length") ∧
    (literal "Content-Type: " = literal "Content-Type" ++ 58 :: [32] ∧
      ∀ stray ∈ [[], [0]], 58 ∉ stray ++ literal "Content-Type" ∧
        (stray ++ literal "Content-Type").map toLower ≠ literal "content-length") ∧
    (literal "ETag: " = literal "ETag" ++ 58 :: [32] ∧ 58 ∉ literal "ETag" ∧
      (literal "ETag").map toLower ≠ literal "content-length") ∧
    (literal "Connection: keep-alive" = literal "Connection" ++ 58 :: literal " keep-alive" ∧
      58 ∉ literal "Connection" ∧
      (literal "Connection").map toLower ≠ literal "content-length") := by
  decide +kernel

/-- The line of the header `Content-Length`. -/
theorem contentLengthOf_decimal (n : ℕ) :
    contentLengthOf (literal "Content-Length: " ++ decimal n) = some (some n) := by
  obtain ⟨⟨hsent, hcolon, hname⟩, -⟩ := headerNames
  have hdigits : (decimal n).dropWhile (· = 32) = decimal n := by
    obtain ⟨b, digits, hdecimal⟩ := List.exists_cons_of_ne_nil (decimal_ne_nil n)
    have hdigit : isDigitByte b = true := by
      refine isDigitByte_of_mem_decimal (n := n) ?_
      rw [hdecimal]
      exact List.mem_cons_self
    rw [hdecimal, List.dropWhile_cons_of_neg]
    intro hb
    obtain rfl := of_decide_eq_true hb
    exact absurd hdigit (by decide)
  rw [hsent, List.append_assoc, List.cons_append, contentLengthOf_append hcolon, if_pos hname,
    List.cons_append, List.nil_append, List.dropWhile_cons_of_pos (by simp), hdigits,
    decimalValue_decimal]

/-- The line of the header `Content-Type`, also behind a NUL. -/
theorem contentLengthOf_type {stray : List UInt8} (hstray : stray ∈ [[], [0]])
    (value : List UInt8) :
    contentLengthOf (stray ++ literal "Content-Type: " ++ value) = none := by
  obtain ⟨-, ⟨hsent, hnames⟩, -⟩ := headerNames
  obtain ⟨hcolon, hname⟩ := hnames stray hstray
  rw [hsent, ← List.append_assoc, List.append_assoc, List.cons_append,
    contentLengthOf_append hcolon, if_neg hname]

theorem contentLengthOf_etag (value : List UInt8) :
    contentLengthOf (literal "ETag: " ++ value) = none := by
  obtain ⟨-, -, ⟨hsent, hcolon, hname⟩, -⟩ := headerNames
  rw [hsent, List.append_assoc, List.cons_append, contentLengthOf_append hcolon, if_neg hname]

theorem contentLengthOf_connection :
    contentLengthOf (literal "Connection: keep-alive") = none := by
  obtain ⟨-, -, -, hsent, hcolon, hname⟩ := headerNames
  rw [hsent, contentLengthOf_append hcolon, if_neg hname]

/-! ### Responses on the wire -/

/-- A response other than 204 that has been serialized for a connection that is kept alive. -/
structure Sending where
  response : S3Response
  status_ne : response.httpStatus ≠ 204
  /-- The static buffers before. -/
  before : ScratchMemory
  maxIov : ℤ
  /-- The static buffers when the response is written. -/
  memory : ScratchMemory
  iov : List Iovec
  serialized : httpResponseSerialize before response true maxIov = (memory, some iov)

namespace Sending

variable (s : Sending)

/-- The bytes on the connection. -/
def bytes : List UInt8 := transmitted s.memory s.iov

/-- The headers: the entries between the status and the empty line. -/
def headers : List (List UInt8) :=
  ((s.iov.drop 2).takeWhile (· ≠ .constant "\r\n")).map (Iovec.bytes s.memory)

/-- The body. -/
def body : List UInt8 := s.response.bodyBytes s.memory

/-- What is sent before the body. -/
def head : List UInt8 := s.bytes.take (s.bytes.length - s.body.length)

/-- What is sent from the header `Content-Type` to the header `Content-Length`, if there is a
body. -/
def upToLength : List UInt8 :=
  s.response.typeBytes s.before ++ s.response.etagText.getD [] ++
    (literal "Content-Length: " ++ decimal s.response.bodyLength.toNat)

/-- The lines that the type and the etag bring are neither empty nor a `Content-Length`. The texts
are not checked by the server: a type or an etag with CR LF brings lines of its own, and of a type
that is too long for its buffer only the beginning is sent, and then what stands behind the
buffer. -/
def Undisturbed : Prop :=
  (∀ line ∈ splitLines s.upToLength, line ≠ []) ∧
    (splitLines s.upToLength).filterMap contentLengthOf = [some s.response.bodyLength.toNat]

theorem sent_eq : s.memory = formatTexts s.before s.response.text ∧
    s.iov = s.response.iovecs true := by
  rcases httpResponseSerialize_reaches s.before s.response true s.maxIov with
    ⟨hnone, -⟩ | ⟨heq, -⟩
  · rw [s.serialized] at hnone
    exact absurd hnone (Option.some_ne_none _)
  · rw [s.serialized] at heq
    obtain ⟨hmemory, hiov⟩ := Prod.mk.inj heq
    exact ⟨hmemory, Option.some.inj hiov⟩

/-- The bytes of a response, part by part. -/
theorem bytes_eq : s.bytes =
    literal "HTTP/1.1 " ++ (statusText s.response.httpStatus ++ crlf ++
      strayNul s.response.httpStatus) ++ s.response.typeBytes s.before ++
      s.response.etagText.getD [] ++ s.response.contentLengthText.getD [] ++
      S3Response.connectionText true ++ crlf ++ s.body := by
  obtain ⟨hmemory, hiov⟩ := s.sent_eq
  rw [bytes, body, hmemory, hiov, s.response.transmitted_iovecs]

theorem head_eq : s.head =
    literal "HTTP/1.1 " ++ (statusText s.response.httpStatus ++ crlf ++
      strayNul s.response.httpStatus) ++ s.response.typeBytes s.before ++
      s.response.etagText.getD [] ++ s.response.contentLengthText.getD [] ++
      S3Response.connectionText true ++ crlf := by
  rw [head, s.bytes_eq, List.length_append, Nat.add_sub_cancel, List.take_left]

theorem head_append_body : s.head ++ s.body = s.bytes := by
  rw [s.head_eq, s.bytes_eq]

theorem head_ne_nil : s.head ≠ [] := by
  rw [s.head_eq]
  exact List.append_ne_nil_of_right_ne_nil _ (by decide)

/-! ### The headers -/

/-- The header `Content-Type` is sent from its beginning, also when its end is cut. -/
theorem exists_bytes_contentTypeEntries {entry : Iovec}
    (hentry : entry ∈ s.response.contentTypeEntries) :
    ∃ rest, entry.bytes s.memory = literal "Content-Type: " ++ rest := by
  rw [s.sent_eq.1]
  rw [S3Response.contentTypeEntries] at hentry
  rcases htext : s.response.contentTypeText with _ | text
  · rw [htext] at hentry
    dsimp only at hentry
    split_ifs at hentry
    · obtain rfl := List.mem_singleton.mp hentry
      refine ⟨literal "application/xml\r\n", (bytes_constant _ _).trans ?_⟩
      decide +kernel
    · exact absurd hentry List.not_mem_nil
  · rw [htext] at hentry
    obtain rfl := List.mem_singleton.mp hentry
    obtain ⟨contentType, -, htype⟩ := Option.bind_eq_some_iff.mp htext
    split_ifs at htype
    obtain rfl := Option.some.inj htype
    show ∃ rest, slots (formatTexts s.before s.response.text .ctBuf) _ = _
    rw [formatTexts, show s.response.text .ctBuf = _ from htext, Option.elim_some,
      List.append_assoc]
    exact exists_slots_snprintf _ (by decide) _

/-- The entries of the headers. -/
def headerEntries : List Iovec :=
  s.response.contentTypeEntries ++
  (s.response.etagText.toList.map fun text => ⟨.scratch .etagBuf, text.length⟩) ++
  (s.response.contentLengthText.toList.map fun text => ⟨.scratch .clBuf, text.length⟩) ++
  [.constant "Connection: keep-alive\r\n"]

/-- None of them is the entry of the empty line. -/
theorem ne_of_mem_headerEntries {entry : Iovec} (hentry : entry ∈ s.headerEntries) :
    entry ≠ .constant "\r\n" := by
  have hconstant : Iovec.constant "Connection: keep-alive\r\n" ≠ .constant "\r\n" ∧
      Iovec.constant "Content-Type: application/xml\r\n" ≠ .constant "\r\n" := by
    decide +kernel
  have hscratch : ∀ b len, (⟨.scratch b, len⟩ : Iovec) ≠ .constant "\r\n" := by
    intro b len h
    exact Pointer.noConfusion (congrArg Iovec.base h)
  simp only [headerEntries, List.mem_append, List.mem_map, List.mem_singleton] at hentry
  rcases hentry with ((htype | ⟨_, -, rfl⟩) | ⟨_, -, rfl⟩) | rfl
  · rw [S3Response.contentTypeEntries] at htype
    split at htype
    · obtain rfl := List.mem_singleton.mp htype
      exact hscratch _ _
    · split_ifs at htype
      · obtain rfl := List.mem_singleton.mp htype
        exact hconstant.2
      · exact absurd htype List.not_mem_nil
  · exact hscratch _ _
  · exact hscratch _ _
  · exact hconstant.1

/-- The headers, one by one. -/
theorem headers_eq : s.headers =
    s.response.contentTypeEntries.map (Iovec.bytes s.memory) ++ s.response.etagText.toList ++
      s.response.contentLengthText.toList ++ [literal "Connection: keep-alive\r\n"] := by
  obtain ⟨hmemory, hiov⟩ := s.sent_eq
  have hdrop : s.iov.drop 2 =
      s.headerEntries ++ .constant "\r\n" :: s.response.bodyEntry.toList := by
    rw [hiov, S3Response.iovecs, headerEntries]
    simp only [List.append_assoc, List.cons_append, List.nil_append, List.drop_succ_cons,
      List.drop_zero, if_true]
  have htake : (s.iov.drop 2).takeWhile (· ≠ .constant "\r\n") = s.headerEntries := by
    rw [hdrop, List.takeWhile_append_of_pos fun entry hentry =>
        decide_eq_true (s.ne_of_mem_headerEntries hentry),
      List.takeWhile_cons_of_neg (by simp), List.append_nil]
  rw [headers, htake, hmemory, headerEntries, List.map_append, List.map_append, List.map_append,
    S3Response.map_bytes_etag, S3Response.map_bytes_contentLength, List.map_singleton,
    bytes_constant]

/-- The header `Content-Length` is there once if there is a body, and not otherwise. -/
theorem filter_headers : s.headers.filter (literal "Content-Length: ").isPrefixOf =
    s.response.contentLengthText.toList := by
  have hothers : (literal "Content-Length: ").take 9 ≠ (literal "Content-Type: ").take 9 ∧
      (literal "Content-Length: ").take 1 ≠ (literal "ETag: ").take 1 ∧
      (literal "Content-Length: ").isPrefixOf (literal "Connection: keep-alive\r\n") = false := by
    decide +kernel
  have htype : (s.response.contentTypeEntries.map (Iovec.bytes s.memory)).filter
      (literal "Content-Length: ").isPrefixOf = [] := by
    refine List.filter_eq_nil_iff.mpr fun header hheader => ?_
    obtain ⟨entry, hentry, rfl⟩ := List.mem_map.mp hheader
    obtain ⟨rest, hrest⟩ := s.exists_bytes_contentTypeEntries hentry
    rw [hrest, List.isPrefixOf_iff_prefix]
    exact not_prefix_append 9 (by decide) (by decide) hothers.1 rest
  have hetag : s.response.etagText.toList.filter (literal "Content-Length: ").isPrefixOf = [] := by
    refine List.filter_eq_nil_iff.mpr fun header hheader => ?_
    have hheader := Option.mem_toList.mp hheader
    rw [S3Response.etagText] at hheader
    split_ifs at hheader
    obtain rfl := Option.some.inj hheader
    rw [List.append_assoc, List.isPrefixOf_iff_prefix]
    exact not_prefix_append 1 (by decide) (by decide) hothers.2.1 _
  have hlength : s.response.contentLengthText.toList.filter
      (literal "Content-Length: ").isPrefixOf = s.response.contentLengthText.toList := by
    refine List.filter_eq_self.mpr fun header hheader => ?_
    obtain ⟨entry, -, rfl⟩ := Option.map_eq_some_iff.mp (Option.mem_toList.mp hheader)
    rw [List.append_assoc]
    exact List.isPrefixOf_iff_prefix.mpr (List.prefix_append _ _)
  rw [s.headers_eq, List.filter_append, List.filter_append, List.filter_append, htype, hetag,
    hlength, List.filter_singleton, hothers.2.2, cond_false, List.append_nil, List.nil_append,
    List.nil_append]

/-! ### The head, as the client reads it -/

variable {s}

/-- What the client finds in front of the header `Content-Length`: its first line begins with
`Content-Type`. -/
theorem exists_typeBytes (hbody : s.response.bodyEntry.isSome) :
    ∃ rest, s.response.typeBytes s.before = literal "Content-Type: " ++ rest := by
  have hentries : ∃ entry, s.response.contentTypeEntries = [entry] := by
    rw [S3Response.contentTypeEntries]
    split
    · exact ⟨_, rfl⟩
    · exact ⟨_, if_pos hbody⟩
  obtain ⟨entry, hentry⟩ := hentries
  have hmem : entry ∈ s.response.contentTypeEntries := hentry ▸ List.mem_singleton_self entry
  obtain ⟨rest, hrest⟩ := s.exists_bytes_contentTypeEntries hmem
  refine ⟨rest, ?_⟩
  rw [← s.response.transmitted_contentTypeEntries, hentry, ← s.sent_eq.1, ← hrest]
  exact List.flatMap_singleton _ _

theorem length_body {entry : Iovec} (hentry : s.response.bodyEntry = some entry) :
    s.body.length = s.response.bodyLength.toNat := by
  rw [body, S3Response.bodyBytes, hentry, Option.elim_some, Iovec.bytes, length_slots]
  exact (S3Response.bodyEntry_eq_some hentry).2

/-- The first line is neither empty nor a `Content-Length`, also behind a NUL. -/
theorem splitLines_type {stray : List UInt8} (hstray : stray ∈ [[], [0]]) (text : List UInt8) :
    ((∀ line ∈ splitLines (stray ++ (literal "Content-Type: " ++ text)), line ≠ []) ↔
      ∀ line ∈ (splitLines text).tail, line ≠ []) ∧
    (splitLines (stray ++ (literal "Content-Type: " ++ text))).filterMap contentLengthOf =
      (splitLines text).tail.filterMap contentLengthOf := by
  have hcr : ∀ stray ∈ ([[], [0]] : List (List UInt8)), 13 ∉ stray ++ literal "Content-Type: " ∧
      stray ++ literal "Content-Type: " ≠ [] := by
    decide +kernel
  obtain ⟨hnotMem, hne⟩ := hcr stray hstray
  rw [← List.append_assoc, splitLines_append_of_notMem hnotMem, List.forall_mem_cons,
    List.filterMap_cons_none (contentLengthOf_type hstray _)]
  exact ⟨and_iff_right (List.append_ne_nil_of_left_ne_nil hne _), rfl⟩

theorem strayNul_mem (status : UInt32) : strayNul status ∈ [[], [0]] := by
  rw [strayNul]
  split_ifs
  · exact List.mem_cons_of_mem _ List.mem_cons_self
  · exact List.mem_cons_self

/-- The NUL behind the status line makes no line empty and none a `Content-Length`. -/
theorem splitLines_strayNul (hbody : s.response.bodyEntry.isSome) (status : UInt32) :
    ((∀ line ∈ splitLines (strayNul status ++ s.upToLength), line ≠ []) ↔
      ∀ line ∈ splitLines s.upToLength, line ≠ []) ∧
    (splitLines (strayNul status ++ s.upToLength)).filterMap contentLengthOf =
      (splitLines s.upToLength).filterMap contentLengthOf := by
  obtain ⟨type, htype⟩ := exists_typeBytes hbody
  have htext : s.upToLength = literal "Content-Type: " ++ (type ++ s.response.etagText.getD [] ++
      (literal "Content-Length: " ++ decimal s.response.bodyLength.toNat)) := by
    rw [upToLength, htype]
    simp only [List.append_assoc]
  have hstray := splitLines_type (strayNul_mem status) (type ++ s.response.etagText.getD [] ++
    (literal "Content-Length: " ++ decimal s.response.bodyLength.toNat))
  have hplain := splitLines_type List.mem_cons_self (type ++ s.response.etagText.getD [] ++
    (literal "Content-Length: " ++ decimal s.response.bodyLength.toNat))
  rw [← htext] at hstray hplain
  rw [List.nil_append] at hplain
  exact ⟨hstray.1.trans hplain.1.symm, hstray.2.trans hplain.2.symm⟩

/-- The text of a head with a body, without the two CR LF at its end. -/
def headText (s : Sending) : List UInt8 :=
  literal "HTTP/1.1 " ++ statusText s.response.httpStatus ++ crlf ++
    (strayNul s.response.httpStatus ++ s.upToLength) ++ crlf ++ literal "Connection: keep-alive"

theorem head_eq_headText {entry : Iovec} (hentry : s.response.bodyEntry = some entry) :
    s.head = s.headText ++ crlf ++ crlf := by
  have hconnection : S3Response.connectionText true =
      literal "Connection: keep-alive" ++ crlf := by
    decide +kernel
  rw [s.head_eq, headText, upToLength, S3Response.contentLengthText, hentry, Option.map_some,
    Option.getD_some, literal_crlf, hconnection]
  simp only [List.append_assoc]

/-- No status line has a colon. -/
theorem colon_notMem_statusLine (status : UInt32) :
    58 ∉ literal "HTTP/1.1 " ++ statusText status := by
  have htable : ∀ status ∈ listedStatuses, 58 ∉ literal "HTTP/1.1 " ++ statusText status :=
    forall_mem_listedStatuses (by decide +kernel)
  by_cases h : status ∈ listedStatuses
  · exact htable status h
  · rw [statusText, (status_of_notMem h).2]
    exact htable 500 (by decide)

/-- The lines of a head: the status line, those up to the header `Content-Length` and the header
`Connection`. -/
theorem splitLines_headText (s : Sending) :
    splitLines s.headText = (literal "HTTP/1.1 " ++ statusText s.response.httpStatus) ::
      (splitLines (strayNul s.response.httpStatus ++ s.upToLength) ++
        [literal "Connection: keep-alive"]) := by
  have hstatus : 13 ∉ literal "HTTP/1.1 " ++ statusText s.response.httpStatus := fun hmem =>
    (lineText_statusLine _ 13 hmem).1 rfl
  rw [headText, splitLines_append_crlf, splitLines_append_crlf, splitLines_of_notMem hstatus,
    splitLines_of_notMem (a := literal "Connection: keep-alive") (by decide)]
  rfl

/-- **One response.** The client reads a response with a body as it was sent if and only if the type
and the etag do not disturb it, whatever follows it on the connection. -/
theorem readResponse_iff (hbody : s.response.bodyEntry.isSome) (rest : List UInt8) :
    readResponse (s.head ++ s.body ++ rest) = some ((s.head, s.body), rest) ↔ s.Undisturbed := by
  obtain ⟨entry, hentry⟩ := Option.isSome_iff_exists.mp hbody
  obtain ⟨hnone, hlength⟩ := splitLines_strayNul hbody s.response.httpStatus
  have hempty : (∀ line ∈ (splitLines s.headText).tail, line ≠ []) ↔
      ∀ line ∈ splitLines s.upToLength, line ≠ [] := by
    rw [s.splitLines_headText, List.tail_cons, List.forall_mem_append, List.forall_mem_singleton,
      hnone]
    exact and_iff_left (by decide)
  have hlengths : contentLengths s.head = (splitLines s.upToLength).filterMap contentLengthOf := by
    have hend : (splitLines crlf).filterMap contentLengthOf = [] := by decide
    have hstatus := contentLengthOf_of_notMem (colon_notMem_statusLine s.response.httpStatus)
    rw [head_eq_headText hentry, contentLengths, splitLines_append_crlf, List.filterMap_append,
      hend, List.append_nil, s.splitLines_headText, List.filterMap_cons_none hstatus,
      List.filterMap_append, hlength, List.filterMap_cons_none contentLengthOf_connection,
      List.filterMap_nil, List.append_nil]
  rw [readResponse_eq_some_iff, hlengths, length_body hentry, head_eq_headText hentry,
    Undisturbed, ← hempty, ← splitHead_eq_iff s.headText (s.body ++ rest)]
  simp only [List.append_assoc]

/-- A line in front of a text, and none. -/
theorem splitLines_line {bytes line : List UInt8} (hbytes : bytes = [] ∨ bytes = line ++ crlf)
    (hcr : 13 ∉ line) (hne : line ≠ []) (hlength : contentLengthOf line = none)
    (text : List UInt8) :
    ((∀ line ∈ splitLines (bytes ++ text), line ≠ []) ↔ ∀ line ∈ splitLines text, line ≠ []) ∧
    (splitLines (bytes ++ text)).filterMap contentLengthOf =
      (splitLines text).filterMap contentLengthOf := by
  rcases hbytes with rfl | rfl
  · exact ⟨Iff.rfl, rfl⟩
  · rw [splitLines_append_crlf, splitLines_of_notMem hcr, List.singleton_append,
      List.forall_mem_cons, List.filterMap_cons_none hlength]
    exact ⟨and_iff_right hne, rfl⟩

/-- A type and an etag that are texts of one line, the type at most 256 bytes long, do not disturb
the response. -/
theorem undisturbed_of_lineText
    (htype : ∀ contentType, s.response.contentType = some contentType →
      contentType.bytes.length ≤ s3MaxHeaderLength ∧ LineText contentType.bytes)
    (hetag : LineText s.response.etag.bytes) : s.Undisturbed := by
  have hcr : ∀ {text : List UInt8}, LineText text → 13 ∉ text := fun htext hmem =>
    (htext 13 hmem).1 rfl
  have hnames : LineText (literal "Content-Type: ") ∧ LineText (literal "ETag: ") ∧
      LineText (literal "Content-Length: ") := by
    decide +kernel
  have hlast := splitLines_of_notMem (hcr (hnames.2.2.append
    (lineText_decimal s.response.bodyLength.toNat)))
  obtain ⟨value, hvalue, hbytes⟩ : ∃ value, LineText value ∧
      (s.response.typeBytes s.before = [] ∨
        s.response.typeBytes s.before = literal "Content-Type: " ++ value ++ crlf) := by
    rcases typeBytes_eq s.response s.before htype with hnil | ⟨value, hvalue, hbytes⟩
    · exact ⟨[], by decide, .inl hnil⟩
    · exact ⟨value, hvalue, .inr hbytes⟩
  obtain ⟨hempty, hlength⟩ := splitLines_line hbytes (hcr (hnames.1.append hvalue))
    (List.append_ne_nil_of_left_ne_nil (by decide) _) (contentLengthOf_type List.mem_cons_self _)
    (s.response.etagText.getD [] ++
      (literal "Content-Length: " ++ decimal s.response.bodyLength.toNat))
  obtain ⟨hempty', hlength'⟩ := splitLines_line (etagText_eq s.response)
    (hcr (hnames.2.1.append hetag)) (List.append_ne_nil_of_left_ne_nil (by decide) _)
    (contentLengthOf_etag _)
    (literal "Content-Length: " ++ decimal s.response.bodyLength.toNat)
  rw [Undisturbed, upToLength, List.append_assoc, hempty, hlength, hempty', hlength', hlast,
    List.forall_mem_singleton, List.filterMap_cons_some (contentLengthOf_decimal _)]
  exact ⟨List.append_ne_nil_of_left_ne_nil (by decide) _, rfl⟩

/-- The response to a GET is undisturbed. -/
example (h : s.response = s3HandlerGet .zero) : s.Undisturbed := by
  have htype : (CString.ofString "binary/octet-stream").bytes.length ≤ s3MaxHeaderLength ∧
      LineText (CString.ofString "binary/octet-stream").bytes := by
    decide +kernel
  refine undisturbed_of_lineText (fun contentType hcontentType => ?_) ?_
  · rw [h] at hcontentType
    obtain rfl := Option.some.inj hcontentType
    exact htype
  · rw [h]
    exact fun b hb => absurd hb List.not_mem_nil

end Sending

theorem bodyEntry_isSome_iff (response : S3Response) :
    response.bodyEntry.isSome ↔ response.body.isSome ∧ 0 < response.bodyLength := by
  rw [S3Response.bodyEntry]
  rcases response.body with _ | body
  · exact iff_of_false Bool.false_ne_true fun h => Bool.false_ne_true h.1
  · rw [Option.bind_some, Option.isSome_some]
    split_ifs with h
    · exact iff_of_true rfl ⟨rfl, h⟩
    · exact iff_of_false Bool.false_ne_true fun hand => h hand.2

/-- **When responses can be told apart.** For all lists of responses other than 204 that are sent on
a connection that is kept alive: every response has one header `Content-Length`, with the number of
the bytes of its body, and the client recovers the list from the bytes on the connection, if and
only if every response has a body and its type and etag bring no empty line and no
`Content-Length`. -/
theorem keepAlive_framing_iff (sendings : List Sending) :
    ((∀ s ∈ sendings, s.headers.filter (literal "Content-Length: ").isPrefixOf =
        [literal "Content-Length: " ++ decimal s.body.length ++ literal "\r\n"]) ∧
      client.readAll (sendings.flatMap Sending.bytes) =
        some (sendings.map fun s => (s.head, s.body))) ↔
      ∀ s ∈ sendings, (s.response.body.isSome ∧ 0 < s.response.bodyLength) ∧ s.Undisturbed := by
  have hheader : ∀ s : Sending, s.headers.filter (literal "Content-Length: ").isPrefixOf =
      [literal "Content-Length: " ++ decimal s.body.length ++ literal "\r\n"] ↔
        s.response.bodyEntry.isSome := by
    intro s
    rw [s.filter_headers, S3Response.contentLengthText]
    rcases hentry : s.response.bodyEntry with _ | entry
    · exact iff_of_false (List.cons_ne_nil _ _).symm Bool.false_ne_true
    · refine iff_of_true ?_ rfl
      rw [Sending.length_body hentry]
      rfl
  have hbytes : (sendings.flatMap Sending.bytes) =
      sendings.flatMap fun s => client.symbols (s.head, s.body) :=
    congrArg sendings.flatMap (funext fun s => s.head_append_body.symm)
  simp only [hheader, ← bodyEntry_isSome_iff]
  rw [forall₂_and]
  refine and_congr_right fun hbody => ?_
  rw [hbytes]
  refine MessageReader.readAll_flatMap_iff sendings (fun s _ => ?_) fun s hs rest => ?_
  · exact List.append_ne_nil_of_left_ne_nil s.head_ne_nil _
  · exact Sending.readResponse_iff (hbody s hs) rest

/-- The response to a PUT on a connection that is kept alive: it has no header `Content-Length`, and
the client does not find its end. -/
theorem keepAlive_framing_put :
    ∃ s : Sending, s.response = s3HandlerPut .zero ∧ s.body = [] ∧
      s.headers.filter (literal "Content-Length: ").isPrefixOf = [] ∧
      client.readAll s.bytes = none := by
  refine ⟨⟨s3HandlerPut .zero, by decide, fun _ _ => 0, 16, _, _, rfl⟩, rfl, rfl, ?_, ?_⟩
  · decide +kernel
  · decide +kernel

end LightFS.Access
