import LightFS.Access.HttpResponse
import LightFS.Library.CrlfText
import LightFS.Library.DeferredWrite

/-!
# Responses in flight

The socket layer of the HTTP server reads the `iovec`s of a response after `conn_write_response` has
returned, as much of them at a time as the socket takes (`src/access/http_server.c`). Until then the
bytes of the headers and of most bodies stand in static buffers that every response is formatted in,
and the response of another connection may be written over them.

The server is described by the static buffers and, for each connection, the addresses that are still
to be transmitted (`responseMachine`). It is compared with a server that copies a response when it
is made (`copyMachine`). The two transmit the same, whenever the socket layer reads, exactly if no
response is made while another one waits with which it shares a buffer and not the text in it
(`responses_intact_iff`). Two responses with a content type, or with a body, share a buffer, and one
with another content type or another length of its body changes the bytes of the one that waits
(`response_overwritten`).

A connection has one response in flight at a time, which is proved for the whole server in
`LightFS.Access.HttpServer`. A write that fails may end before all its bytes are transmitted.

## Main definitions

* `Submission`, `Submission.produce`, `serialized`, `responseMachine`.
* `Submission.Keeps` — a response has the same text as one that waits in all buffers they share.

## Main results

* `map_loadAt_produce` — a response is right at the moment when it is made.
* `holdsTexts_putTexts_iff`, `Outcome.text_eq_of_prefix`.
* `responses_intact_iff`.
-/

namespace LightFS.Access

open Library

/-- The address of a byte of a response. -/
abbrev Address := Pointer × ℕ

/-- The byte at an address. -/
def loadAt (mem : ScratchMemory) (a : Address) : UInt8 := a.1.load mem a.2

/-- The addresses that an `iovec` covers. -/
def Iovec.addresses (entry : Iovec) : List Address := (List.range entry.len).map (entry.base, ·)

/-- A response that is made and written: what is known of the request, whether the connection is to
be kept alive, and whether the allocation of the write request succeeds. -/
structure Submission where
  outcome : Outcome
  keepAlive : Bool
  allocated : Bool

/-- The response and `conn_write_response`: the static buffers, and the addresses that are given to
the socket, if anything is written. -/
def Submission.produce (mem : ScratchMemory) (s : Submission) :
    ScratchMemory × Option (List Address) :=
  match respond mem s.outcome s.keepAlive with
  | (mem, none) => (mem, none)
  | (mem, some iov) => (mem, if s.allocated then some (iov.flatMap Iovec.addresses) else none)

/-- The bytes that a response serializes to: those at its addresses when it has just been made. -/
def serialized (s : Submission) : Option (List UInt8) :=
  let (mem, addresses) := s.produce fun _ _ => 0
  addresses.map (·.map (loadAt mem))

/-- The server, response by response. -/
def responseMachine :
    Machine (Deferred ScratchMemory ℕ Address) (WriteStep ℕ Submission) (List UInt8) :=
  deferredMachine loadAt Submission.produce

/-- The server with these static buffers, when nothing is in flight. -/
def quiet (mem : ScratchMemory) : Deferred ScratchMemory ℕ Address := ⟨mem, fun _ => none⟩

/-- A response is made with the same text as a waiting one in every static buffer in which both are
formatted. -/
def Submission.Keeps (waiting response : Submission) : Prop :=
  ∀ b text text', waiting.outcome.text b = some text → response.outcome.text b = some text' →
    text = text'

theorem produce_eq (mem : ScratchMemory) (s : Submission) :
    s.produce mem = (putTexts mem s.outcome.text,
      if s.allocated then
        some ((s.outcome.response.iovecs (s.outcome.keepAlive s.keepAlive)).flatMap Iovec.addresses)
      else none) := by
  rw [Submission.produce, respond_eq]

/-! ### Texts in the static buffers -/

/-- The static buffers have these texts. -/
def HoldsTexts (mem : ScratchMemory) (text : Scratch → Option (List UInt8)) : Prop :=
  ∀ b t, text b = some t → ∀ (i : ℕ) (hi : i < t.length), mem b i = t[i]

theorem holdsTexts_putTexts (mem : ScratchMemory) (text : Scratch → Option (List UInt8)) :
    HoldsTexts (putTexts mem text) text := by
  intro b t ht i hi
  rw [putTexts, ht, Option.elim_some, Buffer.store_text_apply _ _ hi]

/-- Texts without a NUL that stand in the buffers stay there when other texts are put over them, if
and only if they are beginnings of these. -/
theorem holdsTexts_putTexts_iff {mem : ScratchMemory} {text text' : Scratch → Option (List UInt8)}
    (hmem : HoldsTexts mem text) (hnul : ∀ b t, text b = some t → 0 ∉ t) :
    HoldsTexts (putTexts mem text') text ↔
      ∀ b t t', text b = some t → text' b = some t' → t <+: t' := by
  constructor
  · intro hafter b t t' ht ht'
    have hbyte (i : ℕ) (hi : i < t.length) : (t' ++ [0])[i]?.getD (mem b i) = t[i] := by
      rw [← hafter b t ht i hi, putTexts, ht', Option.elim_some, Buffer.store_zero_apply]
    -- the NUL behind the new text is not inside the old one
    have hlen : t.length ≤ t'.length := by
      by_contra hlt
      have hi : t'.length < t.length := not_le.mp hlt
      have hzero := hbyte t'.length hi
      rw [List.getElem?_concat_length, Option.getD_some] at hzero
      exact hnul b t ht (hzero ▸ List.getElem_mem hi)
    refine List.prefix_iff_getElem.mpr ⟨hlen, fun i hi => ?_⟩
    have hi' : i < t'.length := hi.trans_le hlen
    rw [← hbyte i hi, List.getElem?_append_left hi', List.getElem?_eq_getElem hi',
      Option.getD_some]
  · intro hprefix b t ht i hi
    cases ht' : text' b with
    | none =>
      rw [putTexts, ht', Option.elim_none]
      exact hmem b t ht i hi
    | some t' =>
      obtain ⟨rest, rfl⟩ := hprefix b t t' ht ht'
      rw [putTexts, ht', Option.elim_some,
        Buffer.store_text_apply _ _ (hi.trans_le (List.length_append ▸ Nat.le_add_right _ _)),
        List.getElem_append_left hi]

/-! ### The texts of responses -/

theorem bodyEntry_of_length {response : S3Response} {b : Scratch} {t : List UInt8}
    (hbody : response.body = some (.scratch b))
    (hlength : response.bodyLength = UInt32.ofNat t.length) (hpos : 0 < t.length)
    (hlt : t.length < 2 ^ 32) :
    response.bodyEntry = some ⟨.scratch b, t.length⟩ := by
  have hnat : (UInt32.ofNat t.length).toNat = t.length := UInt32.toNat_ofNat_of_lt' hlt
  have hpositive : 0 < UInt32.ofNat t.length := by
    rw [UInt32.lt_iff_toNat_lt, hnat]
    exact hpos
  rw [S3Response.bodyEntry, hbody, hlength, Option.bind_some, if_pos hpositive, hnat]

theorem length_listDocument_pos (bucket : CharArray 255) : 0 < (listDocument bucket).length := by
  simp only [listDocument, listPieces, listHead, List.flatten_cons, List.length_append,
    length_literal, String.reduceToList, List.length_cons]
  omega

theorem nul_notMem_errorDocument (code message : CString) : 0 ∉ errorDocument code message := by
  simp +decide only [errorDocument, List.mem_append, code.nul_free, message.nul_free, or_false]

theorem nul_notMem_listDocument (bucket : CharArray 255) : 0 ∉ listDocument bucket := by
  simp +decide only [listDocument, listPieces, listHead, List.flatten_cons, List.mem_append,
    bucket.nul_free, or_false]

/-- Numbers whose `Content-Length` is the beginning of another one are the same. -/
theorem eq_of_isPrefix_contentLength {m n : ℕ}
    (h : literal "Content-Length: " ++ decimal m ++ literal "\r\n" <+:
      literal "Content-Length: " ++ decimal n ++ literal "\r\n") : m = n := by
  have hdigits (n : ℕ) : 13 ∉ decimal n := fun h =>
    absurd (isDigitByte_of_mem_decimal h) (by decide)
  obtain ⟨rest, hrest⟩ := h
  simp only [List.append_assoc] at hrest
  exact decimal_injective (append_cons_inj_of_notMem (hdigits m) (hdigits n)
    (List.append_cancel_left hrest)).1

namespace Outcome

/-- How requests are answered: with an error, with a list, or with one of four responses that have
no text for the body. -/
theorem response_cases (outcome : Outcome) :
    (∃ error, outcome.error = some error ∧ outcome.response = error.response ∧
      outcome.bodyText .responseBuffer = none) ∨
    (∃ bucket, outcome.bodyText .responseBuffer = some (listDocument bucket) ∧
      outcome.response = listResponse bucket ∧ outcome.error = none) ∨
    (outcome.bodyText .responseBuffer = none ∧ outcome.error = none ∧
      (outcome.response = s3HandlerPut .zero ∨ outcome.response = s3HandlerGet .zero ∨
        outcome.response = { s3HandlerGet .zero with body := none, bodyLength := 0 } ∨
        outcome.response = s3HandlerDelete .zero)) := by
  have herror {o : Outcome} {error : S3Error} (hbuild : o.response =
      (fillErrorResponse (fun _ _ => 0) error).2) : o.response = error.response := by
    rw [hbuild, fillErrorResponse_eq]
  cases outcome with
  | badSyntax => exact .inl ⟨_, rfl, herror rfl, rfl⟩
  | badRoute => exact .inl ⟨_, rfl, herror rfl, rfl⟩
  | badSignature => exact .inl ⟨_, rfl, herror rfl, rfl⟩
  | routed request =>
    rcases request with
      ⟨bucket, key, operation, contentLength, contentType, authorization, host, date⟩
    cases operation with
    | putObject => exact .inr (.inr ⟨rfl, rfl, .inl rfl⟩)
    | getObject => exact .inr (.inr ⟨rfl, rfl, .inr (.inl rfl)⟩)
    | headObject => exact .inr (.inr ⟨rfl, rfl, .inr (.inr (.inl rfl))⟩)
    | deleteObject => exact .inr (.inr ⟨rfl, rfl, .inr (.inr (.inr rfl))⟩)
    | listObjects =>
      refine .inr (.inl ⟨bucket, rfl, ?_, rfl⟩)
      rw [response, buildResponse]
      dsimp only
      rw [s3HandlerList_eq]
    | putBucket => exact .inl ⟨_, rfl, herror rfl, rfl⟩
    | deleteBucket => exact .inl ⟨_, rfl, herror rfl, rfl⟩
    | unknown => exact .inl ⟨_, rfl, herror rfl, rfl⟩

/-- A text for the body is an error document or a list. -/
theorem bodyText_cases {outcome : Outcome} {b : Scratch} {t : List UInt8}
    (h : outcome.bodyText b = some t) :
    (b = .errBuf ∧ ∃ error, outcome.error = some error ∧
      errorDocument error.code error.message = t) ∨ b = .responseBuffer := by
  cases b with
  | errBuf => exact .inl ⟨rfl, Option.map_eq_some_iff.mp h⟩
  | responseBuffer => exact .inr rfl
  | _ => cases h

/-- A text for the body is the body. -/
theorem bodyEntry_of_bodyText {outcome : Outcome} {b : Scratch} {t : List UInt8}
    (h : outcome.bodyText b = some t) :
    outcome.response.bodyEntry = some ⟨.scratch b, t.length⟩ := by
  obtain ⟨rfl, error, herror, rfl⟩ | rfl := bodyText_cases h
  · obtain ⟨_, herror', hresponse, -⟩ | ⟨_, -, -, hnone⟩ | ⟨-, hnone, -⟩ := outcome.response_cases
    · obtain rfl := Option.some.inj (herror.symm.trans herror')
      rw [hresponse]
      exact bodyEntry_of_length rfl rfl (length_errorDocument_pos _ _)
        (error.fits.trans (by decide))
    · cases hnone.symm.trans herror
    · cases hnone.symm.trans herror
  · obtain ⟨_, -, -, hnone⟩ | ⟨bucket, hlist, hresponse, -⟩ | ⟨hnone, -, -⟩ :=
      outcome.response_cases
    · cases hnone.symm.trans h
    · obtain rfl := Option.some.inj (hlist.symm.trans h)
      rw [hresponse]
      exact bodyEntry_of_length rfl rfl (length_listDocument_pos bucket)
        ((length_listDocument_lt bucket).trans (by decide))
    · cases hnone.symm.trans h

/-- A text is the body or a header. -/
theorem text_cases {outcome : Outcome} {b : Scratch} {t : List UInt8}
    (h : outcome.text b = some t) :
    outcome.response.text b = some t ∨ outcome.bodyText b = some t := by
  rw [text, Option.or_eq_some_iff] at h
  exact h.imp_right And.right

/-- Every text that a response is formatted with is covered by an `iovec`. -/
theorem mem_iovecs_of_text {outcome : Outcome} {b : Scratch} {t : List UInt8}
    (h : outcome.text b = some t) (keepAlive : Bool) :
    ⟨.scratch b, t.length⟩ ∈ outcome.response.iovecs keepAlive := by
  simp only [S3Response.iovecs, List.mem_append]
  rcases text_cases h with htext | hbody
  · cases b with
    | ctBuf =>
      have htype : outcome.response.contentTypeText = some t := htext
      refine .inl (.inl (.inl (.inl (.inl (.inr ?_)))))
      rw [S3Response.contentTypeEntries, htype]
      exact List.mem_singleton_self _
    | etagBuf =>
      refine .inl (.inl (.inl (.inl (.inr ?_))))
      exact List.mem_map.mpr ⟨t, Option.mem_toList.mpr htext, rfl⟩
    | clBuf =>
      refine .inl (.inl (.inl (.inr ?_)))
      exact List.mem_map.mpr ⟨t, Option.mem_toList.mpr htext, rfl⟩
    | errBuf => cases htext
    | responseBuffer => cases htext
  · exact .inr (Option.mem_toList.mpr (bodyEntry_of_bodyText hbody))

/-- The header `Content-Length` of a response with a text for the body. -/
theorem text_clBuf_of_bodyText {outcome : Outcome} {b : Scratch} {t : List UInt8}
    (h : outcome.bodyText b = some t) :
    outcome.text .clBuf =
      some (literal "Content-Length: " ++ decimal t.length ++ literal "\r\n") := by
  have hentry := bodyEntry_of_bodyText h
  refine text_of_response_text ?_
  change outcome.response.contentLengthText = _
  rw [S3Response.contentLengthText, hentry, Option.map_some,
    ← (S3Response.bodyEntry_eq_some hentry).2]

/-- The types of bodies. -/
theorem contentTypeText_cases {outcome : Outcome} {t : List UInt8}
    (h : outcome.response.contentTypeText = some t) :
    t = literal "Content-Type: application/xml\r\n" ∨
      t = literal "Content-Type: binary/octet-stream\r\n" := by
  obtain ⟨error, -, hresponse, -⟩ | ⟨bucket, -, hresponse, -⟩ |
    ⟨-, -, hresponse | hresponse | hresponse | hresponse⟩ := outcome.response_cases
  all_goals rw [hresponse] at h
  · exact .inl (Option.some.inj h).symm
  · exact .inl (Option.some.inj h).symm
  · exact .inl (Option.some.inj h).symm
  · exact .inr (Option.some.inj h).symm
  · exact .inr (Option.some.inj h).symm
  · cases h

/-- Only a stored object has an `ETag`, which is always the same. -/
theorem etagText_eq {outcome : Outcome} {t : List UInt8}
    (h : outcome.response.etagText = some t) : (s3HandlerPut .zero).etagText = some t := by
  obtain ⟨error, -, hresponse, -⟩ | ⟨bucket, -, hresponse, -⟩ |
    ⟨-, -, hresponse | hresponse | hresponse | hresponse⟩ := outcome.response_cases
  all_goals rw [hresponse] at h
  · cases h
  · cases h
  · exact h
  · cases h
  · cases h
  · cases h

/-- No text has a NUL. -/
theorem nul_notMem_text {outcome : Outcome} {b : Scratch} {t : List UInt8}
    (h : outcome.text b = some t) : 0 ∉ t := by
  rcases text_cases h with htext | hbody
  · cases b with
    | ctBuf => rcases contentTypeText_cases htext with rfl | rfl <;> decide
    | etagBuf =>
      rw [S3Response.text, S3Response.etagText] at htext
      split_ifs at htext
      obtain rfl := Option.some.inj htext
      simp +decide only [List.mem_append, outcome.response.etag.nul_free, or_false]
    | clBuf =>
      obtain ⟨_, -, rfl⟩ := Option.map_eq_some_iff.mp htext
      simp +decide only [List.mem_append, nul_notMem_decimal, or_false]
    | errBuf => cases htext
    | responseBuffer => cases htext
  · obtain ⟨rfl, error, -, rfl⟩ | rfl := bodyText_cases hbody
    · exact nul_notMem_errorDocument error.code error.message
    · obtain ⟨_, -, -, hnone⟩ | ⟨bucket, hlist, -, -⟩ | ⟨hnone, -, -⟩ := outcome.response_cases
      · cases hnone.symm.trans hbody
      · obtain rfl := Option.some.inj (hlist.symm.trans hbody)
        exact nul_notMem_listDocument bucket
      · cases hnone.symm.trans hbody

/-- If the texts of a response are beginnings of those of another one in all buffers that they
share, they are the same: documents of different lengths have different headers
`Content-Length`. -/
theorem text_eq_of_prefix {outcome outcome' : Outcome}
    (h : ∀ b t t', outcome.text b = some t → outcome'.text b = some t' → t <+: t') {b : Scratch}
    {t t' : List UInt8} (ht : outcome.text b = some t) (ht' : outcome'.text b = some t') :
    t = t' := by
  have hprefix := h b t t' ht ht'
  rcases text_cases ht with htext | hbody
  · cases b with
    | ctBuf =>
      have htext' := (text_cases ht').resolve_right (by rintro ⟨⟩)
      rcases contentTypeText_cases htext with rfl | rfl <;>
        rcases contentTypeText_cases htext' with rfl | rfl
      · rfl
      · exact absurd hprefix (by decide)
      · exact absurd hprefix (by decide)
      · rfl
    | etagBuf =>
      have htext' := (text_cases ht').resolve_right (by rintro ⟨⟩)
      exact Option.some.inj ((etagText_eq htext).symm.trans (etagText_eq htext'))
    | clBuf =>
      have htext' := (text_cases ht').resolve_right (by rintro ⟨⟩)
      obtain ⟨_, -, rfl⟩ := Option.map_eq_some_iff.mp htext
      obtain ⟨_, -, rfl⟩ := Option.map_eq_some_iff.mp htext'
      rw [eq_of_isPrefix_contentLength hprefix]
    | errBuf => cases htext
    | responseBuffer => cases htext
  · have hbody' : outcome'.bodyText b = some t' := by
      refine (text_cases ht').resolve_left fun htext' => ?_
      obtain ⟨rfl, -⟩ | rfl := bodyText_cases hbody <;> cases htext'
    have hlength := h .clBuf _ _ (text_clBuf_of_bodyText hbody) (text_clBuf_of_bodyText hbody')
    exact hprefix.eq_of_length (eq_of_isPrefix_contentLength hlength)

end Outcome

/-! ### Responses and the static buffers -/

/-- The addresses of a response in the static buffers are those of its texts. -/
theorem scratch_mem_addresses_iff {outcome : Outcome} {keepAlive : Bool} {b : Scratch} {i : ℕ} :
    (.scratch b, i) ∈ (outcome.response.iovecs keepAlive).flatMap Iovec.addresses ↔
      ∃ t, outcome.text b = some t ∧ i < t.length := by
  rw [List.mem_flatMap]
  constructor
  · rintro ⟨entry, hentry, ha⟩
    obtain ⟨i, hi, heq⟩ := List.mem_map.mp ha
    obtain ⟨hbase, rfl⟩ := Prod.mk.inj heq
    obtain ⟨t, ht, hlen⟩ := Outcome.text_of_mem_iovecs hentry hbase
    exact ⟨t, ht, hlen ▸ List.mem_range.mp hi⟩
  · rintro ⟨t, ht, hi⟩
    exact ⟨_, Outcome.mem_iovecs_of_text ht keepAlive, List.mem_map_of_mem (List.mem_range.mpr hi)⟩

/-- The memory has the same bytes at the addresses of a response as another one that has its texts,
if and only if it has its texts, too. -/
theorem map_loadAt_eq_iff {mem mem' : ScratchMemory} {outcome : Outcome} {keepAlive : Bool}
    (hmem : HoldsTexts mem outcome.text) :
    ((outcome.response.iovecs keepAlive).flatMap Iovec.addresses).map (loadAt mem) =
        ((outcome.response.iovecs keepAlive).flatMap Iovec.addresses).map (loadAt mem') ↔
      HoldsTexts mem' outcome.text := by
  rw [List.map_inj_left]
  constructor
  · intro h b t ht i hi
    rw [← hmem b t ht i hi]
    exact (h _ (scratch_mem_addresses_iff.mpr ⟨t, ht, hi⟩)).symm
  · rintro h ⟨bytes | b, i⟩ ha
    · rfl
    · obtain ⟨t, ht, hi⟩ := scratch_mem_addresses_iff.mp ha
      exact (hmem b t ht i hi).trans (h b t ht i hi).symm

theorem serialized_eq (s : Submission) :
    serialized s = if s.allocated then
      some (((s.outcome.response.iovecs (s.outcome.keepAlive s.keepAlive)).flatMap
        Iovec.addresses).map (loadAt (putTexts (fun _ _ => 0) s.outcome.text))) else none := by
  rw [serialized, produce_eq]
  dsimp only
  split_ifs <;> rfl

/-- A response is right at the moment when it is made. -/
theorem map_loadAt_produce (mem : ScratchMemory) (s : Submission) :
    (s.produce mem).2.map (·.map (loadAt (s.produce mem).1)) = serialized s := by
  rw [serialized_eq, produce_eq]
  dsimp only
  split_ifs
  · exact congrArg some ((map_loadAt_eq_iff (holdsTexts_putTexts _ _)).mpr
      (holdsTexts_putTexts _ _))
  · rfl

/-- Another response keeps the bytes of one that waits if and only if it has the same texts in the
buffers that they share. -/
theorem serialized_keeps_iff {mem₀ mem : ScratchMemory} {waiting response : Submission}
    {addresses : List Address} (hwaiting : (waiting.produce mem₀).2 = some addresses)
    (hintact : serialized waiting = some (addresses.map (loadAt mem))) :
    serialized waiting = some (addresses.map (loadAt (response.produce mem).1)) ↔
      waiting.Keeps response := by
  rw [produce_eq] at hwaiting
  dsimp only at hwaiting
  split_ifs at hwaiting with hallocated
  obtain rfl := Option.some.inj hwaiting
  have hzero := holdsTexts_putTexts (fun _ _ => 0) waiting.outcome.text
  rw [serialized_eq, if_pos hallocated, Option.some.injEq, map_loadAt_eq_iff hzero] at hintact
  rw [serialized_eq, if_pos hallocated, Option.some.injEq, map_loadAt_eq_iff hzero, produce_eq,
    holdsTexts_putTexts_iff hintact fun _ _ => Outcome.nul_notMem_text]
  constructor
  · intro hprefix b t t' ht ht'
    exact Outcome.text_eq_of_prefix hprefix ht ht'
  · intro hkeeps b t t' ht ht'
    rw [hkeeps b t t' ht ht']

theorem produces_submission :
    Produces loadAt Submission.produce serialized Submission.Keeps where
  bytes_eq := map_loadAt_produce
  keeps_iff := serialized_keeps_iff

/-- **Responses in flight.** For every sequence of responses and of writes that complete or fail,
and whatever the socket layer reads at whatever time in between, each connection is sent the bytes
that its own responses serialize to, if and only if every response that is made while the write of
another one is not complete has the same text as that one in each static buffer in which both are
formatted. -/
theorem responses_intact_iff (mem : ScratchMemory) (events : List (WriteEvent ℕ Submission)) :
    (∀ steps, eventsOf steps = events →
        responseMachine.results (quiet mem) steps =
          (copyMachine serialized).results (fun _ => none) steps) ↔
      (inFlightMachine Submission.allocated).Meets (Compatible Submission.Keeps) (fun _ => none)
        events := by
  have hwritten (s : Submission) : s.allocated = (serialized s).isSome := by
    rw [serialized_eq]
    cases s.allocated <;> rfl
  exact results_eq_iff_compatible produces_submission hwritten (fun _ => .idle) events

/-- A request for an operation. -/
def requestOf (operation : S3Operation) : S3Request :=
  ⟨.empty, .empty, operation, 0, .empty, .empty, .empty, .empty⟩

/-- Connection 1 is answered with an object and waits for its socket, connection 2 stores an object.
Then connection 1 is sent the content type `application/xml`, not `binary/octet-stream`. -/
theorem response_overwritten :
    let steps : List (WriteStep ℕ Submission) :=
      [.event (.submit 1 ⟨.routed (requestOf .getObject), true, true⟩),
        .event (.submit 2 ⟨.routed (requestOf .putObject), true, true⟩), .transmit 1 33]
    (responseMachine.results (quiet fun _ _ => 0) steps).flatten[32]? = some 97 ∧
    ((copyMachine serialized).results (fun _ => none) steps).flatten[32]? = some 98 := by
  decide +kernel

end LightFS.Access
