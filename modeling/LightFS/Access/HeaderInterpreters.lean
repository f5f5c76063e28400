import LightFS.Access.HeaderTable
import LightFS.Access.Routes

/-!
# Two readings of the headers

The headers of a request are read twice. `on_message_complete` compares names without case and reads
the content length with `strtoull`; `s3_route_parse` reads the same table again, compares names with
case and reads the content length with `atoll`, and its results replace the others. In both the
last header that names a field wins (`get_readHeaders`, `get_routeHeaders`).

The readings agree if the last header with the exact name has the value of the last header with the
name in any case, and if a content length is in the range of `long long`
(`interpreters_agree_iff`). Both cut a value to 256 bytes, and the signature is validated on what is
left: `sigv4_validate` only searches texts in it, and the verdict is that on the whole value unless
one of them is cut off (`verdict_of_cut_value_iff`).

## Main definitions

* `headerStrings`, `S3Field.routeName`, `RouteNames`, `lastHeader`.
* `SigV4Result`, `sigv4Validate` — `src/access/sigv4.c`.

## Main results

* `interpreters_agree_iff`, `verdict_of_cut_value_iff`.
-/

namespace LightFS.Access

open Library

variable {L : Llhttp}

/-! ### The last header -/

/-- The last header that meets a condition. -/
def lastHeader (p : HeaderSlot → Prop) [DecidablePred p] (headers : List HeaderSlot) :
    Option HeaderSlot :=
  headers.reverse.find? fun header => p header

/-- A loop that replaces a value at the headers that meet a condition leaves that of the last
one. -/
theorem foldl_lastHeader {σ β : Type} (get : σ → β) {step : σ → HeaderSlot → σ}
    (p : HeaderSlot → Prop) [DecidablePred p] (value : HeaderSlot → β)
    (h : ∀ s header, get (step s header) = if p header then value header else get s) (s : σ)
    (headers : List HeaderSlot) :
    get (headers.foldl step s) = ((lastHeader p headers).map value).getD (get s) := by
  induction headers generalizing s with
  | nil => rfl
  | cons header headers ih =>
    rw [List.foldl_cons, ih, h, lastHeader, lastHeader, List.reverse_cons, List.find?_append]
    cases headers.reverse.find? fun header => p header with
    | some last => rfl
    | none =>
      rw [List.find?_singleton]
      split_ifs <;> simp_all

theorem lastHeader_eq_some {p : HeaderSlot → Prop} [DecidablePred p] {headers : List HeaderSlot}
    {header : HeaderSlot} (h : lastHeader p headers = some header) :
    header ∈ headers ∧ p header := by
  have hp := List.find?_some h
  exact ⟨List.mem_reverse.mp (List.mem_of_find?_eq_some h), of_decide_eq_true hp⟩

theorem exists_lastHeader {p : HeaderSlot → Prop} [DecidablePred p] {headers : List HeaderSlot}
    {header : HeaderSlot} (hmem : header ∈ headers) (hp : p header) :
    ∃ last, lastHeader p headers = some last :=
  Option.isSome_iff_exists.mp
    (List.find?_isSome.mpr ⟨header, List.mem_reverse.mpr hmem, decide_eq_true hp⟩)

/-! ### The two readings -/

/-- The strings of a header table, as `header_ptrs` points to them. -/
def headerStrings (headers : List HeaderSlot) : List (CString × CString) :=
  headers.map fun header => (header.1.toCString, header.2.toCString)

/-- The header that `s3_route_parse` reads a field from. -/
def S3Field.routeName : S3Field → CString
  | .contentLength => .ofString "Content-Length"
  | .contentType => .ofString "Content-Type"
  | .authorization => .ofString "Authorization"
  | .host => .ofString "Host"
  | .date => .ofString "x-amz-date"

/-- A header names a field for `s3_route_parse`. -/
def RouteNames (field : S3Field) (header : HeaderSlot) : Prop :=
  strcmp header.1.bytes field.routeName.bytes = .eq

instance (field : S3Field) : DecidablePred (RouteNames field) := fun header =>
  inferInstanceAs (Decidable (strcmp header.1.bytes field.routeName.bytes = .eq))

instance (field : S3Field) : DecidablePred (HeaderNames · field) := fun header =>
  inferInstanceAs (Decidable (HeaderNames header field))

theorem RouteNames.unique {header : HeaderSlot} {field field' : S3Field}
    (h : RouteNames field header) (h' : RouteNames field' header) : field = field' := by
  have heq : field.routeName.bytes = field'.routeName.bytes :=
    ((strcmp_eq_eq_iff _ _).mp h).symm.trans ((strcmp_eq_eq_iff _ _).mp h')
  revert heq
  cases field <;> cases field' <;> decide

/-- A name that is compared with case is also found without. -/
theorem RouteNames.headerNames {header : HeaderSlot} {field : S3Field}
    (h : RouteNames field header) : HeaderNames header field := by
  have hname : header.1.bytes = field.routeName.bytes := (strcmp_eq_eq_iff _ _).mp h
  rw [HeaderNames, strcasecmpEq, hname]
  cases field <;> decide

/-- The value of a field for a header, read by `s3_route_parse`. -/
def S3Field.routeRead (value : CharArray s3MaxHeaderLength) (field : S3Field) :
    UInt64 ⊕ CharArray s3MaxHeaderLength :=
  field.choose (UInt64.ofInt (atoll value.toCString)) value

theorem S3Field.read_eq (value : CharArray s3MaxHeaderLength) (field : S3Field) :
    field.read value = field.choose (strtoull value.toCString) value := by
  cases field with
  | contentLength => rfl
  | _ => exact congrArg Sum.inr (CharArray.strncpy_toCString value)

theorem get_readHeaders (s3 : S3Request) (headers : List HeaderSlot) (field : S3Field) :
    (readHeaders s3 headers).get field =
      ((lastHeader (HeaderNames · field) headers).map fun header => field.read header.2).getD
        (s3.get field) :=
  foldl_lastHeader (S3Request.get · field) (HeaderNames · field) (fun header => field.read header.2)
    (fun s3 header => get_readHeader s3 header field) s3 headers

theorem get_routeHeader (s3 : S3Request) (header : HeaderSlot) (field : S3Field) :
    (routeHeader s3 header.1.toCString header.2.toCString).get field =
      if RouteNames field header then field.routeRead header.2 else s3.get field := by
  have hset : routeHeader s3 header.1.toCString header.2.toCString =
      s3.setFirst (RouteNames · header) (UInt64.ofInt (atoll header.2.toCString))
        (.strncpy header.2.toCString) := rfl
  rw [hset, s3.get_setFirst RouteNames.unique, CharArray.strncpy_toCString]
  rfl

theorem get_routeHeaders (s3 : S3Request) (headers : List HeaderSlot) (field : S3Field) :
    (routeHeaders s3 (headerStrings headers)).get field =
      ((lastHeader (RouteNames field) headers).map fun header => field.routeRead header.2).getD
        (s3.get field) := by
  rw [routeHeaders, headerStrings, List.foldl_map]
  exact foldl_lastHeader (S3Request.get · field) (RouteNames field)
    (fun header => field.routeRead header.2) (fun s3 header => get_routeHeader s3 header field) s3
    headers

theorem get_parsePathStyle (uri : CString) (request : S3Request) (field : S3Field) :
    (parsePathStyle uri request).1.get field = request.get field := by
  by_cases h : uri.bytes.head? = some 47
  · rw [parsePathStyle_eq h]
    split_ifs <;> cases field <;> rfl
  · rw [parsePathStyle, if_pos h]

/-- What `s3_route_parse` leaves in a field. -/
theorem get_s3RouteParse (method uri : CString) (headers : List HeaderSlot) (request : S3Request)
    (field : S3Field) :
    (s3RouteParse method uri (headerStrings headers) request).1.get field =
      if IsRouted method uri then
        ((lastHeader (RouteNames field) headers).map fun header => field.routeRead header.2).getD
          (request.get field)
      else request.get field := by
  split_ifs with hrouted
  · rw [s3RouteParse_of_isRouted hrouted, get_routeHeaders]
    congr 1
  · have hfails :=
      mt (s3RouteParse_succeeds_iff method uri (headerStrings headers) request).mp hrouted
    have hpath :=
      get_parsePathStyle uri { request with operation := methodToOperation method } field
    rw [s3RouteParse] at hfails ⊢
    dsimp only at hfails ⊢
    split_ifs at hfails ⊢ with hmethod
    · cases field <;> rfl
    · rcases hparse : parsePathStyle uri { request with operation := methodToOperation method }
        with ⟨parsed, _ | _⟩ <;> rw [hparse] at hfails hpath
      · refine hpath.trans ?_
        cases field <;> rfl
      · exact absurd rfl hfails

/-! ### Agreement -/

/-- Two values mean the same for a field: the first is read by `s3_route_parse`, the second by
`on_message_complete`. A text is the same text; a content length is the same number, when one is cut
to the range of `long long` and the other to that of `unsigned long long`. -/
def S3Field.SameMeaning (value value' : CharArray s3MaxHeaderLength) : S3Field → Prop
  | .contentLength =>
    max (-2 ^ 63) (min (parsedNumber value.toCString) (2 ^ 63 - 1)) % 2 ^ 64 =
      (if 2 ^ 64 ≤ (parsedNumber value'.toCString).natAbs then 2 ^ 64 - 1
        else parsedNumber value'.toCString) % 2 ^ 64
  | _ => value = value'

theorem S3Field.routeRead_eq_read_iff (value value' : CharArray s3MaxHeaderLength)
    (field : S3Field) :
    field.routeRead value = field.read value' ↔ field.SameMeaning value value' := by
  rw [read_eq, routeRead]
  cases field with
  | contentLength =>
    rw [choose, choose, Sum.inl.injEq, strtoull_eq, ofInt_eq_ofInt_iff]
    rfl
  | _ => exact Sum.inr.injEq value value' ▸ Iff.rfl

/-- One value means the same to both exactly when a content length is a `long long`. -/
theorem S3Field.sameMeaning_self_iff (value : CharArray s3MaxHeaderLength) (field : S3Field) :
    field.SameMeaning value value ↔ field = .contentLength →
      -2 ^ 63 ≤ parsedNumber value.toCString ∧ parsedNumber value.toCString < 2 ^ 63 := by
  rw [← routeRead_eq_read_iff, read_eq, routeRead]
  cases field with
  | contentLength =>
    rw [choose, choose, Sum.inl.injEq, ofInt_atoll_eq_strtoull_iff]
    simp
  | _ => simp [choose]

/-- **Do the two readings agree?** After `on_message_complete`, `s3_route_parse` leaves the fields
that were read from the headers as they are if and only if it fails, or for every field the last
header that has its exact name means the same as the last header that has its name in any case. -/
theorem interpreters_agree_iff (ctx : HttpParserCtx L) (method uri : CString) :
    let request := (onMessageComplete ctx).request.s3
    let headers := (onMessageComplete ctx).headers
    (∀ field, (s3RouteParse method uri (headerStrings headers) request).1.get field =
      request.get field) ↔
    ¬ IsRouted method uri ∨
      ∀ field header header', lastHeader (RouteNames field) headers = some header →
        lastHeader (HeaderNames · field) headers = some header' →
          field.SameMeaning header.2 header'.2 := by
  intro request headers
  have hrequest : request = readHeaders ctx.request.s3 headers := rfl
  by_cases hrouted : IsRouted method uri
  · rw [or_iff_right (not_not.mpr hrouted)]
    refine forall_congr' fun field => ?_
    rw [get_s3RouteParse, if_pos hrouted, hrequest, get_readHeaders]
    rcases hlast : lastHeader (RouteNames field) headers with _ | header
    · simp
    · obtain ⟨hmem, hname⟩ := lastHeader_eq_some hlast
      obtain ⟨header', hlast'⟩ :=
        exists_lastHeader (p := (HeaderNames · field)) hmem hname.headerNames
      rw [hlast']
      refine (field.routeRead_eq_read_iff header.2 header'.2).trans ⟨?_, fun h => h _ _ rfl rfl⟩
      rintro hsame _ _ ⟨⟩ ⟨⟩
      exact hsame
  · refine iff_of_true (fun field => ?_) (.inl hrouted)
    rw [get_s3RouteParse, if_neg hrouted]

/-- Two headers that differ in case: the later one is parsed, the earlier one is routed. And a
content length of `2 ^ 63` is routed as `2 ^ 63 - 1`. -/
theorem interpreters_disagree :
    let lengths := fun headers =>
      (deliver (httpParserInit silentLlhttp 100) (plainGet headers).events).map fun (ctx, _) =>
        (ctx.request.s3.contentLength, (s3RouteParse ctx.request.method.toCString
          ctx.request.uri.toCString (headerStrings ctx.headers) ctx.request.s3).1.contentLength)
    lengths [plainHeader "Content-Length" "5", plainHeader "content-length" "7"] = some (7, 5) ∧
      lengths [plainHeader "Content-Length" "9223372036854775808"] =
        some (9223372036854775808, 9223372036854775807) := by
  decide

/-! ### The signature -/

/-- `sigv4_result_t`. -/
inductive SigV4Result where
  | ok
  | missingHeader
  | invalidCredential
  | invalidSignature
  | expired
  | internal
deriving DecidableEq

/-- The text `AWS4-HMAC-SHA256`. -/
def sigv4Algorithm : CString := .ofString "AWS4-HMAC-SHA256"

/-- `CREDENTIAL_PREFIX`. -/
def credentialPrefix : CString := .ofString "AWS4-HMAC-SHA256 Credential="

/-- The text `Signature=`. -/
def signatureText : CString := .ofString "Signature="

/-- `sigv4_validate`, which only looks at the authorization. -/
def sigv4Validate (authHeader : CString) : SigV4Result :=
  if ¬ strncmpEq authHeader sigv4Algorithm 16 then .invalidCredential
  else if (strstr authHeader.bytes credentialPrefix.bytes).isNone then .invalidCredential
  else if (strstr authHeader.bytes signatureText.bytes).isNone then .missingHeader
  else .ok

theorem sigv4Validate_eq (value : CString) :
    sigv4Validate value =
      if sigv4Algorithm.bytes <+: value.bytes ∧ credentialPrefix.bytes <:+: value.bytes then
        if signatureText.bytes <:+: value.bytes then .ok else .missingHeader
      else .invalidCredential := by
  have halgorithm : strncmpEq value sigv4Algorithm 16 = true ↔
      sigv4Algorithm.bytes <+: value.bytes := strncmpEq_length_iff value sigv4Algorithm
  simp only [sigv4Validate, halgorithm, ← Option.not_isSome, Bool.not_eq_true', ← Bool.not_eq_true,
    isSome_strstr_iff]
  split_ifs <;> simp_all

/-- The verdict on a value that is cut. -/
theorem sigv4Validate_cut_iff {value cut : CString} {n : ℕ} (hcut : cut.bytes = value.bytes.take n)
    (hn : 16 ≤ n) :
    sigv4Validate cut = sigv4Validate value ↔
      ¬ sigv4Algorithm.bytes <+: value.bytes ∨ ¬ credentialPrefix.bytes <:+: value.bytes ∨
        credentialPrefix.bytes <:+: value.bytes.take n ∧
          (signatureText.bytes <:+: value.bytes → signatureText.bytes <:+: value.bytes.take n) := by
  have htake : value.bytes.take n <+: value.bytes := List.take_prefix n _
  have halgorithm : sigv4Algorithm.bytes <+: value.bytes.take n ↔
      sigv4Algorithm.bytes <+: value.bytes := by
    rw [List.prefix_take_iff]
    exact and_iff_left hn
  have hcredential : credentialPrefix.bytes <:+: value.bytes.take n →
      credentialPrefix.bytes <:+: value.bytes := fun h => h.trans htake.isInfix
  have hsignature : signatureText.bytes <:+: value.bytes.take n →
      signatureText.bytes <:+: value.bytes := fun h => h.trans htake.isInfix
  rw [sigv4Validate_eq, sigv4Validate_eq, hcut]
  simp only [halgorithm]
  by_cases ha : sigv4Algorithm.bytes <+: value.bytes
  · by_cases hc : credentialPrefix.bytes <:+: value.bytes.take n
    · by_cases hs : signatureText.bytes <:+: value.bytes.take n
      · simp [ha, hc, hcredential hc, hs, hsignature hs]
      · simp [ha, hc, hcredential hc, hs]
    · by_cases hc' : credentialPrefix.bytes <:+: value.bytes
      · -- the credential is found in the whole value only
        simp only [ha, hc, hc', and_true, and_false, if_true, if_false]
        split_ifs <;> simp
      · simp [ha, hc, hc']
  · simp [ha]

namespace HeaderField

/-- The whole value of a header. -/
def valueString (h : HeaderField) : CString where
  bytes := h.value
  nul_free hzero := by
    obtain ⟨piece, -, hmem⟩ := List.mem_flatMap.mp hzero
    exact piece.nul_free hmem

theorem headerNames_slot {h : HeaderField} {field : S3Field}
    (hname : strcasecmpEq h.name field.header = true) : HeaderNames h.callbacks.slot field := by
  have hlower : h.name.bytes.map toLower = field.header.bytes.map toLower := of_decide_eq_true hname
  have hlength : h.name.bytes.length ≤ s3MaxHeaderLength := by
    have hlengths := congrArg List.length hlower
    rw [List.length_map, List.length_map] at hlengths
    rw [hlengths]
    cases field <;> decide
  rw [HeaderNames, strcasecmpEq, h.name_slot, List.take_of_length_le hlength]
  exact hname

end HeaderField

/-- A header among the first 64 is in the table. -/
theorem slot_mem_headers {ctx ctx' : HttpParserCtx L} {r : RequestCallbacks}
    {before after : List HeaderCallbacks} {h : HeaderCallbacks}
    (hheaders : r.headers = before ++ h :: after) (hbefore : before.length < httpMaxHeaders)
    (hdeliver : deliver ctx r.events = some (ctx', true)) : h.slot ∈ ctx'.headers := by
  have hslot : r.slots[before.length]? = some (some h.slot) := by
    have hwritten : (writtenSlots r.headers)[before.length]? = some (some h.slot) := by
      rw [writtenSlots, hheaders, List.getElem?_map, List.getElem?_append_right le_rfl]
      simp
    rw [RequestCallbacks.slots, List.getElem?_take_of_lt hbefore]
    rw [List.getElem?_append_left (List.getElem?_eq_some_iff.mp hwritten).1, hwritten]
  rw [(headers_deliver hdeliver).1]
  refine List.mem_iff_getElem?.mpr ⟨before.length, ?_⟩
  rw [List.getElem?_mapIdx, hslot]
  rfl

/-- The authorization that a request is dispatched with, when all headers for it are the same. -/
theorem authorization_of_slot {ctx ctx' : HttpParserCtx L} {r : RequestCallbacks}
    (hdeliver : deliver ctx r.events = some (ctx', true)) {slot : HeaderSlot}
    (hmem : slot ∈ ctx'.headers) (hname : HeaderNames slot .authorization)
    (honly : ∀ header ∈ ctx'.headers, HeaderNames header .authorization → header = slot)
    (method uri : CString) :
    (s3RouteParse method uri (headerStrings ctx'.headers) ctx'.request.s3).1.authorization =
      slot.2 := by
  have hany : lastHeader (HeaderNames · .authorization) ctx'.headers = some slot := by
    obtain ⟨header, hlast⟩ := exists_lastHeader (p := (HeaderNames · .authorization)) hmem hname
    obtain ⟨hheader, hnamed⟩ := lastHeader_eq_some hlast
    rw [hlast, honly header hheader hnamed]
  have hread : ctx'.request.s3.get .authorization = .inr slot.2 := by
    rw [(headers_deliver hdeliver).2, get_readHeaders, hany]
    exact congrArg Sum.inr (CharArray.strncpy_toCString slot.2)
  refine Sum.inr.inj ((get_s3RouteParse method uri ctx'.headers ctx'.request.s3
    .authorization).trans ?_)
  split_ifs
  · rcases hlast : lastHeader (RouteNames .authorization) ctx'.headers with _ | header
    · exact hread
    · obtain ⟨hheader, hnamed⟩ := lastHeader_eq_some hlast
      rw [honly header hheader hnamed.headerNames]
      rfl
  · exact hread

/-- **The verdict on a value that is cut.** A request with one header for the authorization, its
name in any case and its value in any spans: `sigv4_validate` says of the authorization that is left
in the request what it says of the whole value if and only if the value does not begin with the
algorithm or has no credential, or the credential is among its first 256 bytes, and so is the
signature, if there is one. -/
theorem verdict_of_cut_value_iff {ctx ctx' : HttpParserCtx L} {r : RequestCallbacks}
    {before after : List HeaderCallbacks} {auth : HeaderField}
    (hheaders : r.headers = before ++ auth.callbacks :: after)
    (hbefore : before.length < httpMaxHeaders)
    (hname : strcasecmpEq auth.name (.ofString "authorization") = true)
    (hdeliver : deliver ctx r.events = some (ctx', true))
    (honly : ∀ header ∈ ctx'.headers, HeaderNames header .authorization →
      header = auth.callbacks.slot) :
    sigv4Validate (s3RouteParse ctx'.request.method.toCString ctx'.request.uri.toCString
        (headerStrings ctx'.headers) ctx'.request.s3).1.authorization.toCString =
      sigv4Validate auth.valueString ↔
    ¬ sigv4Algorithm.bytes <+: auth.value ∨ ¬ credentialPrefix.bytes <:+: auth.value ∨
      credentialPrefix.bytes <:+: auth.value.take s3MaxHeaderLength ∧
        (signatureText.bytes <:+: auth.value →
          signatureText.bytes <:+: auth.value.take s3MaxHeaderLength) := by
  rw [authorization_of_slot hdeliver (slot_mem_headers hheaders hbefore hdeliver)
    (HeaderField.headerNames_slot hname) honly]
  exact @sigv4Validate_cut_iff auth.valueString _ _ auth.value_slot (by decide)

/-- The header of a signed request, with a credential of some length. -/
def signedHeader (name : String) (length : ℕ) : HeaderField where
  name := .ofString name
  valuePieces := [credentialPrefix, .ofMemory (List.replicate length 97), .ofString ", Signature=s"]
  value_ne := List.cons_ne_nil _ _

/-- A signature that is not cut. -/
theorem verdict_of_cut_value_iff_short :
    let auth := signedHeader "authorization" 1
    ∃ ctx', deliver (httpParserInit silentLlhttp 100) (plainGet [auth.callbacks]).events =
        some (ctx', true) ∧
      sigv4Validate (s3RouteParse ctx'.request.method.toCString ctx'.request.uri.toCString
        (headerStrings ctx'.headers) ctx'.request.s3).1.authorization.toCString =
          sigv4Validate auth.valueString := by
  intro auth
  have hdeliver : deliver (httpParserInit silentLlhttp 100) (plainGet [auth.callbacks]).events =
    some (_, true) := rfl
  have hheaders : (plainGet [auth.callbacks]).headers = [] ++ auth.callbacks :: [] := rfl
  refine ⟨_, hdeliver, (verdict_of_cut_value_iff hheaders ?_ ?_ hdeliver ?_).mpr ?_⟩
  · decide
  · decide
  · intro header hheader _
    exact List.mem_singleton.mp hheader
  · exact .inr (.inr (by decide))

/-- A credential that is so long that the signature is cut off: the whole value is accepted, and
what is left of it is not. -/
theorem signature_cut_off :
    let auth := signedHeader "Authorization" 230
    sigv4Validate auth.valueString = .ok ∧
    (deliver (httpParserInit silentLlhttp 100) (plainGet [auth.callbacks]).events).map
      (fun (ctx, _) => sigv4Validate (s3RouteParse ctx.request.method.toCString
        ctx.request.uri.toCString (headerStrings ctx.headers)
          ctx.request.s3).1.authorization.toCString) = some .missingHeader := by
  decide +kernel

end LightFS.Access
