import Mathlib.Data.List.ReduceOption
import Mathlib.Data.Nat.Log
import LightFS.Access.RequestIsolation

/-!
# Spans of a request

llhttp ends a span where the buffer it is given ends, so the URI, a name, a value or the body of a
request may reach the callbacks in any number of consecutive spans. This file compares the request
that is collected from them with the one that is collected when each part comes in one span.

`on_header_value` and `on_body` append, `on_url` and `on_header_field` start over with every span:
of a URI and of a name only the last span is kept. The body buffer grows by doubling, so its
capacity after some bytes does not depend on how they came (`settledCapacity`), with one exception:
a buffer of `2 ^ 31` bytes is doubled to a capacity of zero, and the loop does not end. Both are in
the exact condition `spans_reassembled_iff`.

## Main definitions

* `HeaderCallbacks.whole`, `RequestCallbacks.whole` — the same parts in one span each.
* `RequestCallbacks.table` — the headers and trailers that are written to the header table.
* `BodyStalls` — a span for which the loop of `on_body` does not end.
* `RequestCallbacks.WithinLimits`.

## Main results

* `foldl_appendValue` — the value that is collected from spans.
* `deliver_bodySpans` — the body that is collected from spans.
* `spans_reassembled_iff`.
-/

namespace LightFS.Access

open Library

variable {L : Llhttp}

/-! ### The same request in one span each -/

/-- The header with its name and its value in one span each. -/
def HeaderCallbacks.whole (h : HeaderCallbacks) : HeaderCallbacks where
  namePieces := [h.namePieces.flatten]
  name_ne := List.cons_ne_nil _ _
  valuePieces := [h.valuePieces.flatten]
  value_ne := List.cons_ne_nil _ _

namespace RequestCallbacks

/-- The spans of the body. -/
def bodySpans (r : RequestCallbacks) : List (List UInt8) := r.body.reduceOption

/-- The request with its URI, each name, each value and its body in one span each. -/
def whole (r : RequestCallbacks) : RequestCallbacks :=
  { r with
    urlPieces := [r.urlPieces.flatten]
    headers := r.headers.map HeaderCallbacks.whole
    body := if r.bodySpans = [] then [] else [some r.bodySpans.flatten]
    trailers := r.trailers.map HeaderCallbacks.whole }

/-- The headers and trailers in the slots of the table they are written to, `none` for the slot
that is skipped. The last trailer is written, but not counted. -/
def table (r : RequestCallbacks) : List (Option HeaderCallbacks) :=
  (r.headers.map some ++ ((if r.headers = [] then [] else [none]) ++ r.trailers.map some)).take
    httpMaxHeaders

theorem bodySpans_whole (r : RequestCallbacks) :
    r.whole.bodySpans = if r.bodySpans = [] then [] else [r.bodySpans.flatten] := by
  rw [bodySpans, whole]
  split_ifs <;> rfl

theorem table_whole (r : RequestCallbacks) :
    r.whole.table = r.table.map (Option.map HeaderCallbacks.whole) := by
  rw [table, table, List.map_take, List.map_append, List.map_append, List.map_map, List.map_map,
    apply_ite (List.map _)]
  simp only [whole, List.map_eq_nil_iff, List.map_map]
  rfl

end RequestCallbacks

/-! ### Names and values -/

/-- The length that is copied does not show: a span ends where it ends. -/
theorem take_copyLen (data : List UInt8) (room : ℕ) :
    data.take (if data.length < room then data.length else room) = data.take room := by
  split_ifs with hlt
  · rw [List.take_length, List.take_of_length_le hlt.le]
  · rfl

/-- A span is appended as far as the slot has room. -/
theorem bytes_appendValue (value : CharArray s3MaxHeaderLength) {data : List UInt8}
    (hnul : 0 ∉ data) :
    (appendValue value data).bytes = (value.bytes ++ data).take s3MaxHeaderLength := by
  have hlength : value.length = value.bytes.length := rfl
  have hfree : 0 ∉ value.bytes ++ data.take (s3MaxHeaderLength - value.bytes.length) := by
    rw [List.mem_append, not_or]
    exact ⟨value.nul_free, fun h => hnul (List.mem_of_mem_take h)⟩
  rw [appendValue, take_copyLen, hlength]
  change (CString.ofMemory _).bytes.take _ = _
  rw [CString.bytes_ofMemory hfree, List.take_append, List.take_append, List.take_take, min_self]

theorem bytes_copyName {data : List UInt8} (hnul : 0 ∉ data) :
    (copyName data).bytes = data.take s3MaxHeaderLength :=
  bytes_appendValue .empty hnul

/-- **A value in spans.** What is collected is the concatenation of the spans, cut to the slot. -/
theorem foldl_appendValue (value : CharArray s3MaxHeaderLength) {pieces : List (List UInt8)}
    (hnul : ∀ piece ∈ pieces, 0 ∉ piece) :
    (pieces.foldl appendValue value).bytes =
      (value.bytes ++ pieces.flatten).take s3MaxHeaderLength := by
  induction pieces generalizing value with
  | nil =>
    rw [List.foldl_nil, List.flatten_nil, List.append_nil, List.take_of_length_le value.length_le]
  | cons piece pieces ih =>
    rw [List.foldl_cons, ih _ fun p hp => hnul p (List.mem_cons_of_mem _ hp),
      bytes_appendValue value (hnul piece List.mem_cons_self), List.flatten_cons,
      ← List.append_assoc]
    -- what was cut from the first spans stays cut
    generalize value.bytes ++ piece = l
    rw [List.take_append, List.take_append, List.take_take, min_self, List.length_take]
    congr 2
    omega

theorem flatten_eq_append_getLast {pieces : List (List UInt8)} (hne : pieces ≠ []) :
    pieces.flatten = pieces.dropLast.flatten ++ pieces.getLast hne := by
  conv_lhs => rw [← List.dropLast_append_getLast hne]
  rw [List.flatten_append, List.flatten_singleton]

/-- The last span is everything exactly when the others are empty. -/
theorem getLast_eq_flatten_iff {pieces : List (List UInt8)} (hne : pieces ≠ []) :
    pieces.getLast hne = pieces.flatten ↔ ∀ piece ∈ pieces.dropLast, piece = [] := by
  rw [flatten_eq_append_getLast hne, eq_comm, List.append_left_eq_self, List.flatten_eq_nil_iff]

theorem length_getLast_le {pieces : List (List UInt8)} (hne : pieces ≠ []) :
    (pieces.getLast hne).length ≤ pieces.flatten.length := by
  rw [flatten_eq_append_getLast hne, List.length_append]
  exact Nat.le_add_left _ _

theorem not_mem_flatten {pieces : List (List UInt8)} (h : ∀ piece ∈ pieces, 0 ∉ piece) :
    0 ∉ pieces.flatten := by
  intro hzero
  obtain ⟨piece, hpiece, hmem⟩ := List.mem_flatten.mp hzero
  exact h piece hpiece hmem

namespace HeaderCallbacks

/-- The spans of a header hold no NUL, which is not allowed in a header. -/
structure NulFree (h : HeaderCallbacks) : Prop where
  name : ∀ piece ∈ h.namePieces, 0 ∉ piece
  value : ∀ piece ∈ h.valuePieces, 0 ∉ piece

theorem value_slot_whole {h : HeaderCallbacks} (hnul : h.NulFree) :
    h.whole.slot.2 = h.slot.2 := by
  ext1
  have hflat := not_mem_flatten hnul.value
  refine Eq.trans ?_ (foldl_appendValue .empty hnul.value).symm
  exact bytes_appendValue .empty hflat

/-- What the table keeps of a header is what it keeps of the whole header, if and only if the name
comes in one span, up to empty ones. -/
theorem slot_eq_slot_whole_iff {h : HeaderCallbacks} (hnul : h.NulFree)
    (hname : h.namePieces.flatten.length ≤ s3MaxHeaderLength) :
    h.slot = h.whole.slot ↔ ∀ piece ∈ h.namePieces.dropLast, piece = [] := by
  have hlast := hnul.name _ (List.getLast_mem h.name_ne)
  have hlastLength : (h.namePieces.getLast h.name_ne).length ≤ s3MaxHeaderLength :=
    (length_getLast_le h.name_ne).trans hname
  rw [← getLast_eq_flatten_iff h.name_ne, Prod.ext_iff, value_slot_whole hnul,
    and_iff_left rfl, CharArray.ext_iff]
  have hkept : h.slot.1.bytes = h.namePieces.getLast h.name_ne := by
    rw [slot, bytes_copyName hlast, List.take_of_length_le hlastLength]
  have hwhole : h.whole.slot.1.bytes = h.namePieces.flatten := by
    rw [slot]
    exact (bytes_copyName (not_mem_flatten hnul.name)).trans (List.take_of_length_le hname)
  rw [hkept, hwhole]

end HeaderCallbacks

/-! ### The URI -/

/-- The URI `on_url` copies from a span. -/
def copyUri (data : List UInt8) : CharArray (httpMaxUri - 1) :=
  .strncpy (.ofMemory (data.take
    (if data.length < httpMaxUri - 1 then data.length else httpMaxUri - 1)))

/-- The URI that is left of some spans: that of the last one. -/
def keptUri (pieces : List (List UInt8)) : CharArray (httpMaxUri - 1) :=
  (pieces.getLast?.map copyUri).getD .empty

theorem bytes_copyUri {data : List UInt8} (hnul : 0 ∉ data) (hle : data.length ≤ httpMaxUri - 1) :
    (copyUri data).bytes = data := by
  rw [copyUri, take_copyLen, List.take_of_length_le hle]
  change (CString.ofMemory _).bytes.take _ = _
  rw [CString.bytes_ofMemory hnul, List.take_of_length_le hle]

theorem keptUri_eq_iff {pieces : List (List UInt8)} (hnul : ∀ piece ∈ pieces, 0 ∉ piece)
    (hle : pieces.flatten.length ≤ httpMaxUri - 1) :
    keptUri pieces = keptUri [pieces.flatten] ↔ ∀ piece ∈ pieces.dropLast, piece = [] := by
  have hwhole : (keptUri [pieces.flatten]).bytes = pieces.flatten :=
    bytes_copyUri (not_mem_flatten hnul) hle
  rw [CharArray.ext_iff, hwhole]
  by_cases hne : pieces = []
  · subst hne
    simp [keptUri, CharArray.empty]
  · have hkept : (keptUri pieces).bytes = pieces.getLast hne := by
      rw [keptUri, List.getLast?_eq_some_getLast hne]
      exact bytes_copyUri (hnul _ (List.getLast_mem hne)) ((length_getLast_le hne).trans hle)
    rw [hkept, getLast_eq_flatten_iff hne]

theorem foldl_onUrl (ctx : HttpParserCtx L) (pieces : List (List UInt8)) :
    pieces.foldl onUrl ctx =
      { ctx with request :=
          { ctx.request with uri := (pieces.getLast?.map copyUri).getD ctx.request.uri } } := by
  induction pieces generalizing ctx with
  | nil => rfl
  | cons piece pieces ih =>
    rw [List.foldl_cons, ih, List.getLast?_cons]
    cases pieces.getLast? <;> rfl

/-! ### The body -/

/-- The exponent of the least power of two from the default capacity on that holds some bytes. -/
def bodyExponent (received : ℕ) : ℕ := max 16 (Nat.clog 2 received)

/-- The capacity of a body buffer that received some bytes. A buffer that was allocated for a
content length of less than the default has that size; any other has the least power of two that
is large enough, as a `uint32_t`. -/
def settledCapacity (contentLength : UInt64) (received : ℕ) : ℕ :=
  if 0 < contentLength ∧ contentLength.toNat < httpDefaultBodyBuf then contentLength.toNat
  else 2 ^ bodyExponent received % 2 ^ 32

/-- The spans that follow the bytes received so far contain one for which a buffer of `2 ^ 31`
bytes is too small: its capacity, doubled, is zero, and the loop of `on_body` does not end. -/
def BodyStalls : ℕ → List (List UInt8) → Prop
  | _, [] => False
  | received, span :: spans =>
    (2 ^ 30 < received ∧ received ≤ 2 ^ 31 ∧ 2 ^ 31 < received + span.length) ∨
      BodyStalls (received + span.length) spans

instance decidableBodyStalls :
    (received : ℕ) → (spans : List (List UInt8)) → Decidable (BodyStalls received spans)
  | _, [] => inferInstanceAs (Decidable False)
  | received, span :: spans =>
    have := decidableBodyStalls (received + span.length) spans
    inferInstanceAs (Decidable (_ ∨ _))

section BodyExponent

variable {received needed : ℕ}

theorem le_two_pow_bodyExponent (received : ℕ) : received ≤ 2 ^ bodyExponent received :=
  (Nat.clog_le_iff_le_pow Nat.one_lt_two).mp (le_max_right _ _)

theorem two_pow_lt_of_lt_bodyExponent {i : ℕ} (hi : i < bodyExponent received) (hle : 16 ≤ i) :
    2 ^ i < received := by
  rw [bodyExponent] at hi
  exact Nat.pow_lt_of_lt_clog (by omega)

theorem bodyExponent_le {k : ℕ} (hle : received ≤ 2 ^ k) (hk : 16 ≤ k) :
    bodyExponent received ≤ k :=
  max_le hk (Nat.clog_le_of_le_pow hle)

theorem bodyExponent_mono (h : received ≤ needed) : bodyExponent received ≤ bodyExponent needed :=
  bodyExponent_le (h.trans (le_two_pow_bodyExponent needed)) (le_max_left _ _)

/-- The loop, started at a power of two, ends at the least one that is large enough. -/
theorem growCapacity_two_pow {needed a b fuel : ℕ} (hab : a ≤ b) (hb : b < 64)
    (hneeded : needed ≤ 2 ^ b) (hleast : ∀ i < b, a ≤ i → 2 ^ i < needed) (hfuel : b - a < fuel) :
    growCapacity needed fuel (2 ^ a) = some (2 ^ b) := by
  induction fuel generalizing a with
  | zero => exact absurd hfuel (Nat.not_lt_zero _)
  | succ fuel ih =>
    rw [growCapacity]
    rcases Nat.eq_or_lt_of_le hab with rfl | hlt
    · rw [if_pos hneeded]
    · have hdouble : 2 ^ a * 2 % 2 ^ 64 = 2 ^ (a + 1) := by
        rw [← Nat.pow_succ]
        exact Nat.mod_eq_of_lt (Nat.pow_lt_pow_right (by omega) (by omega))
      rw [if_neg (Nat.not_le.mpr (hleast a hlt le_rfl)), hdouble]
      exact ih hlt (fun i hi hai => hleast i hi (by omega)) (by omega)

theorem growCapacity_zero {needed : ℕ} (hneeded : 0 < needed) (fuel : ℕ) :
    growCapacity needed fuel 0 = none := by
  induction fuel with
  | zero => rfl
  | succ fuel ih =>
    rw [growCapacity, if_neg (by omega), Nat.zero_mul, Nat.zero_mod, ih]

theorem growCapacity_bodyExponent {a : ℕ} (ha : 16 ≤ a) (hle : a ≤ bodyExponent needed)
    (hneeded : needed < 2 ^ 32) :
    growCapacity needed 65 (2 ^ a) = some (2 ^ bodyExponent needed) := by
  have hb : bodyExponent needed ≤ 32 := bodyExponent_le hneeded.le (by omega)
  exact growCapacity_two_pow hle (by omega) (le_two_pow_bodyExponent needed)
    (fun i hi hai => two_pow_lt_of_lt_bodyExponent hi (ha.trans hai)) (by omega)

/-- The capacity for the first span, when there is no buffer, or one whose capacity is zero. -/
theorem bodyCapacityFor_of_zero {request : HttpRequest} (hcapacity : request.bodyCapacity = 0)
    (hgrow : request.body = none ∨ 0 < needed) (hneeded : needed < 2 ^ 32) :
    bodyCapacityFor request needed = some (2 ^ bodyExponent needed % 2 ^ 32) := by
  have hdefault : httpDefaultBodyBuf = 2 ^ 16 := rfl
  rw [bodyCapacityFor, hcapacity, if_pos hgrow, if_neg (not_not.mpr rfl), hdefault,
    growCapacity_bodyExponent le_rfl (le_max_left _ _) hneeded]
  rfl

/-- The capacity for a further span: it depends on the bytes received in all, except that a full
buffer of `2 ^ 31` bytes is never enlarged. -/
theorem bodyCapacityFor_of_two_pow {request : HttpRequest} (hbody : request.body ≠ none)
    (hcapacity : request.bodyCapacity = 2 ^ bodyExponent received % 2 ^ 32)
    (hle : received ≤ needed) (hneeded : needed < 2 ^ 32) :
    bodyCapacityFor request needed =
      if 2 ^ 30 < received ∧ received ≤ 2 ^ 31 ∧ 2 ^ 31 < needed then none
      else some (2 ^ bodyExponent needed % 2 ^ 32) := by
  have hreceived := le_two_pow_bodyExponent received
  have hmono := bodyExponent_mono hle
  have hmin : 16 ≤ bodyExponent received := le_max_left _ _
  have hmax : bodyExponent needed ≤ 32 := bodyExponent_le hneeded.le (by omega)
  generalize ha : bodyExponent received = a at *
  rcases Nat.lt_or_ge 31 a with hwrapped | hsmall
  · -- the capacity is zero, and computed as for the first span
    obtain rfl : a = 32 := by omega
    have hlarge : 2 ^ 31 < received := two_pow_lt_of_lt_bodyExponent (by omega) (by omega)
    rw [if_neg (by omega)]
    exact bodyCapacityFor_of_zero hcapacity (.inr (by omega)) hneeded
  have hpow : 2 ^ a ≤ 2 ^ 31 := Nat.pow_le_pow_right (by omega) hsmall
  rw [Nat.mod_eq_of_lt (by omega)] at hcapacity
  rcases Nat.lt_or_ge (2 ^ a) needed with hgrow | henough
  · have hlt : a < bodyExponent needed := by
      by_contra hge
      have hneeded' := (le_two_pow_bodyExponent needed).trans
        (Nat.pow_le_pow_right (by omega) (Nat.not_lt.mp hge))
      omega
    have hne : 2 ^ a ≠ 0 := (Nat.two_pow_pos a).ne'
    rw [bodyCapacityFor, hcapacity, if_pos (.inr hgrow), if_pos hne, ← Nat.pow_succ]
    rcases Nat.eq_or_lt_of_le hsmall with rfl | hlt'
    · have hhalf : 2 ^ 30 < received := two_pow_lt_of_lt_bodyExponent (by omega) (by omega)
      rw [if_pos ⟨hhalf, hreceived, hgrow⟩, Nat.mod_self, growCapacity_zero (by omega)]
      rfl
    · have hhalf : 2 ^ a ≤ 2 ^ 30 := Nat.pow_le_pow_right (by omega) (by omega)
      have hdouble : 2 ^ (a + 1) < 2 ^ 32 := Nat.pow_lt_pow_right (by omega) (by omega)
      rw [if_neg (by omega), Nat.mod_eq_of_lt hdouble,
        growCapacity_bodyExponent (by omega) hlt hneeded]
      rfl
  · have hsame : bodyExponent needed = a :=
      Nat.le_antisymm (bodyExponent_le henough hmin) hmono
    rw [bodyCapacityFor, hcapacity, if_neg (not_or.mpr ⟨hbody, Nat.not_lt.mpr henough⟩),
      if_neg (by omega), hsame, Nat.mod_eq_of_lt (by omega)]

end BodyExponent

/-- The bytes that `settledCapacity` is right for: all of the body, if it has a content length. -/
theorem bodyCapacityFor_settled {contentLength : UInt64} {total received needed : ℕ}
    (hlength : contentLength = 0 ∨ contentLength.toNat = total) (htotal : total < 2 ^ 32)
    (request : HttpRequest) (hbody : request.body ≠ none)
    (hcapacity : request.bodyCapacity = settledCapacity contentLength received)
    (hle : received ≤ needed) (hneeded : needed ≤ total) :
    bodyCapacityFor request needed =
      if 2 ^ 30 < received ∧ received ≤ 2 ^ 31 ∧ 2 ^ 31 < needed then none
      else some (settledCapacity contentLength needed) := by
  rw [settledCapacity] at hcapacity ⊢
  by_cases hsmall : 0 < contentLength ∧ contentLength.toNat < httpDefaultBodyBuf
  · -- the buffer was allocated for the whole body
    have hpos : contentLength ≠ 0 := by
      rintro rfl
      exact absurd hsmall.1 (by decide)
    have hwhole := hlength.resolve_left hpos
    have hdefault : httpDefaultBodyBuf = 65536 := rfl
    rw [if_pos hsmall] at hcapacity ⊢
    rw [bodyCapacityFor, if_neg (not_or.mpr ⟨hbody, by omega⟩), if_neg (by omega), hcapacity]
  · rw [if_neg hsmall] at hcapacity ⊢
    exact bodyCapacityFor_of_two_pow hbody hcapacity hle (by omega)

/-- The context with a body buffer that received some bytes. -/
def storeBody (contentLength : UInt64) (ctx : HttpParserCtx L) (data : List UInt8) :
    HttpParserCtx L :=
  { ctx with
    request :=
      { ctx.request with
        body := some data
        bodyLen := data.length
        bodyCapacity := settledCapacity contentLength data.length } }

/-- The body buffer after `on_headers_complete`. -/
structure BodyOpened (contentLength : UInt64) (request : HttpRequest) : Prop where
  body_eq : request.body = if 0 < contentLength then some [] else none
  bodyLen_eq : request.bodyLen = 0
  capacity_eq : request.bodyCapacity =
    if 0 < contentLength then
      (if contentLength.toNat < httpDefaultBodyBuf then contentLength.toNat
      else httpDefaultBodyBuf)
    else 0

section Body

variable {contentLength : UInt64} {total : ℕ} {ctx : HttpParserCtx L}

theorem onBody_storeBody (hlength : contentLength = 0 ∨ contentLength.toNat = total)
    (hmax : total ≤ ctx.maxBodySize.toNat) {data span : List UInt8}
    (hle : data.length + span.length ≤ total) :
    onBody (storeBody contentLength ctx data) span =
      if 2 ^ 30 < data.length ∧ data.length ≤ 2 ^ 31 ∧ 2 ^ 31 < data.length + span.length then none
      else some (storeBody contentLength ctx (data ++ span), true) := by
  have hmaxLt : ctx.maxBodySize.toNat < 2 ^ 32 := ctx.maxBodySize.toNat_lt
  have hlimit : ¬ (0 < ctx.maxBodySize ∧ ctx.maxBodySize.toNat < data.length + span.length) :=
    fun h => absurd h.2 (by omega)
  have hcapacity := bodyCapacityFor_settled hlength (by omega)
    (storeBody contentLength ctx data).request (Option.some_ne_none _) rfl
    (Nat.le_add_right data.length span.length) hle
  refine (if_neg hlimit).trans ?_
  refine (congrArg (Option.map _) hcapacity).trans ?_
  split_ifs with hstalls
  · rfl
  · have hbody : data.take data.length ++ span = data ++ span := by rw [List.take_length]
    have hbodyLen : (data.length + span.length) % 2 ^ 32 = (data ++ span).length := by
      rw [List.length_append, Nat.mod_eq_of_lt (by omega)]
    simp only [Option.map_some, appendBody, storeBody, Option.getD_some, hbody, hbodyLen,
      List.length_append]

/-- The spans behind the bytes received so far. -/
theorem deliver_storeBody (hlength : contentLength = 0 ∨ contentLength.toNat = total)
    (hmax : total ≤ ctx.maxBodySize.toNat) {data : List UInt8} {spans : List (List UInt8)}
    (hle : data.length + spans.flatten.length ≤ total) :
    deliver (storeBody contentLength ctx data) (spans.map .body) =
      if BodyStalls data.length spans then none
      else some (storeBody contentLength ctx (data ++ spans.flatten), true) := by
  induction spans generalizing data with
  | nil =>
    rw [List.flatten_nil, List.append_nil, if_neg (show ¬ BodyStalls data.length [] from id)]
    rfl
  | cons span spans ih =>
    rw [List.flatten_cons, List.length_append] at hle
    rw [List.map_cons, deliver, callback, onBody_storeBody hlength hmax (by omega)]
    by_cases hstalls : 2 ^ 30 < data.length ∧ data.length ≤ 2 ^ 31 ∧
        2 ^ 31 < data.length + span.length
    · rw [if_pos hstalls, if_pos (.inl hstalls)]
    · have hnext := @ih (data ++ span) (by rw [List.length_append]; omega)
      rw [List.length_append, List.append_assoc] at hnext
      rw [if_neg hstalls, List.flatten_cons]
      refine hnext.trans (if_congr ?_ rfl rfl)
      exact (or_iff_right hstalls).symm

theorem storeBody_nil_of_opened (hopened : BodyOpened contentLength ctx.request)
    (hpos : 0 < contentLength) : storeBody contentLength ctx [] = ctx := by
  have hbody := hopened.body_eq
  have hcapacity := hopened.capacity_eq
  have hzero : 2 ^ bodyExponent 0 % 2 ^ 32 = httpDefaultBodyBuf := by
    rw [bodyExponent, Nat.clog_zero_right]
    rfl
  rw [if_pos hpos] at hbody hcapacity
  have hsettled : settledCapacity contentLength 0 = ctx.request.bodyCapacity := by
    rw [settledCapacity, hcapacity, hzero]
    simp only [hpos, true_and]
  rw [storeBody, List.length_nil, hsettled, ← hbody, ← hopened.bodyLen_eq]

/-- The first span of a body without a content length makes the buffer. -/
theorem onBody_of_opened (hopened : BodyOpened 0 ctx.request) {span : List UInt8}
    (hmax : span.length ≤ ctx.maxBodySize.toNat) :
    onBody ctx span = some (storeBody 0 ctx span, true) := by
  have hmaxLt : ctx.maxBodySize.toNat < 2 ^ 32 := ctx.maxBodySize.toNat_lt
  have hbody : ctx.request.body = none := hopened.body_eq
  have hcapacity : bodyCapacityFor ctx.request span.length = some (settledCapacity 0 span.length) :=
    bodyCapacityFor_of_zero hopened.capacity_eq (.inl hbody) (by omega)
  have hlimit : ¬ (0 < ctx.maxBodySize ∧ ctx.maxBodySize.toNat < span.length) :=
    fun h => absurd h.2 (by omega)
  have hbodyLen : span.length % 2 ^ 32 = span.length := Nat.mod_eq_of_lt (by omega)
  rw [onBody, hopened.bodyLen_eq, Nat.zero_add, if_neg hlimit, hcapacity, Option.map_some,
    appendBody, hbody, hopened.bodyLen_eq, Nat.zero_add, hbodyLen]
  rfl

/-- **A body in spans.** What is collected is the concatenation of the spans, in a buffer whose
capacity depends on its length only, unless the buffer cannot grow. -/
theorem deliver_bodySpans {spans : List (List UInt8)}
    (hopened : BodyOpened contentLength ctx.request)
    (hlength : contentLength = 0 ∨ contentLength.toNat = spans.flatten.length)
    (hmax : spans.flatten.length ≤ ctx.maxBodySize.toNat) :
    deliver ctx (spans.map .body) =
      if BodyStalls 0 spans then none
      else some (if spans = [] then ctx else storeBody contentLength ctx spans.flatten, true) := by
  cases spans with
  | nil => rfl
  | cons span spans =>
    rw [if_neg (List.cons_ne_nil _ _)]
    by_cases hpos : 0 < contentLength
    · rw [← storeBody_nil_of_opened hopened hpos]
      exact deliver_storeBody hlength hmax (by rw [List.length_nil, Nat.zero_add])
    · -- the first span makes the buffer
      rw [UInt64.lt_iff_toNat_lt] at hpos
      obtain rfl : contentLength = 0 := UInt64.toNat_inj.mp (by simpa using hpos)
      rw [List.flatten_cons, List.length_append] at hmax
      rw [List.map_cons, deliver, callback, onBody_of_opened hopened (by omega), List.flatten_cons]
      refine (deliver_storeBody (.inl rfl) hmax le_rfl).trans (if_congr ?_ rfl rfl)
      rw [BodyStalls, Nat.zero_add]
      exact (or_iff_right fun h => absurd h.1 (Nat.not_lt_zero _)).symm

end Body

/-! ### The request -/

theorem deliver_map_bodyEvent (ctx : HttpParserCtx L) (body : List (Option (List UInt8))) :
    deliver ctx (body.map RequestCallbacks.bodyEvent) =
      deliver ctx (body.reduceOption.map .body) := by
  induction body generalizing ctx with
  | nil => rfl
  | cons o body ih =>
    cases o with
    | none =>
      rw [List.reduceOption_cons_of_none, ← ih]
      rfl
    | some span =>
      rw [List.reduceOption_cons_of_some, List.map_cons, List.map_cons]
      simp only [RequestCallbacks.bodyEvent, deliver]
      rcases callback ctx (.body span) with _ | ⟨ctx', _ | _⟩
      · rfl
      · rfl
      · exact ih ctx'

/-- Headers leave the request and the limit alone. -/
theorem foldl_addHeader_keeps (ctx : HttpParserCtx L) (hs : List HeaderCallbacks) :
    (hs.foldl addHeader ctx).request = ctx.request ∧
      (hs.foldl addHeader ctx).maxBodySize = ctx.maxBodySize := by
  induction hs generalizing ctx with
  | nil => exact ⟨rfl, rfl⟩
  | cons h hs ih =>
    obtain ⟨hrequest, hmax⟩ := ih (addHeader ctx h)
    rw [List.foldl_cons, hrequest, hmax, addHeader]
    split_ifs <;> exact ⟨rfl, rfl⟩

theorem request_afterHeaders (ctx : HttpParserCtx L) (r : RequestCallbacks) :
    (afterHeaders ctx r).request =
      { (onMessageBegin ctx).request with uri := keptUri r.urlPieces } := by
  rw [afterHeaders, (foldl_addHeader_keeps _ _).1, foldl_onUrl]
  rfl

/-- The request at the end of the headers. -/
theorem request_onHeadersComplete (ctx : HttpParserCtx L) (r : RequestCallbacks) :
    (onHeadersComplete (afterHeaders ctx r) r.method r.keepAlive r.contentLength).request =
      { (onMessageBegin ctx).request with
        method := .strncpy r.method
        uri := keptUri r.urlPieces
        body := if 0 < r.contentLength then some [] else none
        bodyCapacity :=
          if 0 < r.contentLength then
            (if r.contentLength.toNat < httpDefaultBodyBuf then r.contentLength.toNat
            else httpDefaultBodyBuf)
          else 0
        keepAlive := r.keepAlive } := by
  unfold onHeadersComplete
  dsimp only
  rw [request_afterHeaders]
  split_ifs <;> rfl

theorem request_onMessageComplete (ctx : HttpParserCtx L) (trailers : List HeaderCallbacks) :
    (onMessageComplete (trailers.foldl addHeader ctx)).request =
      { ctx.request with
        s3 := (onMessageComplete (trailers.foldl addHeader ctx)).request.s3
        complete := true } := by
  rw [← (foldl_addHeader_keeps ctx trailers).1]
  rfl

theorem maxBodySize_afterHeaders (ctx : HttpParserCtx L) (r : RequestCallbacks) :
    (afterHeaders ctx r).maxBodySize = ctx.maxBodySize := by
  rw [afterHeaders, (foldl_addHeader_keeps _ _).2, foldl_onUrl]
  rfl

namespace RequestCallbacks

/-- The request that is collected, with the fields read from its headers. -/
def collected (r : RequestCallbacks) (s3 : S3Request) : HttpRequest where
  s3 := s3
  method := .strncpy r.method
  uri := keptUri r.urlPieces
  body := if r.bodySpans = [] then none else some r.bodySpans.flatten
  bodyLen := r.bodySpans.flatten.length
  bodyCapacity :=
    if r.bodySpans = [] then 0 else settledCapacity r.contentLength r.bodySpans.flatten.length
  complete := true
  keepAlive := r.keepAlive

/-- The body is within the limit of the connection. A request has no content length when its body
comes in chunks; otherwise llhttp hands over as many bytes as the content length says. -/
structure BodyWithin (r : RequestCallbacks) (maxBodySize : UInt32) : Prop where
  length_le : r.bodySpans.flatten.length ≤ maxBodySize.toNat
  contentLength_eq :
    r.contentLength = 0 ∨ r.contentLength.toNat = r.bodySpans.flatten.length

/-- The callbacks of a request complete it, unless the body buffer cannot grow. -/
theorem deliver_eq (ctx : HttpParserCtx L) {r : RequestCallbacks}
    (hr : r.BodyWithin ctx.maxBodySize) :
    if BodyStalls 0 r.bodySpans then deliver ctx r.events = none
    else ∃ ctx', deliver ctx r.events = some (ctx', true) ∧
      ctx'.request = r.collected ctx'.request.s3 := by
  have hrequest := request_onHeadersComplete ctx r
  have hopened : BodyOpened r.contentLength
      (onHeadersComplete (afterHeaders ctx r) r.method r.keepAlive r.contentLength).request := by
    rw [hrequest]
    exact ⟨rfl, rfl, rfl⟩
  have hbody := deliver_bodySpans hopened hr.contentLength_eq
    (hr.length_le.trans_eq (congrArg UInt32.toNat (maxBodySize_afterHeaders ctx r)).symm)
  rw [deliver_events, deliver_map_bodyEvent, ← bodySpans, hbody]
  split_ifs with hstalls hnil
  · rfl
  · -- without a body there is no content length, and no buffer
    have hzero : r.contentLength = 0 := by
      refine hr.contentLength_eq.elim id fun hlength => UInt64.toNat_inj.mp ?_
      rw [hlength, hnil]
      rfl
    refine ⟨_, rfl, ?_⟩
    rw [request_onMessageComplete, hrequest, hzero, collected, hnil]
    rfl
  · refine ⟨_, rfl, ?_⟩
    rw [request_onMessageComplete, storeBody, hrequest, collected, if_neg hnil, if_neg hnil]

theorem flatten_bodySpans_whole (r : RequestCallbacks) :
    r.whole.bodySpans.flatten = r.bodySpans.flatten := by
  rw [bodySpans_whole]
  split_ifs with hnil
  · rw [hnil]
  · rw [List.flatten_singleton]

theorem bodyWithin_whole {r : RequestCallbacks} {maxBodySize : UInt32}
    (hr : r.BodyWithin maxBodySize) : r.whole.BodyWithin maxBodySize where
  length_le := by
    rw [flatten_bodySpans_whole]
    exact hr.length_le
  contentLength_eq := by
    rw [flatten_bodySpans_whole]
    exact hr.contentLength_eq

theorem not_bodyStalls_whole (r : RequestCallbacks) : ¬ BodyStalls 0 r.whole.bodySpans := by
  rw [bodySpans_whole]
  split_ifs
  · exact id
  · exact not_or.mpr ⟨fun h => absurd h.1 (Nat.not_lt_zero _), id⟩

theorem collected_whole (r : RequestCallbacks) (s3 : S3Request) :
    r.whole.collected s3 = { r.collected s3 with uri := keptUri [r.urlPieces.flatten] } := by
  have hnil : r.whole.bodySpans = [] ↔ r.bodySpans = [] := by
    rw [bodySpans_whole]
    split_ifs with h <;> simp [h]
  simp only [collected, flatten_bodySpans_whole, hnil]
  rfl

theorem length_slots_whole (r : RequestCallbacks) : r.whole.slots.length = r.slots.length := by
  rw [slots, slots, List.length_take, List.length_take]
  simp only [whole, List.map_eq_nil_iff, writtenSlots, List.length_append, List.length_map]
  split_ifs <;> simp

end RequestCallbacks

theorem headerCount_deliver {ctx ctx' : HttpParserCtx L} {r : RequestCallbacks}
    (h : deliver ctx r.events = some (ctx', true)) : ctx'.headerCount = r.slots.length := by
  have hlength := congrArg List.length (headers_deliver h).1
  simpa [HttpParserCtx.headers] using hlength

/-- The header table after the callbacks of a request, with the slots that are not counted. -/
theorem filled_deliver {ctx ctx' : HttpParserCtx L} {r : RequestCallbacks}
    (h : deliver ctx r.events = some (ctx', true)) :
    Filled ctx ctx' (r.table.map (Option.map HeaderCallbacks.slot)) := by
  obtain ⟨ctx₁, hrecorded, -, rfl⟩ := exists_recorded_of_deliver h
  have hfilled := (hrecorded.addHeaders r.trailers).filled
  have htable : r.table.map (Option.map HeaderCallbacks.slot) =
      (((writtenSlots r.headers ++ if r.headers = [] then [] else [none]).take httpMaxHeaders) ++
        writtenSlots r.trailers).take httpMaxHeaders := by
    rw [take_append_take, RequestCallbacks.table, List.map_take, List.append_assoc, List.map_append,
      List.map_append, List.map_map, List.map_map, apply_ite (List.map _)]
    rfl
  rw [htable]
  exact hfilled

theorem filled_deliver_whole {ctx ctx' : HttpParserCtx L} {r : RequestCallbacks}
    (h : deliver ctx r.whole.events = some (ctx', true)) :
    Filled ctx ctx' (r.table.map (Option.map fun h => h.whole.slot)) := by
  have hfilled := filled_deliver h
  rw [r.table_whole, List.map_map, Option.map_comp_map] at hfilled
  exact hfilled

/-- Two tables that are filled with the same headers, read in two ways. -/
theorem headerSlot_eq_iff {ctx ctx₁ ctx₂ : HttpParserCtx L} {table : List (Option HeaderCallbacks)}
    {f g : HeaderCallbacks → HeaderSlot} (hf : Filled ctx ctx₁ (table.map (Option.map f)))
    (hg : Filled ctx ctx₂ (table.map (Option.map g))) :
    (∀ i, ctx₁.headerSlot i = ctx₂.headerSlot i) ↔ ∀ h, some h ∈ table → f h = g h := by
  constructor
  · intro hslots h hmem
    obtain ⟨i, hi⟩ := List.mem_iff_getElem?.mp hmem
    have hslot := hslots i
    rw [hf i, hg i, List.getElem?_map, List.getElem?_map, hi] at hslot
    exact hslot
  · intro hsame i
    rw [hf i, hg i, List.getElem?_map, List.getElem?_map]
    rcases hi : table[i]? with _ | _ | h
    · rfl
    · rfl
    · exact hsame h (List.mem_iff_getElem?.mpr ⟨i, hi⟩)

/-- Two contexts hold the same request and the same header table. -/
structure SameRequest (ctx ctx' : HttpParserCtx L) : Prop where
  request_eq : ctx.request = ctx'.request
  headerCount_eq : ctx.headerCount = ctx'.headerCount
  headerNames_eq : ctx.headerNames = ctx'.headerNames
  headerValues_eq : ctx.headerValues = ctx'.headerValues

/-- Two requests with equal callbacks up to spans are the same when their URIs and their header
tables are. -/
theorem sameRequest_whole_iff {ctx ctx₁ ctx₂ : HttpParserCtx L} {r : RequestCallbacks}
    (h₁ : deliver ctx r.events = some (ctx₁, true))
    (h₂ : deliver ctx r.whole.events = some (ctx₂, true))
    (hcollected₁ : ctx₁.request = r.collected ctx₁.request.s3)
    (hcollected₂ : ctx₂.request = r.whole.collected ctx₂.request.s3) :
    SameRequest ctx₁ ctx₂ ↔
      keptUri r.urlPieces = keptUri [r.urlPieces.flatten] ∧
        ∀ i, ctx₁.headerSlot i = ctx₂.headerSlot i := by
  rw [r.collected_whole] at hcollected₂
  constructor
  · intro hsame
    refine ⟨?_, fun i => ?_⟩
    · have huri := congrArg HttpRequest.uri hsame.request_eq
      rw [hcollected₁, hcollected₂] at huri
      exact huri
    · rw [HttpParserCtx.headerSlot, HttpParserCtx.headerSlot, hsame.headerNames_eq,
        hsame.headerValues_eq]
  · rintro ⟨huri, hslots⟩
    have hcount : ctx₁.headerCount = ctx₂.headerCount := by
      rw [headerCount_deliver h₁, headerCount_deliver h₂, r.length_slots_whole]
    have hheaders : ctx₁.headers = ctx₂.headers := by
      rw [HttpParserCtx.headers, HttpParserCtx.headers, hcount]
      exact List.map_congr_left fun i _ => hslots i
    have hs3 : ctx₁.request.s3 = ctx₂.request.s3 := by
      rw [(headers_deliver h₁).2, (headers_deliver h₂).2, hheaders]
    refine ⟨?_, hcount, ?_, ?_⟩
    · rw [hcollected₁, hcollected₂, hs3, ← huri]
      rfl
    · funext i
      exact congrArg Prod.fst (hslots i)
    · funext i
      exact congrArg Prod.snd (hslots i)

/-- The limits of a request: no part of its head holds a NUL, which HTTP does not allow, and the
URI, each name and the body fit. -/
structure RequestCallbacks.WithinLimits (r : RequestCallbacks) (maxBodySize : UInt32) : Prop
    extends r.BodyWithin maxBodySize where
  uri_nul_free : ∀ piece ∈ r.urlPieces, 0 ∉ piece
  uri_le : r.urlPieces.flatten.length ≤ httpMaxUri - 1
  header_nul_free : ∀ h ∈ r.headers ++ r.trailers, h.NulFree
  name_le : ∀ h ∈ r.headers ++ r.trailers, h.namePieces.flatten.length ≤ s3MaxHeaderLength

theorem RequestCallbacks.mem_of_mem_table {r : RequestCallbacks} {h : HeaderCallbacks}
    (hmem : some h ∈ r.table) : h ∈ r.headers ++ r.trailers := by
  rw [table] at hmem
  rcases List.mem_append.mp (List.mem_of_mem_take hmem) with hheader | hrest
  · exact List.mem_append_left _ (by simpa using hheader)
  · refine List.mem_append_right _ ?_
    split_ifs at hrest
    · simpa using hrest
    · simpa using hrest

/-- **Spans do not matter, except for names.** For the callbacks of a request within the limits, on
any context: the request is completed, with the request and the header table it leaves when each
part comes in one span, if and only if the URI and every name that is written to the table came in
one span, up to empty ones, and no span of the body finds a buffer of `2 ^ 31` bytes too small. -/
theorem spans_reassembled_iff (ctx : HttpParserCtx L) {r : RequestCallbacks}
    (hr : r.WithinLimits ctx.maxBodySize) :
    (∃ ctx₁ ctx₂, deliver ctx r.events = some (ctx₁, true) ∧
      deliver ctx r.whole.events = some (ctx₂, true) ∧ SameRequest ctx₁ ctx₂) ↔
    (∀ piece ∈ r.urlPieces.dropLast, piece = []) ∧
    (∀ h, some h ∈ r.table → ∀ piece ∈ h.namePieces.dropLast, piece = []) ∧
    ¬ BodyStalls 0 r.bodySpans := by
  have hsplit := r.deliver_eq ctx hr.toBodyWithin
  have hwhole := r.whole.deliver_eq ctx (r.bodyWithin_whole hr.toBodyWithin)
  rw [if_neg r.not_bodyStalls_whole] at hwhole
  obtain ⟨ctx₂, h₂, hcollected₂⟩ := hwhole
  by_cases hstalls : BodyStalls 0 r.bodySpans
  · rw [if_pos hstalls] at hsplit
    simp [hsplit, hstalls]
  · rw [if_neg hstalls] at hsplit
    obtain ⟨ctx₁, h₁, hcollected₁⟩ := hsplit
    have hunique : (∃ ctx₁ ctx₂, deliver ctx r.events = some (ctx₁, true) ∧
        deliver ctx r.whole.events = some (ctx₂, true) ∧ SameRequest ctx₁ ctx₂) ↔
          SameRequest ctx₁ ctx₂ := by
      simp [h₁, h₂]
    rw [hunique, sameRequest_whole_iff h₁ h₂ hcollected₁ hcollected₂,
      headerSlot_eq_iff (filled_deliver h₁) (filled_deliver_whole h₂),
      keptUri_eq_iff hr.uri_nul_free hr.uri_le, and_iff_left hstalls]
    refine and_congr_right fun _ => forall₂_congr fun h hmem => ?_
    have hheader := r.mem_of_mem_table hmem
    exact h.slot_eq_slot_whole_iff (hr.header_nul_free h hheader) (hr.name_le h hheader)

/-- A chunked request whose value and body come in two spans each. -/
def splitPut : RequestCallbacks where
  urlPieces := [[47]]
  headers :=
    [{ namePieces := [(CString.ofString "Host").bytes]
       name_ne := List.cons_ne_nil _ _
       valuePieces := [(CString.ofString "a").bytes, (CString.ofString "b").bytes]
       value_ne := List.cons_ne_nil _ _ }]
  method := .ofString "PUT"
  keepAlive := true
  contentLength := 0
  body := [some [1], none, some [2]]
  trailers := []

theorem withinLimits_splitPut : splitPut.WithinLimits 100 where
  length_le := by decide
  contentLength_eq := .inl rfl
  uri_nul_free := by decide
  uri_le := by decide
  header_nul_free h hmem := by
    obtain rfl := List.mem_singleton.mp hmem
    exact ⟨by decide, by decide⟩
  name_le h hmem := by
    obtain rfl := List.mem_singleton.mp hmem
    decide

/-- Spans of a value and of a body, on a fresh context. -/
theorem spans_reassembled_iff_split_value : ∃ ctx₁ ctx₂,
    deliver (httpParserInit silentLlhttp 100) splitPut.events = some (ctx₁, true) ∧
      deliver (httpParserInit silentLlhttp 100) splitPut.whole.events = some (ctx₂, true) ∧
        SameRequest ctx₁ ctx₂ := by
  refine (spans_reassembled_iff (httpParserInit silentLlhttp 100) withinLimits_splitPut).mpr
    ⟨by decide, ?_, by decide⟩
  intro h hmem
  obtain rfl := List.mem_singleton.mp (splitPut.mem_of_mem_table hmem)
  decide

/-- A request with a signature, whose name comes in two spans. -/
def splitAuthorization : RequestCallbacks :=
  plainGet [
    { namePieces := [(CString.ofString "Auth").bytes, (CString.ofString "orization").bytes]
      name_ne := List.cons_ne_nil _ _
      valuePieces := [(CString.ofString "A").bytes]
      value_ne := List.cons_ne_nil _ _ }]

/-- A request whose `Authorization` comes in two spans looks like one without a signature. -/
theorem split_authorization_lost : ∃ ctx₁ ctx₂,
    deliver (httpParserInit silentLlhttp 100) splitAuthorization.events = some (ctx₁, true) ∧
      deliver (httpParserInit silentLlhttp 100) splitAuthorization.whole.events =
        some (ctx₂, true) ∧
      ctx₁.request.s3.authorization = .empty ∧
      ctx₂.request.s3.authorization = .strncpy (.ofString "A") :=
  ⟨_, _, rfl, rfl, by decide, by decide⟩

end LightFS.Access
