import LightFS.Access.HttpServer
import LightFS.Access.SpanReassembly

/-!
# The body buffer

The body of a request is collected in a buffer whose capacity is a `uint32_t`. `on_headers_complete`
makes it from the content length, and `on_body` refuses what is beyond the limit of the connection
and doubles the capacity, partly in 32 and partly in 64 bits, until a span fits.

Up to `2 ^ 31` bytes no computation of the capacity wraps, and the buffer holds the spans received
so far (`body_accumulates`). The server also accepts larger limits. A longer body then either leaves
a capacity of zero for a buffer that is full of bytes, or the loop does not end: `2 ^ 31` bytes is
exactly what the buffer can hold for every content length (`growth_ends_iff`).

## Main definitions

* `openedBody`, `BodyHolds`, `CapacityWraps`.

## Main results

* `onBody_within`, `onBody_beyond` — one call of `on_body`.
* `deliver_within` — a run of calls.
* `body_accumulates`, `growth_ends_iff`.
-/

namespace LightFS.Access

open Library

variable {L : Llhttp}

/-- The context at the end of the headers of a request. -/
def openedBody (ctx : HttpParserCtx L) (r : RequestCallbacks) : HttpParserCtx L :=
  onHeadersComplete (afterHeaders ctx r) r.method r.keepAlive r.contentLength

/-- The buffer holds the bytes received so far. -/
structure BodyHolds (request : HttpRequest) (received : List UInt8) : Prop where
  bytes_eq : (request.body.getD []).take request.bodyLen = received
  bodyLen_eq : request.bodyLen = received.length
  bodyLen_le : request.bodyLen ≤ request.bodyCapacity

/-- A 32-bit computation of the capacity wraps in `on_body`, when room for some bytes is needed: the
old capacity is doubled to, or the new one is, more than a `uint32_t`. -/
def CapacityWraps (request : HttpRequest) (needed : ℕ) : Prop :=
  (request.body = none ∨ request.bodyCapacity < needed) ∧
    (2 ^ 32 ≤ request.bodyCapacity * 2 ∨
      ∃ c, growCapacity needed 65 (if request.bodyCapacity ≠ 0 then
        request.bodyCapacity * 2 % 2 ^ 32 else httpDefaultBodyBuf) = some c ∧ 2 ^ 32 ≤ c)

/-! ### One call -/

/-- The loop ends with a capacity that is large enough. -/
theorem le_of_growCapacity {needed fuel capacity c : ℕ}
    (h : growCapacity needed fuel capacity = some c) : needed ≤ c := by
  induction fuel generalizing capacity with
  | zero => cases h
  | succ fuel ih =>
    rw [growCapacity] at h
    split_ifs at h with henough
    · cases h
      exact henough
    · exact ih h

/-- Up to `2 ^ 31` bytes the capacity is found without a wrap. -/
theorem bodyCapacityFor_of_le {request : HttpRequest} (hroom : BodyRoom request) {needed : ℕ}
    (hneeded : needed ≤ 2 ^ 31) :
    ¬ CapacityWraps request needed ∧
      ∃ c < 2 ^ 32, needed ≤ c ∧ bodyCapacityFor request needed = some c := by
  by_cases hgrow : request.body = none ∨ request.bodyCapacity < needed
  · have hdouble : request.bodyCapacity * 2 < 2 ^ 32 := by
      rcases hgrow with hnone | hlt
      · rw [hroom.capacity_of_none hnone]
        omega
      · omega
    obtain ⟨c, hc, hgrown⟩ : ∃ c < 2 ^ 32, growCapacity needed 65
        (if request.bodyCapacity ≠ 0 then request.bodyCapacity * 2 % 2 ^ 32
          else httpDefaultBodyBuf) = some c := by
      have hdefault : httpDefaultBodyBuf = 65536 := rfl
      refine growCapacity_spec 64 hneeded ?_ ?_ <;> split_ifs <;> omega
    refine ⟨?_, c, hc, le_of_growCapacity hgrown, ?_⟩
    · rintro ⟨-, hwraps | ⟨c', hgrown', hlarge⟩⟩
      · omega
      · cases hgrown.symm.trans hgrown'
        omega
    · rw [bodyCapacityFor, if_pos hgrow, hgrown, Option.map_some, Nat.mod_eq_of_lt hc]
  · refine ⟨fun hwraps => hgrow hwraps.1, request.bodyCapacity, hroom.capacity_lt, ?_, ?_⟩
    · exact not_lt.mp fun hlt => hgrow (.inr hlt)
    · rw [bodyCapacityFor, if_neg hgrow]

section Call

variable {ctx : HttpParserCtx L} {received : List UInt8} (span : List UInt8)

/-- A span within the limit is appended. -/
theorem onBody_within (hroom : BodyRoom ctx.request) (hholds : BodyHolds ctx.request received)
    (hmax : received.length + span.length ≤ ctx.maxBodySize.toNat)
    (hlength : received.length + span.length ≤ 2 ^ 31) :
    ∃ ctx', onBody ctx span = some (ctx', true) ∧ BodyRoom ctx'.request ∧
      BodyHolds ctx'.request (received ++ span) ∧ ctx'.maxBodySize = ctx.maxBodySize := by
  have hbodyLen := hholds.bodyLen_eq
  obtain ⟨-, c, hc, henough, hcapacity⟩ := bodyCapacityFor_of_le hroom hlength
  have hlimit : ¬ (0 < ctx.maxBodySize ∧
      ctx.maxBodySize.toNat < ctx.request.bodyLen + span.length) := by
    rintro ⟨-, hlt⟩
    omega
  have hsmall : (ctx.request.bodyLen + span.length) % 2 ^ 32 = received.length + span.length := by
    rw [hbodyLen]
    exact Nat.mod_eq_of_lt (by omega)
  refine ⟨appendBody ctx span c, ?_, ⟨hc, nofun⟩, ⟨?_, ?_, ?_⟩, rfl⟩
  · rw [onBody, if_neg hlimit, hbodyLen, hcapacity]
    rfl
  · simp only [appendBody, Option.getD_some, hholds.bytes_eq, hsmall]
    rw [← List.length_append, List.take_length]
  · simp only [appendBody, hsmall, List.length_append]
  · simp only [appendBody, hsmall]
    exact henough

/-- A span beyond the limit is refused, and the request stays as it is. -/
theorem onBody_beyond (hholds : BodyHolds ctx.request received) (hmin : 1 ≤ ctx.maxBodySize.toNat)
    (hmax : ctx.maxBodySize.toNat < received.length + span.length) :
    onBody ctx span = some ({ ctx with errorFlag := true, lastError := hpeUser }, false) := by
  have hpos : 0 < ctx.maxBodySize := UInt32.lt_iff_toNat_lt.mpr hmin
  rw [onBody, hholds.bodyLen_eq, if_pos ⟨hpos, hmax⟩]

end Call

/-! ### Any number of calls -/

/-- The spans within the limit are collected. -/
theorem deliver_within {ctx : HttpParserCtx L} {received : List UInt8} (spans : List (List UInt8))
    (hroom : BodyRoom ctx.request) (hholds : BodyHolds ctx.request received)
    (hmax : received.length + spans.flatten.length ≤ ctx.maxBodySize.toNat)
    (hlength : received.length + spans.flatten.length ≤ 2 ^ 31) :
    ∃ ctx', deliver ctx (spans.map .body) = some (ctx', true) ∧ BodyRoom ctx'.request ∧
      BodyHolds ctx'.request (received ++ spans.flatten) ∧
      ctx'.maxBodySize = ctx.maxBodySize := by
  induction spans generalizing ctx received with
  | nil =>
    rw [List.flatten_nil, List.append_nil]
    exact ⟨ctx, rfl, hroom, hholds, rfl⟩
  | cons span spans ih =>
    rw [List.flatten_cons, List.length_append] at hmax hlength
    obtain ⟨ctx₁, hcall, hroom₁, hholds₁, hmax₁⟩ :=
      onBody_within span hroom hholds (by omega) (by omega)
    obtain ⟨ctx₂, hdeliver, hroom₂, hholds₂, hmax₂⟩ := ih hroom₁ hholds₁
      (by rw [hmax₁, List.length_append]; omega) (by rw [List.length_append]; omega)
    rw [List.append_assoc] at hholds₂
    refine ⟨ctx₂, ?_, hroom₂, hholds₂, hmax₂.trans hmax₁⟩
    rw [List.map_cons, deliver, callback, hcall]
    exact hdeliver

theorem request_openedBody (ctx : HttpParserCtx L) (r : RequestCallbacks) :
    BodyOpened r.contentLength (openedBody ctx r).request := by
  rw [openedBody, request_onHeadersComplete]
  exact ⟨rfl, rfl, rfl⟩

theorem maxBodySize_openedBody (ctx : HttpParserCtx L) (r : RequestCallbacks) :
    (openedBody ctx r).maxBodySize = ctx.maxBodySize :=
  maxBodySize_afterHeaders ctx r

/-- At the end of the headers the buffer holds nothing. -/
theorem bodyHolds_openedBody (ctx : HttpParserCtx L) (r : RequestCallbacks) :
    BodyRoom (openedBody ctx r).request ∧ BodyHolds (openedBody ctx r).request [] := by
  have hopened := request_openedBody ctx r
  have hdefault : httpDefaultBodyBuf = 65536 := rfl
  refine ⟨⟨?_, ?_⟩, ⟨?_, hopened.bodyLen_eq, ?_⟩⟩
  · rw [hopened.capacity_eq]
    split_ifs <;> omega
  · intro hnone
    rw [hopened.capacity_eq]
    rw [hopened.body_eq] at hnone
    split_ifs at hnone ⊢
    rfl
  · rw [hopened.bodyLen_eq, List.take_zero]
  · rw [hopened.bodyLen_eq]
    exact Nat.zero_le _

/-- The spans of a body behind the headers of a request. -/
theorem deliver_openedBody (ctx : HttpParserCtx L) (r : RequestCallbacks)
    (spans : List (List UInt8)) (hmax : spans.flatten.length ≤ ctx.maxBodySize.toNat)
    (hlength : spans.flatten.length ≤ 2 ^ 31) :
    ∃ ctx', deliver (openedBody ctx r) (spans.map .body) = some (ctx', true) ∧
      BodyRoom ctx'.request ∧ BodyHolds ctx'.request spans.flatten ∧
      ctx'.maxBodySize = ctx.maxBodySize := by
  obtain ⟨hroom, hholds⟩ := bodyHolds_openedBody ctx r
  have hlimit := maxBodySize_openedBody ctx r
  obtain ⟨ctx', hdeliver, hroom', hholds', hmax'⟩ := deliver_within spans hroom hholds
    (by rw [hlimit, List.length_nil]; omega) (by rw [List.length_nil]; omega)
  exact ⟨ctx', hdeliver, hroom', hholds', hmax'.trans hlimit⟩

/-- **The body is accumulated.** For a limit of 1 to `2 ^ 31` bytes, any content length and any
spans that are within the limit, every call of `on_body` returns and the buffer holds the spans. The
next span is refused if and only if it is beyond the limit; then the bytes received so far stay and
no span follows, and otherwise it is appended and no computation of the capacity wraps. -/
theorem body_accumulates (ctx : HttpParserCtx L) (r : RequestCallbacks)
    (spans : List (List UInt8)) (span : List UInt8) (hmin : 1 ≤ ctx.maxBodySize.toNat)
    (hmax : ctx.maxBodySize.toNat ≤ 2 ^ 31)
    (hspans : spans.flatten.length ≤ ctx.maxBodySize.toNat) :
    ∃ ctx', deliver (openedBody ctx r) (spans.map .body) = some (ctx', true) ∧
      BodyHolds ctx'.request spans.flatten ∧
      ∃ ctx'' ok, onBody ctx' span = some (ctx'', ok) ∧
        (ok = false ↔ ctx.maxBodySize.toNat < spans.flatten.length + span.length) ∧
        (ok = false → ctx''.request = ctx'.request ∧ ∀ rest,
          deliver (openedBody ctx r) ((spans ++ span :: rest).map .body) = some (ctx'', false)) ∧
        (ok = true → BodyHolds ctx''.request (spans.flatten ++ span) ∧
          ¬ CapacityWraps ctx'.request (spans.flatten.length + span.length)) := by
  obtain ⟨ctx', hdeliver, hroom, hholds, hlimit⟩ := deliver_openedBody ctx r spans hspans
    (hspans.trans hmax)
  refine ⟨ctx', hdeliver, hholds, ?_⟩
  rw [← hlimit] at hmin hmax ⊢
  rcases Nat.lt_or_ge ctx'.maxBodySize.toNat (spans.flatten.length + span.length) with
    hbeyond | hwithin
  · have hcall := onBody_beyond span hholds hmin hbeyond
    refine ⟨_, false, hcall, iff_of_true rfl hbeyond, fun _ => ⟨rfl, fun rest => ?_⟩,
      fun htrue => absurd htrue Bool.false_ne_true⟩
    rw [List.map_append, deliver_append_of_some hdeliver, List.map_cons, deliver, callback, hcall]
  · obtain ⟨ctx'', hcall, -, hholds', -⟩ := onBody_within span hroom hholds hwithin (by omega)
    refine ⟨ctx'', true, hcall, iff_of_false Bool.false_ne_true.symm (by omega),
      fun hfalse => absurd hfalse Bool.false_ne_true.symm, fun _ => ⟨hholds', ?_⟩⟩
    exact (bodyCapacityFor_of_le hroom (by omega)).1

/-- Two spans, and a third that is too long. -/
theorem body_accumulates_three_spans :
    ∃ ctx', deliver (openedBody (httpParserInit silentLlhttp 4) (plainGet []))
        ([[1, 2], [3]].map .body) = some (ctx', true) ∧
      BodyHolds ctx'.request [1, 2, 3] ∧
      ∃ ctx'', onBody ctx' [4, 5] = some (ctx'', false) ∧ ctx''.request = ctx'.request := by
  obtain ⟨ctx', hdeliver, hholds, ctx'', ok, hcall, hrefused, hkept, -⟩ :=
    body_accumulates (httpParserInit silentLlhttp 4) (plainGet []) [[1, 2], [3]] [4, 5] (by decide)
      (by decide) (by decide)
  obtain rfl : ok = false := hrefused.mpr (by decide)
  exact ⟨ctx', hdeliver, hholds, ctx'', hcall, (hkept rfl).1⟩

/-! ### Larger limits -/

/-- Beyond `2 ^ 31` bytes the capacity that is stored is zero. -/
theorem settledCapacity_of_large {received : ℕ} (hlarge : 2 ^ 31 < received)
    (hlt : received < 2 ^ 32) : settledCapacity 0 received = 0 := by
  have hexponent : bodyExponent received = 32 := by
    refine Nat.le_antisymm (bodyExponent_le hlt.le (by omega)) ?_
    by_contra hle
    have henough := (le_two_pow_bodyExponent received).trans
      (Nat.pow_le_pow_right (show 0 < 2 by omega) (show bodyExponent received ≤ 31 by omega))
    omega
  rw [settledCapacity, if_neg (by decide), hexponent, Nat.mod_self]

/-- The spans of a body without a content length, behind the headers of a request. -/
theorem deliver_unsized (ctx : HttpParserCtx L) {r : RequestCallbacks} (hr : r.contentLength = 0)
    (spans : List (List UInt8)) (hmax : spans.flatten.length ≤ ctx.maxBodySize.toNat) :
    deliver (openedBody ctx r) (spans.map .body) =
      if BodyStalls 0 spans then none
      else some (if spans = [] then openedBody ctx r
        else storeBody 0 (openedBody ctx r) spans.flatten, true) := by
  have hopened := request_openedBody ctx r
  rw [hr] at hopened
  exact deliver_bodySpans hopened (.inl rfl) (by rwa [maxBodySize_openedBody])

/-- **How long a body may be.** For every limit that the configuration of the server gives and all
spans within it: every call of `on_body` returns and leaves a capacity for the bytes received so
far, whatever the content length and the headers are and the connection did before, if and only if
the spans have at most `2 ^ 31` bytes. -/
theorem growth_ends_iff (S : Service) (config : HttpServerConfig) (spans : List (List UInt8))
    (hmax : spans.flatten.length ≤ (httpServerCreate L S config).maxRequestBody.toNat) :
    (∀ ctx : HttpParserCtx L, ctx.maxBodySize = (httpServerCreate L S config).maxRequestBody →
      ∀ r received, received <+: spans →
        ∃ ctx', deliver (openedBody ctx r) (received.map .body) = some (ctx', true) ∧
          ctx'.request.bodyLen ≤ ctx'.request.bodyCapacity) ↔
    spans.flatten.length ≤ 2 ^ 31 := by
  generalize (httpServerCreate L S config).maxRequestBody = limit at *
  constructor
  · intro hends
    by_contra hlarge
    have hlt : limit.toNat < 2 ^ 32 := limit.toNat_lt
    have hne : spans ≠ [] := by
      rintro rfl
      exact hlarge (Nat.zero_le _)
    -- the body comes without a content length, on a new connection
    obtain ⟨ctx', hdeliver, hroom⟩ :=
      hends (httpParserInit L limit) rfl (plainGet []) spans List.prefix_rfl
    rw [deliver_unsized _ rfl spans hmax, if_neg hne] at hdeliver
    split_ifs at hdeliver with hstalls
    · obtain ⟨rfl, -⟩ := Prod.mk.inj (Option.some.inj hdeliver)
      have hzero := settledCapacity_of_large (not_le.mp hlarge) (hmax.trans_lt hlt)
      have hfull : spans.flatten.length ≤ settledCapacity 0 spans.flatten.length := hroom
      omega
  · intro hlength ctx hctx r received hreceived
    obtain ⟨rest, rfl⟩ := hreceived
    rw [List.flatten_append, List.length_append] at hmax hlength
    obtain ⟨ctx', hdeliver, -, hholds, -⟩ :=
      deliver_openedBody ctx r received (by rw [hctx]; omega) (by omega)
    exact ⟨ctx', hdeliver, hholds.bodyLen_le⟩

/-- The default limit. -/
theorem growth_ends_iff_default :
    let limit := (httpServerCreate silentLlhttp emptyService ⟨0, 0, 0, 0⟩).maxRequestBody
    3 ≤ limit.toNat ∧ ∀ ctx : HttpParserCtx silentLlhttp, ctx.maxBodySize = limit →
      ∀ r received, received <+: [[1, 2], [3]] →
        ∃ ctx', deliver (openedBody ctx r) (received.map .body) = some (ctx', true) ∧
          ctx'.request.bodyLen ≤ ctx'.request.bodyCapacity := by
  have hmax : 3 ≤ (httpServerCreate silentLlhttp emptyService ⟨0, 0, 0, 0⟩).maxRequestBody.toNat :=
    by decide
  exact ⟨hmax, (growth_ends_iff emptyService ⟨0, 0, 0, 0⟩ [[1, 2], [3]] hmax).mpr (by decide)⟩

/-- The end of the headers of a request without a body, on a connection with the greatest limit. -/
def greatestLimit : HttpParserCtx silentLlhttp :=
  openedBody (httpParserInit silentLlhttp 4294967295) (plainGet [])

theorem deliver_large_span {n : ℕ} (hlarge : 2 ^ 31 < n) (hlt : n < 2 ^ 32) :
    ∃ ctx', deliver greatestLimit [.body (List.replicate n 0)] = some (ctx', true) ∧
      ctx'.request.bodyLen = n ∧ ctx'.request.bodyCapacity = 0 := by
  have hlimit : (httpParserInit silentLlhttp 4294967295).maxBodySize.toNat = 4294967295 := rfl
  have hlength : [List.replicate n (0 : UInt8)].flatten.length = n := by
    rw [List.flatten_singleton, List.length_replicate]
  have hreturns : ¬ BodyStalls 0 [List.replicate n 0] :=
    not_or.mpr ⟨fun h => absurd h.1 (Nat.not_lt_zero _), id⟩
  refine ⟨storeBody 0 greatestLimit [List.replicate n 0].flatten, ?_, hlength, ?_⟩
  · refine (deliver_unsized _ rfl [List.replicate n 0] (by omega)).trans ?_
    rw [if_neg hreturns, if_neg (List.cons_ne_nil _ _)]
    rfl
  · rw [storeBody, hlength]
    exact settledCapacity_of_large hlarge hlt

theorem deliver_full_buffer {n : ℕ} (hn : n = 2 ^ 31) :
    deliver greatestLimit [.body (List.replicate n 0), .body [0]] = none := by
  have hlimit : (httpParserInit silentLlhttp 4294967295).maxBodySize.toNat = 4294967295 := rfl
  have hlength : [List.replicate n (0 : UInt8), [0]].flatten.length = n + 1 := by simp
  have hstalls : BodyStalls 0 [List.replicate n 0, [0]] := by
    refine .inr (.inl ?_)
    rw [List.length_replicate, Nat.zero_add, List.length_singleton]
    omega
  refine (deliver_unsized _ rfl [List.replicate n 0, [0]] (by omega)).trans ?_
  rw [if_pos hstalls]

/-- With the greatest limit, a span of `2 ^ 31 + 1` bytes leaves a buffer with a capacity of zero,
and for one byte behind `2 ^ 31` bytes the loop does not end. -/
theorem growth_fails :
    let config : HttpServerConfig := ⟨0, 0, 0, 4294967295⟩
    let ctx := httpParserInit silentLlhttp
      (httpServerCreate silentLlhttp emptyService config).maxRequestBody
    (∃ ctx', deliver (openedBody ctx (plainGet [])) [.body (List.replicate 2147483649 0)] =
        some (ctx', true) ∧
      ctx'.request.bodyLen = 2147483649 ∧ ctx'.request.bodyCapacity = 0) ∧
    deliver (openedBody ctx (plainGet [])) [.body (List.replicate 2147483648 0), .body [0]] =
      none :=
  ⟨deliver_large_span (by decide) (by decide), deliver_full_buffer (by decide)⟩

end LightFS.Access
