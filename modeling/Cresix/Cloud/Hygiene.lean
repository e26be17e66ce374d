import Cresix.Cloud.Proxy
import Cresix.Relay.Upstream

/-!
# What becomes of the headers

The headers of a request pass three filters: the relay leaves out those that no
frame takes and the cookies, the frame is checked again, and the connector
leaves out the blocked ones.  The headers of a response pass them in the other
direction.  All three go by fixed names.

`deliverRequest` and `deliverResponse` say which headers arrive.  The names that
a `Connection` header nominates are looked at by none of the filters, and of the
forwarding headers they know four.  `headers_clean_iff` says for which headers
this makes no difference.
-/

namespace Cresix.Cloud

open Relay
open Rust.Http

/-! ## The way of the headers -/

/-- The headers of a request: through `relay_proxy`, the frame and
`filter_request_headers`. -/
def deliverRequest (headers : HeaderMap) : Option HeaderMap :=
  match HttpRequest.relayHeaders headers with
  | .error _ => none
  | .ok fields =>
      if validateHeaders fields = .ok () then (filterRequestHeaders fields).toOption else none

/-- The headers of a response: through `response_headers`, the frame and
`proxy_response`. -/
def deliverResponse (headers : HeaderMap) : Option HeaderMap :=
  if validateHeaders (responseHeaders headers) = .ok () then
    some (clientHeaders (responseHeaders headers))
  else none

/-- The header as a field of a frame. -/
def frameField (header : HeaderName × HeaderValue) : HeaderField :=
  ⟨header.1.value, Rust.ofAscii header.2.bytes⟩

/-- The bytes of the names and values of some headers. -/
def mapSize (headers : HeaderMap) : Nat :=
  (headers.map fun header => Rust.len header.1.value + header.2.bytes.length).sum

/-- A header that goes into the frame of a request. -/
def framed (header : HeaderName × HeaderValue) : Bool :=
  header.1.value ≠ "cookie" && !isForbiddenHeader header.1.value

/-- A header of a request that no filter leaves out. -/
def passesRequest (header : HeaderName × HeaderValue) : Bool :=
  header.1.value ≠ "cookie" && !blockedHeader header.1

/-- A header of a response that no filter leaves out. -/
def passesResponse (header : HeaderName × HeaderValue) : Bool :=
  forwardable header && header.1.value ≠ "set-cookie"

/-- Headers of a request that are not refused on the way. -/
structure RequestFits (headers : HeaderMap) : Prop where
  visible : ∀ header ∈ headers, header.1.value ≠ "cookie" → header.2.isVisible = true
  count : (headers.filter framed).length ≤ maxHeaderCount
  size : mapSize (headers.filter framed) ≤ maxHeaderBytes

/-- Headers of a response that are not refused on the way. -/
structure ResponseFits (headers : HeaderMap) : Prop where
  count : (headers.filter forwardable).length ≤ maxHeaderCount
  size : mapSize (headers.filter forwardable) ≤ maxHeaderBytes

/-! ## Lists of fields -/

theorem headersSize_field {headers : HeaderMap}
    (hvisible : ∀ header ∈ headers, header.2.isVisible = true) :
    headersSize (headers.map frameField) = mapSize headers := by
  induction headers with
  | nil => rfl
  | cons header headers ih =>
      have hlen := len_ofAscii_visible (hvisible header List.mem_cons_self)
      have hrest := ih fun other hmem => hvisible other (List.mem_cons_of_mem _ hmem)
      simp only [List.map_cons, headersSize, frameField, hlen, hrest, mapSize, List.sum_cons]

/-- The frame takes fields that no name forbids when they are within the
limits. -/
theorem validateHeaders_field_iff {headers : HeaderMap}
    (hvisible : ∀ header ∈ headers, header.2.isVisible = true)
    (hallowed : ∀ header ∈ headers, isForbiddenHeader header.1.value = false) :
    validateHeaders (headers.map frameField) = .ok () ↔
      headers.length ≤ maxHeaderCount ∧ mapSize headers ≤ maxHeaderBytes := by
  have hvalid : ∀ header ∈ headers.map frameField, header.validate = .ok () := by
    intro other hmem
    obtain ⟨header, hheader, rfl⟩ := List.mem_map.mp hmem
    exact (validate_visible_iff (hvisible header hheader)).mpr (hallowed header hheader)
  rw [validateHeaders_ok_iff, headersSize_field hvisible, List.length_map]
  exact ⟨fun h => ⟨h.1, h.2.2⟩, fun h => ⟨h.1, hvalid, h.2⟩⟩

/-- The connector leaves out what is blocked. -/
theorem filterRequestHeaders_field {headers : HeaderMap}
    (hvisible : ∀ header ∈ headers, header.2.isVisible = true) :
    filterRequestHeaders (headers.map frameField) =
      .ok (headers.filter fun header => !blockedHeader header.1) := by
  induction headers with
  | nil => rfl
  | cons header headers ih =>
      have hrest := ih fun other hmem => hvisible other (List.mem_cons_of_mem _ hmem)
      have hvalue := HeaderValue.fromStr_ofAscii (hvisible header List.mem_cons_self)
      rw [List.map_cons, filterRequestHeaders]
      simp only [frameField, HeaderName.fromStr_value, hvalue]
      cases hblocked : blockedHeader header.1 with
      | true => simpa [hblocked] using hrest
      | false =>
          change (if false = true then _ else (filterRequestHeaders (headers.map frameField)).map _) = _
          rw [hrest]
          simp [hblocked, Except.map]

/-- The relay leaves out the cookies that are set. -/
theorem clientHeaders_field {headers : HeaderMap}
    (hvisible : ∀ header ∈ headers, header.2.isVisible = true) :
    clientHeaders (headers.map frameField) =
      headers.filter fun header => header.1.value ≠ "set-cookie" := by
  induction headers with
  | nil => rfl
  | cons header headers ih =>
      have hrest := ih fun other hmem => hvisible other (List.mem_cons_of_mem _ hmem)
      have hvalue := HeaderValue.fromStr_ofAscii (hvisible header List.mem_cons_self)
      have hname : (frameField header).name = header.1.value := rfl
      have htext : (frameField header).value = Rust.ofAscii header.2.bytes := rfl
      rw [List.map_cons, clientHeaders, hname, htext, HeaderName.toAsciiLowercase_value,
        HeaderName.fromStr_value, hvalue]
      by_cases hcookie : header.1.value = "set-cookie"
      · rw [if_pos (congrArg Rust.bytes hcookie), hrest,
          List.filter_cons_of_neg (by simp [hcookie])]
      · rw [if_neg fun hbytes => hcookie (Rust.bytes_injective hbytes), hrest,
          List.filter_cons_of_pos (by simp [hcookie])]

/-! ## Requests -/

/-- The relay leaves out the cookies and what no frame takes. -/
theorem relayHeaders_field {headers : HeaderMap}
    (hvisible : ∀ header ∈ headers, header.1.value ≠ "cookie" → header.2.isVisible = true) :
    HttpRequest.relayHeaders headers = .ok ((headers.filter framed).map frameField) := by
  induction headers with
  | nil => rfl
  | cons header headers ih =>
      have hrest := ih fun other hmem => hvisible other (List.mem_cons_of_mem _ hmem)
      rw [HttpRequest.relayHeaders]
      by_cases hcookie : header.1.value = "cookie"
      · rw [if_pos hcookie, hrest, List.filter_cons_of_neg (by simp [framed, hcookie])]
      · have hheader := hvisible header List.mem_cons_self hcookie
        have hstr : header.2.toStr = some (Rust.ofAscii header.2.bytes) := if_pos hheader
        have hvalid := validate_visible_iff hheader
        rw [if_neg hcookie, hstr, hrest]
        cases hforbidden : isForbiddenHeader header.1.value with
        | true =>
            rw [List.filter_cons_of_neg (by simp [framed, hforbidden])]
            exact congrArg Except.ok (if_neg (by simp [hvalid, hforbidden]))
        | false =>
            rw [List.filter_cons_of_pos (by simp [framed, hforbidden, hcookie])]
            exact congrArg Except.ok (if_pos (hvalid.mpr hforbidden))

/-- A value that is not visible is refused, unless it is a cookie. -/
theorem visible_of_relayHeaders {headers : HeaderMap} {fields : List HeaderField}
    (h : HttpRequest.relayHeaders headers = .ok fields) :
    ∀ header ∈ headers, header.1.value ≠ "cookie" → header.2.isVisible = true := by
  induction headers generalizing fields with
  | nil =>
      intro header hmem
      cases hmem
  | cons header headers ih =>
      rw [HttpRequest.relayHeaders] at h
      intro other hmem hother
      by_cases hcookie : header.1.value = "cookie"
      · rw [if_pos hcookie] at h
        rcases List.mem_cons.mp hmem with rfl | hrest
        · exact absurd hcookie hother
        · exact ih h other hrest hother
      · rw [if_neg hcookie] at h
        cases hstr : header.2.toStr with
        | none =>
            rw [hstr] at h
            cases h
        | some text =>
            rw [hstr] at h
            cases hheaders : HttpRequest.relayHeaders headers with
            | error e =>
                rw [hheaders] at h
                cases h
            | ok others =>
                rcases List.mem_cons.mp hmem with rfl | hrest
                · exact (HeaderValue.bytes_toStr hstr).2
                · exact ih hheaders other hrest hother

theorem framed_of_passesRequest {header : HeaderName × HeaderValue}
    (h : passesRequest header = true) : framed header = true := by
  simp only [passesRequest, framed, Bool.and_eq_true, Bool.not_eq_true'] at *
  exact ⟨h.1, not_forbidden_of_not_blocked h.2⟩

theorem deliverRequest_eq_some_iff {headers delivered : HeaderMap} :
    deliverRequest headers = some delivered ↔
      RequestFits headers ∧ delivered = headers.filter passesRequest := by
  have hpasses : (headers.filter framed).filter (fun header => !blockedHeader header.1) =
      headers.filter passesRequest := by
    rw [List.filter_filter]
    apply List.filter_congr
    intro header _
    rw [Bool.eq_iff_iff]
    constructor
    · intro h
      simp only [framed, passesRequest, Bool.and_eq_true] at *
      exact ⟨h.2.1, h.1⟩
    · intro h
      rw [framed_of_passesRequest h, Bool.and_true]
      exact (Bool.and_eq_true _ _ ▸ h : _ ∧ _).2
  have hallowed : ∀ header ∈ headers.filter framed, isForbiddenHeader header.1.value = false := by
    intro header hmem
    have hframed := List.of_mem_filter hmem
    simp only [framed, Bool.and_eq_true, Bool.not_eq_true'] at hframed
    exact hframed.2
  have hkept : (∀ header ∈ headers, header.1.value ≠ "cookie" → header.2.isVisible = true) →
      ∀ header ∈ headers.filter framed, header.2.isVisible = true := by
    intro hvisible header hmem
    have hframed := List.of_mem_filter hmem
    simp only [framed, Bool.and_eq_true, decide_eq_true_eq] at hframed
    exact hvisible header (List.mem_of_mem_filter hmem) hframed.1
  unfold deliverRequest
  constructor
  · intro h
    split at h
    next => cases h
    next fields hfields =>
      have hvisible := visible_of_relayHeaders hfields
      rw [relayHeaders_field hvisible] at hfields
      cases hfields
      rw [filterRequestHeaders_field (hkept hvisible), hpasses] at h
      split at h
      next hvalid =>
        cases h
        obtain ⟨hcount, hsize⟩ :=
          (validateHeaders_field_iff (hkept hvisible) hallowed).mp hvalid
        exact ⟨⟨hvisible, hcount, hsize⟩, rfl⟩
      next => cases h
  · rintro ⟨hfits, rfl⟩
    have hvisible := hkept hfits.visible
    have hvalid := (validateHeaders_field_iff hvisible hallowed).mpr ⟨hfits.count, hfits.size⟩
    rw [relayHeaders_field hfits.visible]
    refine (if_pos hvalid).trans ?_
    rw [filterRequestHeaders_field hvisible, hpasses]
    rfl

/-! ## Responses -/

theorem responseHeaders_eq (headers : HeaderMap) :
    responseHeaders headers = (headers.filter forwardable).map frameField := by
  induction headers with
  | nil => rfl
  | cons header headers ih =>
      rw [responseHeaders_cons, ih, List.filter_cons]
      split
      next => rfl
      next => rfl

theorem deliverResponse_eq_some_iff {headers given : HeaderMap} :
    deliverResponse headers = some given ↔
      ResponseFits headers ∧ given = headers.filter passesResponse := by
  have hforward : ∀ header ∈ headers.filter forwardable,
      blockedHeader header.1 = false ∧ header.2.isVisible = true := by
    intro header hmem
    have hheader := List.of_mem_filter hmem
    simp only [forwardable, Bool.and_eq_true, Bool.not_eq_true'] at hheader
    exact hheader
  have hvisible : ∀ header ∈ headers.filter forwardable, header.2.isVisible = true :=
    fun header hmem => (hforward header hmem).2
  have hpasses : (headers.filter forwardable).filter (fun header => header.1.value ≠ "set-cookie")
      = headers.filter passesResponse := by
    rw [List.filter_filter]
    apply List.filter_congr
    intro header _
    exact Bool.and_comm _ _
  have hframe := validateHeaders_field_iff hvisible fun header hmem =>
    not_forbidden_of_not_blocked (hforward header hmem).1
  unfold deliverResponse
  rw [responseHeaders_eq, clientHeaders_field hvisible, hpasses]
  constructor
  · intro h
    split at h
    next hvalid =>
      cases h
      obtain ⟨hcount, hsize⟩ := hframe.mp hvalid
      exact ⟨⟨hcount, hsize⟩, rfl⟩
    next => cases h
  · rintro ⟨hfits, rfl⟩
    exact if_pos (hframe.mpr ⟨hfits.count, hfits.size⟩)

/-! ## Hygiene -/

/-- The hop-by-hop headers. -/
def hopByHop : List String :=
  ["connection", "keep-alive", "proxy-authenticate", "proxy-authorization", "te", "trailer",
   "transfer-encoding", "upgrade"]

/-- A blank in a header value. -/
def isBlank (b : UInt8) : Bool := b == 0x20 || b == 0x09

/-- The names that the value of a `Connection` header lists, in lower case. -/
def connectionOptions (value : HeaderValue) : List (List UInt8) :=
  (value.bytes.splitOn 0x2c).map fun option =>
    Rust.toAsciiLowercase (((option.dropWhile isBlank).reverse.dropWhile isBlank).reverse)

/-- A `Connection` header nominates the name. -/
def nominated (headers : HeaderMap) (name : HeaderName) : Bool :=
  headers.any fun header => header.1.value = "connection"
    && (connectionOptions header.2).contains (Rust.bytes name.value)

/-- The header begins like the forwarding headers. -/
def isForwarding (name : HeaderName) : Bool :=
  name.value = "forwarded" || Rust.startsWith name.value "x-forwarded-"

/-- The names of `is_forbidden_header` and `blocked_header` that route a request
to an installation. -/
def isRouting (name : HeaderName) : Bool :=
  ["x-c6-route", "x-c6-installation", "x-cresix-route", "x-cresix-installation"].contains name.value
    || Rust.startsWith name.value "x-c6-relay-"

/-- What the local server may be given of the headers that a client sent. -/
structure CleanRequest (sent delivered : HeaderMap) : Prop where
  hopByHop : ∀ header ∈ delivered, header.1.value ∉ hopByHop
  nominated : ∀ header ∈ delivered, nominated sent header.1 = false
  forwarding : ∀ header ∈ delivered, isForwarding header.1 = false
  routing : ∀ header ∈ delivered, isRouting header.1 = false
  cookie : ∀ header ∈ delivered, header.1.value ≠ "cookie"

/-- What a client may be given of the headers that the local server returned. -/
structure CleanResponse (returned given : HeaderMap) : Prop where
  hopByHop : ∀ header ∈ given, header.1.value ∉ hopByHop
  nominated : ∀ header ∈ given, nominated returned header.1 = false
  setCookie : ∀ header ∈ given, header.1.value ≠ "set-cookie"

theorem not_hopByHop_of_not_blocked {name : HeaderName} (h : blockedHeader name = false) :
    name.value ∉ hopByHop := by
  intro hmem
  have hsub : ∀ value ∈ hopByHop, value ∈ blockedHeaders := by decide
  simp [blockedHeader, hsub _ hmem] at h

theorem not_isRouting_of_not_blocked {name : HeaderName} (h : blockedHeader name = false) :
    isRouting name = false := by
  have hsub : ∀ value ∈ ["x-c6-route", "x-c6-installation", "x-cresix-route",
      "x-cresix-installation"], value ∈ blockedHeaders := by decide
  simp only [blockedHeader, Bool.or_eq_false_iff] at h
  simp only [isRouting, Bool.or_eq_false_iff]
  refine ⟨?_, h.2⟩
  cases hmem : ["x-c6-route", "x-c6-installation", "x-cresix-route",
      "x-cresix-installation"].contains name.value with
  | false => rfl
  | true =>
      have hblocked := hsub _ (List.contains_iff_mem.mp hmem)
      simp [hblocked] at h

theorem ne_forwarded_of_not_blocked {name : HeaderName} (h : blockedHeader name = false) :
    name.value ≠ "forwarded" := by
  intro heq
  have hmem : "forwarded" ∈ blockedHeaders := by decide
  simp [blockedHeader, heq, hmem] at h

/-- The headers that arrive are clean in both directions just when they are
refused on the way, or none that the filters know nothing of is nominated by a
`Connection` header or begins like a forwarding header. -/
theorem headers_clean_iff (headers : HeaderMap) :
    ((∀ delivered, deliverRequest headers = some delivered → CleanRequest headers delivered) ↔
      (RequestFits headers → ∀ header ∈ headers, passesRequest header = true →
        nominated headers header.1 = false ∧
          Rust.startsWith header.1.value "x-forwarded-" = false)) ∧
    ((∀ given, deliverResponse headers = some given → CleanResponse headers given) ↔
      (ResponseFits headers → ∀ header ∈ headers, passesResponse header = true →
        nominated headers header.1 = false)) := by
  constructor
  · constructor
    · intro hclean hfits header hmem hpasses
      have hdelivered := hclean _ (deliverRequest_eq_some_iff.mpr ⟨hfits, rfl⟩)
      have harrives := List.mem_filter.mpr ⟨hmem, hpasses⟩
      have hforwarding := hdelivered.forwarding header harrives
      simp only [isForwarding, Bool.or_eq_false_iff] at hforwarding
      exact ⟨hdelivered.nominated header harrives, hforwarding.2⟩
    · intro hcondition delivered hdeliver
      obtain ⟨hfits, rfl⟩ := deliverRequest_eq_some_iff.mp hdeliver
      have hheader : ∀ header ∈ headers.filter passesRequest,
          header.1.value ≠ "cookie" ∧ blockedHeader header.1 = false := by
        intro header hmem
        have hpasses := List.of_mem_filter hmem
        simp only [passesRequest, Bool.and_eq_true, Bool.not_eq_true', decide_eq_true_eq] at hpasses
        exact hpasses
      have hnew : ∀ header ∈ headers.filter passesRequest, nominated headers header.1 = false ∧
          Rust.startsWith header.1.value "x-forwarded-" = false := by
        intro header hmem
        exact hcondition hfits header (List.mem_of_mem_filter hmem) (List.of_mem_filter hmem)
      constructor
      · exact fun header hmem => not_hopByHop_of_not_blocked (hheader header hmem).2
      · exact fun header hmem => (hnew header hmem).1
      · intro header hmem
        simp [isForwarding, ne_forwarded_of_not_blocked (hheader header hmem).2,
          (hnew header hmem).2]
      · exact fun header hmem => not_isRouting_of_not_blocked (hheader header hmem).2
      · exact fun header hmem => (hheader header hmem).1
  · constructor
    · intro hclean hfits header hmem hpasses
      have hgiven := hclean _ (deliverResponse_eq_some_iff.mpr ⟨hfits, rfl⟩)
      exact hgiven.nominated header (List.mem_filter.mpr ⟨hmem, hpasses⟩)
    · intro hcondition given hdeliver
      obtain ⟨hfits, rfl⟩ := deliverResponse_eq_some_iff.mp hdeliver
      have hheader : ∀ header ∈ headers.filter passesResponse,
          blockedHeader header.1 = false ∧ header.1.value ≠ "set-cookie" := by
        intro header hmem
        have hpasses := List.of_mem_filter hmem
        simp only [passesResponse, forwardable, Bool.and_eq_true, Bool.not_eq_true',
          decide_eq_true_eq] at hpasses
        exact ⟨hpasses.1.1, hpasses.2⟩
      constructor
      · exact fun header hmem => not_hopByHop_of_not_blocked (hheader header hmem).1
      · intro header hmem
        exact hcondition hfits header (List.mem_of_mem_filter hmem) (List.of_mem_filter hmem)
      · exact fun header hmem => (hheader header hmem).2

/-- A header that a `Connection` header nominates, and a forwarding header that
is not one of the four. -/
def uncleanHeaders : HeaderMap :=
  [(⟨"connection", by decide +kernel⟩, ⟨Rust.bytes "Keep-Alive, X-Internal", by decide +kernel⟩),
   (⟨"x-internal", by decide +kernel⟩, ⟨Rust.bytes "1", by decide +kernel⟩),
   (⟨"x-forwarded-port", by decide +kernel⟩, ⟨Rust.bytes "443", by decide +kernel⟩)]

/-- Both of these arrive at the local server, and the first also at a client. -/
theorem nominated_header_arrives :
    deliverRequest uncleanHeaders = some uncleanHeaders.tail ∧
      ¬ CleanRequest uncleanHeaders uncleanHeaders.tail ∧
      deliverResponse uncleanHeaders = some uncleanHeaders.tail ∧
      ¬ CleanResponse uncleanHeaders uncleanHeaders.tail := by
  have hnominated : ¬ ∀ header ∈ uncleanHeaders.tail, nominated uncleanHeaders header.1 = false :=
    by decide +kernel
  exact ⟨by decide +kernel, fun h => hnominated h.nominated, by decide +kernel,
    fun h => hnominated h.nominated⟩

end Cresix.Cloud
