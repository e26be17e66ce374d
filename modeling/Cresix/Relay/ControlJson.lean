import Cresix.Relay.Codec
import Cresix.Relay.Streams
import Cresix.Rust.SerdeJson

/-!
# The JSON of control frames

What `serde` writes for a control frame: the type next to the data, the fields
in camel case.  How it reads a text back is a parameter.

The session limits the fields of a frame and the connector the text as a
whole.  `RelayControlFrame.FitsControl` counts the bytes of the text from the
fields, and `control_codec_covers_iff` says that the frames with more than
64 KiB of it are all that the session accepts and the connector refuses.
-/

namespace Cresix.Relay

open Rust (Uuid)

/-! ## What is written -/

def HeaderField.toJson (field : HeaderField) : Json.Value :=
  .obj [("name", .str field.name), ("value", .str field.value)]

def RelayFailureCode.toJson : RelayFailureCode → Json.Value
  | .badGateway => .str "bad_gateway"
  | .timeout => .str "timeout"
  | .cancelled => .str "cancelled"
  | .protocol => .str "protocol"

namespace RelayControlFrame

/-- The `type` of a frame. -/
def typeName : RelayControlFrame → String
  | .clientHello _ => "client_hello"
  | .serverReady _ => "server_ready"
  | .requestStart _ => "request_start"
  | .requestEnd _ => "request_end"
  | .responseStart _ => "response_start"
  | .responseEnd _ => "response_end"
  | .cancel _ => "cancel"
  | .requestFailed _ => "request_failed"
  | .ping _ => "ping"
  | .pong _ => "pong"

/-- The `data` of a frame. -/
def data : RelayControlFrame → List (String × Json.Value)
  | .clientHello frame =>
      [("protocolVersion", .num frame.protocolVersion.toNat),
       ("connectorToken", .str frame.connectorToken.value)]
  | .serverReady frame =>
      [("installationId", .str (Rust.hyphenated frame.installationId)),
       ("generation", .num frame.generation.toNat),
       ("maxConcurrentRequests", .num frame.maxConcurrentRequests.toNat),
       ("maxChunkBytes", .num frame.maxChunkBytes.toNat)]
  | .requestStart frame =>
      [("requestId", .str (Rust.hyphenated frame.requestId)),
       ("method", .str frame.method.value),
       ("target", .str frame.target),
       ("headers", .arr (frame.headers.map HeaderField.toJson)),
       ("deadlineUnixMs", .num frame.deadlineUnixMs.toNat)]
  | .responseStart frame =>
      [("requestId", .str (Rust.hyphenated frame.requestId)),
       ("status", .num frame.status.toNat),
       ("headers", .arr (frame.headers.map HeaderField.toJson))]
  | .requestFailed frame =>
      [("requestId", .str (Rust.hyphenated frame.requestId)),
       ("code", frame.code.toJson),
       ("message", .str frame.message)]
  | .requestEnd frame | .responseEnd frame | .cancel frame =>
      [("requestId", .str (Rust.hyphenated frame.requestId))]
  | .ping frame | .pong frame => [("nonce", .num frame.nonce.toNat)]

/-- A frame as `serde` writes it. -/
def toJson (frame : RelayControlFrame) : Json.Value :=
  .obj [("type", .str frame.typeName), ("data", .obj frame.data)]

end RelayControlFrame

/-- The codec that writes these texts. -/
def jsonCodec (fromStr : String → Option RelayControlFrame) : ControlCodec where
  toString frame := frame.toJson.render
  fromStr := fromStr

/-- `encode_control`. -/
def encodeControl (codec : ControlCodec) (frame : RelayControlFrame) :
    Except RelayValidationError String :=
  .ok (codec.toString frame)

/-! ## How long it is -/

/-- A character that takes an escape inside a JSON string although a frame may
carry it. -/
def isEscaped (c : Char) : Bool := c.val == 0x22 || c.val == 0x5c || c.val == 0x09

/-- The bytes of a text of a frame, with one more for each escape. -/
def textSize (s : String) : Nat := Rust.len s + s.toList.countP isEscaped

/-- The bytes of the JSON of the headers: 22 around the name and value of each
and the commas. -/
def headersTextSize (headers : List HeaderField) : Nat :=
  (headers.map fun header => Rust.len header.name + textSize header.value + 22).sum +
    (headers.length - 1)

/-- The bytes of the fields and of what JSON writes around them are within the
limit of the connector. -/
def RelayControlFrame.FitsControl : RelayControlFrame → Prop
  | .requestStart frame =>
      139 + Rust.len frame.method.value + textSize frame.target + headersTextSize frame.headers +
        Rust.len frame.deadlineUnixMs.toNat.repr ≤ 64 * 1024
  | .responseStart frame => 111 + headersTextSize frame.headers ≤ 64 * 1024
  | _ => True

section

variable {s : String}

/-- In a text without other control characters every escape takes one byte. -/
theorem stringSize_eq_textSize (h : ∀ c ∈ s.toList, c.val < 0x20 → c.val = 0x09) :
    Json.stringSize s = textSize s + 2 := by
  have hlen : Rust.len s = (s.toList.map Char.utf8Size).sum := by
    rw [← Json.utf8ByteSize_ofList, String.ofList_toList]
    rfl
  rw [Json.stringSize, textSize, hlen]
  generalize s.toList = cs at h
  induction cs with
  | nil => rfl
  | cons c cs ih =>
      have hrest := ih fun other hmem => h other (List.mem_cons_of_mem _ hmem)
      have hc : Json.escapedSize c = c.utf8Size + if isEscaped c then 1 else 0 := by
        have hcontrol := h c List.mem_cons_self
        unfold Json.escapedSize Json.shortEscape isEscaped
        by_cases hquote : c.val = 0x22
        · simp [hquote, Char.utf8Size]
        · by_cases hslash : c.val = 0x5c
          · simp [hslash, Char.utf8Size]
          · by_cases htab : c.val = 0x09
            · simp [htab, Char.utf8Size]
            · have hprintable : ¬ c.val < 0x20 := fun hlt => htab (hcontrol hlt)
              have hother : c.val ≠ 0x08 ∧ c.val ≠ 0x0a ∧ c.val ≠ 0x0c ∧ c.val ≠ 0x0d := by
                refine ⟨?_, ?_, ?_, ?_⟩ <;>
                · intro heq
                  rw [heq] at hprintable
                  exact hprintable (by decide)
              simp [hquote, hslash, htab, hother, hprintable]
      rw [List.map_cons, List.map_cons, List.sum_cons, List.sum_cons, List.countP_cons, hc]
      omega

/-- A text whose bytes are no control characters except the tab. -/
theorem stringSize_of_bytes (h : ∀ b ∈ Rust.bytes s, b < 0x20 → b = 0x09) :
    Json.stringSize s = textSize s + 2 := by
  refine stringSize_eq_textSize fun c hc hlt => ?_
  have hascii : c.val ≤ 0x7f := UInt32.le_of_lt (UInt32.lt_of_lt_of_le hlt (by decide))
  have hlow : c.val.toUInt8.toNat = c.val.toNat := by
    have hlt : c.val.toNat < 32 := hlt
    rw [UInt32.toNat_toUInt8]
    omega
  have hbyte : c.val.toUInt8 < 0x20 := by
    rw [UInt8.lt_iff_toNat_lt, hlow]
    exact hlt
  have htab := congrArg UInt8.toNat (h _ (Rust.mem_bytes_of_mem hc hascii) hbyte)
  rw [hlow] at htab
  exact UInt32.toNat_inj.mp htab

/-- No control character, quote or backslash stands in a header name. -/
theorem isHeaderNameByte_printable {b : UInt8} (h : isHeaderNameByte b = true) :
    ¬ b < 0x20 ∧ b ≠ 0x22 ∧ b ≠ 0x5c := by
  have hcontrol : ∀ n : Fin 32, isHeaderNameByte (UInt8.ofNat n) = false := by decide
  have hquote : isHeaderNameByte 0x22 = false := by decide
  have hslash : isHeaderNameByte 0x5c = false := by decide
  refine ⟨fun hlt => ?_, ?_, ?_⟩
  · have hb := hcontrol ⟨b.toNat, hlt⟩
    rw [UInt8.ofNat_toNat, h] at hb
    cases hb
  · rintro rfl
    rw [h] at hquote
    cases hquote
  · rintro rfl
    rw [h] at hslash
    cases hslash

/-- A header name is written as it is. -/
theorem stringSize_name (h : (Rust.bytes s).all isHeaderNameByte = true) :
    Json.stringSize s = Rust.len s + 2 := by
  have hbyte : ∀ b ∈ Rust.bytes s, ¬ b < 0x20 ∧ b ≠ 0x22 ∧ b ≠ 0x5c := fun b hb =>
    isHeaderNameByte_printable (List.all_eq_true.mp h b hb)
  have hnone : s.toList.countP isEscaped = 0 := by
    rw [List.countP_eq_zero]
    intro c hc hescaped
    simp only [isEscaped, Bool.or_eq_true, beq_iff_eq] at hescaped
    rcases hescaped with (hquote | hslash) | htab
    · have hmem := Rust.mem_bytes_of_mem hc (by rw [hquote]; decide)
      rw [hquote] at hmem
      exact (hbyte _ hmem).2.1 rfl
    · have hmem := Rust.mem_bytes_of_mem hc (by rw [hslash]; decide)
      rw [hslash] at hmem
      exact (hbyte _ hmem).2.2 rfl
    · have hmem := Rust.mem_bytes_of_mem hc (by rw [htab]; decide)
      rw [htab] at hmem
      exact (hbyte _ hmem).1 (by decide)
  rw [stringSize_of_bytes fun b hb hlt => absurd hlt (hbyte b hb).1, textSize, hnone, Nat.add_zero]

end

/-! ### Headers and targets -/

theorem stringSize_header {field : HeaderField} (h : field.validate = .ok ()) :
    Json.stringSize field.name = Rust.len field.name + 2 ∧
      Json.stringSize field.value = textSize field.value + 2 := by
  unfold HeaderField.validate at h
  split_ifs at h with hname hvalue hforbidden
  simp only [Bool.or_eq_true, Bool.not_eq_true', not_or, Bool.not_eq_false] at hname
  refine ⟨stringSize_name hname.2, stringSize_of_bytes fun b hb hlt => ?_⟩
  by_contra htab
  refine hvalue (List.any_eq_true.mpr ⟨b, hb, ?_⟩)
  have hcontrol : b ≤ 0x1f := by
    rw [UInt8.le_iff_toNat_le]
    exact Nat.le_of_lt_succ hlt
  simp [Rust.isAsciiControl, hcontrol, htab]

/-- A target has no control characters. -/
theorem stringSize_target {frame : RequestStartFrame} (h : frame.validate = .ok ()) :
    Json.stringSize frame.target = textSize frame.target + 2 := by
  unfold RequestStartFrame.validate at h
  split_ifs at h with htarget hdeadline
  simp only [Bool.or_eq_true, not_or] at htarget
  refine stringSize_of_bytes fun b hb hlt => ?_
  refine absurd (List.any_eq_true.mpr ⟨b, hb, ?_⟩) htarget.2
  have hcontrol : b ≤ 0x1f := by
    rw [UInt8.le_iff_toNat_le]
    exact Nat.le_of_lt_succ hlt
  simp [Rust.isAsciiControl, hcontrol]

theorem stringSize_method (method : HttpMethod) :
    Json.stringSize method.value = Rust.len method.value + 2 := by
  have hall : ∀ value ∈ httpMethods, Json.stringSize value = Rust.len value + 2 := by
    decide
  exact hall _ method.valid

theorem validateHeaders_of_start {frame : RequestStartFrame} (h : frame.validate = .ok ()) :
    validateHeaders frame.headers = .ok () := by
  unfold RequestStartFrame.validate at h
  split_ifs at h
  exact h

theorem validateHeaders_of_responseStart {frame : ResponseStartFrame}
    (h : frame.validate = .ok ()) : validateHeaders frame.headers = .ok () := by
  unfold ResponseStartFrame.validate at h
  split_ifs at h
  exact h

/-- The bytes of the names JSON writes for the fields of a frame. -/
theorem stringSize_fieldNames :
    Json.stringSize "type" = 6 ∧ Json.stringSize "data" = 6 ∧ Json.stringSize "name" = 6 ∧
    Json.stringSize "value" = 7 ∧ Json.stringSize "protocolVersion" = 17 ∧
    Json.stringSize "connectorToken" = 16 ∧ Json.stringSize "installationId" = 16 ∧
    Json.stringSize "generation" = 12 ∧ Json.stringSize "maxConcurrentRequests" = 23 ∧
    Json.stringSize "maxChunkBytes" = 15 ∧ Json.stringSize "requestId" = 11 ∧
    Json.stringSize "method" = 8 ∧ Json.stringSize "target" = 8 ∧ Json.stringSize "headers" = 9 ∧
    Json.stringSize "deadlineUnixMs" = 16 ∧ Json.stringSize "status" = 8 ∧
    Json.stringSize "code" = 6 ∧ Json.stringSize "message" = 9 ∧ Json.stringSize "nonce" = 7 := by
  decide

theorem itemsSize_headers {headers : List HeaderField}
    (h : ∀ field ∈ headers, field.validate = .ok ()) :
    Json.itemsSize (headers.map HeaderField.toJson) = headersTextSize headers := by
  have hfield : ∀ field ∈ headers, (HeaderField.toJson field).size =
      Rust.len field.name + textSize field.value + 22 := by
    intro field hmem
    obtain ⟨hname, hvalue⟩ := stringSize_header (h field hmem)
    obtain ⟨-, -, hkey, hkey', -⟩ := stringSize_fieldNames
    simp only [HeaderField.toJson, Json.Value.size, Json.fieldsSize, hname, hvalue, hkey, hkey']
    omega
  rw [Json.itemsSize_eq, List.map_map, List.length_map]
  exact congrArg (fun sizes => sizes.sum + (headers.length - 1)) (List.map_congr_left hfield)

/-! ### Frames -/

namespace RelayControlFrame

theorem size_requestStart {frame : RequestStartFrame} (h : frame.validate = .ok ()) :
    (requestStart frame).toJson.size =
      139 + Rust.len frame.method.value + textSize frame.target + headersTextSize frame.headers +
        Rust.len frame.deadlineUnixMs.toNat.repr := by
  have hheaders := itemsSize_headers (validateHeaders_ok_iff.mp (validateHeaders_of_start h)).2.1
  have hdigits : frame.deadlineUnixMs.toNat.repr.utf8ByteSize =
    Rust.len frame.deadlineUnixMs.toNat.repr := rfl
  have hname : Json.stringSize "request_start" = 15 := by decide
  simp only [toJson, typeName, data, Json.Value.size, Json.fieldsSize, stringSize_fieldNames,
    Rust.stringSize_hyphenated, stringSize_target h, stringSize_method, hheaders, hdigits, hname]
  omega

theorem size_responseStart {frame : ResponseStartFrame} (h : frame.validate = .ok ()) :
    (responseStart frame).toJson.size = 111 + headersTextSize frame.headers := by
  have hheaders :=
    itemsSize_headers (validateHeaders_ok_iff.mp (validateHeaders_of_responseStart h)).2.1
  have hdigits : frame.status.toNat.repr.utf8ByteSize = 3 := by
    unfold ResponseStartFrame.validate at h
    split_ifs at h with hstatus
    have hge : 100 ≤ frame.status.toNat := UInt16.le_iff_toNat_le.mp hstatus.1
    have hle : frame.status.toNat ≤ 599 := UInt16.le_iff_toNat_le.mp hstatus.2
    have htwo := @Json.utf8ByteSize_repr_le_iff frame.status.toNat 2 (by decide)
    have hthree := @Json.utf8ByteSize_repr_le_iff frame.status.toNat 3 (by decide)
    omega
  have hname : Json.stringSize "response_start" = 16 := by decide
  simp only [toJson, typeName, data, Json.Value.size, Json.fieldsSize, stringSize_fieldNames,
    Rust.stringSize_hyphenated, hheaders, hdigits, hname]
  omega

/-- The bytes of a number of at most 64 bits. -/
theorem digits_le {n : Nat} (h : n < 2 ^ 64) : n.repr.utf8ByteSize ≤ 20 :=
  (Json.utf8ByteSize_repr_le_iff (by decide)).mpr (by omega)

/-- A token has at most 256 bytes. -/
theorem len_token_le (token : CloudCore.SecretToken) : Rust.len token.value ≤ 256 := by
  obtain ⟨parsed, hparsed⟩ := token.valid
  unfold CloudCore.ParsedToken.parse at hparsed
  split at hparsed
  next => cases hparsed
  next hlong =>
    rw [← Rust.length_bytes]
    exact Nat.not_lt.mp hlong

/-- Every other frame is short. -/
theorem size_le_of_other {frame : RelayControlFrame} (hvalid : (Frame.control frame).Valid)
    (hstart : ∀ f, frame ≠ .requestStart f) (hresponse : ∀ f, frame ≠ .responseStart f) :
    frame.toJson.size ≤ 64 * 1024 := by
  have hnames : ∀ name ∈ ["client_hello", "server_ready", "request_start", "request_end",
      "response_start", "response_end", "cancel", "request_failed", "ping", "pong"],
      Json.stringSize name ≤ 16 := by decide
  have hname : Json.stringSize frame.typeName ≤ 16 := by
    refine hnames _ ?_
    cases frame <;> simp [typeName]
  cases frame with
  | clientHello f =>
      have htoken := Json.stringSize_le f.connectorToken.value
      have hlen := len_token_le f.connectorToken
      have hversion := digits_le (n := f.protocolVersion.toNat)
        (f.protocolVersion.toNat_lt.trans (by decide))
      unfold Rust.len at hlen
      simp only [toJson, data, Json.Value.size, Json.fieldsSize, stringSize_fieldNames]
      omega
  | serverReady f =>
      have hgeneration := digits_le f.generation.toNat_lt
      have hrequests := digits_le (n := f.maxConcurrentRequests.toNat)
        (f.maxConcurrentRequests.toNat_lt.trans (by decide))
      have hchunk := digits_le (n := f.maxChunkBytes.toNat)
        (f.maxChunkBytes.toNat_lt.trans (by decide))
      simp only [toJson, data, Json.Value.size, Json.fieldsSize, stringSize_fieldNames,
        Rust.stringSize_hyphenated]
      omega
  | requestStart f => exact absurd rfl (hstart f)
  | responseStart f => exact absurd rfl (hresponse f)
  | requestEnd f | responseEnd f | cancel f =>
      simp only [toJson, data, Json.Value.size, Json.fieldsSize, stringSize_fieldNames,
        Rust.stringSize_hyphenated]
      omega
  | requestFailed f =>
      have hmessage := Json.stringSize_le f.message
      have hlen : Rust.len f.message ≤ 200 := by
        have hvalid : f.validMessage = true := hvalid
        simp only [RequestFailedFrame.validMessage, Bool.not_eq_true', Bool.or_eq_false_iff,
          decide_eq_false_iff_not, Nat.not_lt] at hvalid
        exact hvalid.1
      have hcode : f.code.toJson.size ≤ 13 := by
        cases f.code <;> decide
      unfold Rust.len at hlen
      simp only [toJson, data, Json.Value.size, Json.fieldsSize, stringSize_fieldNames,
        Rust.stringSize_hyphenated]
      omega
  | ping f | pong f =>
      have hnonce := digits_le f.nonce.toNat_lt
      simp only [toJson, data, Json.Value.size, Json.fieldsSize, stringSize_fieldNames]
      omega

/-- A frame fits if and only if its JSON does. -/
theorem fitsControl_iff {frame : RelayControlFrame} (hvalid : (Frame.control frame).Valid) :
    frame.FitsControl ↔ frame.toJson.size ≤ maxControlBytes := by
  by_cases hstart : ∃ f, frame = .requestStart f
  · obtain ⟨f, rfl⟩ := hstart
    rw [size_requestStart hvalid]
    exact Iff.rfl
  · by_cases hresponse : ∃ f, frame = .responseStart f
    · obtain ⟨f, rfl⟩ := hresponse
      rw [size_responseStart hvalid]
      exact Iff.rfl
    · simp only [not_exists] at hstart hresponse
      refine iff_of_true ?_ (size_le_of_other hvalid hstart hresponse)
      cases frame with
      | requestStart f => exact absurd rfl (hstart f)
      | responseStart f => exact absurd rfl (hresponse f)
      | _ => trivial

end RelayControlFrame

/-! ## What the connector reads -/

/-- The reader gets the text that the writer built. -/
theorem bind_encodeControl {codec : ControlCodec} {frame : RelayControlFrame}
    {α : Type} (f : String → Except RelayValidationError α) :
    (encodeControl codec frame).bind f = f (codec.toString frame) := by
  rfl

/-- A text that is too long is refused. -/
theorem decodeControl_large {fromStr : String → Option RelayControlFrame}
    {frame : RelayControlFrame} (h : maxControlBytes < frame.toJson.size) :
    (encodeControl (jsonCodec fromStr) frame).bind (decodeControl (jsonCodec fromStr)) =
      .error .headersTooLarge := by
  have hsize : Rust.len ((jsonCodec fromStr).toString frame) = frame.toJson.size :=
    Json.utf8ByteSize_render _
  rw [bind_encodeControl]
  simp only [decodeControl, hsize, h, if_true]

/-- An accepted control frame comes back from its text if and only if it fits. -/
theorem control_codec_covers_iff {fromStr : String → Option RelayControlFrame}
    {s s' : RelaySessionState} {frame : RelayControlFrame}
    (hacc : s.observeControl frame = (.ok (), s')) (hread : (jsonCodec fromStr).Carries frame) :
    (encodeControl (jsonCodec fromStr) frame).bind (decodeControl (jsonCodec fromStr)) =
      .ok frame ↔ frame.FitsControl := by
  have hvalid : (Frame.control frame).Valid :=
    (RelaySessionState.accepted_of_observeControl hacc).valid
  rw [RelayControlFrame.fitsControl_iff hvalid]
  by_cases hlarge : maxControlBytes < frame.toJson.size
  · rw [decodeControl_large hlarge]
    simp [hlarge]
  · have hsize : Rust.len ((jsonCodec fromStr).toString frame) = frame.toJson.size :=
      Json.utf8ByteSize_render _
    have hback : (jsonCodec fromStr).fromStr ((jsonCodec fromStr).toString frame) = some frame :=
      hread
    rw [bind_encodeControl]
    simp [decodeControl, hsize, hlarge, hback, Nat.not_lt.mp hlarge]

/-! ### A request start the connector refuses -/

/-- The value of a header, `n` times the letter `a`. -/
def letters (n : Nat) : String := String.ofList (List.replicate n 'a')

theorem bytes_letters (n : Nat) : Rust.bytes (letters n) = List.replicate n 0x61 := by
  rw [letters, Rust.bytes_ofList]
  induction n with
  | zero => rfl
  | succ n ih =>
      rw [List.replicate_succ, List.flatMap_cons, ih]
      rfl

/-- A request start with one header whose value is that long. -/
def longStart (n : Nat) : RequestStartFrame where
  requestId := 0
  method := ⟨"GET", get_mem_httpMethods⟩
  target := "/"
  headers := [⟨"a", letters n⟩]
  deadlineUnixMs := 1

theorem len_letters (n : Nat) : Rust.len (letters n) = n := by
  rw [← Rust.length_bytes, bytes_letters, List.length_replicate]

theorem validate_letters (n : Nat) : (⟨"a", letters n⟩ : HeaderField).validate = .ok () := by
  have hname : (Rust.bytes "a").all isHeaderNameByte = true := by decide
  have hforbidden : isForbiddenHeader "a" = false := by decide
  have hvalue : (Rust.bytes (letters n)).any
      (fun byte => (Rust.isAsciiControl byte && byte != 0x09) || byte == 0x7f) = false := by
    rw [bytes_letters, List.any_replicate]
    split <;> decide
  simp [HeaderField.validate, hname, hvalue, hforbidden]

theorem validate_longStart {n : Nat} (h : n < maxHeaderBytes) :
    (longStart n).validate = .ok () := by
  have hheaders : validateHeaders (longStart n).headers = .ok () := by
    refine validateHeaders_ok_iff.mpr ⟨?_, ?_, ?_⟩
    · show 1 ≤ maxHeaderCount
      decide
    · intro header hmem
      rw [List.mem_singleton.mp hmem]
      exact validate_letters n
    · have hone : Rust.len "a" = 1 := rfl
      simp only [longStart, headersSize, len_letters, hone]
      omega
  have htarget : ("/".isEmpty || maxTargetBytes < Rust.len "/" || !Rust.startsWith "/" "/"
      || Rust.startsWith "/" "//" || Rust.contains "/" "#" || Rust.contains "/" "://"
      || Rust.contains "/" "\\" || (Rust.bytes "/").any Rust.isAsciiControl) = false := by
    decide
  unfold RequestStartFrame.validate
  rw [show (longStart n).target = "/" from rfl, htarget]
  exact hheaders

theorem not_fits_longStart {n : Nat} (h : 65400 ≤ n) :
    ¬ (RelayControlFrame.requestStart (longStart n)).FitsControl := by
  have hsize : n + 22 ≤ headersTextSize (longStart n).headers := by
    simp only [longStart, headersTextSize, textSize, len_letters, List.map_cons, List.map_nil,
      List.sum_cons, List.sum_nil]
    omega
  simp only [RelayControlFrame.FitsControl]
  omega

theorem idle_longStart (n : Nat) : RelaySessionState.ready.Idle (longStart n).requestId :=
  ⟨rfl, rfl, Finset.notMem_empty _, by decide⟩

/-- The session admits a request start that the connector refuses to read. -/
theorem control_codec_refuses_start : ∃ (s s' : RelaySessionState) (frame : RequestStartFrame),
    RelaySessionState.sessionSystem.Reachable s ∧
    s.observeControl (.requestStart frame) = (.ok (), s') ∧
    ∀ fromStr, (encodeControl (jsonCodec fromStr) (.requestStart frame)).bind
      (decodeControl (jsonCodec fromStr)) = .error .headersTooLarge := by
  obtain ⟨n, hle, hge⟩ : ∃ n, n < maxHeaderBytes ∧ 65400 ≤ n := ⟨65500, by decide, by decide⟩
  have hvalid : (Frame.control (.requestStart (longStart n))).Valid := validate_longStart hle
  refine ⟨.ready, _, longStart n, RelaySessionState.reachable_ready,
    RelaySessionState.observe_start (idle_longStart n) hvalid, fun fromStr => ?_⟩
  refine decodeControl_large (Nat.lt_of_not_le ?_)
  exact (RelayControlFrame.fitsControl_iff hvalid).not.mp (not_fits_longStart hge)

/-- Reads the text of a ping. -/
def readPing (text : String) : Option RelayControlFrame :=
  if text = "\x7b\"type\":\"ping\",\"data\":\x7b\"nonce\":9\x7d\x7d" then some (.ping ⟨9⟩) else none

/-- A ping comes back from its text. -/
theorem control_codec_covers_ping :
    (encodeControl (jsonCodec readPing) (.ping ⟨9⟩)).bind (decodeControl (jsonCodec readPing)) =
      .ok (.ping ⟨9⟩) := by
  have hacc : RelaySessionState.observeControl .ready (.ping ⟨9⟩) = (.ok (), .ready) := rfl
  exact (control_codec_covers_iff hacc (by decide)).mpr trivial

end Cresix.Relay
