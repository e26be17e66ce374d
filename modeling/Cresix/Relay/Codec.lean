import Cresix.Library.Bytes
import Cresix.Relay.Frame

/-!
# Relay frames on the wire

A body frame is a binary WebSocket message: version, kind, request identifier,
sequence number and payload.  A control frame is a text message, and how JSON
writes and reads it is a parameter.
-/

namespace Cresix.Relay

open Rust (Uuid)

/-- A WebSocket message. -/
inductive Message where
  | text (text : String)
  | binary (bytes : List UInt8)
  | ping (bytes : List UInt8)
  | pong (bytes : List UInt8)
  | close
deriving DecidableEq

/-! ## Body frames -/

/-- The bytes before the payload. -/
def bodyHeaderBytes : Nat := 22

/-- `Uuid::as_bytes`. -/
def uuidBytes (id : Uuid) : List UInt8 := BigEndian.toBytes 16 id.toNat

/-- `Uuid::from_slice` on 16 bytes. -/
def uuidOfBytes (bytes : List UInt8) : Uuid := BitVec.ofNat 128 (BigEndian.ofBytes bytes)

/-- The byte of a kind. -/
def RelayBodyKind.byte : RelayBodyKind → UInt8
  | .requestChunk => 1
  | .responseChunk => 2

/-- The bytes `RelayBodyFrame::encode` puts together. -/
def RelayBodyFrame.wire (frame : RelayBodyFrame) : List UInt8 :=
  relayProtocolVersion.toUInt8 :: frame.kind.byte ::
    (uuidBytes frame.requestId ++ BigEndian.toBytes 4 frame.sequence.toNat ++ frame.payload)

/-- `RelayBodyFrame::encode`. -/
def RelayBodyFrame.encode (frame : RelayBodyFrame) : Except RelayValidationError (List UInt8) :=
  if maxBodyChunkBytes < frame.payload.length then .error .chunkTooLarge
  else .ok frame.wire

/-- `RelayBodyFrame::decode`. -/
def RelayBodyFrame.decode (input : List UInt8) : Except RelayValidationError RelayBodyFrame :=
  if input.length < bodyHeaderBytes then .error .malformedBodyFrame
  else if maxBodyChunkBytes < input.length - bodyHeaderBytes then .error .chunkTooLarge
  else match input with
    | version :: kind :: rest =>
        if version ≠ relayProtocolVersion.toUInt8 then .error .unsupportedProtocol
        else
          let decoded (kind : RelayBodyKind) : RelayBodyFrame :=
            { kind
              requestId := uuidOfBytes (rest.take 16)
              sequence := UInt32.ofNat (BigEndian.ofBytes ((rest.drop 16).take 4))
              payload := rest.drop 20 }
          if kind = 1 then .ok (decoded .requestChunk)
          else if kind = 2 then .ok (decoded .responseChunk)
          else .error .malformedBodyFrame
    | _ => .error .malformedBodyFrame

theorem uuidOfBytes_uuidBytes (id : Uuid) : uuidOfBytes (uuidBytes id) = id := by
  have hlt : id.toNat < 256 ^ 16 := by
    have hid := id.isLt
    omega
  rw [uuidOfBytes, uuidBytes, BigEndian.ofBytes_toBytes hlt, BitVec.ofNat_toNat]
  exact BitVec.setWidth_eq id

/-- The fields of an encoded frame, cut out again. -/
theorem wire_fields {id sequence : List UInt8} (payload : List UInt8) (hid : id.length = 16)
    (hsequence : sequence.length = 4) :
    (id ++ sequence ++ payload).take 16 = id ∧
      ((id ++ sequence ++ payload).drop 16).take 4 = sequence ∧
      (id ++ sequence ++ payload).drop 20 = payload := by
  refine ⟨?_, ?_, ?_⟩
  · rw [List.append_assoc, List.take_left' hid]
  · rw [List.append_assoc, List.drop_left' hid, List.take_left' hsequence]
  · exact List.drop_left' (by rw [List.length_append, hid, hsequence])

/-- A body frame within the chunk size survives the wire. -/
theorem RelayBodyFrame.decode_wire {frame : RelayBodyFrame}
    (hsize : frame.payload.length ≤ maxBodyChunkBytes) :
    RelayBodyFrame.decode frame.wire = .ok frame := by
  have hid : (uuidBytes frame.requestId).length = 16 := BigEndian.length_toBytes ..
  have hseq : (BigEndian.toBytes 4 frame.sequence.toNat).length = 4 :=
    BigEndian.length_toBytes ..
  have hlt : frame.sequence.toNat < 256 ^ 4 := by
    have hsequence := frame.sequence.toNat_lt
    omega
  obtain ⟨htake, hmid, hdrop⟩ := wire_fields frame.payload hid hseq
  generalize hrest : uuidBytes frame.requestId ++ BigEndian.toBytes 4 frame.sequence.toNat ++
    frame.payload = rest at htake hmid hdrop
  have hlen : rest.length = 20 + frame.payload.length := by
    rw [← hrest, List.length_append, List.length_append, hid, hseq]
  have hfields : (⟨frame.kind, uuidOfBytes (rest.take 16),
      UInt32.ofNat (BigEndian.ofBytes ((rest.drop 16).take 4)), rest.drop 20⟩ : RelayBodyFrame)
        = frame := by
    rw [htake, hmid, hdrop, uuidOfBytes_uuidBytes, BigEndian.ofBytes_toBytes hlt,
      UInt32.ofNat_toNat]
  have hlong : (relayProtocolVersion.toUInt8 :: frame.kind.byte :: rest).length =
      22 + frame.payload.length := by
    rw [List.length_cons, List.length_cons, hlen]
    omega
  rw [wire, hrest]
  unfold decode
  split
  next hshort =>
    rw [hlong, bodyHeaderBytes] at hshort
    omega
  next =>
    split
    next hlarge =>
      rw [hlong, bodyHeaderBytes] at hlarge
      omega
    next =>
      dsimp only
      split
      next hversion => exact absurd rfl hversion
      next =>
        cases hkind : frame.kind with
        | requestChunk =>
            rw [hkind] at hfields
            exact (if_pos rfl).trans (congrArg Except.ok hfields)
        | responseChunk =>
            rw [hkind] at hfields
            exact (if_neg (by decide)).trans ((if_pos rfl).trans (congrArg Except.ok hfields))

/-! ### What is decoded -/

theorem uuidBytes_uuidOfBytes {bytes : List UInt8} (h : bytes.length = 16) :
    uuidBytes (uuidOfBytes bytes) = bytes := by
  have hlt := BigEndian.ofBytes_lt bytes
  rw [h] at hlt
  have hnat : (uuidOfBytes bytes).toNat = BigEndian.ofBytes bytes := by
    rw [uuidOfBytes, BitVec.toNat_ofNat]
    exact Nat.mod_eq_of_lt (by omega)
  rw [uuidBytes, hnat, ← h, BigEndian.toBytes_ofBytes]

theorem toBytes_sequence {bytes : List UInt8} (h : bytes.length = 4) :
    BigEndian.toBytes 4 (UInt32.ofNat (BigEndian.ofBytes bytes)).toNat = bytes := by
  have hlt := BigEndian.ofBytes_lt bytes
  rw [h] at hlt
  have hnat : (UInt32.ofNat (BigEndian.ofBytes bytes)).toNat = BigEndian.ofBytes bytes := by
    rw [UInt32.toNat_ofNat']
    exact Nat.mod_eq_of_lt (by omega)
  rw [hnat, ← h, BigEndian.toBytes_ofBytes]

/-- The fields that are cut out of some bytes, put together again. -/
theorem fields_append {rest : List UInt8} (h : 20 ≤ rest.length) :
    uuidBytes (uuidOfBytes (rest.take 16)) ++
      BigEndian.toBytes 4 (UInt32.ofNat (BigEndian.ofBytes ((rest.drop 16).take 4))).toNat ++
      rest.drop 20 = rest := by
  have hid : (rest.take 16).length = 16 := by simp; omega
  have hsequence : ((rest.drop 16).take 4).length = 4 := by simp; omega
  have hdrop : (rest.drop 16).drop 4 = rest.drop 20 := by rw [List.drop_drop]
  rw [uuidBytes_uuidOfBytes hid, toBytes_sequence hsequence, List.append_assoc, ← hdrop,
    List.take_append_drop, List.take_append_drop]

/-- The bytes that are decoded are those of the frame they give. -/
theorem RelayBodyFrame.wire_decode {input : List UInt8} {frame : RelayBodyFrame}
    (h : RelayBodyFrame.decode input = .ok frame) :
    frame.wire = input ∧ frame.payload.length ≤ maxBodyChunkBytes := by
  unfold decode at h
  split at h
  next => cases h
  next hlong =>
    split at h
    next => cases h
    next hsmall =>
      cases input with
      | nil => cases h
      | cons version tail =>
          cases tail with
          | nil => cases h
          | cons kind rest =>
              simp only [List.length_cons, bodyHeaderBytes, Nat.not_lt] at hlong hsmall
              have hrest : 20 ≤ rest.length := by omega
              have hpayload : (rest.drop 20).length ≤ maxBodyChunkBytes := by
                rw [List.length_drop]
                omega
              dsimp only at h
              split_ifs at h with hversion hrequest hresponse
              · cases h
                simp only [not_not] at hversion
                refine ⟨?_, hpayload⟩
                rw [wire, fields_append hrest, hversion, hrequest]
                rfl
              · cases h
                simp only [not_not] at hversion
                refine ⟨?_, hpayload⟩
                rw [wire, fields_append hrest, hversion, hresponse]
                rfl

/-- A frame is encoded as some bytes if and only if they are decoded as the
frame, so what is decoded is what is encoded. -/
theorem RelayBodyFrame.body_codec (bytes : List UInt8) :
    (∀ frame : RelayBodyFrame, frame.encode = .ok bytes ↔ decode bytes = .ok frame) ∧
    ((∃ frame, decode bytes = .ok frame) ↔ ∃ frame : RelayBodyFrame, frame.encode = .ok bytes) := by
  have hcodec : ∀ frame : RelayBodyFrame, frame.encode = .ok bytes ↔ decode bytes = .ok frame := by
    intro frame
    constructor
    · intro hencode
      unfold encode at hencode
      split at hencode
      next => cases hencode
      next hsize =>
        cases hencode
        exact decode_wire (Nat.not_lt.mp hsize)
    · intro hdecode
      obtain ⟨rfl, hsize⟩ := wire_decode hdecode
      exact if_neg (Nat.not_lt.mpr hsize)
  exact ⟨hcodec, exists_congr fun frame => (hcodec frame).symm⟩

/-! ## Control frames -/

/-- How JSON writes and reads control frames. -/
structure ControlCodec where
  /-- `serde_json::to_string`. -/
  toString : RelayControlFrame → String
  /-- `serde_json::from_str`. -/
  fromStr : String → Option RelayControlFrame

/-- What JSON writes for the frame it reads as the frame. -/
def ControlCodec.Carries (codec : ControlCodec) (frame : RelayControlFrame) : Prop :=
  codec.fromStr (codec.toString frame) = some frame

instance (codec : ControlCodec) (frame : RelayControlFrame) : Decidable (codec.Carries frame) :=
  inferInstanceAs (Decidable (_ = _))

/-- The largest control frame the connector reads. -/
def maxControlBytes : Nat := 64 * 1024

/-- `decode_control`. -/
def decodeControl (codec : ControlCodec) (text : String) :
    Except RelayValidationError RelayControlFrame :=
  if maxControlBytes < Rust.len text then .error .headersTooLarge
  else match codec.fromStr text with
    | some frame => .ok frame
    | none => .error .illegalTransition

/-- The message of a frame. -/
def Frame.message (codec : ControlCodec) : Frame → Message
  | .control frame => .text (codec.toString frame)
  | .body frame => .binary frame.wire

/-- A frame is put into a message when its chunk is not too large. -/
def encodeFrame (codec : ControlCodec) : Frame → Except RelayValidationError Message
  | .control frame => .ok (.text (codec.toString frame))
  | .body frame => frame.encode.map .binary

theorem encodeFrame_of_valid (codec : ControlCodec) {frame : Frame} (hvalid : frame.Valid) :
    encodeFrame codec frame = .ok (frame.message codec) := by
  cases frame with
  | control => rfl
  | body frame =>
      show (if _ then _ else _ : Except _ _).map _ = _
      rw [if_neg (Nat.not_lt.mpr (show _ ≤ _ from hvalid))]
      rfl

end Cresix.Relay
