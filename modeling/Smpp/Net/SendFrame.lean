import Smpp.Net.HeaderSerialization
import Smpp.Pdu.Codec

/-!
# Frames that a session sends

The three kinds of send operations differ in what they put into the send buffer:
{lit}`async_send_command` a header alone, the two {lit}`async_send` a header and a body.

Main results:

- Theorem {lit}`SendKind.header_frame`: the header of a frame decodes to the identifier,
  the number and the status of the operation, and to the size of the frame modulo
  {lit}`2 ^ 32`.
- Theorem {lit}`SendKind.drop_frame`: the rest of the frame is the encoded body.
-/

namespace Smpp

/-- What a send operation sends: {lit}`async_send_command`, {lit}`async_send` of a request
PDU, {lit}`async_send` of a response PDU. -/
inductive SendKind where
  | command (commandId : CommandId) (sequenceNumber : UInt32)
  | request (t : PduType) (pdu : t.Struct) (hrequest : isResponse t.commandId = false)
  | response (t : PduType) (pdu : t.Struct) (sequenceNumber : UInt32)
      (commandStatus : CommandStatus) (hresponse : isResponse t.commandId = true)

namespace SendKind

/-- The command identifier of the frame. -/
def commandId : SendKind → CommandId
  | .command commandId _ => commandId
  | .request t _ _ | .response t _ _ _ _ => t.commandId

/-- The command status of the frame; only responses are given one. -/
def commandStatus : SendKind → CommandStatus
  | .command _ _ | .request _ _ _ => .rok
  | .response _ _ _ commandStatus _ => commandStatus

/-- The PDU that an operation sends. -/
def value : SendKind → Option ((t : PduType) × t.Struct)
  | .command _ _ => none
  | .request t pdu _ | .response t pdu _ _ _ => some ⟨t, pdu⟩

/-- The body of the frame. -/
def body : SendKind → Octets
  | .command _ _ => []
  | .request t pdu _ | .response t pdu _ _ _ => t.encode pdu

/-- {lit}`serialize_to(&send_buf_, pdu)` behind the room for the header. -/
def serialize (t : PduType) (pdu : t.Struct) : Except Fault Octets :=
  match (t.serializeTo pdu).run (List.replicate headerLength 0) with
  | .ok _ sendBuf => .ok sendBuf
  | .error e _ => .error e

/-- The send buffer in front of {lit}`serialize_header`. -/
def fillBody : SendKind → Except Fault Octets
  | .command _ _ => .ok (List.replicate headerLength 0)
  | .request t pdu _ | .response t pdu _ _ _ => serialize t pdu

/-- The send buffer behind {lit}`serialize_header`. -/
def frame (kind : SendKind) (sendBuf : Octets) (sequenceNumber : UInt32) : Octets :=
  match kind with
  | .command commandId _ =>
      serializeHeader sendBuf (UInt32.ofNat headerLength) commandId sequenceNumber
  | .request t _ _ =>
      serializeHeader sendBuf (UInt32.ofNat sendBuf.length) t.commandId sequenceNumber
  | .response t _ _ commandStatus _ =>
      serializeHeader sendBuf (UInt32.ofNat sendBuf.length) t.commandId sequenceNumber
        commandStatus

variable {kind : SendKind} {sendBuf : Octets} {t : PduType} {pdu : t.Struct}

theorem eq_of_serialize
    (hserialize : serialize t pdu = .ok sendBuf) :
    t.Fits pdu ∧ sendBuf = List.replicate headerLength 0 ++ t.encode pdu := by
  unfold serialize at hserialize
  split at hserialize
  · rename_i _ out hrun
    cases hserialize
    exact PduType.fits_of_run_serializeTo hrun
  · cases hserialize

/-- A value that passes the checks of its encoder is put behind the header. -/
theorem serialize_of_fits (hfits : t.Fits pdu) :
    serialize t pdu = .ok (List.replicate headerLength 0 ++ t.encode pdu) := by
  rw [serialize, PduType.run_serializeTo_of_fits hfits]

/-- The send buffer is the room for the header and the body. -/
theorem eq_of_fillBody (hfill : kind.fillBody = .ok sendBuf) :
    sendBuf = List.replicate headerLength 0 ++ kind.body := by
  cases kind with
  | command commandId sequenceNumber =>
      cases hfill
      simp [body]
  | request t pdu hrequest => exact (eq_of_serialize hfill).2
  | response t pdu sequenceNumber commandStatus hresponse => exact (eq_of_serialize hfill).2

theorem commandId_of_value (hvalue : kind.value = some ⟨t, pdu⟩) :
    kind.commandId = t.commandId ∧ kind.body = t.encode pdu := by
  cases kind with
  | command _ _ => cases hvalue
  | request _ _ _ | response _ _ _ _ _ =>
      cases hvalue
      exact ⟨rfl, rfl⟩

theorem fits_of_fillBody (hvalue : kind.value = some ⟨t, pdu⟩)
    (hfill : kind.fillBody = .ok sendBuf) : t.Fits pdu := by
  cases kind with
  | command _ _ => cases hvalue
  | request _ _ _ | response _ _ _ _ _ =>
      cases hvalue
      exact (eq_of_serialize hfill).1

/-- All three kinds write the size of the buffer into the header. -/
theorem frame_eq (hfill : kind.fillBody = .ok sendBuf) (sequenceNumber : UInt32) :
    kind.frame sendBuf sequenceNumber =
      serializeHeader sendBuf (UInt32.ofNat sendBuf.length) kind.commandId sequenceNumber
        kind.commandStatus := by
  cases kind with
  | command commandId _ =>
      cases hfill
      simp [frame, SendKind.commandId, SendKind.commandStatus]
  | request t pdu hrequest => rfl
  | response t pdu _ commandStatus hresponse => rfl

/-- The size of a frame. -/
theorem length_frame (hfill : kind.fillBody = .ok sendBuf) (sequenceNumber : UInt32) :
    (kind.frame sendBuf sequenceNumber).length = sendBuf.length ∧
      sendBuf.length = headerLength + kind.body.length := by
  have hlength : sendBuf.length = headerLength + kind.body.length := by
    rw [eq_of_fillBody hfill, List.length_append, List.length_replicate]
  rw [frame_eq hfill, length_serializeHeader (by omega)]
  exact ⟨rfl, hlength⟩

/-- The header of a frame describes the operation and the size of the frame. -/
theorem header_frame (hfill : kind.fillBody = .ok sendBuf) (sequenceNumber : UInt32) :
    deserializeHeader (kind.frame sendBuf sequenceNumber) =
      ⟨UInt32.ofNat (kind.frame sendBuf sequenceNumber).length, kind.commandId,
        kind.commandStatus, sequenceNumber⟩ := by
  rw [(length_frame hfill sequenceNumber).1, frame_eq hfill]
  exact (deserializeHeader_serializeHeader _ _ _ _ _).1

/-- The octets behind the header are the body. -/
theorem drop_frame (hfill : kind.fillBody = .ok sendBuf) (sequenceNumber : UInt32) :
    (kind.frame sendBuf sequenceNumber).drop headerLength = kind.body := by
  rw [frame_eq hfill, (deserializeHeader_serializeHeader _ _ _ _ _).2, eq_of_fillBody hfill,
    List.drop_left' List.length_replicate]

/-- The body is what {lit}`serialize_to` appends for the PDU. -/
theorem run_drop_frame (hvalue : kind.value = some ⟨t, pdu⟩)
    (hfill : kind.fillBody = .ok sendBuf) (sequenceNumber : UInt32) :
    (t.serializeTo pdu).run [] =
      .ok () ((kind.frame sendBuf sequenceNumber).drop headerLength) := by
  rw [drop_frame hfill, (commandId_of_value hvalue).2,
    PduType.run_serializeTo_of_fits (fits_of_fillBody hvalue hfill), List.nil_append]

/-- A frame is never empty. -/
theorem frame_ne_nil (hfill : kind.fillBody = .ok sendBuf) (sequenceNumber : UInt32) :
    kind.frame sendBuf sequenceNumber ≠ [] := by
  rcases length_frame hfill sequenceNumber with ⟨hframe, hlength⟩
  refine List.ne_nil_of_length_pos ?_
  have hheader : 0 < headerLength := by decide
  omega

/-- A frame below {lit}`2 ^ 32` octets announces its size. -/
theorem announced_frame (hfill : kind.fillBody = .ok sendBuf) (sequenceNumber : UInt32)
    (hlt : (kind.frame sendBuf sequenceNumber).length < 2 ^ 32) :
    (deserializeHeader (kind.frame sendBuf sequenceNumber)).commandLength.toNat =
      (kind.frame sendBuf sequenceNumber).length := by
  rw [header_frame hfill, UInt32.toNat_ofNat_of_lt' hlt]

end SendKind

end Smpp
