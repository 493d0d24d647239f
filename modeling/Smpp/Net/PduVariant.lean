import Smpp.Net.Error
import Smpp.Net.HeaderSerialization
import Smpp.Pdu.Codec

/-!
# What a receive operation completes with

{lit}`pdu_variant` is one of the PDU types or an {lit}`invalid_pdu`.  A frame becomes a
variant by decoding its body as the type that owns its command identifier.

Main results:

- Theorem {lit}`decodeFrame_of_owner`: the body of a frame with a known identifier is
  decoded, and an exception becomes an {lit}`invalid_pdu`.
-/

namespace Smpp

/-- {lit}`pdu_variant`. -/
inductive PduVariant where
  | pdu (t : PduType) (pdu : t.Struct)
  | invalidPdu (buffer : Octets) (deserializationError : String)

/-- {lit}`pdu_variant` default-constructed: its first alternative. -/
instance : Inhabited PduVariant := ⟨.pdu .alertNotification {}⟩

/-- The arguments of the handler of {lit}`async_receive`. -/
structure Completion where
  ec : ErrorCode
  pdu : PduVariant := default
  sequenceNumber : UInt32 := 0
  commandStatus : CommandStatus := .rok

/-- The fold over the alternatives of {lit}`pdu_variant`: the body is decoded as the
first type whose identifier matches. -/
def deserializeVariant (commandId : CommandId) (bodyBuf : Octets) : Except Fault PduVariant :=
  match PduType.owner commandId with
  | some t => (t.deserialize bodyBuf).map (PduVariant.pdu t)
  | none => .error (.logicError "Unknown PDU")

/-- The {lit}`try` block of {lit}`receive_op` on the octets of one frame. -/
def decodeFrame (commandId : CommandId) (frame : Octets) : PduVariant :=
  match deserializeVariant commandId (frame.drop headerLength) with
  | .ok pdu => pdu
  | .error e => .invalidPdu frame e.what

/-- The body of a frame with a known identifier is decoded as the owning type, and
an exception becomes an {lit}`invalid_pdu` with the frame and the message. -/
theorem decodeFrame_of_owner {commandId : CommandId} {t : PduType}
    (howner : PduType.owner commandId = some t) (frame : Octets) :
    decodeFrame commandId frame =
      match t.deserialize (frame.drop headerLength) with
      | .ok pdu => .pdu t pdu
      | .error e => .invalidPdu frame e.what := by
  simp only [decodeFrame, deserializeVariant, howner]
  cases t.deserialize (frame.drop headerLength) <;> rfl

/-- A frame with an identifier that no type owns is an {lit}`invalid_pdu`. -/
theorem decodeFrame_of_unknown {commandId : CommandId}
    (howner : PduType.owner commandId = none) (frame : Octets) :
    decodeFrame commandId frame = .invalidPdu frame "Unknown PDU" := by
  simp only [decodeFrame, deserializeVariant, howner]
  rfl

/-- A frame that becomes a PDU has the identifier of its type, and its body was decoded. -/
theorem eq_of_decodeFrame {commandId : CommandId} {frame : Octets} {t : PduType} {pdu : t.Struct}
    (hpdu : decodeFrame commandId frame = .pdu t pdu) :
    PduType.owner commandId = some t ∧ t.deserialize (frame.drop headerLength) = .ok pdu := by
  cases howner : PduType.owner commandId with
  | none =>
      rw [decodeFrame_of_unknown howner] at hpdu
      cases hpdu
  | some t' =>
      rw [decodeFrame_of_owner howner] at hpdu
      split at hpdu
      · rename_i pdu' hdecoded
        cases hpdu
        exact ⟨rfl, hdecoded⟩
      · cases hpdu

end Smpp
