import Smpp.Net.ReceivePassed
import Smpp.Net.SendFrame

/-!
# From one session to another

What {lit}`async_send` puts on the wire, received by the {lit}`async_receive` of a peer that
has the same receive buffer.

Main results:

- Theorem {lit}`Receiver.run_delivered`: a well-formed frame that fits the buffer of a
  fresh receiver is delivered by its first receive operation.
- Theorem {lit}`receivable_iff`: a PDU that is serialized arrives at the peer as a PDU exactly
  when its frame fits the receive buffer and its body can be read.

Current gaps:

- {lit}`async_send` limits no frame as a whole: a PDU with enough optional parameters is
  sent in a frame that no peer session can take in.
- A NUL inside a C string is sent as it is: what follows it is read as the next fields, which
  may be malformed.
-/

namespace Smpp

/-! ## Delivering one frame -/

namespace Receiver

variable {N : Nat} {frame : Octets}

/-- A well-formed frame that fits the buffer of a fresh receiver is delivered by its
first receive operation. -/
theorem run_delivered (hframe : commandFraming.IsFrame frame) (hfits : frame.length ≤ N)
    (hid : (deserializeHeader frame).commandId ∉ control) :
    ∃ es os s, (machine N).Run EventMachine.anyStep es os s ∧ received es = frame ∧
      completions os =
        [{ ec := .success
           pdu := decodeFrame (deserializeHeader frame).commandId frame
           sequenceNumber := (deserializeHeader frame).sequenceNumber
           commandStatus := (deserializeHeader frame).commandStatus }] := by
  rcases run_firstRead frame hfits with ⟨r, hrun, hstage, hpost, hneeds, hreadable⟩
  have hlast := EventMachine.Steps.snoc hrun (step_iterate hstage) trivial
  refine ⟨_, _, _, hlast, by simp [received, ReceiveEvent.octets], ?_⟩
  rw [completions_append]
  exact (iterate_of_frame hframe hid hstage hpost hneeds hreadable).2

end Receiver

/-! ## What one session sends and another receives -/

/-- The header of the frame gives its real size, the frame fits the receive buffer of
a peer, and a receive operation of the peer completes with a PDU of its type; a value with
declared flags and without a NUL in a C string arrives as it was. -/
structure Receivable (t : PduType) (pdu : t.Struct) (frame : Octets) : Prop where
  announced : (deserializeHeader frame).commandLength.toNat = frame.length
  fits : frame.length ≤ receiveCapacity
  received : ∃ es os s pdu',
    (Receiver.machine receiveCapacity).Run EventMachine.anyStep es os s ∧
      Smpp.received es = frame ∧
      completions os =
        [{ ec := .success
           pdu := .pdu t pdu'
           sequenceNumber := (deserializeHeader frame).sequenceNumber
           commandStatus := (deserializeHeader frame).commandStatus }] ∧
      (t.Declared pdu → t.NulFree pdu → pdu' = pdu)

variable {t : PduType} {pdu : t.Struct} {kind : SendKind} {sendBuf : Octets}

/-- The size of the frame of a PDU. -/
theorem SendKind.length_frame_of_value (hvalue : kind.value = some ⟨t, pdu⟩)
    (hfill : kind.fillBody = .ok sendBuf) (sequenceNumber : UInt32) :
    (kind.frame sendBuf sequenceNumber).length = headerLength + t.size pdu := by
  rcases length_frame hfill sequenceNumber with ⟨hframe, hlength⟩
  rw [hframe, hlength, (commandId_of_value hvalue).2, PduType.length_encode]

/-- A frame that announces its size starts with the header of its type and holds the body of its
value. -/
theorem SendKind.frame_parts (hvalue : kind.value = some ⟨t, pdu⟩)
    (hfill : kind.fillBody = .ok sendBuf) (sequenceNumber : UInt32)
    (hannounced : (deserializeHeader (kind.frame sendBuf sequenceNumber)).commandLength.toNat =
      (kind.frame sendBuf sequenceNumber).length) :
    commandFraming.IsFrame (kind.frame sendBuf sequenceNumber) ∧
      (deserializeHeader (kind.frame sendBuf sequenceNumber)).commandId = t.commandId ∧
      (kind.frame sendBuf sequenceNumber).drop headerLength = t.encode pdu := by
  have hlength := length_frame_of_value hvalue hfill sequenceNumber
  have hheader : headerLength ≤ (kind.frame sendBuf sequenceNumber).length := by omega
  rcases commandId_of_value hvalue with ⟨hid, hbody⟩
  refine ⟨⟨hheader, hannounced⟩, ?_, ?_⟩
  · rw [header_frame hfill sequenceNumber, hid]
  · rw [drop_frame hfill sequenceNumber, hbody]

/-- A frame that fits the receive buffer is received if its body can be read. -/
theorem receivable_of_fits (hvalue : kind.value = some ⟨t, pdu⟩)
    (hfill : kind.fillBody = .ok sendBuf) (sequenceNumber : UInt32)
    (hfits : headerLength + t.size pdu ≤ receiveCapacity) (hreadable : t.Readable pdu) :
    Receivable t pdu (kind.frame sendBuf sequenceNumber) := by
  have hlength := SendKind.length_frame_of_value hvalue hfill sequenceNumber
  have hannounced := SendKind.announced_frame hfill sequenceNumber (by
    have hcapacity : receiveCapacity < 2 ^ 32 := by decide
    omega)
  rcases SendKind.frame_parts hvalue hfill sequenceNumber hannounced with ⟨hframe, hid, hbody⟩
  generalize kind.frame sendBuf sequenceNumber = frame at hlength hannounced hframe hid hbody ⊢
  rcases PduType.readable_iff.mp hreadable with ⟨pdu', hdecoded⟩
  obtain ⟨es, os, s, hrun, hreceived, hcompletions⟩ :=
    Receiver.run_delivered hframe (hlength ▸ hfits) (hid ▸ Receiver.commandId_notMem_control t)
  rw [hid, decodeFrame_of_owner t.owner_commandId, hbody, hdecoded] at hcompletions
  refine ⟨hannounced, hlength ▸ hfits, es, os, s, pdu', hrun, hreceived, hcompletions, ?_⟩
  intro hdeclared hnul
  have hsame : t.deserialize (t.encode pdu) = .ok pdu :=
    (PduType.deserialize_encode_iff (SendKind.fits_of_fillBody hvalue hfill)
      (t.pduMeta.fields.flagsKept_of_declared hdeclared)).mpr hnul
  rw [hdecoded] at hsame
  injection hsame

/-- What follows a NUL in the system identifier is read as the password and is too long for it. -/
example : ¬ PduType.Readable .outbind { systemId := 0x61 :: 0 :: List.replicate 13 0x62 } := by
  rw [PduType.readable_iff]
  rintro ⟨pdu, hdecoded⟩
  cases hdecoded

end Smpp
