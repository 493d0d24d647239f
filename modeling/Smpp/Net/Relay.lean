import Smpp.Net.EndToEnd

/-!
# Sending on what was received

A session that hands the PDUs it receives to another session.  Decoding accepts bodies that
encoding never writes: reserved bits, parameters that occur twice, octets behind the last field.
What comes out of it can nevertheless be sent on, and it does not grow.

Main results:

- Theorem {lit}`Receiver.taken_of_completed`: a PDU that an operation completes with was decoded
  from a frame that the buffer held.
- Theorem {lit}`Session.relayable_of_run`: every PDU that a session receives can be sent on to a
  peer with the same buffer, and arrives there as it is.
-/

namespace Smpp

namespace Receiver

variable {N : Nat} {r r' : Receiver N} {event : ReceiveEvent} {obs : List ReceiveObs}
variable {es : List ReceiveEvent} {os : List ReceiveObs} {completion : Completion}

/-- The operation completes with what a frame in the buffer was decoded to. -/
def Taken (N : Nat) (completion : Completion) : Prop :=
  ∃ commandId frame, headerLength ≤ frame.length ∧ frame.length ≤ N ∧
    completion.pdu = decodeFrame commandId frame

theorem taken_of_deliver (hdeliver : Deliver r r' obs) (hmem : .completed completion ∈ obs) :
    Taken N completion := by
  cases hdeliver with
  | undefined hrange => cases hmem
  | completed hheader hsize =>
      have hsame := List.mem_pair.mp hmem
      simp only [consumedObs, reduceCtorEq, ReceiveObs.completed.injEq, false_or] at hsame
      have hlength : (r.receiveBuf.readable.take r.op.header.commandLength.toNat).length =
          r.op.header.commandLength.toNat := by
        rw [List.length_take, StaticFlatBuffer.length_readable]
        omega
      refine ⟨_, _, ?_, ?_, by rw [hsame]⟩
      · rw [hlength]
        exact hheader
      · rw [hlength]
        exact hsize.trans r.receiveBuf.size_le

/-- A successful completion takes a frame. -/
theorem taken_of_move (hmove : Move r event r' obs) (hmem : .completed completion ∈ obs)
    (hec : completion.ec = .success) : Taken N completion := by
  cases hmove with
  | asyncReceive | startRead | incomplete => simp at hmem
  | dispatch hstage hneeds hwhole hdispatch =>
      cases hdispatch with
      | enquireLink | enquireLinkResp | unbind | post => simp [consumedObs] at hmem
      | unbindResp hid =>
          have hsame : completion = { ec := .smpp .unbinded } := by
            simpa [consumedObs] using hmem
          rw [hsame] at hec
          cases hec
      | deliver hid hpost hdeliver =>
          rcases List.mem_cons.mp hmem with hmem | hmem
          · cases hmem
          · exact taken_of_deliver hdeliver hmem
  | resume hresume =>
      have hfails : ∀ {ec : ErrorCode}, completion = { ec := ec } → ec ≠ .success →
          Taken N completion := by
        rintro ec rfl herror
        exact absurd hec herror
      cases hresume with
      | readTimeoutAgain | readTimeout | read | enquireLinkSent | enquireLinkRespSent | cancel =>
          simp [consumedObs] at hmem
      | readError hstage hroom herror hcancelled =>
          exact hfails (by simpa using hmem) herror
      | sendError hstage herror => exact hfails (by simpa using hmem) herror
      | unbindSent => exact hfails (by simpa using hmem) (by simp)
      | unbindRespSent => exact hfails (by simpa [consumedObs] using hmem) (by simp)
      | posted hstage hdeliver => exact taken_of_deliver hdeliver hmem

/-- Every PDU that a receive operation completes with was decoded from a frame that the buffer
held. -/
theorem taken_of_completed (hrun : (machine N).Run EventMachine.anyStep es os r)
    (hmem : .completed completion ∈ os) (hec : completion.ec = .success) :
    Taken N completion := by
  induction hrun with
  | refl => cases hmem
  | snoc before hstep _ ih =>
      rcases List.mem_append.mp hmem with hmem | hmem
      · exact ih hmem
      · exact taken_of_move (move_of_step hstep) hmem hec

end Receiver

/-- What a frame was decoded to passes every check of the encoder, keeps its flags, holds no NUL
in a C string, and is no larger than the frame, or else it is the default value. -/
theorem relayable_of_decodeFrame {commandId : CommandId} {frame : Octets} {t : PduType}
    {pdu : t.Struct} (hpdu : decodeFrame commandId frame = .pdu t pdu) :
    (t.Fits pdu ∧ t.NulFree pdu ∧ t.FlagsKept pdu) ∧
      (headerLength + t.size pdu ≤ frame.length ∨ pdu = t.pduMeta.default) := by
  rcases eq_of_decodeFrame hpdu with ⟨_, hdecoded⟩
  refine ⟨PduType.fits_of_deserialize hdecoded, ?_⟩
  by_cases hbody : frame.drop headerLength = []
  · rw [hbody, PduType.deserialize_nil] at hdecoded
    injection hdecoded with hdefault
    exact Or.inr hdefault.symm
  · have hle := PduType.size_le_of_deserialize hbody hdecoded
    have hpos := List.length_pos_iff.mpr hbody
    rw [List.length_drop] at hle hpos
    exact Or.inl (by omega)

namespace SendKind

variable {kind : SendKind} {t : PduType} {pdu : t.Struct}

/-- A value that passes the checks of its encoder fills a send buffer. -/
theorem exists_fillBody (hvalue : kind.value = some ⟨t, pdu⟩) (hfits : t.Fits pdu) :
    ∃ sendBuf, kind.fillBody = .ok sendBuf := by
  cases kind with
  | command commandId n => cases hvalue
  | request t pdu hrequest | response t pdu n commandStatus hresponse =>
      cases hvalue
      exact ⟨_, serialize_of_fits hfits⟩

/-- A value that keeps its flags and holds no NUL in a C string is portable. -/
theorem portable_of_value (hvalue : kind.value = some ⟨t, pdu⟩) (hflags : t.FlagsKept pdu)
    (hnul : t.NulFree pdu) : kind.Portable := by
  cases kind with
  | command commandId n => trivial
  | request t pdu hrequest | response t pdu n commandStatus hresponse =>
      cases hvalue
      exact ⟨hflags, hnul⟩

end SendKind

/-- No default value is too large for the receive buffer. -/
theorem size_default_le (t : PduType) :
    headerLength + t.size t.pduMeta.default ≤ receiveCapacity := by
  cases t <;> decide

/-- In every run of a session whose buffer is no larger than that of its peers, a PDU that a receive
operation completes with can be sent on as a request or a response: it is serialized, its frame
fits the receive buffer of a peer, and the peer receives exactly this PDU. -/
theorem Session.relayable_of_run {N : Nat} (hN : N ≤ receiveCapacity) (es : List SessionEvent)
    (os : List SessionObs) (s : Session N)
    (hrun : (Session.machine N).Run EventMachine.anyStep es os s) (completion : Completion)
    (hmem : .receive (.completed completion) ∈ os)
    (hec : completion.ec = .success) (t : PduType) (pdu : t.Struct)
    (hpdu : completion.pdu = .pdu t pdu) (kind : SendKind) (hvalue : kind.value = some ⟨t, pdu⟩) :
    kind.Portable ∧ ∃ sendBuf, kind.fillBody = .ok sendBuf ∧ ∀ n,
      Receivable t pdu (kind.frame sendBuf n) ∧
        delivery (kind.frame sendBuf n) = kind.message (kind.frame sendBuf n) := by
  rcases (halves_of_run hrun).2 with ⟨_, hrecv, _⟩
  have hshown : .completed completion ∈ receivePart os := List.mem_filterMap.mpr ⟨_, hmem, rfl⟩
  rcases Receiver.taken_of_completed hrecv hshown hec with ⟨commandId, frame, _, hframe, htaken⟩
  rw [hpdu] at htaken
  rcases relayable_of_decodeFrame htaken.symm with ⟨⟨hfits, hnul, hflags⟩, hsize⟩
  have hle : headerLength + t.size pdu ≤ receiveCapacity := by
    rcases hsize with hsize | rfl
    · exact (hsize.trans hframe).trans hN
    · exact size_default_le t
  rcases SendKind.exists_fillBody hvalue hfits with ⟨sendBuf, hfill⟩
  refine ⟨SendKind.portable_of_value hvalue hflags hnul, sendBuf, hfill, fun n => ?_⟩
  have hreceivable :=
    receivable_of_fits hvalue hfill n hle (PduType.readable_of_nulFree hfits hnul)
  have hcapacity : receiveCapacity < 2 ^ 32 := by decide
  exact ⟨hreceivable, SendKind.delivery_of_value hvalue hflags hnul hfill n
    (hreceivable.fits.trans_lt hcapacity)⟩

/-- A {lit}`submit_sm_resp` with an octet behind its last field is received and sent on. -/
theorem Session.relayable_of_run_submitSmResp :
    ∃ es os, ∃ s : Session 64, (Session.machine 64).Run EventMachine.anyStep es os s ∧
      received es = encodeHeader ⟨18, .submitSmResp, .rok, 1⟩ ++ [0, 0x99] ∧
      ((SendKind.response .submitSmResp {} 7 .rok rfl).Portable ∧
        ∃ sendBuf, (SendKind.response .submitSmResp {} 7 .rok rfl).fillBody = .ok sendBuf ∧ ∀ n,
          Receivable .submitSmResp {}
              ((SendKind.response .submitSmResp {} 7 .rok rfl).frame sendBuf n) ∧
            delivery ((SendKind.response .submitSmResp {} 7 .rok rfl).frame sendBuf n) =
              (SendKind.response .submitSmResp {} 7 .rok rfl).message
                ((SendKind.response .submitSmResp {} 7 .rok rfl).frame sendBuf n)) := by
  have hrun := EventMachine.steps_of_exec (M := Session.machine 64) (s := (Session.machine 64).init)
    [.receive .asyncReceive 0, .receive .iterate 0, .receive .iterate 0,
      .receive (.readDone .success (encodeHeader ⟨18, .submitSmResp, .rok, 1⟩ ++ [0, 0x99])) 0,
      .receive .iterate 0] rfl
  exact ⟨_, _, _, hrun, rfl, Session.relayable_of_run (by decide) _ _ _ hrun
    ⟨.success, .pdu .submitSmResp {}, 1, .rok⟩ (.tail _ (.tail _ (.tail _ (.head _)))) rfl
    .submitSmResp {} rfl _ rfl⟩

end Smpp
