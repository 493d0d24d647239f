import Smpp.Net.ReceiveStream
import Smpp.Net.Session

/-!
# Nothing lost, nothing delivered twice

The PDUs that receive operations deliver are those of the frames that have left the buffer,
whatever the peer sends, however reads and sends end, and whenever an operation is cancelled.

Main results:

- Theorem {lit}`Receiver.passed_of_run`: in every run the frames of the stream are those
  delivered, those the session has handled itself, and those the buffer still holds.
- Theorem {lit}`Session.lossless_of_run`: two continuations of a run that are given the same
  octets deliver the same PDUs, the one that lags behind those it has got to.
-/

namespace Smpp

/-! ## Deliveries -/

/-- What the frame at the front of the octets is delivered as; the frames that the session
handles itself are not delivered. -/
def delivery (rest : Octets) : List Completion :=
  if (deserializeHeader rest).commandId ∈ Receiver.control then []
  else
    [{ ec := .success
       pdu := decodeFrame (deserializeHeader rest).commandId
         (rest.take (deserializeHeader rest).commandLength.toNat)
       sequenceNumber := (deserializeHeader rest).sequenceNumber
       commandStatus := (deserializeHeader rest).commandStatus }]

/-- The PDUs among some observations. -/
def deliveries (os : List ReceiveObs) : List Completion :=
  (completions os).filter (·.ec = .success)

@[simp]
theorem deliveries_append (os os' : List ReceiveObs) :
    deliveries (os ++ os') = deliveries os ++ deliveries os' := by
  rw [deliveries, completions_append, List.filter_append, deliveries, deliveries]

/-- A frame that has arrived is delivered as it is, whatever follows it. -/
theorem delivery_append (rest more : Octets) (hwhole : commandFraming.Whole rest) :
    delivery (rest ++ more) = delivery rest := by
  have hlength : (deserializeHeader rest).commandLength.toNat ≤ rest.length := hwhole.2
  rw [delivery, deserializeHeader_append more hwhole.1, List.take_append_of_le_length hlength,
    delivery]

namespace Receiver

variable {N : Nat} {r r' : Receiver N} {event : ReceiveEvent} {obs : List ReceiveObs}
variable {stream : Octets} {cs : List Completion}

/-! ## Frames that have left the buffer -/

/-- The frames in front of the buffer are those delivered and those the session has handled. -/
def Passed (stream : Octets) (cs : List Completion) (r : Receiver N) : Prop :=
  commandFraming.Passed delivery stream cs r.receiveBuf.readable

/-- A held frame that the session handles itself leaves the buffer without a delivery. -/
theorem Held.passed_consume {P : CommandId → Prop} (hheld : r.Held P)
    (hcontrol : r.op.header.commandId ∈ control) (hpassed : Passed stream cs r) :
    Passed stream cs r.consume := by
  have hnext := Framing.Passed.hop hpassed hheld.whole
  have hnone : delivery r.receiveBuf.readable = [] := by
    rw [hheld.header] at hcontrol
    exact if_pos hcontrol
  rw [hnone, List.append_nil] at hnext
  rw [Passed, readable_consume, hheld.header]
  exact hnext

/-- A held frame that is delivered leaves the buffer with its delivery. -/
theorem passed_deliver {P : CommandId → Prop} (hheld : r.Held P)
    (hcontrol : r.op.header.commandId ∉ control) (hpassed : Passed stream cs r)
    (hdeliver : Deliver r r' obs) : Passed stream (cs ++ deliveries obs) r' := by
  cases hdeliver with
  | undefined hrange => rwa [deliveries, completions, List.filterMap_nil, List.filter_nil,
      List.append_nil]
  | completed hheader hsize =>
      have hnext := Framing.Passed.hop hpassed hheld.whole
      have hone : delivery r.receiveBuf.readable = deliveries [r.consumedObs, .completed
          { ec := .success
            pdu := decodeFrame r.op.header.commandId
              (r.receiveBuf.readable.take r.op.header.commandLength.toNat)
            sequenceNumber := r.op.header.sequenceNumber
            commandStatus := r.op.header.commandStatus }] := by
        rw [hheld.header] at hcontrol ⊢
        simp only [delivery, frameHeader] at hcontrol ⊢
        rw [if_neg hcontrol]
        simp [deliveries, completions, consumedObs]
      rw [← hone]
      change commandFraming.Passed delivery stream _ r.consume.receiveBuf.readable
      rw [readable_consume, hheld.header]
      exact hnext

/-- Every step keeps account of the frames. -/
theorem passed_move (hmove : Move r event r' obs) (hinv : r.Inv) (hpassed : Passed stream cs r) :
    Passed (stream ++ event.octets) (cs ++ deliveries obs) r' := by
  have hsame : ∀ {o : List ReceiveObs}, deliveries o = [] →
      Passed (stream ++ []) (cs ++ deliveries o) r := by
    intro o hnone
    rwa [hnone, List.append_nil, List.append_nil]
  have hread : ∀ {received : Octets} {o : List ReceiveObs}, received.length ≤ r.receiveBuf.room →
      deliveries o = [] → Passed (stream ++ received) (cs ++ deliveries o)
        (r.commit received) := by
    intro received o hroom hnone
    rw [hnone, List.append_nil, Passed, readable_commit hroom]
    exact Framing.Passed.append delivery_append hpassed received
  have hconsumed : ∀ {q : Receiver N} {P : CommandId → Prop} {o : List ReceiveObs}, q.Held P →
      q.op.header.commandId ∈ control → Passed stream cs q → deliveries o = [] →
        Passed (stream ++ []) (cs ++ deliveries o) q.consume := by
    intro q P o hheld hcontrol hpassed hnone
    rw [hnone, List.append_nil, List.append_nil]
    exact hheld.passed_consume hcontrol hpassed
  cases hmove with
  | asyncReceive hstage => exact hsame rfl
  | startRead hstage hneeds hreadable hroom =>
      rw [Passed, hreadable]
      exact hsame rfl
  | incomplete hstage hneeds hwhole header => exact hsame rfl
  | dispatch hstage hneeds hwhole hdispatch =>
      have hheld : r.scan.Held fun _ => True := held_scan _ hneeds hwhole trivial
      cases hdispatch with
      | enquireLink hid | unbind hid | post hid hpost => exact hsame rfl
      | enquireLinkResp hid | unbindResp hid =>
          exact hconsumed hheld (by rw [hid]; decide) hpassed rfl
      | deliver hid hpost hdeliver =>
          have hnext := passed_deliver hheld hid hpassed hdeliver
          rw [ReceiveEvent.octets, List.append_nil]
          exact hnext
  | resume hresume =>
      cases hresume with
      | readTimeoutAgain hstage hroom | readTimeout hstage hroom | read hstage hroom =>
          exact hread hroom rfl
      | readError hstage hroom herror =>
          exact hread hroom (by simp [deliveries, completions, herror])
      | unbindSent hstage | enquireLinkSent hstage | cancel hstage => exact hsame rfl
      | sendError hstage herror => exact hsame (by simp [deliveries, completions, herror])
      | enquireLinkRespSent hstage | unbindRespSent hstage =>
          simp only [Inv, hstage] at hinv
          exact hconsumed hinv (by rw [hinv.commandId]; decide) hpassed rfl
      | posted hstage hdeliver =>
          simp only [Inv, hstage] at hinv
          rw [ReceiveEvent.octets, List.append_nil]
          exact passed_deliver hinv hinv.commandId hpassed hdeliver

/-- In every run the frames in front of the buffer are those delivered and those handled. -/
theorem passed_of_run {es : List ReceiveEvent}
    (hrun : (machine N).Run EventMachine.anyStep es obs r) :
    Passed (received es) (deliveries obs) r := by
  induction hrun with
  | refl =>
      have hempty : (new N).receiveBuf.readable = [] := StaticFlatBuffer.readable_new
      rw [Passed, machine, hempty]
      exact .start
  | snoc before hstep _ ih =>
      rw [received_concat, deliveries_append]
      exact passed_move (move_of_step hstep) (inv_of_run before) ih

end Receiver

namespace Session

variable {N : Nat} {s s₁ s₂ : Session N} {R R₁ R₂ : Session N → SessionEvent → Session N → Prop}
variable {es es₁ es₂ : List SessionEvent} {os os₁ os₂ : List SessionObs}

/-! ## Continuations -/

/-- The PDUs that receive operations have completed with. -/
def delivered (os : List SessionObs) : List Completion :=
  deliveries (receivePart os)

@[simp]
theorem delivered_append (os os' : List SessionObs) :
    delivered (os ++ os') = delivered os ++ delivered os' := by
  rw [delivered, receivePart_append, deliveries_append, delivered, delivered]

/-- In every run of a session the frames in front of the buffer are accounted for. -/
theorem passed_of_run (hrun : (machine N).Run R es os s) :
    Receiver.Passed (received es) (delivered os) s.recv ∧ s.recv.Inv := by
  rcases (halves_of_run hrun).2 with ⟨es₂, hrecv, hreceived⟩
  rw [← hreceived]
  exact ⟨Receiver.passed_of_run hrecv, Receiver.inv_of_run hrecv⟩

/-- Two continuations that are given the same octets deliver the same PDUs; if one has got
further, it has delivered more. -/
theorem lossless_of_run (hrun : (machine N).Run R es os s)
    (hfirst : (machine N).Steps R₁ s es₁ os₁ s₁) (hsecond : (machine N).Steps R₂ s es₂ os₂ s₂)
    (hsame : received es₁ = received es₂) :
    (delivered os₁ <+: delivered os₂ ∨ delivered os₂ <+: delivered os₁) ∧
      (s₁.recv.stage = .suspended .read → s₂.recv.stage = .suspended .read →
        delivered os₁ = delivered os₂) := by
  have hreceived : received (es ++ es₁) = received (es ++ es₂) := by
    simp only [received, List.flatMap_append] at hsame ⊢
    rw [hsame]
  rcases passed_of_run (hrun.anyStep.trans hfirst.anyStep) with ⟨hpassed₁, hinv₁⟩
  rcases passed_of_run (hrun.anyStep.trans hsecond.anyStep) with ⟨hpassed₂, hinv₂⟩
  rw [hreceived, delivered_append] at hpassed₁
  rw [delivered_append] at hpassed₂
  refine ⟨?_, fun hreading₁ hreading₂ => ?_⟩
  · simpa using Framing.Passed.prefix_or_prefix hpassed₁ hpassed₂
  · simp only [Receiver.Inv, hreading₁] at hinv₁
    simp only [Receiver.Inv, hreading₂] at hinv₂
    have heq := (Framing.Passed.eq_of_incomplete hpassed₁ hpassed₂ hinv₁.2.1 hinv₂.2.1).1
    exact List.append_cancel_left heq

end Session

end Smpp
