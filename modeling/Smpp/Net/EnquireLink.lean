import Smpp.Net.ReceiveSafety
import Smpp.Net.SendWrites
import Smpp.Net.Session

/-!
# Answering enquire_link

Frames that ask whether the session is alive and the responses it writes, counted by
their sequence number.

Main results:

- Theorem {lit}`counted_of_run`: as many {lit}`enquire_link` frames have been removed from the
  receive buffer as lie in front of it in the stream.
- Theorem {lit}`Session.finished_le_consumed`: a response is started for the frame at the
  front of the buffer only, and the frame leaves when the response ends.
- Theorem {lit}`Session.enquireLinks_answered`: while no response fails and no
  {lit}`enquire_link` announces an empty frame, every removed frame has been answered and no
  frame is answered twice.

Current gaps:

- The result of sending a response is not looked at: a frame leaves the buffer also when
  its response could not be written.
-/

namespace Smpp

/-! ## Frames that have arrived and frames that were removed -/

/-- The octets start with the header of an {lit}`enquire_link` with number {lit}`n`. -/
def isEnquireLink (n : UInt32) (buf : Octets) : Bool :=
  (deserializeHeader buf).commandId = .enquireLink && (deserializeHeader buf).sequenceNumber = n

/-- The octets start with the header of an {lit}`enquire_link_resp` with number {lit}`n`. -/
def isEnquireLinkResp (n : UInt32) (buf : Octets) : Bool :=
  (deserializeHeader buf).commandId = .enquireLinkResp &&
    (deserializeHeader buf).sequenceNumber = n

/-- The {lit}`enquire_link` frames with number {lit}`n` of a stream. -/
def arrivedLinks (n : UInt32) (stream : Octets) : Nat :=
  commandFraming.count (isEnquireLink n) stream

/-- The {lit}`enquire_link` frames with number {lit}`n` that were removed from the buffer. -/
def consumedLinks (n : UInt32) (os : List ReceiveObs) : Nat :=
  os.countP fun
    | .consumed header _ _ => header.commandId = .enquireLink && header.sequenceNumber = n
    | .readSome _ | .dispatched _ _ | .sendCommand _ _ | .posted | .shutdownSocket
    | .completed _ => false

@[simp]
theorem consumedLinks_append (n : UInt32) (os os' : List ReceiveObs) :
    consumedLinks n (os ++ os') = consumedLinks n os + consumedLinks n os' :=
  List.countP_append

/-- Every {lit}`enquire_link` at a frame boundary of the stream announces some octets. -/
def LinksNonempty (stream : Octets) : Prop :=
  ∀ rest, commandFraming.Boundary stream rest → headerLength ≤ rest.length →
    (deserializeHeader rest).commandId = .enquireLink → 0 < commandFraming.announce rest

theorem LinksNonempty.of_append {stream more : Octets}
    (hlinks : LinksNonempty (stream ++ more)) : LinksNonempty stream := by
  intro rest hboundary hheader hid
  rw [← commandFraming.announce_append rest more hheader]
  refine hlinks _ (hboundary.append more) ?_ ?_
  · rw [List.length_append]
    omega
  · rwa [deserializeHeader_append more hheader]

namespace Receiver

variable {N : Nat} {r r' : Receiver N} {event : ReceiveEvent} {obs : List ReceiveObs}
variable {n : UInt32} {k : Nat} {stream : Octets}

/-- What consuming the held frame adds to the count. -/
theorem consumedLinks_consumedObs {P : CommandId → Prop} (hheld : r.Held P) (n : UInt32) :
    consumedLinks n [r.consumedObs] =
      if isEnquireLink n r.receiveBuf.readable then 1 else 0 := by
  have hheader : r.op.header = deserializeHeader r.receiveBuf.readable := hheld.header
  simp [consumedLinks, consumedObs, isEnquireLink, hheader, List.countP_cons]

/-- Consuming the held frame counts it. -/
theorem Held.counted {P : CommandId → Prop} (hheld : r.Held P)
    (hfront : r.frameHeader.commandId = .enquireLink →
      0 < r.frameHeader.commandLength.toNat)
    (hcounted : commandFraming.Counted (isEnquireLink n) stream r.receiveBuf.readable k) :
    commandFraming.Counted (isEnquireLink n) stream r.consume.receiveBuf.readable
      (k + consumedLinks n [r.consumedObs]) := by
  rw [consumedLinks_consumedObs hheld, readable_consume, hheld.header]
  refine hcounted.hop (fun more => ?_) hheld.whole fun hlink => ?_
  · rw [isEnquireLink, deserializeHeader_append more hheld.whole.1, isEnquireLink]
  · rw [isEnquireLink, Bool.and_eq_true, decide_eq_true_eq] at hlink
    exact hfront hlink.1

/-- Every step keeps the count of the frames in front of the buffer. -/
theorem counted_move (hmove : Move r event r' obs) (hinv : r.Inv)
    (hfront : r.Whole → r.frameHeader.commandId = .enquireLink →
      0 < r.frameHeader.commandLength.toNat)
    (hcounted : commandFraming.Counted (isEnquireLink n) stream r.receiveBuf.readable k) :
    commandFraming.Counted (isEnquireLink n) (stream ++ event.octets) r'.receiveBuf.readable
      (k + consumedLinks n obs) := by
  have hsame : commandFraming.Counted (isEnquireLink n) (stream ++ []) r.receiveBuf.readable
      (k + 0) := by
    rwa [List.append_nil]
  have hread : ∀ {received : Octets}, received.length ≤ r.receiveBuf.room →
      commandFraming.Counted (isEnquireLink n) (stream ++ received)
        (r.commit received).receiveBuf.readable (k + 0) := by
    intro received hroom
    rw [readable_commit hroom]
    exact hcounted.append received
  have hdelivered : ∀ {r : Receiver N} {P : CommandId → Prop} {o : List ReceiveObs}, r.Held P →
      (r.frameHeader.commandId = .enquireLink → 0 < r.frameHeader.commandLength.toNat) →
      commandFraming.Counted (isEnquireLink n) stream r.receiveBuf.readable k →
      Deliver r r' o → commandFraming.Counted (isEnquireLink n) (stream ++ [])
        r'.receiveBuf.readable (k + consumedLinks n o) := by
    intro r P o hheld hfront hcounted hdeliver
    rw [List.append_nil]
    cases hdeliver with
    | undefined hrange => exact hcounted
    | completed hheader hsize => exact hheld.counted hfront hcounted
  cases hmove with
  | asyncReceive hstage | incomplete hstage => exact hsame
  | startRead hstage hneeds hreadable hroom =>
      change commandFraming.Counted _ _ _ _ at hsame
      rw [← hreadable] at hsame
      exact hsame
  | dispatch hstage hneeds hwhole hdispatch =>
      have hheld : r.scan.Held fun _ => True := held_scan _ hneeds hwhole trivial
      have hfront := hfront hwhole
      cases hdispatch with
      | enquireLink hid | unbind hid | post hid => exact hsame
      | enquireLinkResp hid | unbindResp hid =>
          rw [ReceiveEvent.octets, List.append_nil]
          exact hheld.counted hfront hcounted
      | deliver hid hpost hdeliver =>
          have hnext := hdelivered hheld hfront hcounted hdeliver
          exact hnext
  | resume hresume =>
      cases hresume with
      | readTimeoutAgain hstage hroom | readTimeout hstage hroom | readError hstage hroom
      | read hstage hroom => exact hread hroom
      | unbindSent hstage | sendError hstage | enquireLinkSent hstage | cancel hstage =>
          exact hsame
      | enquireLinkRespSent hstage | unbindRespSent hstage =>
          simp only [Inv, hstage] at hinv
          rw [ReceiveEvent.octets, List.append_nil]
          exact hinv.counted (hfront hinv.whole) hcounted
      | posted hstage hdeliver =>
          simp only [Inv, hstage] at hinv
          exact hdelivered hinv (hfront hinv.whole) hcounted hdeliver

/-- The frames removed from the buffer and the frames in it are the frames that arrived. -/
theorem counted_of_run {es : List ReceiveEvent}
    (hrun : (machine N).Run EventMachine.anyStep es obs r) (hlinks : LinksNonempty (received es)) :
    commandFraming.Counted (isEnquireLink n) (received es) r.receiveBuf.readable
      (consumedLinks n obs) := by
  induction hrun with
  | refl =>
      have hempty : (new N).receiveBuf.readable = [] := StaticFlatBuffer.readable_new
      rw [machine, hempty]
      exact .start _ _
  | snoc before hstep _ ih =>
      rw [received_concat] at hlinks ⊢
      rcases aligned_of_run before with ⟨hinv, haligned⟩
      rw [consumedLinks_append]
      exact counted_move (move_of_step hstep) hinv
        (fun hwhole hid => hlinks.of_append _ haligned hwhole.1 hid) (ih hlinks.of_append)

/-- A frame that waits for its response has arrived and has not been removed. -/
theorem consumedLinks_lt_arrivedLinks {es : List ReceiveEvent}
    (hrun : (machine N).Run EventMachine.anyStep es obs r) (hlinks : LinksNonempty (received es))
    (hstage : r.stage = .suspended .sendEnquireLinkResp)
    (hnumber : r.op.header.sequenceNumber = n) :
    consumedLinks n obs < arrivedLinks n (received es) := by
  rcases aligned_of_run hrun with ⟨hinv, haligned⟩
  simp only [Inv, hstage] at hinv
  have hheader : r.op.header = deserializeHeader r.receiveBuf.readable := hinv.header
  have hid : (deserializeHeader r.receiveBuf.readable).commandId = .enquireLink :=
    hheader ▸ hinv.commandId
  have hlink : isEnquireLink n r.receiveBuf.readable = true := by
    rw [isEnquireLink, hid, ← hheader, hnumber]
    simp
  have hcounted := counted_of_run (n := n) hrun hlinks []
  have hfront := Framing.count_of_whole (p := isEnquireLink n) hinv.whole
    (hlinks _ haligned hinv.whole.1 hid)
  rw [List.append_nil, List.append_nil] at hcounted
  rw [hlink, if_pos rfl] at hfront
  rw [arrivedLinks, hcounted, hfront]
  omega

theorem consumedLinks_le_arrivedLinks {es : List ReceiveEvent}
    (hrun : (machine N).Run EventMachine.anyStep es obs r) (hlinks : LinksNonempty (received es)) :
    consumedLinks n obs ≤ arrivedLinks n (received es) := by
  have hcounted := counted_of_run (n := n) hrun hlinks []
  rw [List.append_nil, List.append_nil] at hcounted
  rw [arrivedLinks, hcounted]
  omega

/-- Only what follows a response removes an {lit}`enquire_link`. -/
theorem consumedLinks_eq_zero (hmove : Move r event r' obs) (hinv : r.Inv)
    (hother : r.stage ≠ .suspended .sendEnquireLinkResp) : consumedLinks n obs = 0 := by
  have hconsumed : ∀ {r : Receiver N}, r.op.header.commandId ≠ .enquireLink →
      consumedLinks n [r.consumedObs] = 0 := by
    intro r hid
    simp [consumedLinks, consumedObs, hid]
  have hdelivered : ∀ {r : Receiver N} {o : List ReceiveObs},
      r.op.header.commandId ∉ control → Deliver r r' o → consumedLinks n o = 0 := by
    intro r o hid hdeliver
    cases hdeliver with
    | undefined hrange => rfl
    | completed hheader hsize =>
        exact hconsumed fun hlink => hid (by rw [hlink]; decide)
  cases hmove with
  | asyncReceive hstage | startRead hstage | incomplete hstage => rfl
  | dispatch hstage hneeds hwhole hdispatch =>
      cases hdispatch with
      | enquireLink hid | unbind hid | post hid => rfl
      | enquireLinkResp hid | unbindResp hid =>
          exact hconsumed (r := r.scan) (by rw [hid]; decide)
      | deliver hid hpost hdeliver =>
          have hnone := hdelivered hid hdeliver
          exact hnone
  | resume hresume =>
      cases hresume with
      | readTimeoutAgain | readTimeout | readError | read | unbindSent | sendError
      | enquireLinkSent | cancel => rfl
      | enquireLinkRespSent hstage => exact absurd hstage hother
      | unbindRespSent hstage =>
          simp only [Inv, hstage] at hinv
          exact hconsumed (r := r) (by rw [hinv.commandId]; decide)
      | posted hstage hdeliver =>
          simp only [Inv, hstage] at hinv
          exact hdelivered hinv.commandId hdeliver

/-- Behind its response the frame at the front is removed. -/
theorem consumedLinks_sendDone {ec : ErrorCode} (hmove : Move r (.sendDone ec) r' obs)
    (hinv : r.Inv) (hstage : r.stage = .suspended .sendEnquireLinkResp) :
    consumedLinks n obs = if r.op.header.sequenceNumber = n then 1 else 0 := by
  simp only [Inv, hstage] at hinv
  cases hmove with
  | resume hresume =>
      cases hresume with
      | unbindSent hother | sendError hother | enquireLinkSent hother | unbindRespSent hother =>
          simp [hstage] at hother
      | enquireLinkRespSent =>
          simp [consumedLinks, consumedObs, hinv.commandId, List.countP_cons]

end Receiver

namespace Session

variable {N : Nat} {s s' : Session N} {event : SessionEvent} {obs : List SessionObs}
variable {n : UInt32}

/-! ## Responses -/

theorem awaits_enquireLinkResp_iff {recv : Receiver N} {m : UInt32} :
    Awaits recv .enquireLinkResp m ↔
      recv.stage = .suspended .sendEnquireLinkResp ∧ m = recv.op.header.sequenceNumber := by
  unfold Awaits
  split <;> rename_i hstage <;> simp [hstage, CommandId.enquireLinkResp, CommandId.unbind,
    CommandId.enquireLink, CommandId.unbindResp]

/-- What is being written is a response with number {lit}`n` exactly when
{lit}`receive_op` waits for it to answer the frame at the front. -/
theorem Linked.isEnquireLinkResp_iff (hlinked : s.Linked) (hinv : s.send.Inv) {id : Nat}
    {frame : Octets} (hwriting : s.send.Writing id frame) :
    isEnquireLinkResp n frame = true ↔ s.nested = some id ∧
      s.recv.stage = .suspended .sendEnquireLinkResp ∧ s.recv.op.header.sequenceNumber = n := by
  rcases hwriting.exists_op with ⟨op, hop, hphase⟩
  have hframe := (hinv.owned id op frame hop hphase).2.frameOf
  have hresp : isEnquireLinkResp n frame = true ↔
      op.kind.commandId = .enquireLinkResp ∧ op.sequenceNumber = n := by
    rw [isEnquireLinkResp, hframe.header, Bool.and_eq_true, decide_eq_true_eq, decide_eq_true_eq]
  rw [hresp]
  by_cases hnested : s.nested = some id
  · rcases hlinked.awaits id hnested with ⟨op', commandId, m, hop', hkind, _, _, hawaits⟩
    obtain rfl : op = op' := Option.some.inj (hop.symm.trans hop')
    have hnumber : op.sequenceNumber = m := hframe.number m (by rw [hkind]; rfl)
    rw [hkind, hnumber]
    constructor
    · rintro ⟨hid, rfl⟩
      have hid : commandId = .enquireLinkResp := hid
      rw [hid, awaits_enquireLinkResp_iff] at hawaits
      exact ⟨hnested, hawaits.1, hawaits.2.symm⟩
    · rintro ⟨_, hstage, hheader⟩
      simp only [Awaits, hstage] at hawaits
      exact ⟨hawaits.1, hawaits.2.trans hheader⟩
  · refine iff_of_false (fun hid => ?_) fun hwaits => hnested hwaits.1
    have hdone := hlinked.others id op hop hnested (by rw [hid.1]; decide)
    rw [hphase] at hdone
    cases hdone

/-- What a step does to the {lit}`enquire_link` with number {lit}`n` at the front of the buffer:
nothing; its response has been written, and it is removed; or the operation that was
to write the response gave up waiting, and it is removed. -/
inductive LinkStep (s : Session N) (n : UInt32) : SessionEvent → List SessionObs → Prop
  | idle {event : SessionEvent} {obs : List SessionObs}
      (hconsumed : consumedLinks n (receivePart obs) = 0)
      (hfinished : Sender.finishedFrames (isEnquireLinkResp n) (sendPart obs) = 0) :
      LinkStep s n event obs
  | written {id : Nat} {ec : ErrorCode} {obs : List SessionObs}
      (hnested : s.nested = some id) (hstage : s.recv.stage = .suspended .sendEnquireLinkResp)
      (hconsumed : consumedLinks n (receivePart obs) = 1)
      (hfinished : Sender.finishedFrames (isEnquireLinkResp n) (sendPart obs) = 1)
      (hwritten : Sender.writtenFrames (isEnquireLinkResp n) (sendPart obs) =
        if ec = .success then 1 else 0) :
      LinkStep s n (.send (.writeDone id ec)) obs
  | gaveUp {id : Nat} {op : SendOp} {obs : List SessionObs}
      (hnested : s.nested = some id) (hstage : s.recv.stage = .suspended .sendEnquireLinkResp)
      (hop : s.send.ops id = some op) (hcancelled : op.cancellation.cancelled = true)
      (hconsumed : consumedLinks n (receivePart obs) = 1)
      (hfinished : Sender.finishedFrames (isEnquireLinkResp n) (sendPart obs) = 0) :
      LinkStep s n (.send (.resume id)) obs

/-- A step of the sending half finishes the response only if it completes the operation
that {lit}`receive_op` waits for. -/
theorem finishedFrames_eq_zero_of_linked {e : SendEvent} {send : Sender} {o : List SendObs}
    (hmove : Sender.Move s.send e send o) (hinv : s.send.Inv) (hlinked : s.Linked)
    (hother : (∃ exit ec m, .completed e.id exit ec m ∈ o) → ¬ (s.nested = some e.id ∧
      s.recv.stage = .suspended .sendEnquireLinkResp ∧ s.recv.op.header.sequenceNumber = n)) :
    Sender.finishedFrames (isEnquireLinkResp n) o = 0 := by
  cases Sender.writes_move hmove hinv with
  | idle hsilent hsame => exact (Sender.frames_of_silent hsilent).2
  | start hsilent hfree hwriting =>
      rw [Sender.finishedFrames_append, (Sender.frames_of_silent hsilent).2]
      rfl
  | finish hwriting hfree =>
      have hnot := mt (hlinked.isEnquireLinkResp_iff (n := n) hinv hwriting).mp
        (hother ⟨_, _, _, List.mem_cons_of_mem _ List.mem_cons_self⟩)
      simp [Sender.finishedFrames, hnot]

/-- How the operation that writes the response comes to its end. -/
theorem linkStep_ends {e : SendEvent} {send : Sender} {o : List SendObs} {id : Nat}
    {exit : SendExit} {ec : ErrorCode} {m : UInt32} (hmove : Sender.Move s.send e send o)
    (hinv : s.send.Inv) (hlinked : s.Linked) (hnested : s.nested = some id)
    (hstage : s.recv.stage = .suspended .sendEnquireLinkResp)
    (hnumber : s.recv.op.header.sequenceNumber = n) (hcompleted : .completed id exit ec m ∈ o)
    (hconsumed : consumedLinks n (receivePart obs) = 1) (hsent : sendPart obs = o) :
    LinkStep s n (.send e) obs := by
  rcases hlinked.awaits id hnested with ⟨op, commandId, k, hop, hkind, _, _, _⟩
  have hid := ((Sender.completed_iff hmove id).mp ⟨exit, ec, m, hcompleted⟩).1
  have hresp : ∀ {frame : Octets}, s.send.Writing id frame →
      isEnquireLinkResp n frame = true := fun hwriting =>
    (hlinked.isEnquireLinkResp_iff hinv hwriting).mpr ⟨hnested, hstage, hnumber⟩
  cases hmove with
  | call | callNext | cancelWait | cancel => simp at hcompleted
  | enter hready henter =>
      cases henter with
      | wait hbusy => simp at hcompleted
      | fail hfree hfill =>
          -- a header alone is always serialized
          rcases hready.exists_op with ⟨before, hbefore, hsame⟩
          rw [hid, hready.id_eq, hbefore, Option.some.injEq] at hop
          rw [hsame, hop, hkind] at hfill
          cases hfill
      | write hfree hfill hobs =>
          rcases Sender.number_obs hobs with rfl | ⟨_, rfl⟩ <;> simp at hcompleted
  | giveUp hop' hphase hcancelled =>
      obtain rfl : id = _ := hid
      exact .gaveUp hnested hstage hop' hcancelled hconsumed (by rw [hsent]; rfl)
  | timeOut hop' hphase htimeout | written hop' hphase htimeout =>
      obtain rfl : id = _ := hid
      have hwriting := hresp (by rw [Sender.Writing, Sender.phase_of_ops hop', hphase])
      refine .written hnested hstage hconsumed ?_ ?_
      · simp [hsent, Sender.finishedFrames, hwriting]
      · simp [hsent, Sender.writtenFrames, hwriting, List.countP_cons]

/-- An event that is not the end of a command consumes no frame that a response belongs to. -/
theorem consumedLinks_of_external {e : ReceiveEvent} {recv : Receiver N} {o : List ReceiveObs}
    (hrecv : s.recv.Inv) (hexternal : isExternal e = true)
    (hstep : s.recv.step e = some (recv, o)) (n : UInt32) : consumedLinks n o = 0 := by
  refine Receiver.consumedLinks_eq_zero (Receiver.move_of_step hstep) hrecv fun hstage => ?_
  exact not_awaits_of_external hexternal hstep .enquireLinkResp s.recv.op.header.sequenceNumber
    (awaits_enquireLinkResp_iff.mpr ⟨hstage, rfl⟩)

theorem consumedLinks_of_cancel {type : CancellationType} {recv : Receiver N}
    {o : List ReceiveObs} (hstep : s.recv.step (.cancel type) = some (recv, o)) (n : UInt32) :
    consumedLinks n o = 0 := by
  cases Receiver.move_of_step hstep with
  | resume hresume =>
      cases hresume with
      | cancel hstage => rfl

/-- Every step does one of the three. -/
theorem linkStep_move (hmove : Move s event s' obs) (hinv : s.send.Inv) (hrecv : s.recv.Inv)
    (hlinked : s.Linked) (n : UInt32) : LinkStep s n event obs := by
  cases hmove with
  | send hpaused hmay hsend hpending =>
      have hmove := Sender.move_of_step hsend
      refine .idle (by rw [receivePart_send]; rfl) ?_
      rw [sendPart_send]
      exact finishedFrames_eq_zero_of_linked hmove hinv hlinked
        fun ⟨exit, ec, m, hmem⟩ hwaits => hpending _ hwaits.1 exit ec m hmem
  | @resume event send o id exit ec m recv recvObs hmay hsend hnested hcompleted hrecvStep =>
      have hmove := Sender.move_of_step hsend
      have hrecvMove := Receiver.move_of_step hrecvStep
      have hid : id = event.id := ((Sender.completed_iff hmove id).mp ⟨exit, ec, m, hcompleted⟩).1
      have hparts : receivePart (o.map .send ++ recvObs.map .receive) = recvObs ∧
          sendPart (o.map .send ++ recvObs.map .receive) = o := by simp
      by_cases hfront : s.recv.stage = .suspended .sendEnquireLinkResp ∧
          s.recv.op.header.sequenceNumber = n
      · have hconsumed := Receiver.consumedLinks_sendDone (n := n) hrecvMove hrecv hfront.1
        rw [if_pos hfront.2] at hconsumed
        exact linkStep_ends hmove hinv hlinked hnested hfront.1 hfront.2 hcompleted
          (hparts.1.symm ▸ hconsumed) hparts.2
      · refine .idle ?_ ?_
        · rw [hparts.1]
          by_cases hstage : s.recv.stage = .suspended .sendEnquireLinkResp
          · rw [Receiver.consumedLinks_sendDone hrecvMove hrecv hstage, if_neg]
            exact fun hnumber => hfront ⟨hstage, hnumber⟩
          · exact Receiver.consumedLinks_eq_zero hrecvMove hrecv hstage
        · rw [hparts.2]
          exact finishedFrames_eq_zero_of_linked hmove hinv hlinked fun _ hwaits =>
            hfront hwaits.2
  | receive hext hstep hquiet =>
      refine .idle (by rw [receivePart_receive]; exact consumedLinks_of_external hrecv hext hstep n) ?_
      rw [sendPart_receive]
      rfl
  | command hext hstep hcommand hcall hstart =>
      refine .idle ?_ ?_
      · rw [receivePart_append, receivePart_receive, receivePart_send, List.append_nil]
        exact consumedLinks_of_external hrecv hext hstep n
      · rw [sendPart_append, sendPart_receive, sendPart_send, List.nil_append,
          Sender.finishedFrames_append,
          Sender.finishedFrames_eq_zero (Sender.move_of_step hcall),
          Sender.finishedFrames_eq_zero (Sender.move_of_step hstart)]
        · simp
        · rename_i number _ _ _ _
          cases number <;> simp [callCommand]
  | cancel hstep hnested =>
      refine .idle (by rw [receivePart_receive]; exact consumedLinks_of_cancel hstep n) ?_
      rw [sendPart_receive]
      rfl
  | cancelNested hstep hnested hsend =>
      refine .idle ?_ ?_
      · rw [receivePart_append, receivePart_receive, receivePart_send, List.append_nil]
        exact consumedLinks_of_cancel hstep n
      · rw [sendPart_append, sendPart_receive, sendPart_send, List.nil_append]
        exact Sender.finishedFrames_eq_zero (Sender.move_of_step hsend) (by simp)

/-! ## Runs -/

/-- The event lets no response fail: its write does not end with an error, and the
operation that waits to write it does not resume cancelled. -/
def Answers (s : Session N) : SessionEvent → Prop
  | .send (.writeDone id ec) => s.nested = some id →
      s.recv.stage = .suspended .sendEnquireLinkResp → ec = .success
  | .send (.resume id) => s.nested = some id →
      s.recv.stage = .suspended .sendEnquireLinkResp →
      ∀ op, s.send.ops id = some op → op.cancellation.cancelled = false
  | .send (.call _ _) | .send (.callNext _ _) | .send (.start _) | .send (.cancel _ _)
  | .receive _ _ | .cancelReceive _ => True

theorem LinkStep.finished_le (hlink : LinkStep s n event obs) :
    Sender.finishedFrames (isEnquireLinkResp n) (sendPart obs) ≤
      consumedLinks n (receivePart obs) := by
  cases hlink <;> omega

/-- An event that lets no response fail removes a frame exactly when it has written its
response. -/
theorem LinkStep.consumed_eq (hlink : LinkStep s n event obs) (hanswers : s.Answers event) :
    consumedLinks n (receivePart obs) =
      Sender.writtenFrames (isEnquireLinkResp n) (sendPart obs) := by
  cases hlink with
  | idle hconsumed hfinished =>
      have hle := Sender.writtenFrames_le (isEnquireLinkResp n) (sendPart obs)
      omega
  | written hnested hstage hconsumed hfinished hwritten =>
      rw [hconsumed, hwritten, if_pos (hanswers hnested hstage)]
  | gaveUp hnested hstage hop hcancelled hconsumed hfinished =>
      rw [hanswers hnested hstage _ hop] at hcancelled
      cases hcancelled

variable {R : Session N → SessionEvent → Session N → Prop} {es : List SessionEvent}

/-- In every reachable state a step does one of the three. -/
theorem linkStep_of_run (hrun : (machine N).Run R es obs s) {o : List SessionObs}
    (hstep : s.step event = some (s', o)) (n : UInt32) : LinkStep s n event o := by
  rcases halves_of_run hrun with ⟨⟨es₁, hsend⟩, es₂, hrecv, _⟩
  exact linkStep_move (move_of_step hstep) (Sender.inv_of_run hsend) (Receiver.inv_of_run hrecv)
    (linked_of_run hrun) n

/-- A frame leaves the buffer when its response ends. -/
theorem finished_le_consumed (hrun : (machine N).Run R es obs s) (n : UInt32) :
    Sender.finishedFrames (isEnquireLinkResp n) (sendPart obs) ≤
      consumedLinks n (receivePart obs) := by
  induction hrun with
  | refl => exact Nat.le_refl 0
  | snoc before hstep _ ih =>
      have hle := (linkStep_of_run before hstep n).finished_le
      rw [sendPart_append, receivePart_append, Sender.finishedFrames_append, consumedLinks_append]
      omega

/-- While no response fails, as many frames were removed as were answered. -/
theorem consumed_eq_written (hrun : (machine N).Run (fun s event _ => s.Answers event) es obs s)
    (n : UInt32) : consumedLinks n (receivePart obs) =
      Sender.writtenFrames (isEnquireLinkResp n) (sendPart obs) := by
  induction hrun with
  | refl => rfl
  | snoc before hstep hanswers ih =>
      have heq := (linkStep_of_run before hstep n).consumed_eq hanswers
      rw [sendPart_append, receivePart_append, Sender.writtenFrames_append, consumedLinks_append,
        ih, heq]

/-- Nobody sends a response without a frame that asks for it. -/
theorem started_le_arrived (hrun : (machine N).Run R es obs s)
    (hlinks : LinksNonempty (received es)) (n : UInt32) :
    Sender.startedFrames (isEnquireLinkResp n) (sendPart obs) ≤
      arrivedLinks n (received es) := by
  rcases halves_of_run hrun with ⟨⟨es₁, hsend⟩, es₂, hrecv, hreceived⟩
  have hfinished := finished_le_consumed hrun n
  rw [← hreceived] at hlinks ⊢
  have hle := Receiver.consumedLinks_le_arrivedLinks (n := n) hrecv hlinks
  rcases Sender.balanced_of_run hsend (isEnquireLinkResp n) with
    ⟨id, frame, hwriting, hstarted⟩ | ⟨_, hstarted⟩
  · split at hstarted
    · rename_i hresp
      obtain ⟨_, hstage, hnumber⟩ := ((linked_of_run hrun).isEnquireLinkResp_iff
        (Sender.inv_of_run hsend) hwriting).mp hresp
      have hlt := Receiver.consumedLinks_lt_arrivedLinks hrecv hlinks hstage hnumber
      omega
    · omega
  · omega

/-- While no response fails and no {lit}`enquire_link` announces an empty frame, every frame
that was removed from the buffer has been answered by a complete response with its
number, and no response is without its own frame. -/
theorem enquireLinks_answered (es : List SessionEvent) (os : List SessionObs)
    (s : Session receiveCapacity)
    (hrun : (machine receiveCapacity).Run (fun s event _ => s.Answers event) es os s)
    (hlinks : LinksNonempty (received es)) (n : UInt32) :
    consumedLinks n (receivePart os) =
        Sender.writtenFrames (isEnquireLinkResp n) (sendPart os) ∧
      Sender.startedFrames (isEnquireLinkResp n) (sendPart os) ≤
        arrivedLinks n (received es) :=
  ⟨consumed_eq_written hrun n, started_le_arrived hrun hlinks n⟩

/-- A response with number 1 on a send buffer that is free. -/
theorem steps_command :
    ∃ called send : Sender, ∃ op : SendOp,
      ({} : Sender).step (callCommand 0 .enquireLinkResp (some 1)) = some (called, []) ∧
      called.step (.start 0) =
        some (send, [.writeStarted 0 (encodeHeader ⟨16, .enquireLinkResp, .rok, 1⟩)]) ∧
      send.ops 0 = some op ∧
      op.phase = .writing (encodeHeader ⟨16, .enquireLinkResp, .rok, 1⟩) :=
  ⟨_, _, _, rfl, rfl, rfl, rfl⟩

/-- A first {lit}`enquire_link`, with number 1, arrives, and the response is handed to the send
operations. -/
theorem steps_respond {send called sent : Sender} {callObs startObs : List SendObs}
    (hN : 16 ≤ N)
    (hcall : send.step (callCommand 0 .enquireLinkResp (some 1)) = some (called, callObs))
    (hstart : called.step (.start 0) = some (sent, startObs)) :
    ∃ es os, ∃ r : Receiver N,
      (machine N).Steps EventMachine.anyStep ⟨send, .new N, none⟩ es os ⟨sent, r, some 0⟩ ∧
      (∀ e ∈ es, ∃ event id, e = .receive event id) ∧
      received es = encodeHeader ⟨16, .enquireLink, .rok, 1⟩ ∧
      (∀ completion, .completed completion ∉ receivePart os) ∧
      r.stage = .suspended .sendEnquireLinkResp ∧ r.op.needsPost = false ∧
      r.op.header = ⟨16, .enquireLink, .rok, 1⟩ ∧ r.op.needsMore = false ∧
      r.receiveBuf.readable = encodeHeader ⟨16, .enquireLink, .rok, 1⟩ := by
  obtain ⟨r, hrun, hstage, hpost, hneeds, hreadable⟩ := Receiver.run_firstRead (N := N)
    (encodeHeader ⟨16, .enquireLink, .rok, 1⟩) hN
  have hfirst := steps_of_receive_steps (s := ⟨send, .new N, none⟩) hrun (by decide) (by simp)
  have hheader : r.frameHeader = ⟨16, .enquireLink, .rok, 1⟩ := by
    rw [Receiver.frameHeader, hreadable]
    rfl
  have hmove := Receiver.move_iterate hstage
  have hstep : r.step .iterate = some (r.iterate.1, r.iterate.2) := Receiver.step_iterate hstage
  generalize r.iterate.1 = r' at hmove hstep
  generalize r.iterate.2 = o at hmove hstep
  have hscan : r.scan.op.header = ⟨16, .enquireLink, .rok, 1⟩ := hheader
  cases hmove with
  | startRead _ hmore => simp [hneeds] at hmore
  | incomplete _ _ hnot =>
      refine absurd ?_ hnot
      rw [Receiver.Whole, hreadable]
      exact ⟨by decide, by decide⟩
  | resume hresume => cases hresume
  | dispatch _ _ _ hdispatch =>
      cases hdispatch with
      | enquireLinkResp hid | unbind hid | unbindResp hid =>
          rw [hscan] at hid
          exact absurd hid (by decide)
      | post hid | deliver hid =>
          rw [hscan] at hid
          exact absurd hid (by decide)
      | enquireLink hid =>
          rw [hscan] at hstep
          have hlast := step_of_command (s := ⟨send, r, none⟩) 0 rfl hstep rfl hcall hstart
          exact ⟨_, _, _, .snoc hfirst hlast trivial, by simp, rfl, by simp [receivePart], rfl,
            hpost, hscan, hneeds, hreadable⟩

/-- The response to an {lit}`enquire_link` with number 1 is being written. -/
theorem run_respond (hN : 16 ≤ N) :
    ∃ es os, ∃ s : Session N, (machine N).Run EventMachine.anyStep es os s ∧
      (∀ e ∈ es, ∃ event id, e = .receive event id) ∧
      received es = encodeHeader ⟨16, .enquireLink, .rok, 1⟩ ∧
      (∀ completion, .completed completion ∉ receivePart os) ∧
      s.nested = some 0 ∧ s.recv.stage = .suspended .sendEnquireLinkResp ∧
      s.recv.op.header = ⟨16, .enquireLink, .rok, 1⟩ ∧ s.recv.op.needsMore = false ∧
      s.recv.receiveBuf.readable = encodeHeader ⟨16, .enquireLink, .rok, 1⟩ ∧
      ∃ op, s.send.ops 0 = some op ∧
        op.phase = .writing (encodeHeader ⟨16, .enquireLinkResp, .rok, 1⟩) := by
  rcases steps_command with ⟨called, send, op, hcall, hstart, hop⟩
  obtain ⟨es, os, r, hsteps, hevents, hreceived, hopen, hstage, _, hheader, hneeds, hreadable⟩ :=
    steps_respond hN hcall hstart
  exact ⟨es, os, _, hsteps, hevents, hreceived, hopen, rfl, hstage, hheader, hneeds, hreadable,
    op, hop⟩

/-- However the write of a response ends, the frame at the front is removed and the loop
runs on. -/
theorem step_writeDone {id : Nat} {op : SendOp} {frame : Octets} (ec : ErrorCode)
    (hnested : s.nested = some id) (hstage : s.recv.stage = .suspended .sendEnquireLinkResp)
    (hop : s.send.ops id = some op) (hphase : op.phase = .writing frame)
    (hec : ec ≠ .operationAborted) :
    ∃ s', (machine N).step s (.send (.writeDone id ec)) =
        some (s', [.send (.writeDone id frame ec),
          .send (.completed id .written ec (Sender.resultNumber op)),
          .receive s.recv.consumedObs]) ∧
      s'.recv = { s.recv.consume with stage := .running } := by
  have hsend : s.send.step (.writeDone id ec) = some (s.send.writeDone id op frame ec) := by
    simp only [Sender.step, hop, hphase]
  have hrecv : s.recv.step (.sendDone ec) =
      some ({ s.recv.consume with stage := .running }, [s.recv.consumedObs]) := by
    simp only [Receiver.step, hstage, Receiver.sendDone]
  rw [Sender.writeDone, if_neg fun htimeout => hec htimeout.2.1] at hsend
  simp [machine, step, hstage, mayHappen, hsend, resume, hnested, completionOf, hrecv]

/-- An {lit}`enquire_link` that was answered. -/
theorem enquireLinks_answered_one :
    ∃ es os s, (machine receiveCapacity).Run (fun s event _ => s.Answers event) es os s ∧
      received es = encodeHeader ⟨16, .enquireLink, .rok, 1⟩ ∧
      0 < consumedLinks 1 (receivePart os) ∧
      (consumedLinks 1 (receivePart os) =
          Sender.writtenFrames (isEnquireLinkResp 1) (sendPart os) ∧
        Sender.startedFrames (isEnquireLinkResp 1) (sendPart os) ≤
          arrivedLinks 1 (received es)) := by
  obtain ⟨es, os, s, hrun, hevents, hreceived, _, hnested, hstage, hheader, _, _, op, hop,
    hphase⟩ := run_respond (N := receiveCapacity) (by decide)
  rcases step_writeDone .success hnested hstage hop hphase (by decide) with ⟨s', hstep, _⟩
  have hrun' : (machine receiveCapacity).Run (fun s event _ => s.Answers event) _ _ s' :=
    (EventMachine.Steps.snoc hrun hstep trivial).restrict fun e hmem => by
      rcases List.mem_append.mp hmem with hmem | hmem
      · rcases hevents e hmem with ⟨event, id, rfl⟩
        exact fun _ _ => trivial
      · rw [List.mem_singleton] at hmem
        subst hmem
        exact fun _ _ _ _ => rfl
  have hreceived' : received (es ++ [.send (.writeDone 0 .success)]) =
      encodeHeader ⟨16, .enquireLink, .rok, 1⟩ := by
    rw [received_concat, hreceived]
    rfl
  have hframe : commandFraming.IsFrame (encodeHeader ⟨16, .enquireLink, .rok, 1⟩) :=
    ⟨by decide, by decide⟩
  have hannounces := Framing.announces_flatten (F := commandFraming) (P := (0 < ·))
    (by decide) (List.forall_mem_singleton.mpr hframe) (List.forall_mem_singleton.mpr (by decide))
  have hlinks : LinksNonempty (received (es ++ [.send (.writeDone 0 .success)])) := by
    rw [hreceived']
    exact fun rest hboundary hlength _ => hannounces rest hboundary hlength
  refine ⟨_, _, s', hrun', hreceived', ?_, enquireLinks_answered _ _ s' hrun' hlinks 1⟩
  rw [receivePart_append, consumedLinks_append]
  simp [receivePart, consumedLinks, Receiver.consumedObs, hheader]

/-- An {lit}`enquire_link` whose response could not be written is removed all the same, and
the operation goes on reading. -/
theorem not_enquireLinks_answered_reset :
    ¬ ∀ (es : List SessionEvent) (os : List SessionObs) (s : Session receiveCapacity),
      (machine receiveCapacity).Run EventMachine.anyStep es os s →
        s.recv.stage = .suspended .read → ∀ n : UInt32,
          (consumedLinks n (receivePart os) ≤
              Sender.writtenFrames (isEnquireLinkResp n) (sendPart os) ∨
            ∃ completion, .completed completion ∈ receivePart os ∧ completion.ec ≠ .success) ∧
          Sender.startedFrames (isEnquireLinkResp n) (sendPart os) ≤
            arrivedLinks n (received es) := by
  intro hanswered
  obtain ⟨es, os, s, hrun, hevents, _, hpending, hnested, hstage, hheader, hneeds, hreadable,
    op, hop, hphase⟩ := run_respond (N := receiveCapacity) (by decide)
  rcases step_writeDone (.system 104) hnested hstage hop hphase (by decide)
    with ⟨s', hstep, hrecv⟩
  have hempty : s'.recv.receiveBuf.readable = [] := by
    rw [hrecv]
    change s.recv.consume.receiveBuf.readable = []
    rw [Receiver.readable_consume, hreadable, hheader]
    rfl
  have hwhole : ¬ s'.recv.Whole := by
    rw [Receiver.Whole, hempty]
    exact fun hwhole => absurd hwhole.1 (by decide)
  obtain ⟨r, hread, hreading, _⟩ := Receiver.steps_startRead (by rw [hrecv])
    (by rw [hrecv]; exact hneeds) hwhole
  have hrest := steps_of_receive_steps (s := s') hread (by decide) (by simp)
  have hbefore := consumed_eq_written (n := 1) (hrun.restrict fun e hmem => by
    rcases hevents e hmem with ⟨event, id, rfl⟩
    exact fun _ _ => trivial)
  have hlast := EventMachine.Steps.snoc hrun hstep trivial
  rcases (hanswered _ _ _ (hlast.trans hrest) hreading 1).1 with hafter | ⟨completion, hmem, _⟩
  · simp only [receivePart_append, sendPart_append, consumedLinks_append,
      Sender.writtenFrames_append, receivePart_receive, sendPart_receive] at hafter
    rw [hbefore, Nat.add_assoc, Nat.add_assoc, Nat.add_le_add_iff_left] at hafter
    simp [receivePart, sendPart, consumedLinks, Sender.writtenFrames, Receiver.consumedObs,
      hheader] at hafter
  · simp [receivePart, Receiver.consumedObs] at hmem
    exact hpending completion (by simpa [receivePart] using hmem)

end Session

end Smpp
