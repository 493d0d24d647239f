import Smpp.Net.EndToEnd
import Smpp.Net.EnquireLink
import Smpp.Net.ReceiveRemoved

/-!
# Asking and answering across a connection

Each session asks whether the other is alive and answers when it is asked.  Frames are told
apart by their sequence number.

Main results:

- Theorem {lit}`Connection.removed_front`: what one end removes from its buffer are, header by
  header, the first frames that the other end has written.
- Theorem {lit}`Connection.answers_le`: an end never receives more answers than it has asked.
- Theorem {lit}`Connection.answers_eq`: when both ends are at rest, no write has ended short and
  no answer has failed, every question has been answered once.

Current gaps:

- Both are about runs in which nothing is transmitted behind a write that ended short and every
  frame is shorter than 2^32 octets.
-/

namespace Smpp

namespace Connection

variable {N : Nat} {c : Connection N} {es : List ConnectionEvent}
variable {os : List (Side × SessionObs)}

/-! ## What is removed -/

/-- The headers of the frames that one end has removed from its buffer. -/
def removed (side : Side) (os : List (Side × SessionObs)) : List Header :=
  Smpp.removed (Session.receivePart (obsOf side os))

/-- The frames that one end has removed from its buffer are the first that the other end has
written. -/
theorem removed_eq (hrun : (machine N).Run Intact es os c) (side : Side) :
    ∃ taken pending, frames side os = taken ++ pending ∧
      removed side.peer os = taken.map deserializeHeader ∧
      arrived side.peer es = taken.flatten ++ c.buffered side.peer := by
  have hwire := (wire_of_run hrun side).onWire
  rcases Session.halves_of_run (session_run side.peer hrun) with ⟨_, es₂, hrecv, hreceived⟩
  have hpassed := Receiver.removed_of_run hrecv
  rw [hreceived] at hpassed
  obtain ⟨taken, pending, hframes, hremoved, harrived⟩ :=
    Framing.Passed.of_flatten (by decide) (isFrame_of_run hrun side) frontHeader_append
      ((List.prefix_append _ _).trans hwire) hpassed
  exact ⟨taken, pending, hframes, hremoved.trans List.map_eq_flatMap.symm, harrived⟩

theorem removed_front (hrun : (machine N).Run Intact es os c) (side : Side) :
    removed side.peer os <+: (frames side os).map deserializeHeader := by
  rcases removed_eq hrun side with ⟨taken, pending, hframes, hremoved, _⟩
  rw [hremoved, hframes, List.map_append]
  exact List.prefix_append _ _

/-! ## Questions and answers -/

/-- The header of an {lit}`enquire_link_resp` with number {lit}`n`. -/
def answersTo (n : UInt32) (header : Header) : Bool :=
  header.commandId = .enquireLinkResp && header.sequenceNumber = n

/-- The {lit}`enquire_link` frames with number {lit}`n` that one end has started to write. -/
def questions (side : Side) (n : UInt32) (os : List (Side × SessionObs)) : Nat :=
  (frames side os).countP (isEnquireLink n)

/-- The {lit}`enquire_link_resp` frames with number {lit}`n` that one end has removed from its
buffer. -/
def answers (side : Side) (n : UInt32) (os : List (Side × SessionObs)) : Nat :=
  (removed side os).countP (answersTo n)

/-- The frames of the writes are the writes counted by their frames. -/
theorem countP_frames (side : Side) (p : Octets → Bool) (os : List (Side × SessionObs)) :
    (frames side os).countP p =
      Sender.startedFrames p (Session.sendPart (obsOf side os)) := by
  rw [frames, writes, Session.writes]
  generalize Session.sendPart (obsOf side os) = sendObs
  induction sendObs with
  | nil => rfl
  | cons o sendObs ih =>
      cases o <;>
        simp only [Sender.writes, Sender.startedFrames, List.filterMap_cons, List.map_cons,
          List.countP_cons] at ih ⊢ <;> simp [ih]

/-- The frames that one end has asked with, counted as they leave the buffer of the other. -/
theorem consumedLinks_eq (n : UInt32) (os : List ReceiveObs) :
    consumedLinks n os = (Smpp.removed os).countP fun header =>
      header.commandId = .enquireLink && header.sequenceNumber = n := by
  rw [consumedLinks, Smpp.removed, List.countP_filterMap]
  refine List.countP_congr fun o _ => ?_
  cases o <;> simp

theorem answers_le_frames (hrun : (machine N).Run Intact es os c) (side : Side) (n : UInt32) :
    answers side n os ≤ (frames side.peer os).countP (isEnquireLinkResp n) := by
  have hle := (removed_front hrun side.peer).sublist.countP_le (p := answersTo n)
  rw [Side.peer_peer, List.countP_map] at hle
  exact hle

/-- Every {lit}`enquire_link` that has arrived announces some octets. -/
theorem linksNonempty_of_run (hrun : (machine N).Run Intact es os c) (side : Side) :
    LinksNonempty (arrived side.peer es) := by
  have hframes := isFrame_of_run hrun side
  have hannounces := Framing.announces_flatten (F := commandFraming) (P := (0 < ·)) (by decide)
    hframes fun frame hmem => by
      have hheader : headerLength ≤ frame.length := (hframes frame hmem).header
      have hpos : 0 < headerLength := by decide
      omega
  obtain ⟨more, hmore⟩ := (List.prefix_append (arrived side.peer es) (c side).outgoing).trans
    (wire_of_run hrun side).onWire
  rw [← hmore] at hannounces
  have harrived := Framing.Announces.of_append more hannounces
  exact fun rest hboundary hheader _ => harrived rest hboundary hheader

/-- While nothing is transmitted behind a write that ended short and every frame is shorter than
2^32 octets, an end has received no more answers than it has asked, number by number. -/
theorem answers_le (es : List ConnectionEvent) (os : List (Side × SessionObs))
    (c : Connection N) (hrun : (machine N).Run Intact es os c) (side : Side) (n : UInt32) :
    answers side n os ≤ questions side n os := by
  calc
    answers side n os
        ≤ (frames side.peer os).countP (isEnquireLinkResp n) := answers_le_frames hrun side n
    _ = Sender.startedFrames (isEnquireLinkResp n) (Session.sendPart (obsOf side.peer os)) :=
        countP_frames side.peer _ os
    _ ≤ arrivedLinks n (arrived side.peer es) :=
        Session.started_le_arrived (session_run side.peer hrun) (linksNonempty_of_run hrun side) n
    _ ≤ questions side n os := by
        refine Framing.count_le_countP (by decide) (fun rest more hwhole => ?_)
          (isFrame_of_run hrun side)
          ((List.prefix_append _ _).trans (wire_of_run hrun side).onWire)
        rw [isEnquireLink, deserializeHeader_append more hwhole.1, isEnquireLink]

/-- A read times out on the left, and the {lit}`enquire_link` is answered on the right. -/
def enquiry : List ConnectionEvent :=
  [.session .left (.receive .asyncReceive 0), .session .left (.receive .iterate 0),
    .session .left (.receive .iterate 0),
    .session .left (.receive (.readDone .operationAborted []) 0), .transmit .left 0 16,
    .session .left (.send (.writeDone 0 .success)), .session .left (.receive .iterate 0),
    .session .left (.receive .iterate 0), .session .right (.receive .asyncReceive 0),
    .session .right (.receive .iterate 0), .session .right (.receive .iterate 0),
    .session .right (.receive (.readDone .success
      (encodeHeader ⟨16, .enquireLink, .rok, 1⟩)) 0),
    .session .right (.receive .iterate 0), .transmit .right 0 16,
    .session .right (.send (.writeDone 0 .success)), .session .right (.receive .iterate 0),
    .session .right (.receive .iterate 0),
    .session .left (.receive (.readDone .success
      (encodeHeader ⟨16, .enquireLinkResp, .rok, 1⟩)) 0),
    .session .left (.receive .iterate 0), .session .left (.receive .iterate 0),
    .session .left (.receive .iterate 0)]

theorem answers_le_enquiry :
    ∃ os, ∃ c : Connection 64, (machine 64).Run Intact enquiry os c ∧
      questions .left 1 os = 1 ∧ answers .left 1 os ≤ questions .left 1 os := by
  have hrun := EventMachine.steps_of_execIf (M := machine 64) (s := (machine 64).init)
    isIntact (fun _ _ _ => intact_of_isIntact) enquiry rfl
  exact ⟨_, _, hrun, rfl, answers_le _ _ _ hrun .left 1⟩

/-! ## Both ends at rest -/

/-- Nothing is being written, nothing is in transit, no write has ended short, and both ends
wait for octets. -/
structure Settled (c : Connection N) : Prop where
  uncut : ∀ side, (c side).cut = false
  idle : ∀ side id frame, ¬ (c side).session.send.Writing id frame
  drained : ∀ side, (c side).outgoing = []
  reading : ∀ side, (c side).session.recv.stage = .suspended .read

/-- The step is intact, and it lets no answer fail. -/
def Answering (c : Connection N) (event : ConnectionEvent) (c' : Connection N) : Prop :=
  Intact c event c' ∧ ∀ side e, event = .session side e → (c side).session.Answers e

/-- At rest everything that was written has been removed. -/
theorem removed_of_settled (hrun : (machine N).Run Intact es os c) (hsettled : c.Settled)
    (side : Side) : removed side.peer os = (frames side os).map deserializeHeader := by
  rcases removed_eq hrun side with ⟨taken, pending, hframes, hremoved, harrived⟩
  have hnone := pending_eq_nil hrun side hframes harrived (hsettled.uncut side)
    (hsettled.idle side) (hsettled.drained side) (hsettled.reading side.peer)
  rw [hremoved, hframes, hnone, List.append_nil]

/-- When both ends are at rest, no write has ended short and no answer has failed, every question
has been answered once, number by number. -/
theorem answers_eq (es : List ConnectionEvent) (os : List (Side × SessionObs))
    (c : Connection N) (hrun : (machine N).Run Answering es os c) (hsettled : c.Settled)
    (side : Side) (n : UInt32) : answers side n os = questions side n os := by
  have hintact : (machine N).Run Intact es os c := hrun.mono fun _ _ _ hstep => hstep.1
  have hanswered : (Session.machine N).Run (fun s event _ => s.Answers event)
      (eventsOf side.peer es) (obsOf side.peer os) (c side.peer).session :=
    session_run_of_run side.peer (fun _ _ _ hstep => hstep.2 _ _ rfl) hrun
  -- what the peer has removed it has answered, and all of it has been removed
  have hwritten := Session.consumed_eq_written hanswered n
  have hfinished := Session.finished_le_consumed hanswered n
  have hle := Sender.writtenFrames_le (isEnquireLinkResp n)
    (Session.sendPart (obsOf side.peer os))
  have hstarted : Sender.startedFrames (isEnquireLinkResp n)
      (Session.sendPart (obsOf side.peer os)) =
        Sender.finishedFrames (isEnquireLinkResp n) (Session.sendPart (obsOf side.peer os)) := by
    rcases (Session.halves_of_run hanswered).1 with ⟨_, hsend⟩
    rcases Sender.balanced_of_run hsend (isEnquireLinkResp n) with ⟨id, frame, hwriting, _⟩ | hfree
    · exact absurd hwriting (hsettled.idle side.peer id frame)
    · exact hfree.2
  have hquestions : consumedLinks n (Session.receivePart (obsOf side.peer os)) =
      questions side n os := by
    rw [consumedLinks_eq]
    change (removed side.peer os).countP _ = _
    rw [removed_of_settled hintact hsettled side, List.countP_map]
    rfl
  have hanswers : answers side n os = (frames side.peer os).countP (isEnquireLinkResp n) := by
    have hall := removed_of_settled hintact hsettled side.peer
    rw [Side.peer_peer] at hall
    rw [answers, hall, List.countP_map]
    rfl
  rw [countP_frames] at hanswers
  omega

/-- The event fails no answer in any state. -/
def isHarmless : ConnectionEvent → Bool
  | .session _ (.send (.resume _)) => false
  | .session _ (.send (.writeDone _ ec)) => ec = .success
  | .session _ _ | .transmit _ _ _ => true

theorem answers_of_isHarmless {event : ConnectionEvent} (hharmless : isHarmless event = true)
    (c : Connection N) (side : Side) (e : SessionEvent) (hevent : event = .session side e) :
    (c side).session.Answers e := by
  subst hevent
  cases e with
  | receive | cancelReceive => trivial
  | send e =>
      cases e with
      | call | callNext | start | cancel => trivial
      | resume => cases hharmless
      | writeDone id ec => exact fun _ _ => of_decide_eq_true hharmless

theorem answers_eq_enquiry :
    ∃ os, ∃ c : Connection 64, (machine 64).Run Answering enquiry os c ∧ c.Settled ∧
      questions .left 1 os = 1 ∧ answers .left 1 os = questions .left 1 os := by
  have hintact := EventMachine.steps_of_execIf (M := machine 64) (s := (machine 64).init)
    isIntact (fun _ _ _ => intact_of_isIntact) enquiry rfl
  have hrun : (machine 64).Run Answering _ _ _ := hintact.and fun event hmem c _ =>
    answers_of_isHarmless ((by decide : ∀ event ∈ enquiry, isHarmless event = true) event hmem) c
  refine ⟨_, _, hrun, ?settled, rfl, answers_eq _ _ _ hrun ?settled .left 1⟩
  refine ⟨fun side => ?_, fun side id frame hwriting => ?_, fun side => ?_, fun side => ?_⟩
  case refine_2 => cases side <;> cases id <;> cases hwriting
  all_goals cases side <;> rfl

end Connection

end Smpp
