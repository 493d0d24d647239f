import Smpp.Net.ConnectionWire
import Smpp.Net.PeerReceive
import Smpp.Net.ReceivePassed

/-!
# From one application to the other

What the receive operations of one end deliver, against what the send operations of the
other end have written, over every interleaving of both sessions and of the transport.

Main results:

- Theorem {lit}`Connection.taken_of_run`: the frames that one end has taken from its buffer
  are the first frames that the other end has written, and its buffer holds what has arrived
  behind them.
- Theorem {lit}`Connection.delivered_of_run`: the PDUs that are delivered at one end are, in
  order and with their numbers and statuses, the first of those sent at the other.

Current gaps:

- Both are about runs in which nothing is transmitted behind a write that ended short and every
  frame is shorter than 2^32 octets; the second also needs PDUs without a NUL in a C string and
  without flags that are lost.
-/

namespace Smpp

/-! ## Messages -/

namespace SendKind

variable {kind : SendKind} {frame : Octets}

/-- What the peer is to receive for a frame of an operation; commands are for the session of
the peer, not for its application. -/
def message (kind : SendKind) (frame : Octets) : List Completion :=
  match kind.value with
  | none => []
  | some ⟨t, pdu⟩ =>
      [{ ec := .success
         pdu := .pdu t pdu
         sequenceNumber := (deserializeHeader frame).sequenceNumber
         commandStatus := kind.commandStatus }]

/-- The PDU of the operation, if it sends one, keeps its flags and holds no NUL in a C string. -/
def Portable (kind : SendKind) : Prop :=
  match kind with
  | .command _ _ => True
  | .request t pdu _ | .response t pdu _ _ _ => t.FlagsKept pdu ∧ t.NulFree pdu

/-- A frame of a PDU is delivered as this PDU. -/
theorem delivery_of_value {t : PduType} {pdu : t.Struct} {sendBuf : Octets}
    (hvalue : kind.value = some ⟨t, pdu⟩) (hflags : t.FlagsKept pdu) (hnul : t.NulFree pdu)
    (hfill : kind.fillBody = .ok sendBuf) (n : UInt32)
    (hlt : (kind.frame sendBuf n).length < 2 ^ 32) :
    delivery (kind.frame sendBuf n) = kind.message (kind.frame sendBuf n) := by
  rcases commandId_of_value hvalue with ⟨hid, hbody⟩
  have hheader := header_frame hfill n
  have hannounced := announced_frame hfill n hlt
  have hdrop := drop_frame hfill n
  generalize kind.frame sendBuf n = frame at *
  have hcommandId : (deserializeHeader frame).commandId = t.commandId := by rw [hheader, hid]
  have hstatus : (deserializeHeader frame).commandStatus = kind.commandStatus := by rw [hheader]
  have hdecoded : t.deserialize (t.encode pdu) = .ok pdu :=
    (PduType.deserialize_encode_iff (fits_of_fillBody hvalue hfill) hflags).mpr hnul
  rw [delivery, if_neg (hcommandId ▸ Receiver.commandId_notMem_control t), hannounced,
    List.take_length, hcommandId, decodeFrame_of_owner t.owner_commandId, hdrop, hbody, hdecoded,
    hstatus]
  simp only [message, hvalue]

/-- A frame is delivered as the message of the operation that has built it. -/
theorem delivery_of_builds (hportable : kind.Portable)
    (hcommand : ∀ commandId m, kind = .command commandId m → commandId ∈ Receiver.control)
    (hbuilds : kind.Builds frame) (hlt : frame.length < 2 ^ 32) :
    delivery frame = kind.message frame := by
  cases kind with
  | command commandId m =>
      rcases hbuilds with ⟨sendBuf, n, hfill, rfl, _⟩
      have hcontrol : (deserializeHeader ((SendKind.command commandId m).frame sendBuf n)).commandId
          ∈ Receiver.control := by
        rw [header_frame hfill]
        exact hcommand commandId m rfl
      rw [delivery, if_pos hcontrol]
      rfl
  | request t pdu hrequest =>
      rcases hbuilds with ⟨sendBuf, n, hfill, rfl, _⟩
      exact delivery_of_value rfl hportable.1 hportable.2 hfill n hlt
  | response t pdu n commandStatus hresponse =>
      rcases hbuilds with ⟨sendBuf, n, hfill, rfl, _⟩
      exact delivery_of_value rfl hportable.1 hportable.2 hfill n hlt

end SendKind

namespace Session

variable {N : Nat} {s s' : Session N} {event : SessionEvent} {obs : List SessionObs}

/-- The PDUs that a session has started to write, as the peer is to receive them. -/
def sent (s : Session N) (os : List SessionObs) : List Completion :=
  (writes os).flatMap fun write =>
    match s.send.ops write.1 with
    | some op => op.kind.message write.2
    | none => []

/-- Every command is one that the session of the peer handles. -/
def Commands (s : Session N) : Prop :=
  ∀ id op commandId n, s.send.ops id = some op → op.kind = .command commandId n →
    commandId ∈ Receiver.control

/-- The coroutine sends control commands only. -/
theorem control_of_sendCommand {recv recv' : Receiver N} {e : ReceiveEvent}
    {o : List ReceiveObs} {commandId : CommandId} {n : Option UInt32}
    (hrecv : recv.step e = some (recv', o)) (hmem : .sendCommand commandId n ∈ o) :
    commandId ∈ Receiver.control := by
  have hquiet : ∀ {r : Receiver N} {o : List ReceiveObs}, Receiver.Deliver r recv' o →
      .sendCommand commandId n ∉ o := fun hdeliver => hdeliver.not_mem (by simp) (by simp)
  have hmove := Receiver.move_of_step hrecv
  cases hmove with
  | asyncReceive | startRead | incomplete => simp at hmem
  | dispatch hstage hneeds hwhole hdispatch =>
      cases hdispatch with
      | enquireLink | unbind =>
          simp only [List.mem_cons, reduceCtorEq, ReceiveObs.sendCommand.injEq, List.not_mem_nil,
            or_false, false_or] at hmem
          rw [hmem.1]
          decide
      | enquireLinkResp | unbindResp | post => simp [Receiver.consumedObs] at hmem
      | deliver hid hpost hdeliver => exact absurd (by simpa using hmem) (hquiet hdeliver)
  | resume hresume =>
      cases hresume with
      | readTimeoutAgain | readTimeout =>
          simp only [List.mem_singleton, ReceiveObs.sendCommand.injEq] at hmem
          rw [hmem.1]
          decide
      | readError | read | unbindSent | sendError | enquireLinkSent | cancel => simp at hmem
      | enquireLinkRespSent | unbindRespSent => simp [Receiver.consumedObs] at hmem
      | posted hstage hdeliver => exact absurd hmem (hquiet hdeliver)

/-- A step of the sending half calls for control commands at most. -/
theorem Commands.send {send : Sender} {e : SendEvent} {o : List SendObs} (hcommands : s.Commands)
    (hmove : Sender.Move s.send e send o) (hinv : s.send.Inv)
    (hcalled : ∀ id commandId n, Sender.Called [e] id (.command commandId n) →
      commandId ∈ Receiver.control) : Commands { s with send := send } := by
  intro id op commandId n hop hkind
  rcases Sender.kind_move hmove hinv hop with ⟨before, hbefore, hsame⟩ | ⟨_, _, hnew⟩
  · exact hcommands id before commandId n hbefore (hsame ▸ hkind)
  · exact hcalled id commandId n (hkind ▸ hnew)

/-- The caller calls for {lit}`unbind` only. -/
theorem control_of_mayHappen {e : SendEvent} (hmay : s.mayHappen e = true) (id : Nat)
    (commandId : CommandId) (n : UInt32) (hcalled : Sender.Called [e] id (.command commandId n)) :
    commandId ∈ Receiver.control := by
  rcases hcalled with hmem | ⟨commandId', m, hmem, hkind⟩
  · rw [List.mem_singleton] at hmem
    subst hmem
    cases hmay
  · rw [List.mem_singleton] at hmem
    subst hmem
    have hunbind : commandId' = .unbind := by simpa [mayHappen] using hmay
    cases hkind
    rw [hunbind]
    decide

/-- Every step keeps to control commands. -/
theorem commands_move (hmove : Move s event s' obs) (hinv : s.send.Inv)
    (hcommands : s.Commands) : s'.Commands := by
  cases hmove with
  | send hpaused hmay hsend hpending =>
      exact hcommands.send (Sender.move_of_step hsend) hinv (control_of_mayHappen hmay)
  | resume hmay hsend hnested hcompleted hrecv =>
      exact hcommands.send (Sender.move_of_step hsend) hinv (control_of_mayHappen hmay)
  | receive hexternal hrecv hquiet => exact hcommands
  | cancel hrecv hnested => exact hcommands
  | @command e id recv o commandId n called send callObs startObs hexternal hrecv hcommand
      hcall hstart =>
      have hcontrol := control_of_sendCommand hrecv hcommand
      have hcallMove := Sender.move_of_step hcall
      have hcalled := hcommands.send hcallMove hinv fun id' commandId' m hcalled => by
        cases n with
        | none =>
            simp only [Sender.Called, callCommand, List.mem_singleton, reduceCtorEq, false_or,
              SendEvent.callNext.injEq, SendKind.command.injEq] at hcalled
            rcases hcalled with ⟨_, _, ⟨_, rfl⟩, rfl, _⟩
            exact hcontrol
        | some k =>
            simp only [Sender.Called, callCommand, List.mem_singleton, SendEvent.call.injEq,
              SendKind.command.injEq, reduceCtorEq, false_and, exists_false, or_false] at hcalled
            rw [hcalled.2.1]
            exact hcontrol
      exact hcalled.send (Sender.move_of_step hstart) (Sender.inv_move hcallMove hinv)
        (by simp [Sender.Called])
  | cancelNested hrecv hnested hsend =>
      exact hcommands.send (Sender.move_of_step hsend) hinv (by simp [Sender.Called])

/-- In every run a session sends control commands only. -/
theorem commands_of_run {R : Session N → SessionEvent → Session N → Prop}
    {es : List SessionEvent} (hrun : (machine N).Run R es obs s) : s.Commands := by
  induction hrun with
  | refl => simp [Commands, machine]
  | snoc before hstep _ ih =>
      rcases (halves_of_run before).1 with ⟨_, hsend⟩
      exact commands_move (move_of_step hstep) (Sender.inv_of_run hsend) ih

end Session

namespace Connection

variable {N : Nat} {c : Connection N} {es : List ConnectionEvent}
variable {os : List (Side × SessionObs)}

/-! ## Frames that have arrived -/

/-- The PDUs that the receive operations of one end have completed with. -/
def delivered (side : Side) (os : List (Side × SessionObs)) : List Completion :=
  Session.delivered (obsOf side os)

/-- The octets in the receive buffer of one end. -/
def buffered (c : Connection N) (side : Side) : Octets :=
  (c side).session.recv.receiveBuf.readable

/-- The frames that one end has taken from its buffer are the first that the other end has
written, and its buffer holds what has arrived behind them. -/
theorem taken_of_run (hrun : (machine N).Run Intact es os c) (side : Side) :
    ∃ taken pending, frames side os = taken ++ pending ∧
      delivered side.peer os = taken.flatMap delivery ∧
      arrived side.peer es = taken.flatten ++ c.buffered side.peer := by
  have hwire := (wire_of_run hrun side).onWire
  have hpassed := (Session.passed_of_run (session_run side.peer hrun)).1
  exact Framing.Passed.of_flatten (by decide) (isFrame_of_run hrun side) delivery_append
    ((List.prefix_append _ _).trans hwire) hpassed

/-- Of two readers of the same frames the one that waits for more has got as far as the
writes. -/
theorem pending_eq_nil (hrun : (machine N).Run Intact es os c) (side : Side)
    {taken pending : List Octets} (hframes : frames side os = taken ++ pending)
    (harrived : arrived side.peer es = taken.flatten ++ c.buffered side.peer)
    (hcut : (c side).cut = false) (hidle : ∀ id frame, ¬ (c side).session.send.Writing id frame)
    (hempty : (c side).outgoing = [])
    (hreading : (c side.peer).session.recv.stage = .suspended .read) : pending = [] := by
  have hall := ((wire_of_run hrun side).idle hidle).2 hcut
  have hinv := (inv_of_run hrun side.peer).2.1
  simp only [Receiver.Inv, hreading] at hinv
  have hisFrame : ∀ frame ∈ pending, commandFraming.IsFrame frame := fun frame hmem =>
    isFrame_of_run hrun side frame (hframes ▸ List.mem_append_right _ hmem)
  have hbuffered : (taken ++ pending).flatten = taken.flatten ++ c.buffered side.peer := by
    rw [← hframes, ← harrived, ← hall, hempty, List.append_nil]
  exact Framing.eq_nil_of_incomplete hisFrame hbuffered hinv.2.1

/-- The messages of the writes are the deliveries of their frames. -/
theorem sent_eq (hrun : (machine N).Run Intact es os c) (side : Side)
    (hportable : ∀ id op, (c side).session.send.ops id = some op → op.kind.Portable) :
    (c side).session.sent (obsOf side os) = (frames side os).flatMap delivery := by
  have hcommands := Session.commands_of_run (session_run side hrun)
  rw [Session.sent, frames, List.flatMap_map]
  refine List.flatMap_congr fun write hmem => ?_
  rcases writes_of_run hrun side write hmem with ⟨⟨op, hop, hbuilds⟩, hlt⟩
  simp only [hop]
  exact (SendKind.delivery_of_builds (hportable _ op hop)
    (fun commandId m hkind => hcommands _ op commandId m hop hkind) hbuilds hlt).symm

/-! ## Nothing lost, nothing twice, nothing out of order -/

/-- What is sent are the deliveries of the peer and the messages of frames that are missing
there. -/
theorem exists_missing (hrun : (machine N).Run Intact es os c) (side : Side)
    (hportable : ∀ id op, (c side).session.send.ops id = some op → op.kind.Portable) :
    ∃ missing, (c side).session.sent (obsOf side os) = delivered side.peer os ++ missing ∧
      ((c side).cut = false → (∀ id frame, ¬ (c side).session.send.Writing id frame) →
        (c side).outgoing = [] → (c side.peer).session.recv.stage = .suspended .read →
          missing = []) := by
  rcases taken_of_run hrun side with ⟨taken, pending, hframes, hdelivered, harrived⟩
  refine ⟨pending.flatMap delivery, ?_, fun hcut hidle hempty hreading => ?_⟩
  · rw [sent_eq hrun side hportable, hdelivered, hframes, List.flatMap_append]
  · rw [pending_eq_nil hrun side hframes harrived hcut hidle hempty hreading, List.flatMap_nil]

/-- While nothing is transmitted behind a write that ended short, every frame is shorter than
2^32 octets and the PDUs that one end sends hold no NUL in a C string and keep their flags: the
PDUs that the receive operations of the other end complete with are, in order and with their
numbers and statuses, the first of those whose writes it has started.  When no write of this end
has ended short, none is outstanding, nothing is in transit and the receiver waits for octets,
none is missing. -/
theorem delivered_of_run (es : List ConnectionEvent) (os : List (Side × SessionObs))
    (c : Connection N) (hrun : (machine N).Run Intact es os c) (side : Side)
    (hportable : ∀ id op, (c side).session.send.ops id = some op → op.kind.Portable) :
    delivered side.peer os <+: (c side).session.sent (obsOf side os) ∧
      ((c side).cut = false → (∀ id frame, ¬ (c side).session.send.Writing id frame) →
        (c side).outgoing = [] → (c side.peer).session.recv.stage = .suspended .read →
          delivered side.peer os = (c side).session.sent (obsOf side os)) := by
  rcases exists_missing hrun side hportable with ⟨missing, hsent, hdrained⟩
  rw [hsent]
  refine ⟨List.prefix_append _ _, fun hcut hidle hempty hreading => ?_⟩
  rw [hdrained hcut hidle hempty hreading, List.append_nil]

/-- An empty {lit}`submit_sm_resp` that is sent on the left and delivered on the right. -/
theorem delivered_of_run_submitSmResp :
    ∃ es os, ∃ c : Connection 64, (machine 64).Run Intact es os c ∧
      frames .left os = [encodeHeader ⟨17, .submitSmResp, .rok, 1⟩ ++ [0]] ∧
      arrived .right es = encodeHeader ⟨17, .submitSmResp, .rok, 1⟩ ++ [0] ∧
      (delivered .right os <+: (c .left).session.sent (obsOf .left os) ∧
        ((c .left).cut = false → (∀ id frame, ¬ (c .left).session.send.Writing id frame) →
          (c .left).outgoing = [] → (c .right).session.recv.stage = .suspended .read →
            delivered .right os = (c .left).session.sent (obsOf .left os))) := by
  have hrun := EventMachine.steps_of_execIf (M := machine 64) (s := (machine 64).init)
    isIntact (fun _ _ _ => intact_of_isIntact)
    [.session .left (.send (.call 0 (.response .submitSmResp {} 1 .rok rfl))),
      .session .left (.send (.start 0)), .transmit .left 0 10, .transmit .left 0 7,
      .session .left (.send (.writeDone 0 .success)), .session .right (.receive .asyncReceive 0),
      .session .right (.receive .iterate 0), .session .right (.receive .iterate 0),
      .session .right (.receive (.readDone .success
        (encodeHeader ⟨17, .submitSmResp, .rok, 1⟩ ++ [0])) 0),
      .session .right (.receive .iterate 0)] rfl
  refine ⟨_, _, _, hrun, rfl, rfl, delivered_of_run _ _ _ hrun .left fun id op hop => ?_⟩
  cases id with
  | zero =>
      cases hop
      exact ⟨⟨trivial, trivial⟩, ⟨List.not_mem_nil, trivial⟩⟩
  | succ id => cases hop

end Connection

end Smpp
