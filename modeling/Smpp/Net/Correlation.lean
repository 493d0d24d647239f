import Mathlib.Data.List.Nodup
import Mathlib.Data.List.Perm.Subperm
import Smpp.Net.EndToEnd
import Smpp.Net.SequenceNumbers

/-!
# Matching responses with requests

{lit}`async_send` of a request reports the number it was sent under, so that the caller can find
the request that a response belongs to.  This works as far as the application of the peer plays
its part: it answers the requests it receives, each at most once.

Main results:

- Theorem {lit}`Session.called_of_run`: PDUs are sent by the caller only.
- Theorem {lit}`Connection.responses_le`: an end receives no more responses with a number than
  it has sent requests with this number.
-/

namespace Smpp

/-! ## Requests and responses -/

/-- The operation has completed with a response, or with a request, that carries the number. -/
def Completion.carries (response : Bool) (n : UInt32) (completion : Completion) : Bool :=
  match completion.pdu with
  | .pdu t _ => isResponse t.commandId = response ∧ completion.sequenceNumber = n
  | .invalidPdu _ _ => false

/-- The frame is one of a response PDU, or of a request PDU, that carries the number. -/
def carriesFrame (response : Bool) (n : UInt32) (frame : Octets) : Bool :=
  (deserializeHeader frame).commandId ∉ Receiver.control ∧
    isResponse (deserializeHeader frame).commandId = response ∧
      (deserializeHeader frame).sequenceNumber = n

/-- A type owns its own identifier only. -/
theorem PduType.commandId_of_owner {commandId : CommandId} {t : PduType}
    (howner : PduType.owner commandId = some t) : commandId = t.commandId := by
  simpa using List.find?_some howner

/-- What a frame is delivered as carries no other number. -/
theorem countP_delivery_le (response : Bool) (n : UInt32) (frame : Octets) :
    (delivery frame).countP (·.carries response n) ≤
      if carriesFrame response n frame then 1 else 0 := by
  unfold delivery
  split
  · exact Nat.zero_le _
  · rename_i hid
    rw [List.countP_singleton]
    split
    · rename_i hcarries
      have hframe : carriesFrame response n frame = true := by
        cases hpdu : decodeFrame (deserializeHeader frame).commandId
            (frame.take (deserializeHeader frame).commandLength.toNat) with
        | invalidPdu => simp [Completion.carries, hpdu] at hcarries
        | pdu t pdu =>
            simp only [Completion.carries, hpdu, decide_eq_true_eq] at hcarries
            have hid' := PduType.commandId_of_owner (eq_of_decodeFrame hpdu).1
            simp only [carriesFrame, decide_eq_true_eq]
            exact ⟨hid, hid' ▸ hcarries.1, hcarries.2⟩
      rw [if_pos hframe]
    · exact Nat.zero_le _

/-- Frames are delivered as no more completions that carry the number. -/
theorem countP_deliveries_le (response : Bool) (n : UInt32) (frames : List Octets) :
    (frames.flatMap delivery).countP (·.carries response n) ≤
      frames.countP (carriesFrame response n) := by
  induction frames with
  | nil => exact Nat.le_refl _
  | cons frame frames ih =>
      have hfirst := countP_delivery_le response n frame
      rw [List.flatMap_cons, List.countP_append, List.countP_cons]
      omega

/-- The operation sends a response to the request with the number. -/
def SendKind.isResponseTo (n : UInt32) : SendKind → Bool
  | .response _ _ m _ _ => m = n
  | .command _ _ | .request _ _ _ => false

namespace Sender

variable {s : Sender} {os : List SendObs}

theorem mem_writes {id : Nat} {frame : Octets} :
    (id, frame) ∈ writes os ↔ .writeStarted id frame ∈ os := by
  rw [writes, List.mem_filterMap]
  constructor
  · rintro ⟨o, hmem, ho⟩
    cases o with
    | writeStarted =>
        cases ho
        exact hmem
    | allocated | writeDone | completed => cases ho
  · exact fun hmem => ⟨_, hmem, rfl⟩

/-- The writes of a run are those of different operations. -/
theorem nodup_writes {es : List SendEvent} (hrun : machine.Run EventMachine.anyStep es os s) :
    ((writes os).map Prod.fst).Nodup := by
  rw [List.nodup_iff_count_le_one]
  intro id
  have hcount : ((writes os).map Prod.fst).count id = startedWrites id os := by
    rw [List.count, List.countP_map, writes, List.countP_filterMap, startedWrites]
    refine List.countP_congr fun o _ => ?_
    cases o <;> simp [isStart]
  rw [hcount]
  exact (history_of_run hrun id).starts_le.1

end Sender

namespace Session

variable {N : Nat} {s s' : Session N} {event : SessionEvent} {obs os : List SessionObs}
variable {es : List SessionEvent}

/-- The caller asked for every operation that sends a PDU. -/
def CalledFor (s : Session N) (es : List SessionEvent) : Prop :=
  ∀ id op, s.send.ops id = some op → op.kind.isCommand = false → .send (.call id op.kind) ∈ es

/-- A step of the sending half makes the operations that were called. -/
theorem CalledFor.send {send : Sender} {e : SendEvent} {o : List SendObs}
    (hcalledFor : s.CalledFor es) (hmove : Sender.Move s.send e send o) (hinv : s.send.Inv)
    (more : List SessionEvent)
    (hcalled : ∀ id kind, e = .call id kind → kind.isCommand = false →
      .send (.call id kind) ∈ more) : CalledFor { s with send := send } (es ++ more) := by
  intro id op hop hkind
  rcases Sender.kind_move hmove hinv hop with ⟨before, hbefore, hsame⟩ | ⟨_, _, hnew⟩
  · have hmem := hcalledFor id before hbefore (hsame ▸ hkind)
    exact List.mem_append_left _ (hsame ▸ hmem)
  · rcases hnew with hmem | ⟨commandId, n, _, hcommand⟩
    · exact List.mem_append_right _ (hcalled id _ (List.mem_singleton.mp hmem).symm hkind)
    · rw [hcommand] at hkind
      cases hkind

/-- Every step keeps to what the caller asked for. -/
theorem calledFor_move (hmove : Move s event s' obs) (hinv : s.send.Inv)
    (hcalledFor : s.CalledFor es) : s'.CalledFor (es ++ [event]) := by
  have hsame : ∀ {recv : Receiver N} {nested : Option Nat},
      CalledFor ⟨s.send, recv, nested⟩ (es ++ [event]) := fun id op hop hkind =>
    List.mem_append_left _ (hcalledFor id op hop hkind)
  cases hmove with
  | send hpaused hmay hsend hpending =>
      exact hcalledFor.send (Sender.move_of_step hsend) hinv _ (by rintro id kind rfl _; simp)
  | resume hmay hsend hnested hcompleted hrecv =>
      exact hcalledFor.send (Sender.move_of_step hsend) hinv _ (by rintro id kind rfl _; simp)
  | receive | cancel => exact hsame
  | @command e id recv o commandId n called send callObs startObs hexternal hrecv hcommand
      hcall hstart =>
      have hcallMove := Sender.move_of_step hcall
      have hcalled := hcalledFor.send hcallMove hinv [] fun j kind heq hkind => by
        cases n with
        | none => simp [callCommand] at heq
        | some n =>
            simp only [callCommand, SendEvent.call.injEq] at heq
            rw [← heq.2] at hkind
            cases hkind
      rw [List.append_nil] at hcalled
      exact hcalled.send (Sender.move_of_step hstart) (Sender.inv_move hcallMove hinv) _ (by simp)
  | cancelNested hrecv hnested hsend =>
      exact hcalledFor.send (Sender.move_of_step hsend) hinv _ (by simp)

/-- In every run the caller asked for every operation that sends a PDU. -/
theorem called_of_run {R : Session N → SessionEvent → Session N → Prop}
    (hrun : (machine N).Run R es os s) : s.CalledFor es := by
  induction hrun with
  | refl => simp [CalledFor, machine]
  | snoc before hstep _ ih =>
      rcases (halves_of_run before).1 with ⟨_, hsend⟩
      exact calledFor_move (move_of_step hstep) (Sender.inv_of_run hsend) ih

/-- The operations with which the caller answers the request with the number. -/
def replies (n : UInt32) (es : List SessionEvent) : List Nat :=
  es.filterMap fun
    | .send (.call id kind) => if kind.isResponseTo n then some id else none
    | .send (.callNext _ _) | .send (.start _) | .send (.resume _) | .send (.writeDone _ _)
    | .send (.cancel _ _) | .receive _ _ | .cancelReceive _ => none

end Session

namespace Connection

variable {N : Nat} {c : Connection N} {es : List ConnectionEvent}
variable {os : List (Side × SessionObs)}

/-- The responses with the number that one end has received. -/
def responses (side : Side) (n : UInt32) (os : List (Side × SessionObs)) : Nat :=
  (delivered side os).countP (·.carries true n)

/-- The requests with the number that one end has received. -/
def requests (side : Side) (n : UInt32) (os : List (Side × SessionObs)) : Nat :=
  (delivered side os).countP (·.carries false n)

/-- The requests with the number whose writes one end has started. -/
def requested (side : Side) (n : UInt32) (os : List (Side × SessionObs)) : Nat :=
  (frames side os).countP (carriesFrame false n)

/-- No more PDUs with a number are delivered than were written. -/
theorem countP_delivered_le (hrun : (machine N).Run Intact es os c) (side : Side)
    (response : Bool) (n : UInt32) :
    (delivered side.peer os).countP (·.carries response n) ≤
      (frames side os).countP (carriesFrame response n) := by
  rcases taken_of_run hrun side with ⟨taken, pending, hframes, hdelivered, _⟩
  have htaken := countP_deliveries_le response n taken
  rw [hdelivered, hframes, List.countP_append]
  omega

/-- The operations that have started to write a frame with the property. -/
theorem writers_eq (side : Side) (p : Octets → Bool) (os : List (Side × SessionObs)) :
    (((writes side os).filter (p ·.2)).map Prod.fst).length = (frames side os).countP p := by
  rw [List.length_map, frames, List.countP_map, List.countP_eq_length_filter]
  rfl

/-- They are different operations. -/
theorem nodup_writers (hrun : (machine N).Run Intact es os c) (side : Side) (p : Octets → Bool) :
    (((writes side os).filter (p ·.2)).map Prod.fst).Nodup := by
  rcases (Session.halves_of_run (session_run side hrun)).1 with ⟨_, hsend⟩
  exact (List.filter_sublist.map Prod.fst).nodup (Sender.nodup_writes hsend)

/-- An operation that writes a response with the number was called to do so. -/
theorem isResponseTo_of_writes (hrun : (machine N).Run Intact es os c) (side : Side) {n : UInt32}
    {write : Nat × Octets} (hmem : write ∈ writes side os)
    (hcarries : carriesFrame true n write.2 = true) :
    ∃ kind, .send (.call write.1 kind) ∈ eventsOf side es ∧ kind.isResponseTo n = true := by
  rcases writes_of_run hrun side write hmem with
    ⟨⟨op, hop, sendBuf, m, hfill, hframe, hgiven⟩, _⟩
  have hheader := SendKind.header_frame hfill m
  simp only [carriesFrame, hframe, hheader, decide_eq_true_eq] at hcarries
  rcases hcarries with ⟨hid, hresponse, rfl⟩
  have hcalled := Session.called_of_run (session_run side hrun) write.1 op hop
  cases hkind : op.kind with
  | command commandId k =>
      have hcommands := Session.commands_of_run (session_run side hrun)
      have hcontrol := hcommands write.1 op commandId k hop hkind
      rw [hkind] at hid
      exact absurd hcontrol hid
  | request t pdu hrequest =>
      rw [hkind, SendKind.commandId, hrequest] at hresponse
      cases hresponse
  | response t pdu k commandStatus hresponse' =>
      rw [hkind] at hcalled hgiven
      exact ⟨_, hcalled rfl, by simpa [SendKind.isResponseTo] using (hgiven k rfl).symm⟩

/-- No more responses with a number are written than the application asks for. -/
theorem answered_le (hrun : (machine N).Run Intact es os c) (side : Side) (n : UInt32) :
    (frames side os).countP (carriesFrame true n) ≤
      (Session.replies n (eventsOf side es)).length := by
  rw [← writers_eq]
  refine ((nodup_writers hrun side _).subperm fun id hmem => ?_).length_le
  rcases List.mem_map.mp hmem with ⟨write, hwrite, rfl⟩
  rw [List.mem_filter] at hwrite
  rcases isResponseTo_of_writes hrun side hwrite.1 hwrite.2 with ⟨kind, hcall, hkind⟩
  exact List.mem_filterMap.mpr ⟨_, hcall, if_pos hkind⟩

/-- Until the numbers start again no two requests carry the same one. -/
theorem requested_le_one (hrun : (machine N).Run Intact es os c) (side : Side) (n : UInt32)
    (hfew : (Sender.allocated (Session.sendPart (obsOf side os))).length ≤ 2 ^ 31 - 1) :
    requested side n os ≤ 1 := by
  rcases Session.send_run_of_run (session_run side hrun) with ⟨es₁, hsend⟩
  rcases hsend.exists_traced with ⟨τ, htraced, _, hshown⟩
  have hnumbers := Sender.requestNumbers_of_traced htraced
  have hlength : (Sender.ledger τ).length ≤ 2 ^ 31 - 1 := by
    rwa [← hshown, ← Sender.map_snd_ledger, List.length_map] at hfew
  -- an operation that writes such a request was given the number
  have howner : ∀ id ∈ ((writes side os).filter (carriesFrame false n ·.2)).map Prod.fst,
      ∃ k : Nat, (Sender.ledger τ)[k]? = some (id, n) := by
    intro id hmem
    rcases List.mem_map.mp hmem with ⟨write, hwrite, rfl⟩
    rw [List.mem_filter] at hwrite
    rcases hwrite with ⟨hwrite, hcarries⟩
    simp only [carriesFrame, decide_eq_true_eq] at hcarries
    rcases hcarries with ⟨_, hrequest, rfl⟩
    have hstarted : .writeStarted write.1 write.2 ∈ EventMachine.shown τ := by
      rw [hshown]
      exact Sender.mem_writes.mp hwrite
    exact List.getElem?_of_mem (hnumbers.frames _ _ hstarted hrequest).1
  -- the number is given once only
  have hsame : ∀ i ∈ ((writes side os).filter (carriesFrame false n ·.2)).map Prod.fst,
      ∀ j ∈ ((writes side os).filter (carriesFrame false n ·.2)).map Prod.fst, i = j := by
    intro i hi j hj
    rcases howner i hi with ⟨k, hk⟩
    rcases howner j hj with ⟨l, hl⟩
    have hklt := (List.getElem?_eq_some_iff.mp hk).1
    have hllt := (List.getElem?_eq_some_iff.mp hl).1
    rcases Nat.lt_trichotomy k l with hlt | rfl | hlt
    · exact (hnumbers.distinct k l _ _ hk hl hlt (by omega) rfl).elim
    · rw [hk, Option.some.injEq, Prod.mk.injEq] at hl
      exact hl.1
    · exact (hnumbers.distinct l k _ _ hl hk hlt (by omega) rfl).elim
  rw [requested, ← writers_eq]
  have hnodup := nodup_writers hrun side (carriesFrame false n)
  generalize ((writes side os).filter (carriesFrame false n ·.2)).map Prod.fst = ids
    at hsame hnodup
  match ids, hsame, hnodup with
  | [], _, _ => exact Nat.zero_le _
  | [_], _, _ => exact Nat.le_refl _
  | i :: j :: _, hsame, hnodup =>
      have hij : i = j := hsame i (by simp) j (by simp)
      exact absurd (hij ▸ List.mem_cons_self) (List.nodup_cons.mp hnodup).1

/-! ## Responses find their requests -/

/-- While nothing is transmitted behind a write that ended short, every frame is shorter than
2^32 octets and the peer answers the requests it receives at most once each, an end receives no
more responses with a number than it has started to write requests with this number; until the
numbers start again that is one at most. -/
theorem responses_le (es : List ConnectionEvent) (os : List (Side × SessionObs))
    (c : Connection N) (hrun : (machine N).Run Intact es os c) (side : Side) (n : UInt32)
    (hanswers : (Session.replies n (eventsOf side.peer es)).length ≤ requests side.peer n os) :
    responses side n os ≤ requested side n os ∧
      ((Sender.allocated (Session.sendPart (obsOf side os))).length ≤ 2 ^ 31 - 1 →
        responses side n os ≤ 1) := by
  have hresponses : responses side n os ≤ requested side n os := by
    have hback := countP_delivered_le hrun side.peer true n
    rw [Side.peer_peer] at hback
    have hthere := countP_delivered_le hrun side false n
    calc responses side n os
        ≤ (frames side.peer os).countP (carriesFrame true n) := hback
      _ ≤ (Session.replies n (eventsOf side.peer es)).length := answered_le hrun side.peer n
      _ ≤ requests side.peer n os := hanswers
      _ ≤ requested side n os := hthere
  exact ⟨hresponses, fun hfew => hresponses.trans (requested_le_one hrun side n hfew)⟩

/-- An {lit}`outbind` is answered with a {lit}`submit_sm_resp`. -/
theorem responses_le_outbind :
    ∃ es os, ∃ c : Connection 64, (machine 64).Run Intact es os c ∧
      responses .left 1 os = 1 ∧ requested .left 1 os = 1 ∧
      (responses .left 1 os ≤ requested .left 1 os ∧
        ((Sender.allocated (Session.sendPart (obsOf .left os))).length ≤ 2 ^ 31 - 1 →
          responses .left 1 os ≤ 1)) := by
  have hrun := EventMachine.steps_of_execIf (M := machine 64) (s := (machine 64).init)
    isIntact (fun _ _ _ => intact_of_isIntact)
    [.session .left (.send (.call 0 (.request .outbind {} rfl))),
      .session .left (.send (.start 0)), .transmit .left 0 18,
      .session .left (.send (.writeDone 0 .success)), .session .right (.receive .asyncReceive 0),
      .session .right (.receive .iterate 0), .session .right (.receive .iterate 0),
      .session .right (.receive (.readDone .success
        (encodeHeader ⟨18, .outbind, .rok, 1⟩ ++ [0, 0])) 0),
      .session .right (.receive .iterate 0),
      .session .right (.send (.call 0 (.response .submitSmResp {} 1 .rok rfl))),
      .session .right (.send (.start 0)), .transmit .right 0 17,
      .session .right (.send (.writeDone 0 .success)), .session .left (.receive .asyncReceive 0),
      .session .left (.receive .iterate 0), .session .left (.receive .iterate 0),
      .session .left (.receive (.readDone .success
        (encodeHeader ⟨17, .submitSmResp, .rok, 1⟩ ++ [0])) 0),
      .session .left (.receive .iterate 0)] rfl
  exact ⟨_, _, _, hrun, by decide +kernel, rfl,
    responses_le _ _ _ hrun .left 1 (by decide +kernel)⟩

end Connection

end Smpp
