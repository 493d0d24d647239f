import Smpp.Library.History
import Smpp.Net.Session

/-!
# Tearing a session down

Why {lit}`receive_op` shuts the socket down, told by the history of the session: the flag
{lit}`pending_enquire_link_` stands for an {lit}`enquire_link` that was written behind the
timeout of a read and for the silence since.

Main results:

- Theorem {lit}`Session.justified_of_run`: in every run the flag and the suspension points of
  the coroutine stand for what has happened.
- Theorem {lit}`Session.teardown_of_run`: the socket is shut down only behind an answered
  {lit}`unbind`, behind an {lit}`unbind_resp`, or behind two timeouts with a written
  {lit}`enquire_link` and no octet in between.
-/

namespace Smpp

namespace Receiver

variable {N : Nat} {r r' : Receiver N} {event : ReceiveEvent} {obs : List ReceiveObs}

/-! ## The flag -/

/-- Any octet at all clears the flag. -/
theorem pending_commit (received : Octets) :
    (r.commit received).op.pendingEnquireLink = true ↔
      received = [] ∧ r.op.pendingEnquireLink = true := by
  unfold commit
  split
  · rename_i hlength
    have hne : received ≠ [] := fun hempty => hlength (by rw [hempty]; rfl)
    simp [hne]
  · rename_i hlength
    rw [ne_eq, not_not, List.length_eq_zero_iff] at hlength
    simp [hlength]

/-- What a step does to the flag and to the suspension points that depend on it. -/
inductive Watch (r : Receiver N) : ReceiveEvent → Receiver N → Prop
  | plain {event : ReceiveEvent} {r' : Receiver N}
      (hstage : r'.stage ≠ .suspended .sendEnquireLink ∧ r'.stage ≠ .suspended .sendUnbind)
      (hpending : r'.op.pendingEnquireLink = true → r'.stage ≠ .idle →
        event ≠ .asyncReceive ∧ event.octets = [] ∧ r.op.pendingEnquireLink = true ∧
          r.stage ≠ .idle ∧ r.stage ≠ .suspended .sendEnquireLink) : Watch r event r'
  | timeout {received : Octets} {r' : Receiver N} (hstage : r.stage = .suspended .read)
      (hcancelled : r.cancellation.cancelled = false)
      (hstage' : r'.stage = .suspended .sendEnquireLink) :
      Watch r (.readDone .operationAborted received) r'
  | timeoutAgain {r' : Receiver N} (hstage : r.stage = .suspended .read)
      (hcancelled : r.cancellation.cancelled = false)
      (hpending : r.op.pendingEnquireLink = true)
      (hstage' : r'.stage = .suspended .sendUnbind) :
      Watch r (.readDone .operationAborted []) r'
  | asked {r' : Receiver N} (hstage : r.stage = .suspended .sendEnquireLink)
      (hstage' : r'.stage = .running) : Watch r (.sendDone .success) r'
  | same {type : CancellationType} {r' : Receiver N} (hstage : r'.stage = r.stage)
      (hpending : r'.op.pendingEnquireLink = r.op.pendingEnquireLink) : Watch r (.cancel type) r'

theorem watch_move (hmove : Move r event r' obs) : Watch r event r' := by
  have hdelivered : ∀ {q q' : Receiver N} {o : List ReceiveObs} {e : ReceiveEvent},
      Deliver q q' o → q.op.pendingEnquireLink = r.op.pendingEnquireLink →
        e ≠ .asyncReceive → e.octets = [] → r.stage ≠ .idle →
        r.stage ≠ .suspended .sendEnquireLink → Watch r e q' := by
    intro q q' o e hdeliver hsame hevent hoctets hidle hasking
    cases hdeliver with
    | undefined hrange =>
        exact .plain (by simp) fun hpending _ => ⟨hevent, hoctets, hsame ▸ hpending, hidle, hasking⟩
    | completed hheader hsize =>
        exact .plain (by simp [complete]) fun _ hstage => absurd rfl hstage
  cases hmove with
  | asyncReceive hstage => exact .plain (by simp) (by simp)
  | startRead hstage hneeds hreadable hroom =>
      refine .plain (by simp) fun hpending _ => ⟨by simp, rfl, hpending, ?_⟩
      simp [hstage]
  | incomplete hstage hneeds hwhole header =>
      refine .plain (by simp [hstage]) fun hpending _ => ⟨by simp, rfl, hpending, ?_⟩
      simp [hstage]
  | dispatch hstage hneeds hwhole hdispatch =>
      have hrunning : r.stage ≠ .idle ∧ r.stage ≠ .suspended .sendEnquireLink := by simp [hstage]
      cases hdispatch with
      | enquireLink hid | unbind hid | post hid hpost =>
          exact .plain (by simp [suspend]) fun hpending _ => ⟨by simp, rfl, hpending, hrunning⟩
      | enquireLinkResp hid =>
          have hstill : r.scan.consume.stage = .running := hstage
          exact .plain (by simp [hstill]) fun hpending _ => ⟨by simp, rfl, hpending, hrunning⟩
      | unbindResp hid => exact .plain (by simp [complete]) fun _ hidle => absurd rfl hidle
      | deliver hid hpost hdeliver =>
          exact hdelivered hdeliver rfl (by simp) rfl hrunning.1 hrunning.2
  | resume hresume =>
      cases hresume with
      | @readTimeoutAgain received hstage hroom hcancelled hpending =>
          rcases (pending_commit received).mp hpending with ⟨rfl, hbefore⟩
          exact .timeoutAgain hstage hcancelled hbefore rfl
      | readTimeout hstage hroom hcancelled hpending => exact .timeout hstage hcancelled rfl
      | readError | unbindSent | sendError | unbindRespSent =>
          exact .plain (by simp [complete]) fun _ hidle => absurd rfl hidle
      | @read received hstage hroom =>
          refine .plain (by simp) fun hpending _ => ?_
          rcases (pending_commit received).mp hpending with ⟨rfl, hbefore⟩
          exact ⟨by simp, rfl, hbefore, by simp [hstage]⟩
      | enquireLinkSent hstage => exact .asked hstage rfl
      | enquireLinkRespSent hstage =>
          exact .plain (by simp) fun hpending _ => ⟨by simp, rfl, hpending, by simp [hstage]⟩
      | posted hstage hdeliver =>
          exact hdelivered hdeliver rfl (by simp) rfl (by simp [hstage]) (by simp [hstage])
      | cancel hstage => exact .same rfl rfl

/-! ## Shutting down -/

/-- The three places that shut the socket down. -/
theorem shutdown_move (hmove : Move r event r' obs) (hmem : .shutdownSocket ∈ obs) :
    (r.stage = .suspended .sendUnbindResp ∧ event = .sendDone .success) ∨
      (r.Whole ∧ r.frameHeader.commandId = .unbindResp) ∨
        r.stage = .suspended .sendUnbind := by
  cases hmove with
  | asyncReceive | startRead | incomplete => simp at hmem
  | dispatch hstage hneeds hwhole hdispatch =>
      cases hdispatch with
      | unbindResp hid => exact Or.inr (Or.inl ⟨hwhole, hid⟩)
      | enquireLink | enquireLinkResp | unbind | post => simp [consumedObs] at hmem
      | deliver hid hpost hdeliver =>
          rcases List.mem_cons.mp hmem with hmem | hmem
          · cases hmem
          · exact absurd hmem (hdeliver.not_mem (by simp) (by simp))
  | resume hresume =>
      cases hresume with
      | unbindSent hstage => exact Or.inr (Or.inr hstage)
      | unbindRespSent hstage => exact Or.inl ⟨hstage, rfl⟩
      | readTimeoutAgain | readTimeout | readError | read | sendError | enquireLinkSent
      | enquireLinkRespSent | cancel => simp [consumedObs] at hmem
      | posted hstage hdeliver => exact absurd hmem (hdeliver.not_mem (by simp) (by simp))

/-- An operation completes with {lit}`unbinded` when it shuts the socket down for the frame at
the front, which it removes, or when it is told this error. -/
theorem unbinded_move (hmove : Move r event r' obs) (hinv : r.Inv) {completion : Completion}
    (hmem : .completed completion ∈ obs) (hec : completion.ec = .smpp .unbinded) :
    ((r.stage = .suspended .sendUnbindResp ∧ event = .sendDone .success) ∨
        (r.Whole ∧ r.frameHeader.commandId = .unbindResp)) ∧
      r'.receiveBuf.readable =
        r.receiveBuf.readable.drop r.frameHeader.commandLength.toNat ∨
    (∃ received, event = .readDone (.smpp .unbinded) received) ∨
      event = .sendDone (.smpp .unbinded) := by
  cases hmove with
  | asyncReceive | startRead | incomplete => simp at hmem
  | dispatch hstage hneeds hwhole hdispatch =>
      cases hdispatch with
      | unbindResp hid => exact Or.inl ⟨Or.inr ⟨hwhole, hid⟩, readable_consume⟩
      | enquireLink | enquireLinkResp | unbind | post => simp [consumedObs] at hmem
      | deliver hid hpost hdeliver =>
          rcases List.mem_cons.mp hmem with hmem | hmem
          · cases hmem
          · exact absurd hmem (hdeliver.not_mem (by simp) (by simp [hec]))
  | resume hresume =>
      cases hresume with
      | unbindRespSent hstage =>
          simp only [Inv, hstage] at hinv
          refine Or.inl ⟨Or.inl ⟨hstage, rfl⟩, ?_⟩
          rw [← hinv.header]
          exact readable_consume
      | @readError ec received hstage =>
          simp only [List.mem_singleton, ReceiveObs.completed.injEq] at hmem
          subst hmem
          obtain rfl : ec = .smpp .unbinded := hec
          exact Or.inr (Or.inl ⟨received, rfl⟩)
      | @sendError ec hstage =>
          simp only [List.mem_singleton, ReceiveObs.completed.injEq] at hmem
          subst hmem
          obtain rfl : ec = .smpp .unbinded := hec
          exact Or.inr (Or.inr rfl)
      | unbindSent hstage =>
          simp only [List.mem_cons, reduceCtorEq, ReceiveObs.completed.injEq, List.not_mem_nil,
            or_false, false_or] at hmem
          rw [hmem] at hec
          cases hec
      | readTimeoutAgain | readTimeout | read | enquireLinkSent | enquireLinkRespSent
      | cancel => simp [consumedObs] at hmem
      | posted hstage hdeliver => exact absurd hmem (hdeliver.not_mem (by simp) (by simp [hec]))

end Receiver

namespace Sender

variable {s s' : Sender} {id : Nat} {event : SendEvent} {obs : List SendObs} {exit : SendExit}
variable {n : UInt32}

/-- An operation completes with an error of this library that is none of its own when its
write is told this error. -/
theorem writeDone_of_unbinded (hmove : Move s event s' obs)
    (hmem : .completed id exit (.smpp .unbinded) n ∈ obs) :
    event = .writeDone id (.smpp .unbinded) := by
  cases hmove with
  | @written id' op frame ec hop hphase htimeout =>
      simp only [List.mem_cons, reduceCtorEq, SendObs.completed.injEq, List.not_mem_nil, or_false,
        false_or] at hmem
      rcases hmem with ⟨rfl, _, rfl, _⟩
      rfl
  | enter hready henter =>
      cases henter with
      | wait | fail => simp at hmem
      | write hfree hfill hnumber =>
          rcases number_obs hnumber with rfl | ⟨m, rfl⟩ <;> simp at hmem
  | call | callNext | giveUp | timeOut | cancelWait | cancel => simp at hmem

/-- An operation that completes well has written its frame. -/
theorem written_of_success (hmove : Move s event s' obs) (hinv : s.Inv)
    (hmem : .completed id exit .success n ∈ obs) :
    ∃ op frame, s.ops id = some op ∧ FrameOf op frame ∧ .writeDone id frame .success ∈ obs := by
  cases hmove with
  | @written id' op frame ec hop hphase htimeout =>
      simp only [List.mem_cons, reduceCtorEq, SendObs.completed.injEq, List.not_mem_nil, or_false,
        false_or] at hmem
      rcases hmem with ⟨rfl, _, rfl, _⟩
      exact ⟨op, frame, hop, (hinv.owned id op frame hop hphase).2.frameOf, List.mem_cons_self⟩
  | enter hready henter =>
      cases henter with
      | wait | fail => simp at hmem
      | write hfree hfill hnumber =>
          rcases number_obs hnumber with rfl | ⟨m, rfl⟩ <;> simp at hmem
  | call | callNext | giveUp | timeOut | cancelWait | cancel => simp at hmem

end Sender

namespace Session

variable {N : Nat} {s s' : Session N} {event : SessionEvent} {obs : List SessionObs}
variable {τ : List (Turn (Session N) SessionEvent SessionObs)}

/-! ## What has happened -/

/-- No other receive operation begins. -/
def SameOperation (t : Turn (Session N) SessionEvent SessionObs) : Prop :=
  ∀ id, t.event ≠ .receive .asyncReceive id

/-- No octet arrives and no other receive operation begins. -/
def Silent (t : Turn (Session N) SessionEvent SessionObs) : Prop :=
  SameOperation t ∧ octets t.event = []

/-- {lit}`cancel_after` has ended a read: the read is aborted though nobody cancelled the
receive operation. -/
def ReadTimedOut (t : Turn (Session N) SessionEvent SessionObs) : Prop :=
  ∃ received id, t.event = .receive (.readDone .operationAborted received) id ∧
    t.before.recv.stage = .suspended .read ∧ t.before.recv.cancellation.cancelled = false

/-- The command that the receive operation waits for has been written completely: a frame with
this identifier and this number. -/
def Wrote (t : Turn (Session N) SessionEvent SessionObs) (commandId : CommandId) (n : UInt32) :
    Prop :=
  ∃ id frame, t.before.nested = some id ∧ .send (.writeDone id frame .success) ∈ t.obs ∧
    (deserializeHeader frame).commandId = commandId ∧
    (deserializeHeader frame).sequenceNumber = n

/-- Earlier in the operation a read has timed out. -/
def Timed : List (Turn (Session N) SessionEvent SessionObs) → Prop :=
  EventMachine.Since SameOperation fun _ t => ReadTimedOut t

/-- Behind such a read an {lit}`enquire_link` was written, and no octet has arrived since. -/
def Asked : List (Turn (Session N) SessionEvent SessionObs) → Prop :=
  EventMachine.Since Silent fun past t => (∃ n, Wrote t .enquireLink n) ∧ Timed past

/-- Behind such an {lit}`enquire_link` a further read has timed out without an octet. -/
def Unanswered : List (Turn (Session N) SessionEvent SessionObs) → Prop :=
  EventMachine.Since SameOperation fun past t =>
    ReadTimedOut t ∧ octets t.event = [] ∧ Asked past

/-- The frame at the front is an {lit}`unbind`, and its {lit}`unbind_resp` has just been written. -/
def UnbindAnswered (t : Turn (Session N) SessionEvent SessionObs) : Prop :=
  t.before.recv.Whole ∧ t.before.recv.frameHeader.commandId = .unbind ∧
    Wrote t .unbindResp t.before.recv.frameHeader.sequenceNumber

/-- The frame at the front is an {lit}`unbind_resp`. -/
def UnbindRespReceived (t : Turn (Session N) SessionEvent SessionObs) : Prop :=
  t.before.recv.Whole ∧ t.before.recv.frameHeader.commandId = .unbindResp

/-! ## The flag stands for the past -/

/-- What has happened when the coroutine waits for an {lit}`enquire_link`, has the flag set, or
waits for its own {lit}`unbind`. -/
structure Justified (τ : List (Turn (Session N) SessionEvent SessionObs)) (s : Session N) :
    Prop where
  timed : s.recv.stage = .suspended .sendEnquireLink → Timed τ
  asked : s.recv.op.pendingEnquireLink = true → s.recv.stage ≠ .idle →
    s.recv.stage ≠ .suspended .sendEnquireLink → Asked τ
  unanswered : s.recv.stage = .suspended .sendUnbind → Unanswered τ

/-- A turn that leaves the coroutine where it is. -/
theorem Justified.same (hjustified : Justified τ s) (hstage : s'.recv.stage = s.recv.stage)
    (hpending : s'.recv.op.pendingEnquireLink = s.recv.op.pendingEnquireLink)
    (hsilent : Silent ⟨s, event, obs, s'⟩) : Justified (τ ++ [⟨s, event, obs, s'⟩]) s' where
  timed hsending :=
    EventMachine.since_concat.mpr (Or.inr ⟨hjustified.timed (hstage ▸ hsending), hsilent.1⟩)
  asked hset hidle hsending :=
    EventMachine.since_concat.mpr (Or.inr
      ⟨hjustified.asked (hpending ▸ hset) (hstage ▸ hidle) (hstage ▸ hsending), hsilent⟩)
  unanswered hsending :=
    EventMachine.since_concat.mpr (Or.inr ⟨hjustified.unanswered (hstage ▸ hsending), hsilent.1⟩)

/-- A turn in which the coroutine moves. -/
theorem Justified.watch (hjustified : Justified τ s) {e : ReceiveEvent}
    (hwatch : Receiver.Watch s.recv e s'.recv)
    (hsame : e ≠ .asyncReceive → SameOperation ⟨s, event, obs, s'⟩)
    (hoctets : octets event = e.octets)
    (hread : ∀ ec received, e = .readDone ec received → ∃ id, event = .receive e id)
    (hsent : s.recv.stage = .suspended .sendEnquireLink → e = .sendDone .success →
      ∃ n, Wrote ⟨s, event, obs, s'⟩ .enquireLink n) :
    Justified (τ ++ [⟨s, event, obs, s'⟩]) s' := by
  cases hwatch with
  | plain hstage hpending =>
      refine ⟨fun hsending => absurd hsending hstage.1, ?_, fun hsending => absurd hsending hstage.2⟩
      intro hset hidle _
      rcases hpending hset hidle with ⟨hevent, hsilent, hbefore, hidle, hsending⟩
      exact EventMachine.since_concat.mpr (Or.inr
        ⟨hjustified.asked hbefore hidle hsending, hsame hevent, hoctets.trans hsilent⟩)
  | @timeout received _ hstage hcancelled hstage' =>
      rcases hread _ _ rfl with ⟨id, rfl⟩
      refine ⟨fun _ => EventMachine.since_concat.mpr (Or.inl ?_), ?_, by simp [hstage']⟩
      · exact ⟨received, id, rfl, hstage, hcancelled⟩
      · exact fun _ _ hsending => absurd hstage' hsending
  | timeoutAgain hstage hcancelled hpending hstage' =>
      rcases hread _ _ rfl with ⟨id, rfl⟩
      have hasked := hjustified.asked hpending (by simp [hstage]) (by simp [hstage])
      refine ⟨by simp [hstage'], fun _ _ _ => ?_, fun _ => EventMachine.since_concat.mpr (Or.inl ?_)⟩
      · exact EventMachine.since_concat.mpr (Or.inr ⟨hasked, hsame (by simp), rfl⟩)
      · exact ⟨⟨[], id, rfl, hstage, hcancelled⟩, rfl, hasked⟩
  | asked hstage hstage' =>
      refine ⟨by simp [hstage'], fun _ _ _ => ?_, by simp [hstage']⟩
      exact EventMachine.since_concat.mpr (Or.inl ⟨hsent hstage rfl, hjustified.timed hstage⟩)
  | same hstage hpending =>
      exact hjustified.same hstage hpending ⟨hsame (by simp), hoctets⟩

/-- When the command that the coroutine waits for completes well, it has been written. -/
theorem wrote_of_success (hlinked : s.Linked) (hinv : s.send.Inv) {e : SendEvent}
    {send : Sender} {sendObs : List SendObs} {id : Nat} {exit : SendExit} {n : UInt32}
    (hsend : s.send.step e = some (send, sendObs)) (hnested : s.nested = some id)
    (hcompleted : .completed id exit .success n ∈ sendObs)
    (hobs : ∀ o ∈ sendObs, .send o ∈ obs) :
    ∃ commandId number, Awaits s.recv commandId number ∧
      Wrote ⟨s, event, obs, s'⟩ commandId number := by
  rcases Sender.written_of_success (Sender.move_of_step hsend) hinv hcompleted with
    ⟨op, frame, hop, hframe, hwritten⟩
  rcases hlinked.awaits id hnested with ⟨op', commandId, number, hop', hkind, _, _, hawaits⟩
  rw [hop, Option.some.injEq] at hop'
  subst hop'
  refine ⟨commandId, number, hawaits, id, frame, hnested, hobs _ hwritten, ?_, ?_⟩
  · rw [hframe.header, hkind]
    rfl
  · rw [hframe.header]
    exact hframe.number number (by rw [hkind]; rfl)

/-- Every step keeps the justification. -/
theorem justified_move (hmove : Move s event s' obs) (hlinked : s.Linked) (hinv : s.send.Inv)
    (hjustified : Justified τ s) : Justified (τ ++ [⟨s, event, obs, s'⟩]) s' := by
  cases hmove with
  | send hpaused hmay hsend hpending =>
      exact hjustified.same rfl rfl ⟨by simp [SameOperation], rfl⟩
  | @resume e send o id exit ec n recv recvObs hmay hsend hnested hcompleted hrecv =>
      refine hjustified.watch (Receiver.watch_move (Receiver.move_of_step hrecv))
        (by simp [SameOperation]) rfl (by simp) fun hstage hevent => ?_
      obtain rfl : ec = .success := by simpa using hevent
      have hobs : ∀ sent ∈ o, SessionObs.send sent ∈
          o.map SessionObs.send ++ recvObs.map SessionObs.receive :=
        fun sent hmem => List.mem_append_left _ (List.mem_map_of_mem hmem)
      rcases wrote_of_success hlinked hinv hsend hnested hcompleted hobs with
        ⟨commandId, number, hawaits, hwrote⟩
      simp only [Awaits, hstage] at hawaits
      exact ⟨number, hawaits ▸ hwrote⟩
  | @receive e id recv o hexternal hrecv hquiet =>
      refine hjustified.watch (Receiver.watch_move (Receiver.move_of_step hrecv)) ?_ rfl
        (fun _ _ _ => ⟨id, rfl⟩) ?_
      · intro hevent id' heq
        exact hevent (by injection heq)
      · rintro _ rfl
        cases hexternal
  | @command e id recv o commandId n called send callObs startObs hexternal hrecv hcommand hcall
      hstart =>
      refine hjustified.watch (Receiver.watch_move (Receiver.move_of_step hrecv)) ?_ rfl
        (fun _ _ _ => ⟨id, rfl⟩) ?_
      · intro hevent id' heq
        exact hevent (by injection heq)
      · rintro _ rfl
        cases hexternal
  | cancel hrecv hnested | cancelNested hrecv hnested hsend =>
      exact hjustified.watch (Receiver.watch_move (Receiver.move_of_step hrecv))
        (by simp [SameOperation]) rfl (by simp) (by simp)

/-- In every run the flag stands for what has happened. -/
theorem justified_of_run {R : Session N → SessionEvent → Session N → Prop}
    (htraced : (machine N).Traced R (machine N).init τ s) : Justified τ s := by
  induction htraced with
  | refl =>
      refine ⟨by simp [machine, Receiver.new], ?_, by simp [machine, Receiver.new]⟩
      exact fun hset => absurd hset (by simp [machine, Receiver.new])
  | snoc before hstep _ ih =>
      rcases (halves_of_run before.steps).1 with ⟨es₁, hsend⟩
      exact justified_move (move_of_step hstep) (linked_of_run before.steps)
        (Sender.inv_of_run hsend) ih

/-! ## No teardown without a cause -/

/-- The transport reports errors of the system, none of this library. -/
def SystemErrors (_ : Session N) (event : SessionEvent) (_ : Session N) : Prop :=
  ∀ error, (∀ id, event ≠ .send (.writeDone id (.smpp error))) ∧
    ∀ received id, event ≠ .receive (.readDone (.smpp error) received) id

/-- Why a turn behind {lit}`past` may shut the socket down, and why it may complete with
{lit}`unbinded`. -/
structure WithCause (past : List (Turn (Session N) SessionEvent SessionObs))
    (t : Turn (Session N) SessionEvent SessionObs) : Prop where
  shutdown : .receive .shutdownSocket ∈ t.obs →
    UnbindAnswered t ∨ UnbindRespReceived t ∨ Unanswered past
  unbinded : ∀ completion, .receive (.completed completion) ∈ t.obs →
    completion.ec = .smpp .unbinded →
      (UnbindAnswered t ∨ UnbindRespReceived t) ∧
        t.after.recv.receiveBuf.readable =
          t.before.recv.receiveBuf.readable.drop t.before.recv.frameHeader.commandLength.toNat

/-- The part of the coroutine in a turn: an event from outside, a cancellation request, or the
completion of the command it waits for. -/
inductive Acts (s : Session N) (event : SessionEvent) (s' : Session N) (obs : List SessionObs) :
    ReceiveEvent → List ReceiveObs → Prop
  | external {e : ReceiveEvent} {o : List ReceiveObs} {id : Nat}
      (hmove : Receiver.Move s.recv e s'.recv o) (hexternal : isExternal e = true)
      (hevent : event = .receive e id) : Acts s event s' obs e o
  | cancel {type : CancellationType} {o : List ReceiveObs}
      (hmove : Receiver.Move s.recv (.cancel type) s'.recv o) : Acts s event s' obs (.cancel type) o
  | sent {e : SendEvent} {send : Sender} {sendObs : List SendObs} {id : Nat} {exit : SendExit}
      {ec : ErrorCode} {n : UInt32} {o : List ReceiveObs}
      (hmove : Receiver.Move s.recv (.sendDone ec) s'.recv o) (hevent : event = .send e)
      (hsend : s.send.step e = some (send, sendObs)) (hnested : s.nested = some id)
      (hcompleted : .completed id exit ec n ∈ sendObs) (hobs : ∀ o ∈ sendObs, .send o ∈ obs) :
      Acts s event s' obs (.sendDone ec) o

/-- What the receiving half shows it shows in its part of the turn. -/
theorem acts_of_move (hmove : Move s event s' obs) {o : ReceiveObs} (hmem : .receive o ∈ obs) :
    ∃ e os, Acts s event s' obs e os ∧ o ∈ os := by
  cases hmove with
  | send hpaused hmay hsend hpending => simp at hmem
  | resume hmay hsend hnested hcompleted hrecv =>
      refine ⟨_, _, .sent (Receiver.move_of_step hrecv) rfl hsend hnested hcompleted ?_, ?_⟩
      · exact fun o ho => List.mem_append_left _ (List.mem_map_of_mem ho)
      · simpa using hmem
  | receive hexternal hrecv hquiet =>
      exact ⟨_, _, .external (Receiver.move_of_step hrecv) hexternal rfl, by simpa using hmem⟩
  | command hexternal hrecv hcommand hcall hstart =>
      exact ⟨_, _, .external (Receiver.move_of_step hrecv) hexternal rfl, by simpa using hmem⟩
  | cancel hrecv hnested | cancelNested hrecv hnested hsend =>
      exact ⟨_, _, .cancel (Receiver.move_of_step hrecv), by simpa using hmem⟩

theorem Acts.move {e : ReceiveEvent} {o : List ReceiveObs} (hacts : Acts s event s' obs e o) :
    Receiver.Move s.recv e s'.recv o := by
  cases hacts with
  | external hmove | cancel hmove | sent hmove => exact hmove

/-- When the response to an {lit}`unbind` has completed well, it was written for the frame at
the front. -/
theorem Acts.unbindAnswered {o : List ReceiveObs}
    (hacts : Acts s event s' obs (.sendDone .success) o) (hlinked : s.Linked)
    (hinv : s.send.Inv) (hrecv : s.recv.Inv)
    (hstage : s.recv.stage = .suspended .sendUnbindResp) :
    UnbindAnswered ⟨s, event, obs, s'⟩ := by
  cases hacts with
  | external hmove hexternal => cases hexternal
  | sent hmove hevent hsend hnested hcompleted hobs =>
      rcases wrote_of_success hlinked hinv hsend hnested hcompleted hobs with
        ⟨commandId, n, hawaits, hwrote⟩
      simp only [Awaits, hstage] at hawaits
      simp only [Receiver.Inv, hstage] at hrecv
      rcases hawaits with ⟨rfl, rfl⟩
      refine ⟨hrecv.whole, hrecv.header ▸ hrecv.commandId, ?_⟩
      rw [hrecv.header] at hwrote
      exact hwrote

/-- A step shuts the socket down, or completes with {lit}`unbinded`, for a reason. -/
theorem withCause_of_move (hmove : Move s event s' obs) (hlinked : s.Linked)
    (hinv : s.send.Inv) (hrecv : s.recv.Inv) (hjustified : Justified τ s)
    (hsystem : SystemErrors s event s') : WithCause τ ⟨s, event, obs, s'⟩ := by
  constructor
  · intro hmem
    rcases acts_of_move hmove hmem with ⟨e, o, hacts, ho⟩
    rcases Receiver.shutdown_move hacts.move ho with ⟨hstage, rfl⟩ | hunbind | hstage
    · exact Or.inl (hacts.unbindAnswered hlinked hinv hrecv hstage)
    · exact Or.inr (Or.inl hunbind)
    · exact Or.inr (Or.inr (hjustified.unanswered hstage))
  · intro completion hmem hec
    rcases acts_of_move hmove hmem with ⟨e, o, hacts, ho⟩
    rcases Receiver.unbinded_move hacts.move hrecv ho hec with
      ⟨⟨hstage, rfl⟩ | hunbind, hconsumed⟩ | ⟨received, rfl⟩ | rfl
    · exact ⟨Or.inl (hacts.unbindAnswered hlinked hinv hrecv hstage), hconsumed⟩
    · exact ⟨Or.inr hunbind, hconsumed⟩
    · cases hacts with
      | external hmove hexternal hevent =>
          exact absurd hevent ((hsystem .unbinded).2 received _)
    · cases hacts with
      | external hmove hexternal => cases hexternal
      | sent hmove hevent hsend hnested hcompleted hobs =>
          have hwrite := Sender.writeDone_of_unbinded (Sender.move_of_step hsend) hcompleted
          exact absurd (hwrite ▸ hevent) ((hsystem .unbinded).1 _)

/-- In every run every turn that shuts the socket down or completes with {lit}`unbinded` has a
cause. -/
theorem teardown_of_run {past later : List (Turn (Session N) SessionEvent SessionObs)}
    {t : Turn (Session N) SessionEvent SessionObs}
    (htraced : (machine N).Traced SystemErrors (machine N).init (past ++ t :: later) s) :
    WithCause past t := by
  rcases htraced.turn with ⟨hpast, hstep, hsystem⟩
  rcases halves_of_run hpast.steps with ⟨⟨es₁, hsend⟩, es₂, hrecv, _⟩
  exact withCause_of_move (move_of_step hstep) (linked_of_run hpast.steps)
    (Sender.inv_of_run hsend) (Receiver.inv_of_run hrecv) (justified_of_run hpast) hsystem

/-- A read times out, the {lit}`enquire_link` is written, a second read times out, and the socket
is shut down behind the {lit}`unbind`. -/
theorem teardown_of_run_enquireLink :
    ∃ past t, ∃ s : Session 32,
      (machine 32).Traced SystemErrors (machine 32).init (past ++ [t]) s ∧
        .receive .shutdownSocket ∈ t.obs ∧ WithCause past t := by
  have hsteps := EventMachine.steps_of_exec (M := machine 32) (s := (machine 32).init)
    [.receive .asyncReceive 0, .receive .iterate 0, .receive .iterate 0,
      .receive (.readDone .operationAborted []) 0, .send (.writeDone 0 .success),
      .receive .iterate 0, .receive .iterate 0, .receive (.readDone .operationAborted []) 1] rfl
  have hrun : (machine 32).Run SystemErrors _ _ _ := hsteps.restrict (by simp [SystemErrors])
  rcases hrun.exists_traced with ⟨past, hpast, _⟩
  have hlast := hpast.snoc (e := .send (.writeDone 1 .success)) rfl (by simp [SystemErrors])
  exact ⟨past, _, _, hlast, by simp, teardown_of_run hlast⟩

end Session

end Smpp
