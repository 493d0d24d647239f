import Smpp.Net.Connection
import Smpp.Net.SendWrites

/-!
# What is on the wire

The octets that the transport has taken from one end, against the frames whose writes that
end has started.

Main results:

- Theorem {lit}`Connection.wire_of_run`: while nothing is transmitted behind a write that ended
  short, the octets that the peer has read and those in transit are the frames of the writes,
  in order, as far as the transport has got.
- Theorem {lit}`Connection.isFrame_of_run`: what is written are frames that announce their own
  length.
-/

namespace Smpp

/-- The frame is one that an operation of this kind writes: under the number it is given, if it
is given one. -/
def SendKind.Builds (kind : SendKind) (frame : Octets) : Prop :=
  ∃ sendBuf n, kind.fillBody = .ok sendBuf ∧ frame = kind.frame sendBuf n ∧
    ∀ k, kind.givenNumber = some k → n = k

namespace Sender

variable {s s₁ s' : Sender} {event : SendEvent} {obs obs' : List SendObs}

/-! ## The writes of a run -/

/-- The writes that were started, in order: the operation and its frame. -/
def writes (os : List SendObs) : List (Nat × Octets) :=
  os.filterMap fun
    | .writeStarted id frame => some (id, frame)
    | .allocated _ | .writeDone _ _ _ | .completed _ _ _ _ => none

@[simp]
theorem writes_append (os os' : List SendObs) : writes (os ++ os') = writes os ++ writes os' :=
  List.filterMap_append

theorem writes_of_silent (hsilent : ∀ o ∈ obs, ¬ IsWrite o) : writes obs = [] := by
  rw [writes, List.filterMap_eq_nil_iff]
  intro o hmem
  cases o with
  | writeStarted => exact absurd trivial (hsilent _ hmem)
  | allocated | writeDone | completed => rfl

/-- An event shows the end of a write exactly when it is one. -/
theorem writeDone_mem_iff (hmove : Move s event s' obs) :
    (∃ id frame ec, .writeDone id frame ec ∈ obs) ↔ ∃ id ec, event = .writeDone id ec := by
  cases hmove with
  | call | callNext | giveUp | cancelWait | cancel => simp
  | timeOut | written => simp
  | enter hready henter =>
      have hevent : ¬ ∃ id ec, event = .writeDone id ec := by
        rintro ⟨id, ec, rfl⟩
        cases hready
      refine iff_of_false ?_ hevent
      cases henter with
      | wait | fail => simp
      | write hfree hfill hnumber => rcases number_obs hnumber with rfl | ⟨n, rfl⟩ <;> simp

/-- The writes go on as they are, or a write starts where there was none. -/
inductive Grows (s s' : Sender) (obs : List SendObs) : Prop
  | idle (hwrites : writes obs = []) (hsame : ∀ j g, s'.Writing j g ↔ s.Writing j g)
  | start {id : Nat} {frame : Octets} (hwrites : writes obs = [(id, frame)])
      (hfree : ∀ j g, ¬ s.Writing j g) (hwriting : s'.Writing id frame)

theorem Grows.trans (hfirst : Grows s s₁ obs) (hsecond : Grows s₁ s' obs') :
    Grows s s' (obs ++ obs') := by
  cases hfirst with
  | idle hwrites hsame =>
      cases hsecond with
      | idle hwrites' hsame' =>
          exact .idle (by simp [hwrites, hwrites']) fun j g => (hsame' j g).trans (hsame j g)
      | start hwrites' hfree hwriting =>
          exact .start (by simp [hwrites, hwrites']) (fun j g hj => hfree j g ((hsame j g).mpr hj))
            hwriting
  | start hwrites hfree hwriting =>
      cases hsecond with
      | idle hwrites' hsame =>
          exact .start (by simp [hwrites, hwrites']) hfree ((hsame _ _).mpr hwriting)
      | start _ hfree' _ => exact absurd hwriting (hfree' _ _)

/-- No event but the end of a write ends one. -/
theorem grows_of_move (hmove : Move s event s' obs) (hinv : s.Inv)
    (hother : ∀ id ec, event ≠ .writeDone id ec) : Grows s s' obs := by
  have hwrites := writes_move hmove hinv
  have hnone := mt (writeDone_mem_iff hmove).mp (by simpa using hother)
  cases hwrites with
  | idle hsilent hsame => exact .idle (writes_of_silent hsilent) hsame
  | @start obs frame hsilent hfree hwriting =>
      have hstarts : writes (obs ++ [.writeStarted event.id frame]) = [(event.id, frame)] := by
        rw [writes_append, writes_of_silent hsilent]
        rfl
      exact .start hstarts hfree hwriting
  | finish => exact absurd ⟨_, _, _, List.mem_cons_self⟩ hnone

/-- The end of a write leaves none outstanding. -/
theorem ends_of_move {id : Nat} {ec : ErrorCode} (hmove : Move s (.writeDone id ec) s' obs)
    (hinv : s.Inv) :
    writes obs = [] ∧ (∃ frame, s.Writing id frame) ∧ ∀ j g, ¬ s'.Writing j g := by
  have hwrites := writes_move hmove hinv
  have hdone := (writeDone_mem_iff hmove).mpr ⟨id, ec, rfl⟩
  cases hwrites with
  | idle hsilent =>
      rcases hdone with ⟨_, _, _, hmem⟩
      exact absurd trivial (hsilent _ hmem)
  | start hsilent =>
      rcases hdone with ⟨_, _, _, hmem⟩
      rw [List.mem_append, List.mem_singleton] at hmem
      rcases hmem with hmem | hmem
      · exact absurd trivial (hsilent _ hmem)
      · cases hmem
  | finish hwriting hfree => exact ⟨rfl, ⟨_, hwriting⟩, hfree⟩

/-- A write that starts is one of an operation on record, and it takes the send buffer. -/
theorem Grows.builds (hgrows : Grows s s' obs) (hinv : s'.Inv) {write : Nat × Octets}
    (hmem : write ∈ writes obs) :
    (∃ op, s'.ops write.1 = some op ∧ op.kind.Builds write.2) ∧ s'.sendBuf = write.2 := by
  cases hgrows with
  | idle hwrites => simp [hwrites] at hmem
  | @start id frame hwrites hfree hwriting =>
      obtain rfl : write = (id, frame) := by simpa [hwrites] using hmem
      rcases hwriting.exists_op with ⟨op, hop, hphase⟩
      rcases hinv.owned id op frame hop hphase with ⟨hbuf, sendBuf, hfill, hframe, hgiven⟩
      exact ⟨⟨op, hop, sendBuf, _, hfill, hframe, hgiven⟩, hbuf⟩

end Sender

namespace Session

variable {N : Nat} {s s' : Session N} {event : SessionEvent} {obs : List SessionObs}

/-- The writes that a session has started. -/
def writes (os : List SessionObs) : List (Nat × Octets) :=
  Sender.writes (sendPart os)

@[simp]
theorem writes_append (os os' : List SessionObs) : writes (os ++ os') = writes os ++ writes os' := by
  rw [writes, sendPart_append, Sender.writes_append, writes, writes]

/-- Operations keep what they send. -/
theorem op_of_move (hmove : Move s event s' obs) (hinv : s.send.Inv) {id : Nat} {op : SendOp}
    (hop : s.send.ops id = some op) :
    ∃ op', s'.send.ops id = some op' ∧ op'.kind = op.kind := by
  cases hmove with
  | send hpaused hmay hsend hpending =>
      exact Sender.op_move (Sender.move_of_step hsend) hinv hop
  | resume hmay hsend hnested hcompleted hrecv =>
      exact Sender.op_move (Sender.move_of_step hsend) hinv hop
  | receive hexternal hrecv hquiet => exact ⟨op, hop, rfl⟩
  | cancel hrecv hnested => exact ⟨op, hop, rfl⟩
  | command hexternal hrecv hcommand hcall hstart =>
      have hcallMove := Sender.move_of_step hcall
      rcases Sender.op_move hcallMove hinv hop with ⟨op₁, hop₁, hkind₁⟩
      rcases Sender.op_move (Sender.move_of_step hstart) (Sender.inv_move hcallMove hinv) hop₁
        with ⟨op', hop', hkind⟩
      exact ⟨op', hop', hkind.trans hkind₁⟩
  | cancelNested hrecv hnested hsend =>
      exact Sender.op_move (Sender.move_of_step hsend) hinv hop

/-- No event but the end of a write ends one. -/
theorem grows_of_move (hmove : Move s event s' obs) (hinv : s.send.Inv)
    (hother : ∀ id ec, event ≠ .send (.writeDone id ec)) :
    Sender.Grows s.send s'.send (sendPart obs) := by
  have hidle : ∀ {o : List ReceiveObs} {t : Sender}, t = s.send →
      Sender.Grows s.send t (sendPart (o.map .receive)) := by
    rintro o t rfl
    exact .idle (by simp [Sender.writes]) fun _ _ => Iff.rfl
  cases hmove with
  | send hpaused hmay hsend hpending =>
      rw [sendPart_send]
      exact Sender.grows_of_move (Sender.move_of_step hsend) hinv fun id ec heq =>
        hother id ec (by rw [heq])
  | resume hmay hsend hnested hcompleted hrecv =>
      rw [sendPart_append, sendPart_send, sendPart_receive, List.append_nil]
      exact Sender.grows_of_move (Sender.move_of_step hsend) hinv fun id ec heq =>
        hother id ec (by rw [heq])
  | receive hexternal hrecv hquiet => exact hidle rfl
  | cancel hrecv hnested => exact hidle rfl
  | @command e id recv o commandId n called send callObs startObs hexternal hrecv hcommand
      hcall hstart =>
      have hcallMove := Sender.move_of_step hcall
      have hfirst := Sender.grows_of_move hcallMove hinv fun _ _ heq => by
        cases n <;> simp [callCommand] at heq
      have hsecond := Sender.grows_of_move (Sender.move_of_step hstart)
        (Sender.inv_move hcallMove hinv) (by simp)
      rw [sendPart_append, sendPart_receive, sendPart_send, List.nil_append]
      exact hfirst.trans hsecond
  | cancelNested hrecv hnested hsend =>
      rw [sendPart_append, sendPart_receive, sendPart_send, List.nil_append]
      exact Sender.grows_of_move (Sender.move_of_step hsend) hinv (by simp)

/-- The end of a write leaves none outstanding. -/
theorem ends_of_move {id : Nat} {ec : ErrorCode}
    (hmove : Move s (.send (.writeDone id ec)) s' obs) (hinv : s.send.Inv) :
    writes obs = [] ∧ (∃ frame, s.send.Writing id frame) ∧ ∀ j g, ¬ s'.send.Writing j g := by
  cases hmove with
  | send hpaused hmay hsend hpending =>
      rw [writes, sendPart_send]
      exact Sender.ends_of_move (Sender.move_of_step hsend) hinv
  | resume hmay hsend hnested hcompleted hrecv =>
      rw [writes, sendPart_append, sendPart_send, sendPart_receive, List.append_nil]
      exact Sender.ends_of_move (Sender.move_of_step hsend) hinv

end Session

namespace Connection

variable {N : Nat} {c c' : Connection N} {e : Endpoint N} {event : ConnectionEvent}
variable {obs : List (Side × SessionObs)} {es : List ConnectionEvent}
variable {fs : List Octets} {got : Octets}

/-! ## One direction -/

/-- The writes that one end has started. -/
def writes (side : Side) (os : List (Side × SessionObs)) : List (Nat × Octets) :=
  Session.writes (obsOf side os)

/-- The frames of the writes that one end has started. -/
def frames (side : Side) (os : List (Side × SessionObs)) : List Octets :=
  (writes side os).map Prod.snd

/-- The octets that one end has read. -/
def arrived (side : Side) (es : List ConnectionEvent) : Octets :=
  Session.received (eventsOf side es)

@[simp]
theorem writes_append (side : Side) (os os' : List (Side × SessionObs)) :
    writes side (os ++ os') = writes side os ++ writes side os' := by
  rw [writes, obsOf_append, Session.writes_append, writes, writes]

@[simp]
theorem frames_append (side : Side) (os os' : List (Side × SessionObs)) :
    frames side (os ++ os') = frames side os ++ frames side os' := by
  rw [frames, writes_append, List.map_append, frames, frames]

@[simp]
theorem arrived_append (side : Side) (es es' : List ConnectionEvent) :
    arrived side (es ++ es') = arrived side es ++ arrived side es' := by
  rw [arrived, eventsOf_append, Session.received, List.flatMap_append]
  rfl

/-- The octets that have arrived and those in transit are the frames of the writes, as far as
the transport has got with the outstanding one. -/
structure Wire (fs : List Octets) (got : Octets) (e : Endpoint N) : Prop where
  onWire : got ++ e.outgoing <+: fs.flatten
  writing : ∀ id frame, e.session.send.Writing id frame →
    ∃ before, fs = before ++ [frame] ∧ e.written ≤ frame.length ∧
      (e.cut = false → got ++ e.outgoing = before.flatten ++ frame.take e.written)
  idle : (∀ id frame, ¬ e.session.send.Writing id frame) →
    e.written = 0 ∧ (e.cut = false → got ++ e.outgoing = fs.flatten)

/-- A write that starts adds its frame. -/
theorem Wire.grow (hwire : Wire fs got e) {session : Session N} {o : List SessionObs}
    (hgrows : Sender.Grows e.session.send session.send (Session.sendPart o))
    (hinv : session.send.Inv) :
    Wire (fs ++ (Session.writes o).map Prod.snd) got { e with session := session } := by
  cases hgrows with
  | idle hwrites hsame =>
      rw [Session.writes, hwrites, List.map_nil, List.append_nil]
      refine ⟨hwire.onWire, fun id frame hwriting => ?_, fun hfree => ?_⟩
      · exact hwire.writing id frame ((hsame id frame).mp hwriting)
      · exact hwire.idle fun id frame hwriting => hfree id frame ((hsame id frame).mpr hwriting)
  | @start id frame hwrites hfree hwriting =>
      rw [Session.writes, hwrites]
      rcases hwire.idle hfree with ⟨hwritten, hall⟩
      refine ⟨?_, fun id' frame' hwriting' => ?_, fun hnone => absurd hwriting (hnone _ _)⟩
      · rw [List.flatten_append]
        exact hwire.onWire.trans (List.prefix_append _ _)
      · have hsame : frame' = frame :=
          (hinv.sendBuf_eq hwriting').1.symm.trans (hinv.sendBuf_eq hwriting).1
        subst hsame
        refine ⟨fs, rfl, by simp [hwritten], fun hcut => ?_⟩
        simpa [hwritten] using hall hcut

/-- Behind a write that was taken in full the wire holds all frames. -/
theorem Wire.finish (hwire : Wire fs got e) (hinv : e.session.send.Inv) {id : Nat}
    {ec : ErrorCode} {session : Session N} {frame : Octets}
    (hwriting : e.session.send.Writing id frame)
    (hfree : ∀ j g, ¬ session.send.Writing j g) :
    Wire fs got (e.advance (.send (.writeDone id ec)) session) := by
  refine ⟨hwire.onWire, fun j g hj => absurd hj (hfree j g), fun _ => ⟨rfl, fun hcut => ?_⟩⟩
  rcases hwire.writing id frame hwriting with ⟨before, rfl, _, hall⟩
  have hbuf := (hinv.sendBuf_eq hwriting).1
  simp only [Endpoint.advance, Bool.or_eq_false_iff, decide_eq_false_iff_not, ne_eq,
    not_not] at hcut
  have hpartial := hall hcut.1
  rw [hcut.2, hbuf, List.take_length] at hpartial
  simpa [Endpoint.advance] using hpartial

/-- The transport takes octets of the outstanding frame. -/
theorem Wire.transmit (hwire : Wire fs got e) (hinv : e.session.send.Inv) {id n : Nat}
    {frame : Octets} (hwriting : e.session.send.Writing id frame)
    (hroom : e.written + n ≤ e.session.send.sendBuf.length) (hcut : e.cut = false) :
    Wire fs got (e.transmit n) := by
  have hbuf := (hinv.sendBuf_eq hwriting).1
  rcases hwire.writing id frame hwriting with ⟨before, rfl, _, hall⟩
  have hnext : got ++ (e.outgoing ++ e.next n) =
      before.flatten ++ frame.take (e.written + n) := by
    rw [← List.append_assoc, hall hcut, Endpoint.next, hbuf, List.append_assoc, List.take_add]
  refine ⟨?_, fun j g hj => ?_, fun hnone => absurd hwriting (hnone id frame)⟩
  · rw [Endpoint.transmit, hnext, List.flatten_append, List.prefix_append_right_inj]
    simpa using List.take_prefix _ frame
  · have hsame : g = frame := (hinv.sendBuf_eq hj).1.symm.trans hbuf
    subst hsame
    rw [hbuf] at hroom
    exact ⟨before, rfl, hroom, fun _ => hnext⟩

/-- What is read has been in transit. -/
theorem Wire.deliver (hwire : Wire fs got e) {received : Octets}
    (hfront : received <+: e.outgoing) :
    Wire fs (got ++ received) (e.deliver received) := by
  have hsame : got ++ received ++ e.outgoing.drop received.length = got ++ e.outgoing := by
    rw [List.append_assoc, List.prefix_iff_eq_append.mp hfront]
  refine ⟨?_, ?_, ?_⟩
  · rw [Endpoint.deliver, hsame]
    exact hwire.onWire
  · rw [Endpoint.deliver, hsame]
    exact hwire.writing
  · rw [Endpoint.deliver, hsame]
    exact hwire.idle

/-! ## Runs -/

/-- Nothing is transmitted behind a write that ended short, and no frame is too long for the
four octets that announce its length. -/
def Intact (c : Connection N) (event : ConnectionEvent) (c' : Connection N) : Prop :=
  (∀ side id n, event = .transmit side id n → (c side).cut = false) ∧
    ∀ side, (c' side).session.send.sendBuf.length < 2 ^ 32

/-- {lit}`Intact` as a check. -/
def isIntact (c : Connection N) (event : ConnectionEvent) (c' : Connection N) : Bool :=
  (match event with
    | .transmit side _ _ => !(c side).cut
    | .session _ _ => true) &&
    (decide ((c' .left).session.send.sendBuf.length < 2 ^ 32) &&
      decide ((c' .right).session.send.sendBuf.length < 2 ^ 32))

theorem intact_of_isIntact (hcheck : isIntact c event c' = true) : Intact c event c' := by
  simp only [isIntact, Bool.and_eq_true, decide_eq_true_eq] at hcheck
  refine ⟨?_, fun side => ?_⟩
  · rintro side id n rfl
    simpa using hcheck.1
  · cases side with
    | left => exact hcheck.2.1
    | right => exact hcheck.2.2

/-- The send operations of either end keep their invariant. -/
theorem inv_of_run {R : Connection N → ConnectionEvent → Connection N → Prop}
    (hrun : (machine N).Run R es obs c) (side : Side) :
    (c side).session.send.Inv ∧ (c side).session.recv.Inv ∧ (c side).session.Linked := by
  have hsession := session_run side hrun
  rcases Session.halves_of_run hsession with ⟨⟨_, hsend⟩, _, hrecv, _⟩
  exact ⟨Sender.inv_of_run hsend, Receiver.inv_of_run hrecv, Session.linked_of_run hsession⟩

/-- What a session reads is at the front of what is in transit. -/
theorem octets_front {side : Side} {event : SessionEvent} (hallows : c.Allows side event) :
    Session.octets event <+: (c side.peer).outgoing := by
  cases event with
  | send | cancelReceive => exact List.nil_prefix
  | receive event id =>
      cases event with
      | readDone ec received => exact hallows
      | asyncReceive | iterate | sendDone | postDone | cancel => exact List.nil_prefix

/-- A step at one end keeps account of what that end has put on the wire. -/
theorem wire_advance (hwire : Wire fs got e) (hinv : e.session.send.Inv) {event : SessionEvent}
    {session : Session N} {o : List SessionObs}
    (hstep : e.session.step event = some (session, o)) (hinv' : session.send.Inv) :
    Wire (fs ++ (Session.writes o).map Prod.snd) got (e.advance event session) := by
  have hmove := Session.move_of_step hstep
  by_cases hother : ∀ id ec, event ≠ .send (.writeDone id ec)
  · have hsame : e.advance event session = { e with session := session } := by
      unfold Endpoint.advance
      split
      · exact absurd rfl (hother _ _)
      all_goals rfl
    rw [hsame]
    exact hwire.grow (Session.grows_of_move hmove hinv hother) hinv'
  · simp only [ne_eq, not_forall, not_not] at hother
    rcases hother with ⟨id, ec, rfl⟩
    rcases Session.ends_of_move hmove hinv with ⟨hwrites, ⟨frame, hwriting⟩, hfree⟩
    rw [hwrites, List.map_nil, List.append_nil]
    exact hwire.finish hinv hwriting hfree

/-- Every step keeps account of what is on the wire. -/
theorem wire_move {os : List (Side × SessionObs)} (hmove : Move c event c' obs)
    (hcut : ∀ side id n, event = .transmit side id n → (c side).cut = false)
    (hinv : ∀ side, (c side).session.send.Inv) (hinv' : ∀ side, (c' side).session.send.Inv)
    (hwire : ∀ side, Wire (frames side os) (arrived side.peer es) (c side)) (side : Side) :
    Wire (frames side (os ++ obs)) (arrived side.peer (es ++ [event])) (c' side) := by
  rw [frames_append, arrived_append]
  cases hmove with
  | @session other event session o _ hallows hstep hown hpeer =>
      by_cases hside : other = side
      · subst hside
        have hafter := hinv' other
        rw [hown, session_advance] at hafter
        have hnext := wire_advance (hwire other) (hinv other) hstep hafter
        simpa [frames, writes, arrived, Session.received, hown, (Side.peer_ne other).symm]
          using hnext
      · obtain rfl : side = other.peer := Side.eq_peer_of_ne (Ne.symm hside)
        have hnext := (hwire other.peer).deliver (octets_front hallows)
        simpa [frames, writes, arrived, Session.received, hpeer, Session.writes, Session.sendPart,
          Sender.writes, hside] using hnext
  | @transmit other id n frame _ hwriting hroom hown hpeer =>
      have hnone : frames side [] = [] ∧ arrived side.peer [.transmit other id n] = [] :=
        ⟨rfl, rfl⟩
      rw [hnone.1, hnone.2, List.append_nil, List.append_nil]
      by_cases hside : side = other
      · subst hside
        rw [hown]
        exact (hwire side).transmit (hinv side) hwriting hroom (hcut side id n rfl)
      · obtain rfl : side = other.peer := Side.eq_peer_of_ne hside
        rw [hpeer]
        exact hwire other.peer

/-- While nothing is transmitted behind a write that ended short, what has arrived and what is in
transit are the frames of the writes. -/
theorem wire_of_run (hrun : (machine N).Run Intact es obs c) (side : Side) :
    Wire (frames side obs) (arrived side.peer es) (c side) := by
  induction hrun generalizing side with
  | refl =>
      refine ⟨List.nil_prefix, fun id frame hwriting => ?_, fun _ => ⟨rfl, fun _ => rfl⟩⟩
      simp [machine, Session.machine, Sender.Writing, Sender.phase] at hwriting
  | snoc before hstep hintact ih =>
      exact wire_move (move_of_step hstep) hintact.1 (fun side => (inv_of_run before side).1)
        (fun side => (inv_of_run (before.snoc hstep hintact) side).1) ih side

/-! ## What is written -/

/-- Every write is one of an operation on record, and its frame is not too long. -/
theorem writes_of_run (hrun : (machine N).Run Intact es obs c) (side : Side) :
    ∀ write ∈ writes side obs,
      (∃ op, (c side).session.send.ops write.1 = some op ∧ op.kind.Builds write.2) ∧
        write.2.length < 2 ^ 32 := by
  induction hrun with
  | refl => simp [writes, Session.writes, Session.sendPart, Sender.writes, obsOf]
  | @snoc es os c c' event o before hstep hintact ih =>
      intro write hmem
      have hinv := (inv_of_run before side).1
      have hinv' := (inv_of_run (before.snoc hstep hintact) side).1
      rw [writes_append, List.mem_append] at hmem
      rcases session_steps_of_move (move_of_step hstep) side with
        ⟨_, hobs, hsame⟩ | ⟨e, o', rfl, _, hobs, hsession⟩
      · have hnone : writes side o = [] := congrArg Session.writes hobs
        rw [hsame]
        exact ih write (hmem.resolve_right (by simp [hnone]))
      · have hmove := Session.move_of_step hsession
        rcases hmem with hbefore | hnow
        · rcases ih write hbefore with ⟨⟨op, hop, hbuilds⟩, hlt⟩
          rcases Session.op_of_move hmove hinv hop with ⟨op', hop', hkind⟩
          exact ⟨⟨op', hop', hkind ▸ hbuilds⟩, hlt⟩
        · have hnew : writes side o = Session.writes o' := congrArg Session.writes hobs
          rw [hnew] at hnow
          by_cases hother : ∀ id ec, e ≠ .send (.writeDone id ec)
          · rcases (Session.grows_of_move hmove hinv hother).builds hinv' hnow with ⟨hop, hbuf⟩
            exact ⟨hop, hbuf ▸ hintact.2 side⟩
          · simp only [ne_eq, not_forall, not_not] at hother
            rcases hother with ⟨id, ec, rfl⟩
            simp [(Session.ends_of_move hmove hinv).1] at hnow

/-- What is built announces its own length, if four octets suffice for it. -/
theorem isFrame_of_builds {kind : SendKind} {frame : Octets} (hbuilds : kind.Builds frame)
    (hlt : frame.length < 2 ^ 32) : commandFraming.IsFrame frame := by
  rcases hbuilds with ⟨sendBuf, n, hfill, rfl, _⟩
  rcases SendKind.length_frame hfill n with ⟨hframe, hlength⟩
  refine ⟨?_, SendKind.announced_frame hfill n hlt⟩
  change headerLength ≤ _
  omega

/-- What is written are frames that announce their own length. -/
theorem isFrame_of_run (hrun : (machine N).Run Intact es obs c) (side : Side) :
    ∀ frame ∈ frames side obs, commandFraming.IsFrame frame := by
  intro frame hmem
  rcases List.mem_map.mp hmem with ⟨write, hwrite, rfl⟩
  rcases writes_of_run hrun side write hwrite with ⟨⟨op, _, hbuilds⟩, hlt⟩
  exact isFrame_of_builds hbuilds hlt

end Connection

end Smpp
