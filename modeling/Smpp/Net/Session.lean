import Smpp.Net.ReceiveInvariant
import Smpp.Net.SendExclusion

/-!
# The session

The two halves of a session put together.  The commands that {lit}`receive_op` sends are
send operations among the others: the coroutine initiates one, waits until that
operation completes, and runs on inside its completion.

Main results:

- Theorem {lit}`Session.move_of_step`: what a step of the session can do.
- Theorem {lit}`Session.halves_of_run`: seen from either half, a run of the session is a
  run of that half.
- Theorem {lit}`Session.linked_of_run`: {lit}`receive_op` waits for a command exactly while a
  send operation with this command and number is on its way, and nobody else sends
  the commands that only {lit}`receive_op` sends.
-/

namespace Smpp

/-- A session: its two halves, and the send operation that {lit}`receive_op` waits for. -/
structure Session (N : Nat) where
  send : Sender
  recv : Receiver N
  nested : Option Nat

/-- What the environment can do: an event of a send operation, an event of the receive
operation with a name for the command it may send, a cancellation request for the
receive operation. -/
inductive SessionEvent where
  | send (event : SendEvent)
  | receive (event : ReceiveEvent) (id : Nat)
  | cancelReceive (type : CancellationType)

/-- What the two halves show. -/
inductive SessionObs where
  | send (obs : SendObs)
  | receive (obs : ReceiveObs)

namespace Session

variable {N : Nat}

/-! ## The machine -/

/-- The events of send operations that do not come from {lit}`receive_op`: the caller sends
PDUs and {lit}`unbind`, and cancels the operations it has initiated itself. -/
def mayHappen (s : Session N) : SendEvent → Bool
  | .call _ kind => !kind.isCommand
  | .callNext _ commandId => commandId = .unbind
  | .cancel id _ => s.nested ≠ some id
  | .start _ | .resume _ | .writeDone _ _ => true

/-- The events of {lit}`receive_op` that neither half produces itself. -/
def isExternal : ReceiveEvent → Bool
  | .sendDone _ | .cancel _ => false
  | .asyncReceive | .iterate | .readDone _ _ | .postDone => true

/-- The result operation {lit}`id` completes with. -/
def completionOf (id : Nat) (obs : List SendObs) : Option ErrorCode :=
  obs.findSome? fun
    | .completed j _ ec _ => if j = id then some ec else none
    | .allocated _ | .writeStarted _ _ | .writeDone _ _ _ => none

/-- The command {lit}`receive_op` hands to {lit}`async_send_command`. -/
def commandOf (obs : List ReceiveObs) : Option (CommandId × Option UInt32) :=
  obs.findSome? fun
    | .sendCommand commandId sequenceNumber => some (commandId, sequenceNumber)
    | .readSome _ | .dispatched _ _ | .posted | .consumed _ _ _ | .shutdownSocket
    | .completed _ => none

/-- A call of {lit}`async_send_command`, with the number it is given or a fresh one. -/
def callCommand (id : Nat) (commandId : CommandId) : Option UInt32 → SendEvent
  | some sequenceNumber => .call id (.command commandId sequenceNumber)
  | none => .callNext id commandId

/-- Behind a step of a send operation; when the operation that {lit}`receive_op` waits for
has completed, the coroutine is resumed. -/
def resume (s : Session N) (send : Sender) (obs : List SendObs) :
    Option (Session N × List SessionObs) :=
  match s.nested.bind (completionOf · obs) with
  | none => some ({ s with send := send }, obs.map .send)
  | some ec =>
      match s.recv.step (.sendDone ec) with
      | none => none
      | some (recv, recvObs) =>
          some (⟨send, recv, none⟩, obs.map .send ++ recvObs.map .receive)

/-- Behind a step of {lit}`receive_op`; a command it sends is initiated at once. -/
def initiate (s : Session N) (recv : Receiver N) (obs : List ReceiveObs) (id : Nat) :
    Option (Session N × List SessionObs) :=
  match commandOf obs with
  | none => some ({ s with recv := recv }, obs.map .receive)
  | some (commandId, sequenceNumber) =>
      match s.send.step (callCommand id commandId sequenceNumber) with
      | none => none
      | some (called, callObs) =>
          match called.step (.start id) with
          | none => none
          | some (send, startObs) =>
              some (⟨send, recv, some id⟩,
                obs.map .receive ++ (callObs ++ startObs).map .send)

/-- The cancellation signal of the receive operation; what its filter admits is passed
on to the command it waits for. -/
def cancelReceive (s : Session N) (type : CancellationType) :
    Option (Session N × List SessionObs) :=
  match s.recv.step (.cancel type) with
  | none => none
  | some (recv, obs) =>
      match s.nested with
      | none => some ({ s with recv := recv }, obs.map .receive)
      | some id =>
          match s.send.step (.cancel id (s.recv.cancellation.filter.admitted type)) with
          | none => none
          | some (send, sendObs) =>
              some (⟨send, recv, some id⟩, obs.map .receive ++ sendObs.map .send)

/-- One event.  While {lit}`receive_op` runs nothing else does. -/
def step (s : Session N) (event : SessionEvent) : Option (Session N × List SessionObs) :=
  match event with
  | .send event =>
      if s.recv.stage ≠ .running ∧ s.mayHappen event then
        match s.send.step event with
        | none => none
        | some (send, obs) => s.resume send obs
      else none
  | .receive event id =>
      if isExternal event then
        match s.recv.step event with
        | none => none
        | some (recv, obs) => s.initiate recv obs id
      else none
  | .cancelReceive type => s.cancelReceive type

/-- The session with a receive buffer of {lit}`N` octets. -/
def machine (N : Nat) : EventMachine (Session N) SessionEvent SessionObs where
  init := ⟨{}, .new N, none⟩
  step := step

/-! ## What a step can do -/

variable {s s' : Session N} {event : SessionEvent} {obs : List SessionObs}

/-- What a step does. -/
inductive Move (s : Session N) : SessionEvent → Session N → List SessionObs → Prop
  | send {event : SendEvent} {send : Sender} {obs : List SendObs}
      (hpaused : s.recv.stage ≠ .running) (hmay : s.mayHappen event = true)
      (hsend : s.send.step event = some (send, obs))
      (hpending : ∀ id, s.nested = some id → ∀ exit ec n, .completed id exit ec n ∉ obs) :
      Move s (.send event) { s with send := send } (obs.map .send)
  | resume {event : SendEvent} {send : Sender} {obs : List SendObs} {id : Nat}
      {exit : SendExit} {ec : ErrorCode} {n : UInt32} {recv : Receiver N}
      {recvObs : List ReceiveObs}
      (hmay : s.mayHappen event = true) (hsend : s.send.step event = some (send, obs))
      (hnested : s.nested = some id) (hcompleted : .completed id exit ec n ∈ obs)
      (hrecv : s.recv.step (.sendDone ec) = some (recv, recvObs)) :
      Move s (.send event) ⟨send, recv, none⟩ (obs.map .send ++ recvObs.map .receive)
  | receive {event : ReceiveEvent} {id : Nat} {recv : Receiver N} {obs : List ReceiveObs}
      (hexternal : isExternal event = true) (hrecv : s.recv.step event = some (recv, obs))
      (hquiet : ∀ commandId n, .sendCommand commandId n ∉ obs) :
      Move s (.receive event id) { s with recv := recv } (obs.map .receive)
  | command {event : ReceiveEvent} {id : Nat} {recv : Receiver N} {obs : List ReceiveObs}
      {commandId : CommandId} {n : Option UInt32} {called send : Sender}
      {callObs startObs : List SendObs}
      (hexternal : isExternal event = true) (hrecv : s.recv.step event = some (recv, obs))
      (hcommand : .sendCommand commandId n ∈ obs)
      (hcall : s.send.step (callCommand id commandId n) = some (called, callObs))
      (hstart : called.step (.start id) = some (send, startObs)) :
      Move s (.receive event id) ⟨send, recv, some id⟩
        (obs.map .receive ++ (callObs ++ startObs).map .send)
  | cancel {type : CancellationType} {recv : Receiver N} {obs : List ReceiveObs}
      (hrecv : s.recv.step (.cancel type) = some (recv, obs)) (hnested : s.nested = none) :
      Move s (.cancelReceive type) { s with recv := recv } (obs.map .receive)
  | cancelNested {type : CancellationType} {recv : Receiver N} {obs : List ReceiveObs}
      {id : Nat} {send : Sender} {sendObs : List SendObs}
      (hrecv : s.recv.step (.cancel type) = some (recv, obs)) (hnested : s.nested = some id)
      (hsend : s.send.step (.cancel id (s.recv.cancellation.filter.admitted type)) =
        some (send, sendObs)) :
      Move s (.cancelReceive type) ⟨send, recv, some id⟩
        (obs.map .receive ++ sendObs.map .send)

theorem completionOf_eq_none {id : Nat} {obs : List SendObs} :
    completionOf id obs = none ↔ ∀ exit ec n, .completed id exit ec n ∉ obs := by
  simp only [completionOf, List.findSome?_eq_none_iff]
  constructor
  · intro hnone exit ec n hmem
    simpa using hnone _ hmem
  · intro hnone o hmem
    cases o with
    | allocated | writeStarted | writeDone => rfl
    | completed j exit ec n =>
        refine if_neg ?_
        rintro rfl
        exact hnone exit ec n hmem

theorem completed_of_completionOf {id : Nat} {obs : List SendObs} {ec : ErrorCode}
    (hcompletion : completionOf id obs = some ec) : ∃ exit n, .completed id exit ec n ∈ obs := by
  rcases List.exists_of_findSome?_eq_some hcompletion with ⟨o, hmem, ho⟩
  cases o with
  | allocated | writeStarted | writeDone => cases ho
  | completed j exit ec' n =>
      simp only [Option.ite_none_right_eq_some, Option.some.injEq] at ho
      rcases ho with ⟨rfl, rfl⟩
      exact ⟨exit, n, hmem⟩

theorem commandOf_eq_none {obs : List ReceiveObs} :
    commandOf obs = none ↔ ∀ commandId n, .sendCommand commandId n ∉ obs := by
  simp only [commandOf, List.findSome?_eq_none_iff]
  constructor
  · intro hnone commandId n hmem
    simpa using hnone _ hmem
  · intro hquiet o hmem
    cases o with
    | readSome | dispatched | posted | consumed | shutdownSocket | completed => rfl
    | sendCommand commandId n => exact absurd hmem (hquiet commandId n)

theorem sendCommand_of_commandOf {obs : List ReceiveObs} {command : CommandId × Option UInt32}
    (hcommand : commandOf obs = some command) : .sendCommand command.1 command.2 ∈ obs := by
  rcases List.exists_of_findSome?_eq_some hcommand with ⟨o, hmem, ho⟩
  cases o with
  | readSome | dispatched | posted | consumed | shutdownSocket | completed => cases ho
  | sendCommand commandId n =>
      cases ho
      exact hmem

/-- Everything a step can do. -/
theorem move_of_step (hstep : s.step event = some (s', obs)) : Move s event s' obs := by
  unfold step at hstep
  cases event with
  | send event =>
      dsimp only at hstep
      split at hstep
      · rename_i hguard
        split at hstep
        · cases hstep
        rename_i send sendObs hsend
        unfold resume at hstep
        split at hstep
        · rename_i hpending
          cases hstep
          refine .send hguard.1 hguard.2 hsend fun id hnested => ?_
          rw [hnested, Option.bind_some] at hpending
          exact completionOf_eq_none.mp hpending
        · rename_i ec hcompletion
          split at hstep
          · cases hstep
          rename_i recv recvObs hrecv
          cases hstep
          rcases Option.bind_eq_some_iff.mp hcompletion with ⟨id, hnested, hcompletion⟩
          rcases completed_of_completionOf hcompletion with ⟨exit, n, hcompleted⟩
          exact .resume hguard.2 hsend hnested hcompleted hrecv
      · cases hstep
  | receive event id =>
      dsimp only at hstep
      split at hstep
      · rename_i hexternal
        split at hstep
        · cases hstep
        rename_i recv recvObs hrecv
        unfold initiate at hstep
        split at hstep
        · rename_i hnone
          cases hstep
          exact .receive hexternal hrecv (commandOf_eq_none.mp hnone)
        · rename_i commandId n hcommand
          split at hstep
          · cases hstep
          rename_i called callObs hcall
          split at hstep
          · cases hstep
          rename_i send startObs hstart
          cases hstep
          exact .command hexternal hrecv (sendCommand_of_commandOf hcommand) hcall hstart
      · cases hstep
  | cancelReceive type =>
      simp only [cancelReceive] at hstep
      split at hstep
      · cases hstep
      rename_i recv recvObs hrecv
      split at hstep
      · rename_i hnested
        cases hstep
        exact hnested ▸ .cancel hrecv hnested
      · rename_i id hnested
        split at hstep
        · cases hstep
        rename_i send sendObs hsend
        cases hstep
        exact .cancelNested hrecv hnested hsend

/-! ## The two halves -/

/-- What the sending half shows. -/
def sendPart (os : List SessionObs) : List SendObs :=
  os.filterMap fun
    | .send o => some o
    | .receive _ => none

/-- What the receiving half shows. -/
def receivePart (os : List SessionObs) : List ReceiveObs :=
  os.filterMap fun
    | .receive o => some o
    | .send _ => none

@[simp]
theorem sendPart_append (os os' : List SessionObs) :
    sendPart (os ++ os') = sendPart os ++ sendPart os' :=
  List.filterMap_append

@[simp]
theorem receivePart_append (os os' : List SessionObs) :
    receivePart (os ++ os') = receivePart os ++ receivePart os' :=
  List.filterMap_append

@[simp]
theorem sendPart_send (os : List SendObs) : sendPart (os.map .send) = os := by
  simp [sendPart, List.filterMap_map]

@[simp]
theorem sendPart_receive (os : List ReceiveObs) : sendPart (os.map .receive) = [] := by
  simp [sendPart, List.filterMap_map]

@[simp]
theorem receivePart_receive (os : List ReceiveObs) : receivePart (os.map .receive) = os := by
  simp [receivePart, List.filterMap_map]

@[simp]
theorem receivePart_send (os : List SendObs) : receivePart (os.map .send) = [] := by
  simp [receivePart, List.filterMap_map]

/-- The octets an event of the session hands to {lit}`receive_op`. -/
def octets : SessionEvent → Octets
  | .receive event _ => event.octets
  | .send _ | .cancelReceive _ => []

/-- The octets a session has received. -/
def received (es : List SessionEvent) : Octets :=
  es.flatMap octets

@[simp]
theorem received_concat (es : List SessionEvent) (e : SessionEvent) :
    received (es ++ [e]) = received es ++ octets e := by
  simp [received]

/-- The commands that are given a number are replies; requests take a fresh one. -/
def Replies : SendEvent → Prop
  | .call _ (.command commandId _) => isResponse commandId = true
  | .call _ (.request _ _ _) | .call _ (.response _ _ _ _ _) => True
  | .callNext _ _ | .start _ | .resume _ | .writeDone _ _ | .cancel _ _ => True

/-- The coroutine gives a number to replies only. -/
theorem isResponse_of_sendCommand {recv recv' : Receiver N} {e : ReceiveEvent}
    {o : List ReceiveObs} {commandId : CommandId} {n : UInt32} (hrecv : recv.step e = some (recv', o))
    (hcommand : .sendCommand commandId (some n) ∈ o) : isResponse commandId = true := by
  have hmove := Receiver.move_of_step hrecv
  cases hmove with
  | asyncReceive | startRead | incomplete => simp at hcommand
  | dispatch hstage hneeds hwhole hdispatch =>
      cases hdispatch with
      | enquireLink hid | unbind hid =>
          simp only [List.mem_cons, reduceCtorEq, ReceiveObs.sendCommand.injEq, List.not_mem_nil,
            or_false, false_or] at hcommand
          rw [hcommand.1]
          rfl
      | enquireLinkResp hid | unbindResp hid => simp [Receiver.consumedObs] at hcommand
      | post hid hpost => simp at hcommand
      | deliver hid hpost hdeliver =>
          rcases List.mem_cons.mp hcommand with hcommand | hcommand
          · cases hcommand
          · exact absurd hcommand (hdeliver.not_mem (by simp) (by simp))
  | resume hresume =>
      cases hresume with
      | readTimeoutAgain | readTimeout | readError | read | unbindSent | sendError
      | enquireLinkSent | cancel => simp at hcommand
      | enquireLinkRespSent | unbindRespSent => simp [Receiver.consumedObs] at hcommand
      | posted hstage hdeliver => exact absurd hcommand (hdeliver.not_mem (by simp) (by simp))

/-- A step of the session is a segment of a run of its sending half. -/
theorem send_steps_of_move (hmove : Move s event s' obs) :
    ∃ es, Sender.machine.Steps (fun _ e _ => Replies e) s.send es (sendPart obs) s'.send := by
  have hone : ∀ {e o} {a b : Sender}, a.step e = some (b, o) → Replies e →
      Sender.machine.Steps (fun _ e _ => Replies e) a [e] o b :=
    fun hsend hreplies => .single hsend hreplies
  have hcaller : ∀ {e : SendEvent}, s.mayHappen e = true → Replies e := by
    intro e hmay
    cases e with
    | call id kind =>
        cases kind with
        | command => cases hmay
        | request | response => trivial
    | callNext | start | resume | writeDone | cancel => trivial
  cases hmove with
  | send hpaused hmay hsend hpending => exact ⟨_, by simpa using hone hsend (hcaller hmay)⟩
  | resume hmay hsend hnested hcompleted hrecv =>
      exact ⟨_, by simpa using hone hsend (hcaller hmay)⟩
  | receive hexternal hrecv hquiet | cancel hrecv hnested =>
      exact ⟨[], by simpa using EventMachine.Steps.refl⟩
  | @command event id recv o commandId n called send callObs startObs hexternal hrecv hcommand
      hcall hstart =>
      have hreplies : Replies (callCommand id commandId n) := by
        cases n with
        | some n => exact isResponse_of_sendCommand hrecv hcommand
        | none => trivial
      exact ⟨_, by simpa using (hone hcall hreplies).trans (hone hstart trivial)⟩
  | cancelNested hrecv hnested hsend => exact ⟨_, by simpa using hone hsend trivial⟩

/-- A step of the session is a segment of a run of its receiving half. -/
theorem receive_steps_of_move (hmove : Move s event s' obs) :
    ∃ es, (Receiver.machine N).Steps EventMachine.anyStep s.recv es (receivePart obs) s'.recv ∧
      Smpp.received es = octets event := by
  have hone : ∀ {e o} {recv : Receiver N}, s.recv.step e = some (recv, o) →
      (Receiver.machine N).Steps EventMachine.anyStep s.recv [e] o recv :=
    fun hrecv => .single hrecv trivial
  have hoctets : ∀ e, Smpp.received [e] = e.octets := fun e => by simp [Smpp.received]
  cases hmove with
  | send hpaused hmay hsend hpending =>
      exact ⟨[], by simpa using EventMachine.Steps.refl, rfl⟩
  | resume hmay hsend hnested hcompleted hrecv =>
      exact ⟨_, by simpa using hone hrecv, hoctets _⟩
  | receive hexternal hrecv hquiet => exact ⟨_, by simpa using hone hrecv, hoctets _⟩
  | command hexternal hrecv hcommand hcall hstart =>
      exact ⟨_, by simpa using hone hrecv, hoctets _⟩
  | cancel hrecv hnested => exact ⟨_, by simpa using hone hrecv, hoctets _⟩
  | cancelNested hrecv hnested hsend => exact ⟨_, by simpa using hone hrecv, hoctets _⟩

/-- Seen from its sending half, a run of the session is a run of that half. -/
theorem send_run_of_run {R : Session N → SessionEvent → Session N → Prop}
    {es : List SessionEvent} (hrun : (machine N).Run R es obs s) :
    ∃ es₁, Sender.machine.Run (fun _ e _ => Replies e) es₁ (sendPart obs) s.send := by
  induction hrun with
  | refl => exact ⟨[], .refl⟩
  | snoc before hstep _ ih =>
      rcases ih with ⟨es₁, hsend⟩
      rcases send_steps_of_move (move_of_step hstep) with ⟨es₁', hsend'⟩
      rw [sendPart_append]
      exact ⟨_, hsend.trans hsend'⟩

/-- Seen from either half, a run of the session is a run of that half. -/
theorem halves_of_run {R : Session N → SessionEvent → Session N → Prop}
    {es : List SessionEvent} (hrun : (machine N).Run R es obs s) :
    (∃ es₁, Sender.machine.Run EventMachine.anyStep es₁ (sendPart obs) s.send) ∧
      ∃ es₂, (Receiver.machine N).Run EventMachine.anyStep es₂ (receivePart obs) s.recv ∧
        Smpp.received es₂ = received es := by
  refine ⟨(send_run_of_run hrun).imp fun _ hsend => hsend.anyStep, ?_⟩
  induction hrun with
  | refl => exact ⟨[], .refl, rfl⟩
  | snoc before hstep _ ih =>
      rcases ih with ⟨es₂, hrecv, hreceived⟩
      rcases receive_steps_of_move (move_of_step hstep) with ⟨es₂', hrecv', hreceived'⟩
      rw [receivePart_append, received_concat, ← hreceived, ← hreceived']
      exact ⟨_, hrecv.trans hrecv', by simp [Smpp.received]⟩

/-- A step of the receiving half that sends a command is a step of the session. -/
theorem step_of_command (id : Nat) {e : ReceiveEvent} {recv : Receiver N}
    {o : List ReceiveObs} {commandId : CommandId} {n : Option UInt32} {called send : Sender}
    {callObs startObs : List SendObs} (hexternal : isExternal e = true)
    (hrecv : s.recv.step e = some (recv, o)) (hcommand : commandOf o = some (commandId, n))
    (hcall : s.send.step (callCommand id commandId n) = some (called, callObs))
    (hstart : called.step (.start id) = some (send, startObs)) :
    (machine N).step s (.receive e id) =
      some (⟨send, recv, some id⟩, o.map .receive ++ (callObs ++ startObs).map .send) := by
  simp only [machine, step, hexternal, if_true, hrecv, initiate, hcommand, hcall, hstart]

/-- A run of the receiving half that sends no command is a run of the session. -/
theorem steps_of_receive_steps {es : List ReceiveEvent} {os : List ReceiveObs} {recv : Receiver N}
    (hsteps : (Receiver.machine N).Steps EventMachine.anyStep s.recv es os recv)
    (hexternal : ∀ e ∈ es, isExternal e = true)
    (hquiet : ∀ commandId n, .sendCommand commandId n ∉ os) :
    (machine N).Steps EventMachine.anyStep s (es.map (.receive · 0)) (os.map .receive)
      { s with recv := recv } := by
  induction hsteps with
  | refl => exact .refl
  | @snoc es os r r' e o before hstep _ ih =>
      have hbefore := ih (fun e hmem => hexternal e (List.mem_append_left _ hmem))
        fun commandId n hmem => hquiet commandId n (List.mem_append_left _ hmem)
      have hnone : commandOf o = none := commandOf_eq_none.mpr fun commandId n hmem =>
        hquiet commandId n (List.mem_append_right _ hmem)
      have hlast : (machine N).step { s with recv := r } (.receive e 0) =
          some ({ s with recv := r' }, o.map .receive) := by
        have hstep : r.step e = some (r', o) := hstep
        simp only [machine, step, hexternal e (by simp), if_true, hstep, initiate, hnone]
      rw [List.map_append, List.map_append]
      exact .snoc hbefore hlast trivial

/-! ## The command that is on its way -/

/-- The coroutine waits for a command with this identifier and number; replies carry
the number of the frame they answer. -/
def Awaits (recv : Receiver N) (commandId : CommandId) (n : UInt32) : Prop :=
  match recv.stage with
  | .suspended .sendUnbind => commandId = .unbind
  | .suspended .sendEnquireLink => commandId = .enquireLink
  | .suspended .sendEnquireLinkResp =>
      commandId = .enquireLinkResp ∧ n = recv.op.header.sequenceNumber
  | .suspended .sendUnbindResp => commandId = .unbindResp ∧ n = recv.op.header.sequenceNumber
  | .suspended .read | .suspended .post | .idle | .running | .undefined => False

/-- The commands that nobody but {lit}`receive_op` sends. -/
def internal : List CommandId := [.enquireLink, .enquireLinkResp, .unbindResp]

/-- How the two halves are linked. -/
structure Linked (s : Session N) : Prop where
  idle : s.nested = none → ∀ commandId n, ¬ Awaits s.recv commandId n
  awaits : ∀ id, s.nested = some id → ∃ op commandId n, s.send.ops id = some op ∧
    op.kind = .command commandId n ∧ op.phase ≠ .created ∧ op.phase ≠ .done ∧
    Awaits s.recv commandId n
  others : ∀ id op, s.send.ops id = some op → s.nested ≠ some id →
    op.kind.commandId ∈ internal → op.phase = .done

/-- Outside of its own commands the coroutine waits for none. -/
theorem not_awaits_of_external {recv recv' : Receiver N} {e : ReceiveEvent}
    {o : List ReceiveObs} (hexternal : isExternal e = true)
    (hrecv : recv.step e = some (recv', o)) (commandId : CommandId) (n : UInt32) :
    ¬ Awaits recv commandId n := by
  have hmove := Receiver.move_of_step hrecv
  cases hmove with
  | asyncReceive hstage | startRead hstage | incomplete hstage | dispatch hstage =>
      simp [Awaits, hstage]
  | resume hresume =>
      cases hresume with
      | readTimeoutAgain hstage | readTimeout hstage | readError hstage | read hstage
      | posted hstage => simp [Awaits, hstage]
      | unbindSent | sendError | enquireLinkSent | enquireLinkRespSent | unbindRespSent
      | cancel => cases hexternal

theorem not_awaits_deliver {recv recv' : Receiver N} {o : List ReceiveObs}
    (hdeliver : Receiver.Deliver recv recv' o) (commandId : CommandId) (n : UInt32) :
    (¬ Awaits recv' commandId n) ∧ ∀ number, .sendCommand commandId number ∉ o := by
  cases hdeliver with
  | undefined hrange => simp [Awaits]
  | completed hheader hsize => simp [Awaits, Receiver.complete, Receiver.consumedObs]

/-- The coroutine waits for exactly the command it has sent. -/
theorem awaits_iff_of_external {recv recv' : Receiver N} {e : ReceiveEvent}
    {o : List ReceiveObs} (hexternal : isExternal e = true)
    (hrecv : recv.step e = some (recv', o)) (commandId : CommandId) (n : UInt32) :
    Awaits recv' commandId n ↔
      ∃ number, .sendCommand commandId number ∈ o ∧ ∀ k, number = some k → n = k := by
  have hdelivered : ∀ {r r' : Receiver N} {o : List ReceiveObs}, Receiver.Deliver r r' o →
      (Awaits r' commandId n ↔
        ∃ number, .sendCommand commandId number ∈ o ∧ ∀ k, number = some k → n = k) := by
    intro r r' o hdeliver
    rcases not_awaits_deliver hdeliver commandId n with ⟨hawaits, hquiet⟩
    exact iff_of_false hawaits fun ⟨number, hmem, _⟩ => hquiet number hmem
  have hmove := Receiver.move_of_step hrecv
  cases hmove with
  | asyncReceive hstage | startRead hstage => simp [Awaits]
  | incomplete hstage => simp [Awaits, hstage]
  | dispatch hstage hneeds hwhole hdispatch =>
      cases hdispatch with
      | enquireLink hid | unbind hid => simp [Awaits, Receiver.suspend]
      | enquireLinkResp hid =>
          have hrunning : recv.scan.consume.stage = .running := hstage
          simp [Awaits, hrunning, Receiver.consumedObs]
      | unbindResp hid => simp [Awaits, Receiver.complete, Receiver.consumedObs]
      | post hid hneeds => simp [Awaits, Receiver.suspend]
      | deliver hid hneeds hdeliver => simpa using hdelivered hdeliver
  | resume hresume =>
      cases hresume with
      | readTimeoutAgain hstage | readTimeout hstage => simp [Awaits, Receiver.suspend]
      | readError hstage => simp [Awaits, Receiver.complete]
      | read hstage => simp [Awaits]
      | posted hstage hdeliver => exact hdelivered hdeliver
      | unbindSent | sendError | enquireLinkSent | enquireLinkRespSent | unbindRespSent
      | cancel => cases hexternal

/-- Behind a command the coroutine waits for none. -/
theorem not_awaits_sendDone {recv recv' : Receiver N} {ec : ErrorCode} {o : List ReceiveObs}
    (hrecv : recv.step (.sendDone ec) = some (recv', o)) (commandId : CommandId) (n : UInt32) :
    ¬ Awaits recv' commandId n := by
  have hmove := Receiver.move_of_step hrecv
  cases hmove with
  | resume hresume =>
      cases hresume with
      | unbindSent | sendError | unbindRespSent => simp [Awaits, Receiver.complete]
      | enquireLinkSent | enquireLinkRespSent => simp [Awaits]

/-- A cancellation request moves nothing. -/
theorem awaits_cancel {recv recv' : Receiver N} {type : CancellationType}
    {o : List ReceiveObs} (hrecv : recv.step (.cancel type) = some (recv', o))
    (commandId : CommandId) (n : UInt32) :
    Awaits recv' commandId n ↔ Awaits recv commandId n := by
  have hmove := Receiver.move_of_step hrecv
  cases hmove with
  | resume hresume =>
      cases hresume with
      | cancel hstage => exact Iff.rfl

/-- What a call of {lit}`async_send_command` leaves. -/
theorem call_callCommand {send called : Sender} {id : Nat} {commandId : CommandId}
    {number : Option UInt32} {o : List SendObs}
    (hmove : Sender.Move send (callCommand id commandId number) called o) :
    ∃ op n, called.ops id = some op ∧ op.kind = .command commandId n ∧
      (∀ k, number = some k → n = k) ∧ ∀ j, j ≠ id → called.ops j = send.ops j := by
  have hother : ∀ (s : Sender) (op : SendOp) (j : Nat), j ≠ id → (s.put id op).ops j = s.ops j :=
    fun s op j hj => by rw [Sender.ops_put, if_neg hj]
  cases number with
  | some k =>
      cases hmove with
      | call hfresh kind =>
          exact ⟨_, k, Sender.ops_put_self _ _ _, rfl, by simp, hother _ _⟩
      | enter hready henter => cases hready
  | none =>
      cases hmove with
      | callNext hfresh commandId =>
          exact ⟨_, _, Sender.ops_put_self _ _ _, rfl, by simp, hother _ _⟩
      | enter hready henter => cases hready

/-- The caller does not send the commands of {lit}`receive_op`. -/
theorem notMem_internal_of_mayHappen {e : SendEvent} (hmay : s.mayHappen e = true) {id : Nat}
    {kind : SendKind} (hcalled : Sender.Called [e] id kind) : kind.commandId ∉ internal := by
  have hinternal : ∀ t : PduType, t.commandId ∉ internal := by
    intro t hmem
    refine Receiver.commandId_notMem_control t ?_
    simp only [internal, Receiver.control, List.mem_cons] at hmem ⊢
    tauto
  rcases hcalled with hmem | ⟨commandId, n, hmem, rfl⟩
  · rw [List.mem_singleton] at hmem
    subst hmem
    cases kind with
    | command => cases hmay
    | request t _ _ | response t _ _ _ _ => exact hinternal t
  · rw [List.mem_singleton] at hmem
    subst hmem
    have hunbind : commandId = .unbind := by simpa [mayHappen] using hmay
    rw [SendKind.commandId, hunbind]
    decide

/-- An event that calls for no internal command leaves the internal ones done. -/
theorem others_move {send send' : Sender} {e : SendEvent} {o : List SendObs}
    (hmove : Sender.Move send e send' o) (hinv : send.Inv)
    (hcalled : ∀ id kind, Sender.Called [e] id kind → kind.commandId ∉ internal) {id : Nat}
    (hbefore : ∀ op, send.ops id = some op → op.kind.commandId ∈ internal → op.phase = .done) :
    ∀ op, send'.ops id = some op → op.kind.commandId ∈ internal → op.phase = .done := by
  intro op hop hinternal
  rcases Sender.kind_move hmove hinv hop with ⟨op₀, hop₀, hkind⟩ | ⟨_, _, hnew⟩
  · have hdone := hbefore op₀ hop₀ (hkind ▸ hinternal)
    have hphase := Sender.done_move hmove hinv (by rw [Sender.phase_of_ops hop₀, hdone])
    rw [Sender.phase_of_ops hop, Option.some.injEq] at hphase
    exact hphase
  · exact absurd hinternal (hcalled _ _ hnew)

/-- A step of the sending half that does not complete the awaited command keeps the
halves linked. -/
theorem Linked.send {send' : Sender} {e : SendEvent} {o : List SendObs} (hlinked : s.Linked)
    (hmove : Sender.Move s.send e send' o) (hinv : s.send.Inv)
    (hcalled : ∀ id kind, Sender.Called [e] id kind → kind.commandId ∉ internal)
    (hpending : ∀ id, s.nested = some id → ∀ exit ec n, .completed id exit ec n ∉ o) :
    Linked { s with send := send' } := by
  refine ⟨hlinked.idle, fun id hnested => ?_, fun id op hop hne => ?_⟩
  · rcases hlinked.awaits id hnested with ⟨op, commandId, n, hop, hkind, hcreated, hdone, hawaits⟩
    obtain ⟨op', hop', hsame, hcreated', hdone'⟩ :=
      Sender.exists_op_move hmove hinv hop hcreated hdone (hpending id hnested)
    exact ⟨op', commandId, n, hop', hsame.trans hkind, hcreated', hdone', hawaits⟩
  · exact others_move hmove hinv hcalled (fun op hop => hlinked.others id op hop hne) op hop

/-- A step of the receiving half that changes nothing about the awaited command keeps the
halves linked. -/
theorem Linked.recv {recv' : Receiver N} (hlinked : s.Linked)
    (hawaits : ∀ commandId n, Awaits recv' commandId n ↔ Awaits s.recv commandId n) :
    Linked { s with recv := recv' } := by
  refine ⟨fun hnone commandId n => ?_, fun id hnested => ?_, hlinked.others⟩
  · exact fun hawaiting => hlinked.idle hnone commandId n ((hawaits _ _).mp hawaiting)
  · obtain ⟨op, commandId, n, hop, hkind, hcreated, hdone, hawaiting⟩ := hlinked.awaits id hnested
    exact ⟨op, commandId, n, hop, hkind, hcreated, hdone, (hawaits _ _).mpr hawaiting⟩

/-- Without a command to wait for no send operation is linked. -/
theorem Linked.nested_eq_none (hlinked : s.Linked)
    (hawaits : ∀ commandId n, ¬ Awaits s.recv commandId n) : s.nested = none := by
  cases hnested : s.nested with
  | none => rfl
  | some id =>
      rcases hlinked.awaits id hnested with ⟨_, commandId, n, _, _, _, _, hawaiting⟩
      exact absurd hawaiting (hawaits commandId n)

/-- Every step keeps the halves linked. -/
theorem linked_move (hmove : Move s event s' obs) (hinv : s.send.Inv) (hlinked : s.Linked) :
    s'.Linked := by
  cases hmove with
  | send hpaused hmay hsend hpending =>
      exact hlinked.send (Sender.move_of_step hsend) hinv
        (fun _ _ => notMem_internal_of_mayHappen hmay) hpending
  | @resume event send o id exit ec n recv recvObs hmay hsend hnested hcompleted hrecv =>
      have hmove := Sender.move_of_step hsend
      refine ⟨fun _ => not_awaits_sendDone hrecv, by simp, fun j op hop _ hinternal => ?_⟩
      by_cases hj : j = id
      · have hdone := ((Sender.completed_iff hmove id).mp ⟨exit, ec, n, hcompleted⟩).2
        rw [← hj, Sender.phase_of_ops hop, Option.some.injEq] at hdone
        exact hdone
      · refine others_move hmove hinv (fun _ _ => notMem_internal_of_mayHappen hmay)
          (fun op hop => hlinked.others j op hop ?_) op hop hinternal
        rw [hnested, ne_eq, Option.some.injEq]
        exact Ne.symm hj
  | receive hexternal hrecv hquiet =>
      refine hlinked.recv fun commandId n => iff_of_false ?_
        (not_awaits_of_external hexternal hrecv commandId n)
      rw [awaits_iff_of_external hexternal hrecv]
      exact fun ⟨number, hmem, _⟩ => hquiet commandId number hmem
  | @command event id recv o commandId number called send callObs startObs hexternal hrecv
      hcommand hcall hstart =>
      have hnone := hlinked.nested_eq_none (not_awaits_of_external hexternal hrecv)
      have hcallMove := Sender.move_of_step hcall
      have hstartMove := Sender.move_of_step hstart
      rcases call_callCommand hcallMove with ⟨op, n, hop, hkind, hnumber, hother⟩
      refine ⟨by simp, fun id' hid => ?_, fun j op hop hne hinternal => ?_⟩
      · obtain rfl : id = id' := Option.some.inj hid
        rcases Sender.start_command hstartMove hop hkind with ⟨op', hop', hsame, hcreated, hdone⟩
        exact ⟨op', commandId, n, hop', hsame.trans hkind, hcreated, hdone,
          (awaits_iff_of_external hexternal hrecv commandId n).mpr ⟨number, hcommand, hnumber⟩⟩
      · refine others_move hstartMove (Sender.inv_move hcallMove hinv) (by simp [Sender.Called])
          (fun op hop => ?_) op hop hinternal
        rw [hother j (fun hj => hne (congrArg some hj.symm))] at hop
        exact hlinked.others j op hop (by simp [hnone])
  | cancel hrecv hnested => exact hlinked.recv (awaits_cancel hrecv)
  | @cancelNested type recv o id send sendObs hrecv hnested hsend =>
      have hmove := Sender.move_of_step hsend
      have hquiet : sendObs = [] := by
        cases hmove with
        | cancelWait | cancel => rfl
        | enter hready => cases hready
      have hsent := hlinked.send hmove hinv (by simp [Sender.Called]) (by simp [hquiet])
      exact hnested ▸ hsent.recv (awaits_cancel hrecv)

/-- The halves are linked in every reachable state. -/
theorem linked_of_run {R : Session N → SessionEvent → Session N → Prop}
    {es : List SessionEvent} (hrun : (machine N).Run R es obs s) : s.Linked := by
  induction hrun with
  | refl => exact ⟨fun _ _ _ => id, by simp [machine], by simp [machine]⟩
  | snoc before hstep _ ih =>
      rcases (halves_of_run before).1 with ⟨es₁, hsend⟩
      exact linked_move (move_of_step hstep) (Sender.inv_of_run hsend) ih

end Session

end Smpp
