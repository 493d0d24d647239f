import Smpp.Library.EventMachine
import Smpp.Net.Error
import Smpp.Net.SendFrame
import Mathlib.Logic.Function.Basic

/-!
# The send coroutines

{lit}`async_send_command` and the two {lit}`async_send` as one machine.  A non-empty
{lit}`send_buf_` is the lock: an operation that finds it taken waits on {lit}`send_cv_`, a
timer that never expires, and {lit}`cancel_one` schedules the resumption of the
operation that waits longest.  Any number of operations run concurrently; each has
a number of its own.

Main results:

- Theorem {lit}`Sender.move_of_step`: what a step can do, one case for each path through
  the coroutines.
-/

namespace Smpp

/-- Where a send operation is.  {lit}`woken` is suspended on {lit}`send_cv_` with its
resumption scheduled; {lit}`writing` keeps the octets the write was started with. -/
inductive SendPhase where
  | created
  | waiting
  | woken
  | writing (frame : Octets)
  | done
deriving DecidableEq, Repr

/-- Which {lit}`self.complete` ended a send operation: the one in the waiting loop, the
one in the {lit}`catch` block, the one for a command that timed out, or the last one. -/
inductive SendExit where
  | whileWaiting
  | notSerialized
  | timedOut
  | written
deriving DecidableEq, Repr

/-- A send operation: what it sends, where it is, the number it sends, and its
cancellation state. -/
structure SendOp where
  kind : SendKind
  phase : SendPhase := .created
  sequenceNumber : UInt32 := 0
  cancellation : CancellationState := {}

/-- The sending half of a session. -/
structure Sender where
  sendBuf : Octets := []
  sendCv : List Nat := []
  sequenceNumber : UInt32 := 0
  ops : Nat → Option SendOp := fun _ => none

/-- What the environment can do: create an operation with a given number or, for
{lit}`async_send_unbind` and the commands of {lit}`receive_op`, with a fresh one; initiate
it; run the scheduled resumption of a waiter; complete a write; request cancellation. -/
inductive SendEvent where
  | call (id : Nat) (kind : SendKind)
  | callNext (id : Nat) (commandId : CommandId)
  | start (id : Nat)
  | resume (id : Nat)
  | writeDone (id : Nat) (ec : ErrorCode)
  | cancel (id : Nat) (type : CancellationType)

/-- The operation an event is about. -/
def SendEvent.id : SendEvent → Nat
  | .call id _ | .callNext id _ | .start id | .resume id | .writeDone id _ | .cancel id _ => id

/-- What the operations show. -/
inductive SendObs where
  | allocated (sequenceNumber : UInt32)
  | writeStarted (id : Nat) (frame : Octets)
  | writeDone (id : Nat) (frame : Octets) (ec : ErrorCode)
  | completed (id : Nat) (exit : SendExit) (ec : ErrorCode) (sequenceNumber : UInt32)
deriving DecidableEq, Repr

namespace SendKind

/-- The operation is an {lit}`async_send_command`. -/
def isCommand : SendKind → Bool
  | .command _ _ => true
  | .request _ _ _ | .response _ _ _ _ _ => false

/-- The number an operation is given; requests take a fresh one. -/
def givenNumber : SendKind → Option UInt32
  | .command _ sequenceNumber | .response _ _ sequenceNumber _ _ => some sequenceNumber
  | .request _ _ _ => none

end SendKind

/-- {lit}`session::next_sequence_number`. -/
def nextSequenceNumber (sequenceNumber : UInt32) : UInt32 :=
  if sequenceNumber + 1 > 0x7FFFFFFF then 1 else sequenceNumber + 1

namespace Sender

/-! ## Parts of the coroutines -/

/-- Store the state of an operation. -/
def put (s : Sender) (id : Nat) (op : SendOp) : Sender :=
  { s with ops := Function.update s.ops id (some op) }

/-- {lit}`send_cv_.cancel_one()`. -/
def cancelOne (s : Sender) : Sender :=
  match s.sendCv with
  | [] => s
  | id :: rest =>
      match s.ops id with
      | none => { s with sendCv := rest }
      | some op => { s with sendCv := rest }.put id { op with phase := .woken }

/-- The body of a request is followed by the allocation of its number; the other
operations were given theirs. -/
def number (s : Sender) (kind : SendKind) : Sender × UInt32 × List SendObs :=
  match kind.givenNumber with
  | some sequenceNumber => (s, sequenceNumber, [])
  | none =>
      let sequenceNumber := nextSequenceNumber s.sequenceNumber
      ({ s with sequenceNumber := sequenceNumber }, sequenceNumber, [.allocated sequenceNumber])

/-- The coroutine from the test of the waiting loop on. -/
def enter (s : Sender) (id : Nat) (op : SendOp) : Sender × List SendObs :=
  if s.sendBuf ≠ [] then
    ({ s with sendCv := s.sendCv ++ [id] }.put id { op with phase := .waiting }, [])
  else
    match op.kind.fillBody with
    | .error _ =>
        ({ s with sendBuf := [] }.put id { op with phase := .done },
          [.completed id .notSerialized (.smpp .serializationFailed) 0])
    | .ok sendBuf =>
        let (s, sequenceNumber, obs) := s.number op.kind
        let frame := op.kind.frame sendBuf sequenceNumber
        ({ s with sendBuf := frame }.put id
            { op with
              phase := .writing frame
              sequenceNumber := sequenceNumber
              cancellation := .reset .enableTerminal },
          obs ++ [.writeStarted id frame])

/-- The number a handler is given: only {lit}`async_send` of a request has one. -/
def resultNumber (op : SendOp) : UInt32 :=
  match op.kind with
  | .request _ _ _ => op.sequenceNumber
  | .command _ _ | .response _ _ _ _ _ => 0

/-- The coroutine behind its write. -/
def writeDone (s : Sender) (id : Nat) (op : SendOp) (frame : Octets) (ec : ErrorCode) :
    Sender × List SendObs :=
  if op.kind.isCommand ∧ ec = .operationAborted ∧ !op.cancellation.cancelled then
    -- the send buffer is not cleared and nobody is woken
    (s.put id { op with phase := .done },
      [.writeDone id frame ec, .completed id .timedOut (.smpp .enquireLinkTimeout) 0])
  else
    ({ s with sendBuf := [] }.cancelOne.put id { op with phase := .done },
      [.writeDone id frame ec, .completed id .written ec (resultNumber op)])

/-- The cancellation signal of an operation that was initiated.  A request that is
admitted while the operation waits ends the wait. -/
def cancel (s : Sender) (id : Nat) (op : SendOp) (type : CancellationType) : Sender :=
  let op' := { op with cancellation := op.cancellation.request type }
  if op.phase = .waiting ∧ (op.cancellation.filter.admitted type).any then
    { s with sendCv := s.sendCv.filter (· ≠ id) }.put id { op' with phase := .woken }
  else
    s.put id op'

/-! ## The machine -/

/-- One event. -/
def step (s : Sender) (event : SendEvent) : Option (Sender × List SendObs) :=
  match event with
  | .call id kind =>
      match s.ops id with
      | none => some (s.put id { kind := kind }, [])
      | some _ => none
  | .callNext id commandId =>
      match s.ops id with
      | none =>
          let sequenceNumber := nextSequenceNumber s.sequenceNumber
          some ({ s with sequenceNumber := sequenceNumber }.put id
              { kind := .command commandId sequenceNumber },
            [.allocated sequenceNumber])
      | some _ => none
  | .start id =>
      match s.ops id with
      | some op =>
          if op.phase = .created then
            some (s.enter id { op with cancellation := .reset .enableTotal })
          else none
      | none => none
  | .resume id =>
      match s.ops id with
      | some op =>
          if op.phase = .woken then
            if op.cancellation.cancelled then
              some (s.put id { op with phase := .done },
                [.completed id .whileWaiting .operationAborted 0])
            else some (s.enter id op)
          else none
      | none => none
  | .writeDone id ec =>
      match s.ops id with
      | some op =>
          match op.phase with
          | .writing frame => some (s.writeDone id op frame ec)
          | .created | .waiting | .woken | .done => none
      | none => none
  | .cancel id type =>
      match s.ops id with
      | some op =>
          if op.phase = .created ∨ op.phase = .done then none
          else some (s.cancel id op type, [])
      | none => none

/-- The send operations of a session. -/
def machine : EventMachine Sender SendEvent SendObs where
  init := {}
  step := step

/-! ## What a step can do -/

/-- Where an operation is. -/
def phase (s : Sender) (id : Nat) : Option SendPhase :=
  (s.ops id).map SendOp.phase

variable {s s' : Sender} {id : Nat} {op : SendOp} {event : SendEvent} {obs : List SendObs}

/-- Behind an event that lets operation {lit}`id` test the waiting loop: it has just been
initiated, or it was woken and nobody cancelled it. -/
inductive Ready (s : Sender) (id : Nat) : SendEvent → SendOp → Prop
  | start {op : SendOp} (hop : s.ops id = some op) (hphase : op.phase = .created) :
      Ready s id (.start id) { op with cancellation := .reset .enableTotal }
  | resume {op : SendOp} (hop : s.ops id = some op) (hphase : op.phase = .woken)
      (hcancelled : op.cancellation.cancelled = false) : Ready s id (.resume id) op

/-- What the test of the waiting loop leads to. -/
inductive Enter (s : Sender) (id : Nat) (op : SendOp) : Sender → List SendObs → Prop
  | wait (hbusy : s.sendBuf ≠ []) :
      Enter s id op
        ({ s with sendCv := s.sendCv ++ [id] }.put id { op with phase := .waiting }) []
  | fail (hfree : s.sendBuf = []) {e : Fault} (hfill : op.kind.fillBody = .error e) :
      Enter s id op (s.put id { op with phase := .done })
        [.completed id .notSerialized (.smpp .serializationFailed) 0]
  | write (hfree : s.sendBuf = []) {sendBuf : Octets} (hfill : op.kind.fillBody = .ok sendBuf)
      {sequenceNumber next : UInt32} {obs : List SendObs}
      (hnumber : s.number op.kind = ({ s with sequenceNumber := next }, sequenceNumber, obs)) :
      Enter s id op
        ({ s with
            sendBuf := op.kind.frame sendBuf sequenceNumber
            sequenceNumber := next }.put id
          { op with
            phase := .writing (op.kind.frame sendBuf sequenceNumber)
            sequenceNumber := sequenceNumber
            cancellation := .reset .enableTerminal })
        (obs ++ [.writeStarted id (op.kind.frame sendBuf sequenceNumber)])

/-- The write of a command was aborted though nobody cancelled the command. -/
def TimedOut (op : SendOp) (ec : ErrorCode) : Prop :=
  op.kind.isCommand = true ∧ ec = .operationAborted ∧ op.cancellation.cancelled = false

/-- What a step does. -/
inductive Move (s : Sender) : SendEvent → Sender → List SendObs → Prop
  | call {id : Nat} (hfresh : s.ops id = none) (kind : SendKind) :
      Move s (.call id kind) (s.put id { kind := kind }) []
  | callNext {id : Nat} (hfresh : s.ops id = none) (commandId : CommandId) :
      Move s (.callNext id commandId)
        ({ s with sequenceNumber := nextSequenceNumber s.sequenceNumber }.put id
          { kind := .command commandId (nextSequenceNumber s.sequenceNumber) })
        [.allocated (nextSequenceNumber s.sequenceNumber)]
  | enter {id : Nat} {event : SendEvent} {op : SendOp} (hready : Ready s id event op)
      {s' : Sender} {obs : List SendObs} (henter : Enter s id op s' obs) : Move s event s' obs
  | giveUp {id : Nat} {op : SendOp} (hop : s.ops id = some op) (hphase : op.phase = .woken)
      (hcancelled : op.cancellation.cancelled = true) :
      Move s (.resume id) (s.put id { op with phase := .done })
        [.completed id .whileWaiting .operationAborted 0]
  | timeOut {id : Nat} {op : SendOp} {frame : Octets} {ec : ErrorCode}
      (hop : s.ops id = some op) (hphase : op.phase = .writing frame)
      (htimeout : TimedOut op ec) :
      Move s (.writeDone id ec) (s.put id { op with phase := .done })
        [.writeDone id frame ec, .completed id .timedOut (.smpp .enquireLinkTimeout) 0]
  | written {id : Nat} {op : SendOp} {frame : Octets} {ec : ErrorCode}
      (hop : s.ops id = some op) (hphase : op.phase = .writing frame)
      (htimeout : ¬ TimedOut op ec) :
      Move s (.writeDone id ec)
        ({ s with sendBuf := [] }.cancelOne.put id { op with phase := .done })
        [.writeDone id frame ec, .completed id .written ec (resultNumber op)]
  | cancelWait {id : Nat} {op : SendOp} {type : CancellationType} (hop : s.ops id = some op)
      (hphase : op.phase = .waiting)
      (hadmitted : (op.cancellation.filter.admitted type).any = true) :
      Move s (.cancel id type)
        ({ s with sendCv := s.sendCv.filter (· ≠ id) }.put id
          { op with phase := .woken, cancellation := op.cancellation.request type }) []
  | cancel {id : Nat} {op : SendOp} {type : CancellationType} (hop : s.ops id = some op)
      (hphase : op.phase ≠ .created ∧ op.phase ≠ .done)
      (hrefused : op.phase = .waiting → (op.cancellation.filter.admitted type).any = false) :
      Move s (.cancel id type)
        (s.put id { op with cancellation := op.cancellation.request type }) []

/-- Numbering an operation changes the counter at most. -/
theorem number_eq (s : Sender) (kind : SendKind) :
    ∃ next sequenceNumber obs,
      s.number kind = ({ s with sequenceNumber := next }, sequenceNumber, obs) := by
  unfold number
  split
  · exact ⟨s.sequenceNumber, _, _, rfl⟩
  · exact ⟨_, _, _, rfl⟩

/-- An operation is sent under the number it is given, or under the next one. -/
theorem number_cases {s : Sender} {kind : SendKind} {next sequenceNumber : UInt32}
    {obs : List SendObs}
    (hnumber : s.number kind = ({ s with sequenceNumber := next }, sequenceNumber, obs)) :
    (kind.givenNumber = some sequenceNumber ∧ next = s.sequenceNumber ∧ obs = []) ∨
      (kind.givenNumber = none ∧ sequenceNumber = nextSequenceNumber s.sequenceNumber ∧
        next = sequenceNumber ∧ obs = [.allocated sequenceNumber]) := by
  unfold number at hnumber
  split at hnumber
  · rename_i n hgiven
    injection hnumber with hsame hrest
    injection hrest with hsent hobs
    exact Or.inl ⟨hsent ▸ hgiven, (congrArg Sender.sequenceNumber hsame).symm, hobs.symm⟩
  · rename_i hgiven
    injection hnumber with hnext hrest
    injection hrest with hsent hobs
    refine Or.inr ⟨hgiven, hsent.symm, ?_, hsent ▸ hobs.symm⟩
    exact (congrArg Sender.sequenceNumber hnext).symm.trans hsent

/-- Every path from the test of the waiting loop. -/
theorem enter_enter (s : Sender) (id : Nat) (op : SendOp) :
    Enter s id op (s.enter id op).1 (s.enter id op).2 := by
  unfold enter
  split
  · rename_i hbusy
    exact .wait hbusy
  rename_i hfree
  rw [ne_eq, not_not] at hfree
  split
  · rename_i e hfill
    have hsame : { s with sendBuf := [] } = s := by rw [← hfree]
    rw [hsame]
    exact .fail hfree hfill
  · rename_i sendBuf hfill
    rcases s.number_eq op.kind with ⟨next, sequenceNumber, obs, hnumber⟩
    rw [hnumber]
    exact .write hfree hfill hnumber

theorem move_writeDone {frame : Octets} (hop : s.ops id = some op)
    (hphase : op.phase = .writing frame) (ec : ErrorCode) :
    Move s (.writeDone id ec) (s.writeDone id op frame ec).1 (s.writeDone id op frame ec).2 := by
  unfold writeDone
  split
  · rename_i htimeout
    exact .timeOut hop hphase (by simpa [TimedOut] using htimeout)
  · rename_i htimeout
    exact .written hop hphase (by simpa [TimedOut] using htimeout)

theorem move_cancel (hop : s.ops id = some op) (type : CancellationType)
    (hphase : op.phase ≠ .created ∧ op.phase ≠ .done) :
    Move s (.cancel id type) (s.cancel id op type) [] := by
  unfold cancel
  dsimp only
  split
  · rename_i hwait
    exact .cancelWait hop hwait.1 hwait.2
  · rename_i hwait
    exact .cancel hop hphase fun hwaiting => by simpa [hwaiting] using hwait

/-- Everything a step can do. -/
theorem move_of_step (hstep : s.step event = some (s', obs)) : Move s event s' obs := by
  unfold step at hstep
  cases event with
  | call id kind =>
      dsimp only at hstep
      split at hstep
      · rename_i hfresh
        cases hstep
        exact .call hfresh kind
      · cases hstep
  | callNext id commandId =>
      dsimp only at hstep
      split at hstep
      · rename_i hfresh
        cases hstep
        exact .callNext hfresh commandId
      · cases hstep
  | start id =>
      dsimp only at hstep
      split at hstep
      · rename_i op hop
        split at hstep
        · rename_i hphase
          injection hstep with hpair
          have henter := enter_enter s id { op with cancellation := .reset .enableTotal }
          rw [hpair] at henter
          exact .enter (.start hop hphase) henter
        · cases hstep
      · cases hstep
  | resume id =>
      dsimp only at hstep
      split at hstep
      · rename_i op hop
        split at hstep
        · rename_i hphase
          split at hstep
          · rename_i hcancelled
            cases hstep
            exact .giveUp hop hphase hcancelled
          · rename_i hcancelled
            injection hstep with hpair
            have henter := enter_enter s id op
            rw [hpair] at henter
            exact .enter (.resume hop hphase (by simpa using hcancelled)) henter
        · cases hstep
      · cases hstep
  | writeDone id ec =>
      dsimp only at hstep
      split at hstep
      · rename_i op hop
        split at hstep
        · rename_i frame hphase
          injection hstep with hpair
          have hmove := move_writeDone hop hphase ec
          rwa [hpair] at hmove
        all_goals cases hstep
      · cases hstep
  | cancel id type =>
      dsimp only at hstep
      split at hstep
      · rename_i op hop
        split at hstep
        · cases hstep
        · rename_i hphase
          cases hstep
          exact move_cancel hop type (not_or.mp hphase)
      · cases hstep

end Sender

end Smpp
