import Smpp.Library.EventMachine
import Smpp.Net.PduVariant
import Smpp.Net.StaticFlatBuffer

/-!
# The receive coroutine

{lit}`session::receive_op` as a machine.  Between two suspensions the coroutine runs
alone, one pass through its {lit}`for(;;)` loop at a time; at a suspension the
environment decides what comes next: octets and the result of a read, the result
of a control command the coroutine sends, the execution of a posted handler, or a
cancellation request.

Sending is left to the environment here.  {lit}`Smpp.Net.Session` connects the machine
to the sending operations.

Main results:

- Theorem {lit}`Receiver.move_of_step`: what a step can do, one case for each path
  through the coroutine.
-/

namespace Smpp

/-- The suspension points of {lit}`receive_op`, in the order of the source. -/
inductive Yield where
  | read
  | sendUnbind
  | sendEnquireLink
  | sendEnquireLinkResp
  | sendUnbindResp
  | post
deriving DecidableEq, Repr

/-- Where the coroutine is.  {lit}`undefined` stands for an exception that leaves the
coroutine and for a range that is not part of the buffer. -/
inductive Stage where
  | idle
  | running
  | suspended (yield : Yield)
  | undefined
deriving DecidableEq, Repr

/-- The data members of {lit}`receive_op`; the four members that
{lit}`deserialize_header` assigns are one header. -/
structure ReceiveOp where
  header : Header := {}
  needsMore : Bool := false
  needsPost : Bool := true
  pendingEnquireLink : Bool := false
deriving DecidableEq, Repr

/-- The receiving half of a session: its buffer and its receive operation. -/
structure Receiver (N : Nat) where
  receiveBuf : StaticFlatBuffer UInt8 N
  stage : Stage
  op : ReceiveOp
  cancellation : CancellationState

/-- What the environment can do to the coroutine; {lit}`iterate` lets it run one pass
through the loop. -/
inductive ReceiveEvent where
  | asyncReceive
  | iterate
  | readDone (ec : ErrorCode) (received : Octets)
  | sendDone (ec : ErrorCode)
  | postDone
  | cancel (type : CancellationType)
deriving DecidableEq, Repr

/-- What the coroutine shows: the region of a read, a frame that reaches one of the
branches with the buffered octets at that time, a command handed to
{lit}`async_send_command` with its number or a fresh one, a posted handler, a
{lit}`consume` with the buffered octets before and after, and a completion. -/
inductive ReceiveObs where
  | readSome (n : Nat)
  | dispatched (header : Header) (size : Nat)
  | sendCommand (commandId : CommandId) (sequenceNumber : Option UInt32)
  | posted
  | consumed (header : Header) (before after : Octets)
  | shutdownSocket
  | completed (completion : Completion)

namespace Receiver

variable {N : Nat}

/-! ## Parts of the coroutine -/

/-- The receiving half of a new session. -/
def new (N : Nat) : Receiver N where
  receiveBuf := .new UInt8 N
  stage := .idle
  op := {}
  cancellation := {}

/-- {lit}`BOOST_ASIO_CORO_YIELD`. -/
def suspend (r : Receiver N) (yield : Yield) : Receiver N :=
  { r with stage := .suspended yield }

/-- {lit}`self.complete(...)`. -/
def complete (r : Receiver N) : Receiver N :=
  { r with stage := .idle }

/-- {lit}`needs_more_ = true; continue;`. -/
def needMore (r : Receiver N) : Receiver N :=
  { r with op := { r.op with needsMore := true } }

/-- The header at the front of the buffer. -/
def frameHeader (r : Receiver N) : Header :=
  deserializeHeader r.receiveBuf.readable

/-- {lit}`std::tie(command_length_, ...) = detail::deserialize_header(...)`. -/
def scan (r : Receiver N) : Receiver N :=
  { r with op := { r.op with header := r.frameHeader } }

/-- {lit}`s_->receive_buf_.consume(command_length_)`. -/
def consume (r : Receiver N) : Receiver N :=
  { r with receiveBuf := r.receiveBuf.consume r.op.header.commandLength.toNat }

/-- What a {lit}`consume` shows. -/
def consumedObs (r : Receiver N) : ReceiveObs :=
  .consumed r.op.header r.receiveBuf.readable r.consume.receiveBuf.readable

/-- The start of a read: room is made for as much as the buffer can still hold. -/
def startRead (r : Receiver N) : Receiver N × List ReceiveObs :=
  match r.receiveBuf.prepare (r.receiveBuf.capacity - r.receiveBuf.size) with
  | .ok buf =>
      ({ receiveBuf := buf
         stage := .suspended .read
         op := { r.op with needsMore := false, needsPost := false }
         cancellation := .reset .enableTotal },
        [.readSome (r.receiveBuf.capacity - r.receiveBuf.size)])
  | .error _ => ({ r with stage := .undefined }, [])

/-- The frame at the front of the buffer becomes a PDU and the operation completes. -/
def deliver (r : Receiver N) : Receiver N × List ReceiveObs :=
  let commandLength := r.op.header.commandLength.toNat
  -- the span of the body ends where the frame ends and begins behind the header
  if commandLength < headerLength ∨ r.receiveBuf.size < commandLength then
    ({ r with stage := .undefined }, [])
  else
    let pdu := decodeFrame r.op.header.commandId (r.receiveBuf.readable.take commandLength)
    (r.consume.complete,
      [r.consumedObs,
        .completed ⟨.success, pdu, r.op.header.sequenceNumber, r.op.header.commandStatus⟩])

/-- The branches on {lit}`command_id_`. -/
def dispatch (r : Receiver N) : Receiver N × List ReceiveObs :=
  if r.op.header.commandId = .enquireLink then
    (r.suspend .sendEnquireLinkResp,
      [.sendCommand .enquireLinkResp (some r.op.header.sequenceNumber)])
  else if r.op.header.commandId = .enquireLinkResp then
    (r.consume, [r.consumedObs])
  else if r.op.header.commandId = .unbind then
    (r.suspend .sendUnbindResp, [.sendCommand .unbindResp (some r.op.header.sequenceNumber)])
  else if r.op.header.commandId = .unbindResp then
    (r.consume.complete,
      [.shutdownSocket, r.consumedObs, .completed { ec := .smpp .unbinded }])
  else if r.op.needsPost then
    (r.suspend .post, [.posted])
  else
    r.deliver

/-- One pass through the {lit}`for(;;)` loop. -/
def iterate (r : Receiver N) : Receiver N × List ReceiveObs :=
  if r.op.needsMore then
    r.startRead
  else if r.receiveBuf.size < headerLength then
    (r.needMore, [])
  else if r.receiveBuf.size < r.frameHeader.commandLength.toNat then
    (r.scan.needMore, [])
  else
    let (r', obs) := r.scan.dispatch
    (r', .dispatched r.frameHeader r.receiveBuf.size :: obs)

/-- The octets of a read are committed; any octet at all clears the pending
{lit}`enquire_link`. -/
def commit (r : Receiver N) (received : Octets) : Receiver N :=
  if received.length ≠ 0 then
    { r with
      receiveBuf := (r.receiveBuf.fill received).commit received.length
      op := { r.op with pendingEnquireLink := false } }
  else r

/-- The coroutine behind a read. -/
def readDone (r : Receiver N) (ec : ErrorCode) (received : Octets) :
    Receiver N × List ReceiveObs :=
  let r := r.commit received
  if ec = .operationAborted ∧ !r.cancellation.cancelled then
    if r.op.pendingEnquireLink then
      (r.suspend .sendUnbind, [.sendCommand .unbind none])
    else
      ({ r with op := { r.op with pendingEnquireLink := true } }.suspend .sendEnquireLink,
        [.sendCommand .enquireLink none])
  else if ec ≠ .success then
    (r.complete, [.completed { ec := ec }])
  else
    ({ r with stage := .running }, [])

/-- The coroutine behind a command it sent. -/
def sendDone (r : Receiver N) (yield : Yield) (ec : ErrorCode) :
    Option (Receiver N × List ReceiveObs) :=
  match yield with
  | .sendUnbind =>
      some (r.complete, [.shutdownSocket, .completed { ec := .smpp .enquireLinkTimeout }])
  | .sendEnquireLink =>
      if ec ≠ .success then some (r.complete, [.completed { ec := ec }])
      else some ({ r with stage := .running }, [])
  | .sendEnquireLinkResp =>
      -- the result of the response is not looked at
      some ({ r.consume with stage := .running }, [r.consumedObs])
  | .sendUnbindResp =>
      if ec ≠ .success then some (r.complete, [.completed { ec := ec }])
      else
        some (r.consume.complete,
          [.shutdownSocket, r.consumedObs, .completed { ec := .smpp .unbinded }])
  | .read | .post => none

/-! ## The machine -/

/-- One event; receive operations do not overlap, and a read returns no more than
its region holds. -/
def step (r : Receiver N) (event : ReceiveEvent) : Option (Receiver N × List ReceiveObs) :=
  match event, r.stage with
  | .asyncReceive, .idle => some ({ r with stage := .running, op := {}, cancellation := {} }, [])
  | .iterate, .running => some r.iterate
  | .readDone ec received, .suspended .read =>
      if received.length ≤ r.receiveBuf.room then some (r.readDone ec received) else none
  | .sendDone ec, .suspended yield => r.sendDone yield ec
  | .postDone, .suspended .post => some r.deliver
  | .cancel type, .suspended _ =>
      some ({ r with cancellation := r.cancellation.request type }, [])
  | _, _ => none

/-- The receive coroutine with a buffer of {lit}`N` octets. -/
def machine (N : Nat) : EventMachine (Receiver N) ReceiveEvent ReceiveObs where
  init := new N
  step := step

/-! ## What a step can do -/

/-- The frame at the front of the buffer has arrived in full. -/
def Whole (r : Receiver N) : Prop :=
  commandFraming.Whole r.receiveBuf.readable

/-- The identifiers of the frames that the session answers or swallows itself. -/
def control : List CommandId := [.enquireLink, .enquireLinkResp, .unbind, .unbindResp]

/-- No PDU type owns the identifier of a frame the session handles itself. -/
theorem commandId_notMem_control (t : PduType) : t.commandId ∉ control := by
  cases t <;> decide

theorem whole_iff (r : Receiver N) :
    r.Whole ↔ headerLength ≤ r.receiveBuf.size ∧
      r.frameHeader.commandLength.toNat ≤ r.receiveBuf.size := by
  rw [← StaticFlatBuffer.length_readable]
  exact Iff.rfl

/-- What delivering the frame at the front does. -/
inductive Deliver (r : Receiver N) : Receiver N → List ReceiveObs → Prop
  | undefined (hrange : r.op.header.commandLength.toNat < headerLength ∨
        r.receiveBuf.size < r.op.header.commandLength.toNat) :
      Deliver r { r with stage := .undefined } []
  | completed (hheader : headerLength ≤ r.op.header.commandLength.toNat)
      (hsize : r.op.header.commandLength.toNat ≤ r.receiveBuf.size) :
      Deliver r r.consume.complete
        [r.consumedObs,
          .completed
            { ec := .success
              pdu := decodeFrame r.op.header.commandId
                (r.receiveBuf.readable.take r.op.header.commandLength.toNat)
              sequenceNumber := r.op.header.sequenceNumber
              commandStatus := r.op.header.commandStatus }]

/-- What a branch on the command identifier does. -/
inductive Dispatch (r : Receiver N) : Receiver N → List ReceiveObs → Prop
  | enquireLink (hid : r.op.header.commandId = .enquireLink) :
      Dispatch r (r.suspend .sendEnquireLinkResp)
        [.sendCommand .enquireLinkResp (some r.op.header.sequenceNumber)]
  | enquireLinkResp (hid : r.op.header.commandId = .enquireLinkResp) :
      Dispatch r r.consume [r.consumedObs]
  | unbind (hid : r.op.header.commandId = .unbind) :
      Dispatch r (r.suspend .sendUnbindResp)
        [.sendCommand .unbindResp (some r.op.header.sequenceNumber)]
  | unbindResp (hid : r.op.header.commandId = .unbindResp) :
      Dispatch r r.consume.complete
        [.shutdownSocket, r.consumedObs, .completed { ec := .smpp .unbinded }]
  | post (hid : r.op.header.commandId ∉ control) (hneeds : r.op.needsPost = true) :
      Dispatch r (r.suspend .post) [.posted]
  | deliver (hid : r.op.header.commandId ∉ control) (hneeds : r.op.needsPost = false)
      {r' : Receiver N} {obs : List ReceiveObs} (hdeliver : Deliver r r' obs) :
      Dispatch r r' obs

/-- What the coroutine does behind a suspension. -/
inductive Resume (r : Receiver N) : ReceiveEvent → Receiver N → List ReceiveObs → Prop
  | readTimeoutAgain {received : Octets} (hstage : r.stage = .suspended .read)
      (hroom : received.length ≤ r.receiveBuf.room)
      (hcancelled : r.cancellation.cancelled = false)
      (hpending : (r.commit received).op.pendingEnquireLink = true) :
      Resume r (.readDone .operationAborted received)
        ((r.commit received).suspend .sendUnbind) [.sendCommand .unbind none]
  | readTimeout {received : Octets} (hstage : r.stage = .suspended .read)
      (hroom : received.length ≤ r.receiveBuf.room)
      (hcancelled : r.cancellation.cancelled = false)
      (hpending : (r.commit received).op.pendingEnquireLink = false) :
      Resume r (.readDone .operationAborted received)
        ({ r.commit received with
          op := { (r.commit received).op with pendingEnquireLink := true } }.suspend
            .sendEnquireLink)
        [.sendCommand .enquireLink none]
  | readError {ec : ErrorCode} {received : Octets} (hstage : r.stage = .suspended .read)
      (hroom : received.length ≤ r.receiveBuf.room) (herror : ec ≠ .success)
      (hcancelled : ec = .operationAborted → r.cancellation.cancelled = true) :
      Resume r (.readDone ec received) (r.commit received).complete [.completed { ec := ec }]
  | read {received : Octets} (hstage : r.stage = .suspended .read)
      (hroom : received.length ≤ r.receiveBuf.room) :
      Resume r (.readDone .success received) { r.commit received with stage := .running } []
  | unbindSent {ec : ErrorCode} (hstage : r.stage = .suspended .sendUnbind) :
      Resume r (.sendDone ec) r.complete
        [.shutdownSocket, .completed { ec := .smpp .enquireLinkTimeout }]
  | sendError {ec : ErrorCode} (hstage : r.stage = .suspended .sendEnquireLink ∨
        r.stage = .suspended .sendUnbindResp) (herror : ec ≠ .success) :
      Resume r (.sendDone ec) r.complete [.completed { ec := ec }]
  | enquireLinkSent (hstage : r.stage = .suspended .sendEnquireLink) :
      Resume r (.sendDone .success) { r with stage := .running } []
  | enquireLinkRespSent {ec : ErrorCode} (hstage : r.stage = .suspended .sendEnquireLinkResp) :
      Resume r (.sendDone ec) { r.consume with stage := .running } [r.consumedObs]
  | unbindRespSent (hstage : r.stage = .suspended .sendUnbindResp) :
      Resume r (.sendDone .success) r.consume.complete
        [.shutdownSocket, r.consumedObs, .completed { ec := .smpp .unbinded }]
  | posted (hstage : r.stage = .suspended .post) {r' : Receiver N} {obs : List ReceiveObs}
      (hdeliver : Deliver r r' obs) : Resume r .postDone r' obs
  | cancel {type : CancellationType} {yield : Yield} (hstage : r.stage = .suspended yield) :
      Resume r (.cancel type) { r with cancellation := r.cancellation.request type } []

/-- What a step does: an operation starts, the loop runs once, or the coroutine
comes back from a suspension. -/
inductive Move (r : Receiver N) : ReceiveEvent → Receiver N → List ReceiveObs → Prop
  | asyncReceive (hstage : r.stage = .idle) :
      Move r .asyncReceive { r with stage := .running, op := {}, cancellation := {} } []
  | startRead (hstage : r.stage = .running) (hneeds : r.op.needsMore = true)
      {buf : StaticFlatBuffer UInt8 N} (hreadable : buf.readable = r.receiveBuf.readable)
      (hroom : buf.room = N - r.receiveBuf.size) :
      Move r .iterate
        { receiveBuf := buf
          stage := .suspended .read
          op := { r.op with needsMore := false, needsPost := false }
          cancellation := .reset .enableTotal }
        [.readSome (N - r.receiveBuf.size)]
  | incomplete (hstage : r.stage = .running) (hneeds : r.op.needsMore = false)
      (hwhole : ¬ r.Whole) (header : Header) :
      Move r .iterate { r with op := { r.op with header := header, needsMore := true } } []
  | dispatch (hstage : r.stage = .running) (hneeds : r.op.needsMore = false)
      (hwhole : r.Whole) {r' : Receiver N} {obs : List ReceiveObs}
      (hdispatch : Dispatch r.scan r' obs) :
      Move r .iterate r' (.dispatched r.frameHeader r.receiveBuf.size :: obs)
  | resume {event : ReceiveEvent} {r' : Receiver N} {obs : List ReceiveObs}
      (hresume : Resume r event r' obs) : Move r event r' obs

/-- A delivery shows the frame it takes and a successful completion, if anything. -/
theorem Deliver.not_mem {r r' : Receiver N} {obs : List ReceiveObs} {o : ReceiveObs}
    (hdeliver : Deliver r r' obs)
    (hconsumed : ∀ header before after, o ≠ .consumed header before after)
    (hcompleted : ∀ completion, o = .completed completion → completion.ec ≠ .success) :
    o ∉ obs := by
  cases hdeliver with
  | undefined hrange => exact List.not_mem_nil
  | completed hheader hsize =>
      rw [List.mem_pair]
      rintro (hobs | hobs)
      · exact hconsumed _ _ _ hobs
      · exact hcompleted _ hobs rfl

theorem deliver_deliver (r : Receiver N) : Deliver r r.deliver.1 r.deliver.2 := by
  unfold deliver
  dsimp only
  split
  · rename_i hrange
    exact .undefined hrange
  · rename_i hrange
    rw [not_or, Nat.not_lt, Nat.not_lt] at hrange
    exact .completed hrange.1 hrange.2

theorem dispatch_dispatch (r : Receiver N) : Dispatch r r.dispatch.1 r.dispatch.2 := by
  unfold dispatch
  split
  · rename_i hid
    exact .enquireLink hid
  split
  · rename_i hid
    exact .enquireLinkResp hid
  split
  · rename_i hid
    exact .unbind hid
  split
  · rename_i hid
    exact .unbindResp hid
  rename_i h₁ h₂ h₃ h₄
  have hid : r.op.header.commandId ∉ control := by simp [control, h₁, h₂, h₃, h₄]
  split
  · rename_i hneeds
    exact .post hid hneeds
  · rename_i hneeds
    exact .deliver hid (by simpa using hneeds) (deliver_deliver r)

/-- One pass through the loop reads, asks for more, or dispatches a whole frame. -/
theorem move_iterate {r : Receiver N} (hstage : r.stage = .running) :
    Move r .iterate r.iterate.1 r.iterate.2 := by
  unfold iterate
  split
  · rename_i hneeds
    obtain ⟨buf, hprepare, hreadable, hroom⟩ :=
      r.receiveBuf.prepare_isOk (n := N - r.receiveBuf.size) (Nat.le_refl _)
    simp only [startRead, StaticFlatBuffer.capacity, hprepare]
    exact .startRead hstage hneeds hreadable hroom
  rename_i hneeds
  rw [Bool.not_eq_true] at hneeds
  split
  · rename_i hshort
    exact .incomplete hstage hneeds (fun hwhole => by have := r.whole_iff.mp hwhole; omega) _
  rename_i hheader
  split
  · rename_i hshort
    exact .incomplete hstage hneeds (fun hwhole => by have := r.whole_iff.mp hwhole; omega)
      r.frameHeader
  · rename_i hlong
    exact .dispatch hstage hneeds (r.whole_iff.mpr ⟨by omega, by omega⟩)
      (dispatch_dispatch r.scan)

theorem resume_readDone {r : Receiver N} (hstage : r.stage = .suspended .read)
    {received : Octets} (hroom : received.length ≤ r.receiveBuf.room) (ec : ErrorCode) :
    Resume r (.readDone ec received) (r.readDone ec received).1 (r.readDone ec received).2 := by
  have hcancellation : (r.commit received).cancellation = r.cancellation := by
    unfold commit
    split <;> rfl
  unfold readDone
  dsimp only
  split
  · rename_i htimeout
    rw [hcancellation, Bool.not_eq_true'] at htimeout
    rcases htimeout with ⟨rfl, hcancelled⟩
    split
    · rename_i hpending
      exact .readTimeoutAgain hstage hroom hcancelled hpending
    · rename_i hpending
      exact .readTimeout hstage hroom hcancelled (by simpa using hpending)
  rename_i htimeout
  rw [hcancellation] at htimeout
  split
  · rename_i herror
    refine .readError hstage hroom herror fun haborted => ?_
    simpa [haborted] using htimeout
  · rename_i hok
    rw [ne_eq, not_not] at hok
    subst hok
    exact .read hstage hroom

theorem resume_sendDone {r r' : Receiver N} {yield : Yield} {ec : ErrorCode}
    {obs : List ReceiveObs} (hstage : r.stage = .suspended yield)
    (hsend : r.sendDone yield ec = some (r', obs)) : Resume r (.sendDone ec) r' obs := by
  cases yield with
  | read | post => cases hsend
  | sendUnbind =>
      cases hsend
      exact .unbindSent hstage
  | sendEnquireLink =>
      simp only [sendDone] at hsend
      split at hsend
      · rename_i herror
        cases hsend
        exact .sendError (Or.inl hstage) herror
      · rename_i hok
        rw [ne_eq, not_not] at hok
        subst hok
        cases hsend
        exact .enquireLinkSent hstage
  | sendEnquireLinkResp =>
      cases hsend
      exact .enquireLinkRespSent hstage
  | sendUnbindResp =>
      simp only [sendDone] at hsend
      split at hsend
      · rename_i herror
        cases hsend
        exact .sendError (Or.inr hstage) herror
      · rename_i hok
        rw [ne_eq, not_not] at hok
        subst hok
        cases hsend
        exact .unbindRespSent hstage

/-- Everything a step can do. -/
theorem move_of_step {r r' : Receiver N} {event : ReceiveEvent} {obs : List ReceiveObs}
    (hstep : r.step event = some (r', obs)) : Move r event r' obs := by
  unfold step at hstep
  split at hstep
  · rename_i hstage
    cases hstep
    exact .asyncReceive hstage
  · rename_i hstage
    injection hstep with hpair
    have hmove := move_iterate hstage
    rwa [hpair] at hmove
  · rename_i ec received hstage
    split at hstep
    · rename_i hroom
      injection hstep with hpair
      have hresume := resume_readDone hstage hroom ec
      rw [hpair] at hresume
      exact .resume hresume
    · cases hstep
  · rename_i ec yield hstage
    exact .resume (resume_sendDone hstage hstep)
  · rename_i hstage
    injection hstep with hpair
    have hdeliver := deliver_deliver r
    rw [hpair] at hdeliver
    exact .resume (.posted hstage hdeliver)
  · rename_i type yield hstage
    cases hstep
    exact .resume (.cancel hstage)
  · cases hstep

end Receiver

end Smpp
