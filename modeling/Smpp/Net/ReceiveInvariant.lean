import Smpp.Net.ReceiveOp

/-!
# The receive coroutine and the stream of its peer

What is known of the coroutine at every suspension, and how its buffer relates to
the octets it was given.  Nothing is assumed about the peer.

Main results:

- Theorem {lit}`Receiver.inv_of_run`: at a suspension inside a branch the buffer still
  starts with the frame that chose the branch, and while the coroutine waits for
  octets the frame at the front is incomplete.
- Theorem {lit}`Receiver.aligned_of_run`: the buffer always starts at a frame boundary
  of the stream.
-/

namespace Smpp

/-- The octets an event hands to the coroutine. -/
def ReceiveEvent.octets : ReceiveEvent → Octets
  | .readDone _ received => received
  | .asyncReceive | .iterate | .sendDone _ | .postDone | .cancel _ => []

/-- The octets received so far. -/
def received (es : List ReceiveEvent) : Octets :=
  es.flatMap ReceiveEvent.octets

@[simp]
theorem received_nil : received [] = [] :=
  rfl

@[simp]
theorem received_concat (es : List ReceiveEvent) (e : ReceiveEvent) :
    received (es ++ [e]) = received es ++ e.octets := by
  simp [received]

namespace Receiver

variable {N : Nat} {r r' : Receiver N} {event : ReceiveEvent} {obs : List ReceiveObs}

/-! ## The readable octets -/

/-- A committed read appends what it received. -/
theorem readable_commit {received : Octets} (hroom : received.length ≤ r.receiveBuf.room) :
    (r.commit received).receiveBuf.readable = r.receiveBuf.readable ++ received := by
  unfold commit
  split
  · exact r.receiveBuf.readable_commit_fill hroom
  · rename_i hempty
    rw [ne_eq, not_not, List.length_eq_zero_iff] at hempty
    simp [hempty]

@[simp]
theorem needsMore_commit (received : Octets) :
    (r.commit received).op.needsMore = r.op.needsMore := by
  unfold commit
  split <;> rfl

theorem readable_consume : r.consume.receiveBuf.readable =
    r.receiveBuf.readable.drop r.op.header.commandLength.toNat := by
  simp [consume]

/-! ## The state at a suspension -/

/-- The buffer starts with a whole frame, the data members describe its header, and
its identifier satisfies {lit}`P`. -/
structure Held (r : Receiver N) (P : CommandId → Prop) : Prop where
  needsMore : r.op.needsMore = false
  whole : r.Whole
  header : r.op.header = r.frameHeader
  commandId : P r.op.header.commandId

/-- What is known of the coroutine, by where it is. -/
def Inv (r : Receiver N) : Prop :=
  match r.stage with
  | .idle | .undefined => True
  | .running => r.op.needsMore = true → ¬ r.Whole
  | .suspended .read =>
      r.op.needsMore = false ∧ ¬ r.Whole ∧ r.receiveBuf.room = N - r.receiveBuf.size
  | .suspended .sendUnbind | .suspended .sendEnquireLink => r.op.needsMore = false
  | .suspended .sendEnquireLinkResp => r.Held (· = .enquireLink)
  | .suspended .sendUnbindResp => r.Held (· = .unbind)
  | .suspended .post => r.Held (· ∉ control)

/-- A frame that is dispatched is held. -/
theorem held_scan (P : CommandId → Prop) (hneeds : r.op.needsMore = false) (hwhole : r.Whole)
    (hid : P r.scan.op.header.commandId) : r.scan.Held P where
  needsMore := hneeds
  whole := hwhole
  header := rfl
  commandId := hid

/-- Suspending keeps the held frame. -/
theorem Held.suspend {P : CommandId → Prop} (hheld : r.Held P) (yield : Yield) :
    (r.suspend yield).Held P :=
  ⟨hheld.needsMore, hheld.whole, hheld.header, hheld.commandId⟩

theorem inv_deliver (hdeliver : Deliver r r' obs) : r'.Inv := by
  cases hdeliver with
  | undefined hrange => trivial
  | completed hheader hsize => trivial

/-- Every step keeps the invariant. -/
theorem inv_move (hmove : Move r event r' obs) (hinv : r.Inv) : r'.Inv := by
  cases hmove with
  | asyncReceive hstage => exact fun hneeds => absurd hneeds (by simp)
  | startRead hstage hneeds hreadable hroom =>
      have hwhole : ¬ r.Whole := by
        simp only [Inv, hstage] at hinv
        exact hinv hneeds
      refine ⟨rfl, by simpa [Whole, hreadable] using hwhole, ?_⟩
      rw [hroom, ← StaticFlatBuffer.length_readable, ← StaticFlatBuffer.length_readable,
        hreadable]
  | incomplete hstage hneeds hwhole header =>
      simp only [Inv, hstage]
      exact fun _ => hwhole
  | dispatch hstage hneeds hwhole hdispatch =>
      cases hdispatch with
      | enquireLink hid => exact (held_scan (· = .enquireLink) hneeds hwhole hid).suspend _
      | enquireLinkResp hid =>
          have hrunning : r.scan.consume.stage = .running := hstage
          simp only [Inv, hrunning]
          exact fun hmore => absurd hmore (by simp [consume, scan, hneeds])
      | unbind hid => exact (held_scan (· = .unbind) hneeds hwhole hid).suspend _
      | unbindResp hid => trivial
      | post hid hpost => exact (held_scan (· ∉ control) hneeds hwhole hid).suspend _
      | deliver hid hpost hdeliver => exact inv_deliver hdeliver
  | resume hresume =>
      cases hresume with
      | readTimeoutAgain hstage hroom hcancelled hpending =>
          simp only [Inv, hstage] at hinv
          simpa [Inv, suspend] using hinv.1
      | readTimeout hstage hroom hcancelled hpending =>
          simp only [Inv, hstage] at hinv
          simpa [Inv, suspend] using hinv.1
      | readError hstage hroom herror hcancelled => trivial
      | read hstage hroom =>
          simp only [Inv, hstage] at hinv
          exact fun hmore => absurd hmore (by simp [hinv.1])
      | unbindSent hstage => trivial
      | sendError hstage herror => trivial
      | enquireLinkSent hstage =>
          simp only [Inv, hstage] at hinv
          exact fun hmore => absurd hmore (by simp [hinv])
      | enquireLinkRespSent hstage =>
          simp only [Inv, hstage] at hinv
          exact fun hmore => absurd hmore (by simp [consume, hinv.needsMore])
      | unbindRespSent hstage => trivial
      | posted hstage hdeliver => exact inv_deliver hdeliver
      | @cancel type yield hstage =>
          cases yield <;> simp only [Inv, hstage] at hinv ⊢
          case read | sendUnbind | sendEnquireLink => exact hinv
          case sendEnquireLinkResp | sendUnbindResp | post =>
            exact ⟨hinv.needsMore, hinv.whole, hinv.header, hinv.commandId⟩

/-- The invariant holds in every reachable state. -/
theorem inv_of_run {es : List ReceiveEvent}
    (hrun : (machine N).Run EventMachine.anyStep es obs r) : r.Inv :=
  hrun.invariant (fun _ _ r => r.Inv) trivial
    fun _ _ _ _ _ _ hinv hstep _ => inv_move (move_of_step hstep) hinv

/-! ## Frame boundaries -/

/-- The buffer starts at a frame boundary of the stream. -/
def Aligned (stream : Octets) (r : Receiver N) : Prop :=
  commandFraming.Boundary stream r.receiveBuf.readable

/-- Consuming a held frame moves to the next boundary. -/
theorem Held.aligned_consume {P : CommandId → Prop} {stream : Octets} (hheld : r.Held P)
    (haligned : Aligned stream r) : Aligned stream r.consume := by
  have hhop := haligned.hop hheld.whole.1 hheld.whole.2
  rw [Aligned, readable_consume, hheld.header]
  exact hhop

theorem aligned_deliver {P : CommandId → Prop} {stream : Octets} (hheld : r.Held P)
    (haligned : Aligned stream r) (hdeliver : Deliver r r' obs) : Aligned stream r' := by
  cases hdeliver with
  | undefined hrange => exact haligned
  | completed hheader hsize => exact hheld.aligned_consume haligned

theorem aligned_commit {stream received : Octets}
    (hroom : received.length ≤ r.receiveBuf.room) (haligned : Aligned stream r) :
    commandFraming.Boundary (stream ++ received) (r.commit received).receiveBuf.readable := by
  rw [readable_commit hroom]
  exact haligned.append received

/-- Every step keeps the alignment with what was received. -/
theorem aligned_move {stream : Octets} (hmove : Move r event r' obs) (hinv : r.Inv)
    (haligned : Aligned stream r) : Aligned (stream ++ event.octets) r' := by
  have hsame : Aligned (stream ++ []) r := by rwa [List.append_nil]
  cases hmove with
  | asyncReceive hstage => exact hsame
  | startRead hstage hneeds hreadable hroom =>
      rw [ReceiveEvent.octets, Aligned, hreadable]
      exact hsame
  | incomplete hstage hneeds hwhole header => exact hsame
  | dispatch hstage hneeds hwhole hdispatch =>
      have hheld : r.scan.Held fun _ => True := held_scan _ hneeds hwhole trivial
      have hscan : Aligned stream r.scan := haligned
      rw [ReceiveEvent.octets, List.append_nil]
      cases hdispatch with
      | enquireLink hid | unbind hid | post hid hpost => exact haligned
      | enquireLinkResp hid | unbindResp hid => exact hheld.aligned_consume hscan
      | deliver hid hpost hdeliver => exact aligned_deliver hheld hscan hdeliver
  | resume hresume =>
      cases hresume with
      | readTimeoutAgain hstage hroom | readTimeout hstage hroom | readError hstage hroom
      | read hstage hroom => exact aligned_commit hroom haligned
      | unbindSent hstage | sendError hstage herror | enquireLinkSent hstage
      | cancel hstage => exact hsame
      | enquireLinkRespSent hstage | unbindRespSent hstage =>
          simp only [Inv, hstage] at hinv
          rw [ReceiveEvent.octets, List.append_nil]
          exact hinv.aligned_consume haligned
      | posted hstage hdeliver =>
          simp only [Inv, hstage] at hinv
          rw [ReceiveEvent.octets, List.append_nil]
          exact aligned_deliver hinv haligned hdeliver

/-- In every reachable state the buffer starts at a frame boundary. -/
theorem aligned_of_run {es : List ReceiveEvent}
    (hrun : (machine N).Run EventMachine.anyStep es obs r) :
    r.Inv ∧ Aligned (received es) r := by
  refine hrun.invariant (fun es _ r => r.Inv ∧ Aligned (received es) r) ⟨trivial, ?_⟩ ?_
  · have hempty : (new N).receiveBuf.readable = [] := StaticFlatBuffer.readable_new
    rw [Aligned, machine, hempty]
    exact .start
  · intro es os r e r' o ⟨hinv, haligned⟩ hstep _
    have hmove := move_of_step hstep
    rw [received_concat]
    exact ⟨inv_move hmove hinv, aligned_move hmove hinv haligned⟩

/-! ## Segments of runs -/

theorem step_iterate (hstage : r.stage = .running) :
    (machine N).step r .iterate = some (r.iterate.1, r.iterate.2) := by
  simp only [machine, step, hstage]

/-- Without a whole frame the loop asks for more and starts a read. -/
theorem steps_startRead (hstage : r.stage = .running) (hneeds : r.op.needsMore = false)
    (hwhole : ¬ r.Whole) :
    ∃ r', (machine N).Steps EventMachine.anyStep r [.iterate, .iterate]
        [.readSome (N - r.receiveBuf.size)] r' ∧
      r'.stage = .suspended .read ∧ r'.op.needsPost = false ∧ r'.op.needsMore = false ∧
      r'.receiveBuf.readable = r.receiveBuf.readable ∧
      r'.receiveBuf.room = N - r.receiveBuf.size := by
  have hfirst := move_iterate hstage
  have hstep := step_iterate hstage
  generalize r.iterate.1 = r₁ at hfirst hstep
  generalize r.iterate.2 = obs₁ at hfirst hstep
  cases hfirst with
  | startRead _ hmore => simp [hneeds] at hmore
  | dispatch _ _ harrived => exact absurd harrived hwhole
  | resume hresume => cases hresume
  | incomplete _ _ _ header =>
      have hsecond := move_iterate (r := { r with
        op := { r.op with header := header, needsMore := true } }) hstage
      have hstep' := step_iterate (r := { r with
        op := { r.op with header := header, needsMore := true } }) hstage
      generalize (iterate _).1 = r₂ at hsecond hstep'
      generalize (iterate _).2 = obs₂ at hsecond hstep'
      cases hsecond with
      | incomplete _ hmore | dispatch _ hmore => simp at hmore
      | resume hresume => cases hresume
      | startRead _ _ hreadable hroom =>
          exact ⟨_, (EventMachine.Steps.single hstep trivial).trans
            (EventMachine.Steps.single hstep' trivial), rfl, rfl, rfl, hreadable, hroom⟩

/-- A successful read hands its octets to the loop. -/
theorem steps_readDone (hstage : r.stage = .suspended .read) (received : Octets)
    (hroom : received.length ≤ r.receiveBuf.room) :
    (machine N).Steps EventMachine.anyStep r [.readDone .success received] []
      { r.commit received with stage := .running } := by
  refine EventMachine.Steps.single ?_ trivial
  simp [machine, step, hstage, hroom, readDone]

/-- The first read of a session hands its octets to the loop. -/
theorem run_firstRead (received : Octets) (hroom : received.length ≤ N) :
    ∃ r, (machine N).Run EventMachine.anyStep
        [.asyncReceive, .iterate, .iterate, .readDone .success received] [.readSome N] r ∧
      r.stage = .running ∧ r.op.needsPost = false ∧ r.op.needsMore = false ∧
      r.receiveBuf.readable = received := by
  have hempty : (new N).receiveBuf.readable = [] := StaticFlatBuffer.readable_new
  have hsize : (new N).receiveBuf.size = 0 := by
    rw [← StaticFlatBuffer.length_readable, hempty]
    rfl
  have hstart : (machine N).Run EventMachine.anyStep [.asyncReceive] []
      { new N with stage := .running } :=
    EventMachine.Steps.single rfl trivial
  have hwhole : ¬ ({ new N with stage := .running } : Receiver N).Whole := by
    rw [whole_iff]
    simp [hsize, headerLength]
  obtain ⟨r, hread, hstage, hpost, hneeds, hreadable, hroom'⟩ :=
    steps_startRead (r := { new N with stage := .running }) rfl rfl hwhole
  rw [hsize, Nat.sub_zero] at hread hroom'
  refine ⟨_, (hstart.trans hread).trans (steps_readDone hstage received (by omega)),
    rfl, ?_, ?_, ?_⟩
  · unfold commit
    split <;> exact hpost
  · rw [needsMore_commit, hneeds]
  · rw [readable_commit (by omega), hreadable, hempty, List.nil_append]

end Receiver

end Smpp
