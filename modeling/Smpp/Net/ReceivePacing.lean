import Smpp.Library.History
import Smpp.Net.ReceiveInvariant

/-!
# What a receive operation does of its own accord

{lit}`receive_op` asks a silent peer for a sign of life, and it posts itself before it completes
with a PDU that was in the buffer already, so that handlers which receive again do not nest.

Main results:

- Theorem {lit}`Receiver.enquiries_le`: in every run there are no more {lit}`enquire_link`s than
  calls and reads with octets, and no more {lit}`unbind`s than calls.
- Theorem {lit}`Receiver.completes_inline_iff`: an operation completes inside the function that
  initiates it in one case only.

Current gaps:

- An {lit}`unbind_resp` in front of the buffer completes the operation without a post.
-/

namespace Smpp

namespace Receiver

variable {N : Nat} {r r' : Receiver N} {event : ReceiveEvent} {obs : List ReceiveObs}
variable {es : List ReceiveEvent} {os : List ReceiveObs}

/-! ## Asking for a sign of life -/

/-- How many commands of this kind the coroutine has sent. -/
def asks (commandId : CommandId) (os : List ReceiveObs) : Nat :=
  os.countP fun
    | .sendCommand other _ => other = commandId
    | .readSome _ | .dispatched _ _ | .posted | .consumed _ _ _ | .shutdownSocket
    | .completed _ => false

/-- How many receive operations were initiated. -/
def calls (es : List ReceiveEvent) : Nat :=
  es.countP (· = .asyncReceive)

/-- How many reads brought octets. -/
def arrivals (es : List ReceiveEvent) : Nat :=
  es.countP (·.octets ≠ [])

@[simp]
theorem asks_append (commandId : CommandId) (os os' : List ReceiveObs) :
    asks commandId (os ++ os') = asks commandId os + asks commandId os' :=
  List.countP_append

@[simp]
theorem calls_append (es es' : List ReceiveEvent) : calls (es ++ es') = calls es + calls es' :=
  List.countP_append

@[simp]
theorem arrivals_append (es es' : List ReceiveEvent) :
    arrivals (es ++ es') = arrivals es + arrivals es' :=
  List.countP_append

/-- The next timeout of a read is answered with an {lit}`enquire_link`. -/
def MayEnquire (r : Receiver N) : Prop :=
  r.stage ≠ .idle ∧ r.op.pendingEnquireLink = false

/-- The operation has not given its peer up yet. -/
def MayGiveUp (r : Receiver N) : Prop :=
  r.stage ≠ .idle ∧ r.stage ≠ .suspended .sendUnbind

instance (r : Receiver N) : Decidable r.MayEnquire := inferInstanceAs (Decidable (_ ∧ _))

instance (r : Receiver N) : Decidable r.MayGiveUp := inferInstanceAs (Decidable (_ ∧ _))

/-- A delivery asks for nothing and ends the operation, unless it leaves the buffer. -/
theorem asks_of_deliver {commandId : CommandId} (hdeliver : Deliver r r' obs) :
    asks commandId obs = 0 ∧ (r'.MayEnquire → r.op.pendingEnquireLink = false) := by
  cases hdeliver with
  | undefined hrange => exact ⟨rfl, And.right⟩
  | completed hheader hsize => exact ⟨rfl, fun hmay => absurd rfl hmay.1⟩

/-- A read without octets leaves the flag alone. -/
theorem arrivals_readDone (ec : ErrorCode) (received : Octets) :
    arrivals [.readDone ec received] = if received = [] then 0 else 1 := by
  by_cases hempty : received = []
  · simp [arrivals, ReceiveEvent.octets, hempty]
  · simp [arrivals, ReceiveEvent.octets, hempty]

/-- An {lit}`enquire_link` uses up a call or a read with octets. -/
theorem enquiries_move (hmove : Move r event r' obs) :
    asks .enquireLink obs + (if r'.MayEnquire then 1 else 0) ≤
      calls [event] + arrivals [event] + if r.MayEnquire then 1 else 0 := by
  have hquiet : asks .enquireLink obs = 0 → (r'.MayEnquire → r.MayEnquire) →
      asks .enquireLink obs + (if r'.MayEnquire then 1 else 0) ≤
        calls [event] + arrivals [event] + if r.MayEnquire then 1 else 0 := by
    intro hnone hkeep
    by_cases hmay : r'.MayEnquire
    · simp [hnone, hmay, hkeep hmay]
    · simp [hnone, hmay]
  cases hmove with
  | asyncReceive hstage =>
      have hcall : calls [.asyncReceive] = 1 := rfl
      simp only [asks, List.countP_nil, hcall]
      split <;> omega
  | startRead hstage hneeds hreadable hroom =>
      exact hquiet rfl fun hmay => ⟨by simp [hstage], hmay.2⟩
  | incomplete hstage hneeds hwhole header => exact hquiet rfl id
  | dispatch hstage hneeds hwhole hdispatch =>
      have hbusy : r.stage ≠ .idle := by simp [hstage]
      cases hdispatch with
      | enquireLink hid | unbind hid | enquireLinkResp hid | post hid hneeds =>
          exact hquiet rfl fun hmay => ⟨hbusy, hmay.2⟩
      | unbindResp hid => exact hquiet rfl fun hmay => absurd rfl hmay.1
      | deliver hid hneeds hdeliver =>
          rcases asks_of_deliver hdeliver with ⟨hnone, hmay⟩
          exact hquiet hnone fun hmay' => ⟨hbusy, hmay hmay'⟩
  | resume hresume =>
      cases hresume with
      | readTimeoutAgain hstage hroom hcancelled hpending =>
          exact hquiet rfl fun hmay => by simp [suspend, MayEnquire, hpending] at hmay
      | @readTimeout received hstage hroom hcancelled hpending =>
          have hasks : asks .enquireLink [.sendCommand .enquireLink none] = 1 := rfl
          rw [hasks, arrivals_readDone, if_neg fun hmay => Bool.noConfusion hmay.2]
          by_cases hempty : received = []
          · have hmay : r.MayEnquire := ⟨by simp [hstage], by simpa [hempty, commit] using hpending⟩
            rw [if_pos hmay]
            omega
          · rw [if_neg hempty]
            omega
      | readError | unbindSent | sendError | unbindRespSent =>
          exact hquiet rfl fun hmay => absurd rfl hmay.1
      | @read received hstage hroom =>
          by_cases hempty : received = []
          · refine hquiet rfl fun hmay => ⟨by simp [hstage], ?_⟩
            simpa [hempty, commit] using hmay.2
          · have hasks : asks .enquireLink [] = 0 := rfl
            rw [hasks, arrivals_readDone, if_neg hempty]
            split <;> omega
      | enquireLinkSent hstage | enquireLinkRespSent hstage =>
          exact hquiet rfl fun hmay => ⟨by simp [hstage], hmay.2⟩
      | posted hstage hdeliver =>
          rcases asks_of_deliver hdeliver with ⟨hnone, hmay⟩
          exact hquiet hnone fun hmay' => ⟨by simp [hstage], hmay hmay'⟩
      | cancel hstage => exact hquiet rfl id

/-- An {lit}`unbind` uses up a call. -/
theorem unbinds_move (hmove : Move r event r' obs) :
    asks .unbind obs + (if r'.MayGiveUp then 1 else 0) ≤
      calls [event] + if r.MayGiveUp then 1 else 0 := by
  have hquiet : asks .unbind obs = 0 → (r'.MayGiveUp → r.MayGiveUp) →
      asks .unbind obs + (if r'.MayGiveUp then 1 else 0) ≤
        calls [event] + if r.MayGiveUp then 1 else 0 := by
    intro hnone hkeep
    by_cases hmay : r'.MayGiveUp
    · simp [hnone, hmay, hkeep hmay]
    · simp [hnone, hmay]
  have hbusy : ∀ stage, r.stage = stage → stage ≠ .idle → stage ≠ .suspended .sendUnbind →
      r.MayGiveUp := by
    rintro stage rfl hidle hsending
    exact ⟨hidle, hsending⟩
  cases hmove with
  | asyncReceive hstage =>
      have hcall : calls [.asyncReceive] = 1 := rfl
      simp only [asks, List.countP_nil, hcall]
      split <;> omega
  | startRead hstage | incomplete hstage => exact hquiet rfl fun _ => hbusy _ hstage (by simp) (by simp)
  | dispatch hstage hneeds hwhole hdispatch =>
      have hmay := hbusy _ hstage (by simp) (by simp)
      cases hdispatch with
      | enquireLink hid | unbind hid | enquireLinkResp hid | post hid hneeds | unbindResp hid =>
          exact hquiet rfl fun _ => hmay
      | deliver hid hneeds hdeliver => exact hquiet (asks_of_deliver hdeliver).1 fun _ => hmay
  | resume hresume =>
      cases hresume with
      | readTimeoutAgain hstage hroom hcancelled hpending =>
          have hasks : asks .unbind [.sendCommand .unbind none] = 1 := rfl
          have hmay := hbusy _ hstage (by simp) (by simp)
          rw [hasks, if_neg fun hmay' => hmay'.2 rfl, if_pos hmay]
          omega
      | readTimeout hstage | read hstage | enquireLinkSent hstage | enquireLinkRespSent hstage
      | readError hstage | unbindRespSent hstage =>
          exact hquiet rfl fun _ => hbusy _ hstage (by simp) (by simp)
      | unbindSent | sendError => exact hquiet rfl fun hmay => absurd rfl hmay.1
      | posted hstage hdeliver =>
          exact hquiet (asks_of_deliver hdeliver).1 fun _ => hbusy _ hstage (by simp) (by simp)
      | cancel hstage => exact hquiet rfl id

/-- In every run the coroutine sends no more {lit}`enquire_link`s than receive operations were
initiated and reads brought octets, and no more {lit}`unbind`s than receive operations were
initiated. -/
theorem enquiries_le (es : List ReceiveEvent) (os : List ReceiveObs) (r : Receiver N)
    (hrun : (machine N).Run EventMachine.anyStep es os r) :
    asks .enquireLink os ≤ calls es + arrivals es ∧ asks .unbind os ≤ calls es := by
  have hcount : asks .enquireLink os + (if r.MayEnquire then 1 else 0) ≤ calls es + arrivals es ∧
      asks .unbind os + (if r.MayGiveUp then 1 else 0) ≤ calls es := by
    induction hrun with
    | refl =>
        have hidle : ¬ (machine N).init.MayEnquire ∧ ¬ (machine N).init.MayGiveUp :=
          ⟨fun hmay => hmay.1 rfl, fun hmay => hmay.1 rfl⟩
        rw [if_neg hidle.1, if_neg hidle.2]
        exact ⟨Nat.zero_le _, Nat.zero_le _⟩
    | snoc before hstep _ ih =>
        have henquire := enquiries_move (move_of_step hstep)
        have hunbind := unbinds_move (move_of_step hstep)
        rw [asks_append, asks_append, calls_append, arrivals_append]
        omega
  omega

/-- A silent peer costs one {lit}`enquire_link` and one {lit}`unbind`. -/
theorem enquiries_le_silent :
    ∃ es os, ∃ r : Receiver 32, (machine 32).Run EventMachine.anyStep es os r ∧
      asks .enquireLink os = 1 ∧ asks .unbind os = 1 ∧
      (asks .enquireLink os ≤ calls es + arrivals es ∧ asks .unbind os ≤ calls es) := by
  have hrun := EventMachine.steps_of_exec (M := machine 32) (s := (machine 32).init)
    [.asyncReceive, .iterate, .iterate, .readDone .operationAborted [], .sendDone .success,
      .iterate, .iterate, .readDone .operationAborted [], .sendDone .success] rfl
  exact ⟨_, _, _, hrun, rfl, rfl, enquiries_le _ _ _ hrun⟩

/-! ## Completing inside the initiating function -/

/-- The operation has not been suspended since it was initiated: what happens next happens
inside the function that initiates it. -/
def Inline (past : List (Turn (Receiver N) ReceiveEvent ReceiveObs)) : Prop :=
  EventMachine.Since (fun u => ∀ yield, u.after.stage ≠ .suspended yield)
    (fun _ u => u.event = .asyncReceive) past

/-- Until its first suspension an operation would post itself. -/
theorem needsPost_of_inline {past : List (Turn (Receiver N) ReceiveEvent ReceiveObs)}
    (htraced : (machine N).Traced EventMachine.anyStep (machine N).init past r)
    (hinline : Inline past) : r.op.needsPost = true ∧ ∀ yield, r.stage ≠ .suspended yield := by
  induction htraced with
  | refl =>
      rcases hinline with ⟨past, u, later, heq, _⟩
      simp at heq
  | @snoc past s₁ s₂ e o before hstep hany ih =>
      rcases EventMachine.since_concat.mp hinline with hcall | ⟨hbefore, hstays⟩
      · obtain rfl : e = .asyncReceive := hcall
        have hmove := move_of_step hstep
        cases hmove with
        | asyncReceive hstage => exact ⟨rfl, by simp⟩
        | resume hresume => cases hresume
      · rcases ih hbefore with ⟨hposts, hrunning⟩
        refine ⟨?_, hstays⟩
        have hmove := move_of_step hstep
        cases hmove with
        | asyncReceive hstage => rfl
        | startRead hstage hneeds hreadable hroom => exact absurd rfl (hstays .read)
        | incomplete hstage hneeds hwhole header => exact hposts
        | dispatch hstage hneeds hwhole hdispatch =>
            cases hdispatch with
            | enquireLink hid | unbind hid | post hid hpost => exact absurd rfl (hstays _)
            | enquireLinkResp hid | unbindResp hid => exact hposts
            | deliver hid hpost hdeliver => exact absurd (hpost.symm.trans hposts) (by simp)
        | resume hresume =>
            cases hresume with
            | readTimeoutAgain hstage | readTimeout hstage | readError hstage | read hstage
            | unbindSent hstage | enquireLinkSent hstage | enquireLinkRespSent hstage
            | unbindRespSent hstage | posted hstage | cancel hstage =>
                exact absurd hstage (hrunning _)
            | sendError hstage =>
                rcases hstage with hstage | hstage <;> exact absurd hstage (hrunning _)

/-- In every run, an event completes an operation that has not been suspended since it was
initiated exactly when the loop comes to an {lit}`unbind_resp` in front of the buffer. -/
theorem completes_inline_iff (past : List (Turn (Receiver N) ReceiveEvent ReceiveObs))
    (r : Receiver N) (hpast : (machine N).Traced EventMachine.anyStep (machine N).init past r)
    (hinline : Inline past) (event : ReceiveEvent) (r' : Receiver N) (obs : List ReceiveObs)
    (hstep : r.step event = some (r', obs)) :
    (∃ completion, .completed completion ∈ obs) ↔
      r.stage = .running ∧ r.op.needsMore = false ∧ r.Whole ∧
        r.frameHeader.commandId = .unbindResp := by
  rcases needsPost_of_inline hpast hinline with ⟨hposts, hrunning⟩
  have hmove := move_of_step hstep
  cases hmove with
  | asyncReceive hstage => exact iff_of_false (by simp) (by simp [hstage])
  | startRead hstage hneeds hreadable hroom => exact iff_of_false (by simp) (by simp [hneeds])
  | incomplete hstage hneeds hwhole header => exact iff_of_false (by simp) (by simp [hwhole])
  | dispatch hstage hneeds hwhole hdispatch =>
      have hheader : r.scan.op.header = r.frameHeader := rfl
      cases hdispatch with
      | enquireLink hid | enquireLinkResp hid | unbind hid =>
          refine iff_of_false (by simp [consumedObs]) fun hfront => ?_
          rw [← hheader, hid] at hfront
          exact absurd hfront.2.2.2 (by decide)
      | unbindResp hid =>
          exact iff_of_true ⟨{ ec := .smpp .unbinded }, by simp⟩ ⟨hstage, hneeds, hwhole, hid⟩
      | post hid hpost =>
          refine iff_of_false (by simp) fun hfront => hid ?_
          rw [hheader, hfront.2.2.2]
          decide
      | deliver hid hpost hdeliver => exact absurd (hpost.symm.trans hposts) (by simp)
  | resume hresume =>
      cases hresume with
      | readTimeoutAgain hstage | readTimeout hstage | readError hstage | read hstage
      | unbindSent hstage | enquireLinkSent hstage | enquireLinkRespSent hstage
      | unbindRespSent hstage | posted hstage | cancel hstage =>
          exact absurd hstage (hrunning _)
      | sendError hstage =>
          rcases hstage with hstage | hstage <;> exact absurd hstage (hrunning _)

/-- Two {lit}`unbind_resp`s arrive together; the second one completes the second operation as
soon as it is initiated. -/
theorem completes_inline_iff_unbindResp :
    ∃ past, ∃ r : Receiver 32, ∃ r' obs,
      (machine 32).Traced EventMachine.anyStep (machine 32).init past r ∧ Inline past ∧
      r.step .iterate = some (r', obs) ∧
      ((∃ completion, .completed completion ∈ obs) ↔
        r.stage = .running ∧ r.op.needsMore = false ∧ r.Whole ∧
          r.frameHeader.commandId = .unbindResp) := by
  have hsteps := EventMachine.steps_of_exec (M := machine 32) (s := (machine 32).init)
    [.asyncReceive, .iterate, .iterate,
      .readDone .success (encodeHeader ⟨16, .unbindResp, .rok, 1⟩ ++
        encodeHeader ⟨16, .unbindResp, .rok, 2⟩), .iterate] rfl
  rcases hsteps.exists_traced with ⟨past, hpast, _⟩
  have hcalled := hpast.snoc (e := .asyncReceive) rfl trivial
  refine ⟨_, _, _, _, hcalled, ?inline, rfl,
    completes_inline_iff _ _ hcalled ?inline .iterate _ _ rfl⟩
  exact EventMachine.since_concat.mpr (Or.inl rfl)

end Receiver

end Smpp
