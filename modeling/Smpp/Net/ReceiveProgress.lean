import Smpp.Net.ReceiveSafety

/-!
# Operations that end

How receive operations end: each with one completion, and each by itself as soon as it does not
wait for octets.  What an operation does by itself is another pass through its loop, the success
of what it sends, or the execution of what it has posted.

Main results:

- Theorem {lit}`Receiver.completions_of_run`: there are as many completions as operations, less
  the one that is under way.
- Theorem {lit}`Receiver.settles_of_covers`: while every announced length covers the header, an
  operation ends or waits for octets after at most two steps of its own for every sixteen
  buffered octets and three more.
- Theorem {lit}`Receiver.iterate_of_frame`: a whole frame at the front is delivered by the next
  pass when nothing has to be posted.
-/

namespace Smpp

/-! ## Completions -/

/-- The completions among some observations. -/
def completions (os : List ReceiveObs) : List Completion :=
  os.filterMap fun
    | .completed c => some c
    | .readSome _ | .dispatched _ _ | .sendCommand _ _ | .posted | .consumed _ _ _
    | .shutdownSocket => none

theorem completions_append (os os' : List ReceiveObs) :
    completions (os ++ os') = completions os ++ completions os' :=
  List.filterMap_append

/-- The operation goes on without a completion, or it ends with one. -/
def EndsOnce {N : Nat} (r' : Receiver N) (obs : List ReceiveObs) : Prop :=
  (r'.stage ≠ .idle ∧ completions obs = []) ∨ (r'.stage = .idle ∧ ∃ c, completions obs = [c])

namespace Receiver

variable {N : Nat} {r r' : Receiver N} {event : ReceiveEvent} {obs : List ReceiveObs}

theorem endsOnce_deliver (hdeliver : Deliver r r' obs) : EndsOnce r' obs := by
  cases hdeliver with
  | undefined => exact Or.inl ⟨by simp, rfl⟩
  | completed => exact Or.inr ⟨rfl, _, rfl⟩

theorem endsOnce_dispatch (hdispatch : Dispatch r r' obs) (hstage : r.stage = .running) :
    EndsOnce r' obs := by
  cases hdispatch with
  | enquireLink | unbind | post => exact Or.inl ⟨by simp [suspend], rfl⟩
  | enquireLinkResp => exact Or.inl ⟨by simp [consume, hstage], rfl⟩
  | unbindResp => exact Or.inr ⟨rfl, _, rfl⟩
  | deliver hid hneeds hdeliver => exact endsOnce_deliver hdeliver

/-- A receive operation is initiated when there is none, and ends with one completion. -/
theorem endsOnce_move (hmove : Move r event r' obs) :
    (event = .asyncReceive ∧ r.stage = .idle ∧ r'.stage ≠ .idle ∧ obs = []) ∨
      (event ≠ .asyncReceive ∧ r.stage ≠ .idle ∧ EndsOnce r' obs) := by
  cases hmove with
  | asyncReceive hstage => exact Or.inl ⟨rfl, hstage, by simp, rfl⟩
  | startRead hstage => exact Or.inr ⟨by simp, by simp [hstage], Or.inl ⟨by simp, rfl⟩⟩
  | incomplete hstage =>
      exact Or.inr ⟨by simp, by simp [hstage], Or.inl ⟨by simp [hstage], rfl⟩⟩
  | dispatch hstage hneeds hwhole hdispatch =>
      have hends := endsOnce_dispatch (r := r.scan) hdispatch hstage
      exact Or.inr ⟨by simp, by simp [hstage], hends⟩
  | resume hresume =>
      refine Or.inr ?_
      cases hresume with
      | readTimeoutAgain hstage | readTimeout hstage =>
          exact ⟨by simp, by simp [hstage], Or.inl ⟨by simp [suspend], rfl⟩⟩
      | read hstage | enquireLinkSent hstage | enquireLinkRespSent hstage =>
          exact ⟨by simp, by simp [hstage], Or.inl ⟨by simp, rfl⟩⟩
      | cancel hstage => exact ⟨by simp, by simp [hstage], Or.inl ⟨by simp [hstage], rfl⟩⟩
      | readError hstage | unbindSent hstage | unbindRespSent hstage =>
          exact ⟨by simp, by simp [hstage], Or.inr ⟨rfl, _, rfl⟩⟩
      | sendError hstage =>
          refine ⟨by simp, ?_, Or.inr ⟨rfl, _, rfl⟩⟩
          rcases hstage with hstage | hstage <;> simp [hstage]
      | posted hstage hdeliver => exact ⟨by simp, by simp [hstage], endsOnce_deliver hdeliver⟩

/-- In every run there are as many completions as operations, less the one that is under way. -/
theorem completions_of_run {R : Receiver N → ReceiveEvent → Receiver N → Prop}
    {es : List ReceiveEvent} (hrun : (machine N).Run R es obs r) :
    (completions obs).length + (if r.stage = .idle then 0 else 1) = es.count .asyncReceive := by
  induction hrun with
  | refl => rfl
  | snoc before hstep _ ih =>
      rw [completions_append, List.length_append, List.count_append, ← ih]
      rcases endsOnce_move (move_of_step hstep) with
        ⟨rfl, hidle, hbusy, rfl⟩ | ⟨hother, hbusy, ⟨hbusy', hnone⟩ | ⟨hidle', c, hone⟩⟩
      · simp [hidle, hbusy, completions]
      · simp [hother, hbusy, hbusy', hnone]
      · simp [hother, hbusy, hidle', hone]

/-! ## Steps of its own -/

/-- What the operation does by itself. -/
def Own : ReceiveEvent → Prop
  | .iterate | .postDone => True
  | .sendDone ec => ec = .success
  | .asyncReceive | .readDone _ _ | .cancel _ => False

/-- {lit}`r.SettlesWithin n`: the operation is never stuck, and after at most {lit}`n` steps of
its own it has ended or waits for octets. -/
inductive SettlesWithin : Receiver N → Nat → Prop
  | settled {r : Receiver N} {n : Nat} (hstage : r.stage = .idle ∨ r.stage = .suspended .read) :
      SettlesWithin r n
  | own {r : Receiver N} {n : Nat}
      (henabled : ∃ event r' obs, Own event ∧ r.step event = some (r', obs))
      (hnext : ∀ event r' obs, Own event → r.step event = some (r', obs) → SettlesWithin r' n) :
      SettlesWithin r (n + 1)

theorem SettlesWithin.mono {m n : Nat} (hsettles : r.SettlesWithin m) (hle : m ≤ n) :
    r.SettlesWithin n := by
  induction hsettles generalizing n with
  | settled hstage => exact .settled hstage
  | own henabled hnext ih =>
      cases n with
      | zero => omega
      | succ n => exact .own henabled fun e r' o hown hstep => ih e r' o hown hstep (by omega)

/-- An operation that does not wait for octets can make a step of its own. -/
theorem exists_own (hidle : r.stage ≠ .idle) (hread : r.stage ≠ .suspended .read)
    (hdefined : r.stage ≠ .undefined) :
    ∃ event r' obs, Own event ∧ r.step event = some (r', obs) := by
  cases hstage : r.stage with
  | idle => exact absurd hstage hidle
  | undefined => exact absurd hstage hdefined
  | running => exact ⟨.iterate, _, _, trivial, by simp only [step, hstage]; rfl⟩
  | suspended yield =>
      cases yield with
      | read => exact absurd hstage hread
      | post => exact ⟨.postDone, _, _, trivial, by simp only [step, hstage]; rfl⟩
      | sendUnbind | sendEnquireLink | sendEnquireLinkResp | sendUnbindResp =>
          exact ⟨.sendDone .success, _, _, rfl, by simp only [step, hstage]; rfl⟩

/-- How many steps of its own the operation makes at most before it ends or waits for octets. -/
def work (r : Receiver N) : Nat :=
  match r.stage with
  | .idle | .undefined | .suspended .read => 0
  | .suspended .sendUnbind | .suspended .sendUnbindResp | .suspended .post => 1
  | .suspended .sendEnquireLinkResp => 2 * (r.receiveBuf.size / headerLength) + 1
  | .running =>
      if r.op.needsMore then 1 else 2 * (r.receiveBuf.size / headerLength) + 2
  | .suspended .sendEnquireLink => 2 * (r.receiveBuf.size / headerLength) + 3

theorem work_le (r : Receiver N) : r.work ≤ 2 * (r.receiveBuf.size / headerLength) + 3 := by
  unfold work
  split <;> try omega
  split <;> omega

theorem work_of_running (hstage : r.stage = .running) (hneeds : r.op.needsMore = false) :
    r.work = 2 * (r.receiveBuf.size / headerLength) + 2 := by
  simp [work, hstage, hneeds]

/-- Consuming a frame that covers its header frees the room of a header. -/
theorem Held.size_consume {P : CommandId → Prop} (hheld : r.Held P) (hcovers : r.Covers) :
    r.consume.receiveBuf.size / headerLength + 1 ≤ r.receiveBuf.size / headerLength := by
  have hlength := hcovers hheld.whole
  have hsize := (r.whole_iff.mp hheld.whole).2
  rw [← hheld.header] at hlength hsize
  have hheader : 0 < headerLength := by decide
  have hleft : r.consume.receiveBuf.size =
      r.receiveBuf.size - r.op.header.commandLength.toNat := by
    simp [consume]
  rw [← Nat.add_div_right _ hheader]
  exact Nat.div_le_div_right (by omega)

theorem work_deliver (hdeliver : Deliver r r' obs) : r'.work = 0 := by
  cases hdeliver <;> rfl

theorem work_dispatch {P : CommandId → Prop} (hdispatch : Dispatch r r' obs)
    (hstage : r.stage = .running) (hheld : r.Held P) (hcovers : r.Covers) :
    r'.work < 2 * (r.receiveBuf.size / headerLength) + 2 := by
  cases hdispatch with
  | enquireLink => simp [work, suspend]
  | unbind | post => simp [work, suspend]
  | unbindResp => simp [work, complete]
  | deliver hid hneeds hdeliver =>
      rw [work_deliver hdeliver]
      omega
  | enquireLinkResp =>
      have hless := hheld.size_consume hcovers
      rw [work_of_running (r := r.consume) hstage hheld.needsMore]
      omega

/-- A step of its own brings the operation nearer to its end. -/
theorem work_move (hmove : Move r event r' obs) (hown : Own event) (hinv : r.Inv)
    (hcovers : r.Covers) : r'.work < r.work := by
  cases hmove with
  | asyncReceive => exact hown.elim
  | startRead hstage hneeds => simp [work, hstage, hneeds]
  | incomplete hstage hneeds =>
      rw [work_of_running hstage hneeds]
      simp [work, hstage]
  | dispatch hstage hneeds hwhole hdispatch =>
      have hheld : r.scan.Held fun _ => True := held_scan _ hneeds hwhole trivial
      rw [work_of_running hstage hneeds]
      exact work_dispatch (r := r.scan) hdispatch hstage hheld hcovers
  | resume hresume =>
      cases hresume with
      | readTimeoutAgain | readTimeout | readError | read | cancel => exact hown.elim
      | unbindSent hstage | unbindRespSent hstage => simp [work, hstage, complete]
      | sendError hstage herror => exact absurd hown herror
      | enquireLinkSent hstage =>
          simp only [Inv, hstage] at hinv
          simp [work, hstage, hinv]
      | enquireLinkRespSent hstage =>
          simp only [Inv, hstage] at hinv
          have hless := hinv.size_consume hcovers
          have hmore : r.consume.op.needsMore = false := hinv.needsMore
          simp only [work, hstage, hmore, Bool.false_eq_true, if_false]
          omega
      | posted hstage hdeliver =>
          rw [work_deliver hdeliver]
          simp [work, hstage]

theorem Own.octets (hown : Own event) : event.octets = [] := by
  cases event with
  | asyncReceive | readDone | cancel => exact hown.elim
  | iterate | sendDone | postDone => rfl

/-- While every announced length covers the header, an operation ends or waits for octets by
itself. -/
theorem settles_of_covers {stream : Octets}
    (hannounces : commandFraming.Announces stream (headerLength ≤ ·)) (hinv : r.Inv)
    (haligned : Aligned stream r) (hdefined : r.stage ≠ .undefined) :
    r.SettlesWithin r.work := by
  induction hn : r.work using Nat.strongRecOn generalizing r with
  | ind n ih =>
      subst hn
      by_cases hsettled : r.stage = .idle ∨ r.stage = .suspended .read
      · exact .settled hsettled
      rw [not_or] at hsettled
      have henabled := exists_own hsettled.1 hsettled.2 hdefined
      have hcovers := covers_of_aligned haligned hannounces
      have hless : ∀ e r' o, Own e → r.step e = some (r', o) → r'.work < r.work :=
        fun e r' o hown hstep => work_move (move_of_step hstep) hown hinv hcovers
      obtain ⟨m, hm⟩ : ∃ m, r.work = m + 1 := by
        rcases henabled with ⟨e, r', o, hown, hstep⟩
        have := hless e r' o hown hstep
        exact ⟨r.work - 1, by omega⟩
      rw [hm]
      refine .own henabled fun e r' o hown hstep => ?_
      have hlt := hless e r' o hown hstep
      have hmove := move_of_step hstep
      have haligned' := aligned_move hmove hinv haligned
      rw [hown.octets, List.append_nil] at haligned'
      have hdefined' := (safe_move hmove hinv hcovers hdefined).2
      exact (ih r'.work hlt (inv_move hmove hinv) haligned' hdefined' rfl).mono (by omega)

/-! ## Delivering one frame -/

/-- A whole frame at the front is delivered by the next pass when nothing has to be posted. -/
theorem iterate_of_frame {frame : Octets} (hframe : commandFraming.IsFrame frame)
    (hid : (deserializeHeader frame).commandId ∉ control) (hstage : r.stage = .running)
    (hpost : r.op.needsPost = false) (hneeds : r.op.needsMore = false)
    (hreadable : r.receiveBuf.readable = frame) :
    r.iterate.1.stage = .idle ∧ completions r.iterate.2 =
      [{ ec := .success
         pdu := decodeFrame (deserializeHeader frame).commandId frame
         sequenceNumber := (deserializeHeader frame).sequenceNumber
         commandStatus := (deserializeHeader frame).commandStatus }] := by
  have hlength : (deserializeHeader frame).commandLength.toNat = frame.length :=
    hframe.announced
  have hscan : r.scan.op.header = deserializeHeader frame := by rw [← hreadable]; rfl
  have hmove := move_iterate hstage
  generalize r.iterate.1 = r' at hmove ⊢
  generalize r.iterate.2 = obs at hmove ⊢
  cases hmove with
  | startRead _ hmore => simp [hneeds] at hmore
  | incomplete _ _ hnot =>
      refine absurd ?_ hnot
      rw [Whole, hreadable]
      simpa using hframe.whole []
  | resume hresume => cases hresume
  | dispatch _ _ _ hdispatch =>
      cases hdispatch with
      | enquireLink hid' | enquireLinkResp hid' | unbind hid' | unbindResp hid' =>
          rw [hscan] at hid'
          exact absurd hid (by rw [hid']; decide)
      | post _ hneeds' => simp [scan, hpost] at hneeds'
      | deliver _ _ hdeliver =>
          cases hdeliver with
          | undefined hrange =>
              have hsize : r.scan.receiveBuf.size = frame.length := by
                rw [← StaticFlatBuffer.length_readable]
                exact congrArg List.length hreadable
              have hcovers : headerLength ≤ frame.length := hframe.header
              rw [hscan, hlength, hsize] at hrange
              omega
          | completed hcovers hsize =>
              have htake : r.scan.receiveBuf.readable.take
                  r.scan.op.header.commandLength.toNat = frame := by
                rw [hscan, hlength]
                exact (congrArg (List.take frame.length) hreadable).trans List.take_length
              rw [htake, hscan]
              exact ⟨rfl, rfl⟩

end Receiver

end Smpp
