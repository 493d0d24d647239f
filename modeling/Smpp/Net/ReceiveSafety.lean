import Smpp.Net.ReceiveInvariant

/-!
# Hostile streams

The receive coroutine against a peer that may send anything.  Two announcements
are not guarded against: a frame shorter than its own header, and a frame longer
than the receive buffer.

Main results:

- Theorem {lit}`Receiver.safe_of_covers`: dispatching is safe wherever every announced length
  covers the header.
- Theorem {lit}`Receiver.dispatch_safe`: while every announced length covers the
  header, each branch works on a frame that lies in the buffer and removes exactly
  that frame, and the loop pauses after a bounded number of passes.
- Theorem {lit}`Receiver.readSome_nonempty`: while every announced length fits the
  buffer, no read is started on an empty region.

Current gaps:

- A length below sixteen is not rejected: the loop repeats forever, or cuts the
  stream inside a header, or forms a body that ends before it begins.
- A length above the capacity is not rejected: the buffer fills up, and reading
  goes on with an empty region.
-/

namespace Smpp

/-- {lit}`static_flat_buffer<uint8_t, 128 * 1024> receive_buf_`. -/
def receiveCapacity : Nat := 128 * 1024

namespace Receiver

variable {N : Nat} {r r' : Receiver N} {event : ReceiveEvent} {obs : List ReceiveObs}

/-! ## Frames that are dispatched -/

/-- A dispatched frame has a header and lies in the buffer, and a {lit}`consume` removes
exactly such a frame. -/
def SafeObs : ReceiveObs → Prop
  | .dispatched header size =>
      headerLength ≤ header.commandLength.toNat ∧ header.commandLength.toNat ≤ size
  | .consumed header before after =>
      headerLength ≤ header.commandLength.toNat ∧
        header.commandLength.toNat ≤ before.length ∧
        after = before.drop header.commandLength.toNat
  | .readSome _ | .sendCommand _ _ | .posted | .shutdownSocket | .completed _ => True

instance : DecidablePred SafeObs
  | .dispatched header size => inferInstanceAs (Decidable
      (headerLength ≤ header.commandLength.toNat ∧ header.commandLength.toNat ≤ size))
  | .consumed header before after => inferInstanceAs (Decidable
      (headerLength ≤ header.commandLength.toNat ∧
        header.commandLength.toNat ≤ before.length ∧
        after = before.drop header.commandLength.toNat))
  | .readSome _ | .sendCommand _ _ | .posted | .shutdownSocket | .completed _ =>
      inferInstanceAs (Decidable True)

/-- The frame at the front announces a length that covers its header. -/
def Covers (r : Receiver N) : Prop :=
  r.Whole → headerLength ≤ r.frameHeader.commandLength.toNat

theorem covers_of_aligned {stream : Octets} (haligned : Aligned stream r)
    (hannounces : commandFraming.Announces stream (headerLength ≤ ·)) : r.Covers :=
  fun hwhole => hannounces _ haligned hwhole.1

/-- Consuming a held frame that covers its header is safe. -/
theorem Held.safe_consumed {P : CommandId → Prop} (hheld : r.Held P) (hcovers : r.Covers) :
    SafeObs r.consumedObs := by
  have hlength := hcovers hheld.whole
  have hsize := (r.whole_iff.mp hheld.whole).2
  rw [← hheld.header] at hlength hsize
  exact ⟨hlength, by rwa [StaticFlatBuffer.length_readable], readable_consume⟩

theorem safe_deliver {P : CommandId → Prop} (hheld : r.Held P) (hcovers : r.Covers)
    (hdeliver : Deliver r r' obs) : (∀ o ∈ obs, SafeObs o) ∧ r'.stage ≠ .undefined := by
  have hlength := hcovers hheld.whole
  have hsize := (r.whole_iff.mp hheld.whole).2
  rw [← hheld.header] at hlength hsize
  cases hdeliver with
  | undefined hrange => omega
  | completed hheader hsize =>
      refine ⟨?_, by simp [complete]⟩
      simp only [List.forall_mem_cons]
      exact ⟨hheld.safe_consumed hcovers, trivial, by simp⟩

/-- A step from a state whose front covers its header is safe. -/
theorem safe_move (hmove : Move r event r' obs) (hinv : r.Inv) (hcovers : r.Covers)
    (hstage : r.stage ≠ .undefined) :
    (∀ o ∈ obs, SafeObs o) ∧ r'.stage ≠ .undefined := by
  cases hmove with
  | asyncReceive hidle => exact ⟨by simp, by simp⟩
  | startRead hrunning hneeds hreadable hroom => exact ⟨by simp [SafeObs], by simp⟩
  | incomplete hrunning hneeds hwhole header => exact ⟨by simp, hstage⟩
  | dispatch hrunning hneeds hwhole hdispatch =>
      have hheld : r.scan.Held fun _ => True := held_scan _ hneeds hwhole trivial
      have hscan : r.scan.Covers := hcovers
      have hfirst : SafeObs (.dispatched r.frameHeader r.receiveBuf.size) :=
        ⟨hcovers hwhole, (r.whole_iff.mp hwhole).2⟩
      have hconsumed := hheld.safe_consumed hscan
      simp only [List.forall_mem_cons, hfirst, true_and]
      cases hdispatch with
      | enquireLink hid | unbind hid | post hid hpost =>
          exact ⟨by simp [SafeObs], by simp [suspend]⟩
      | enquireLinkResp hid => exact ⟨by simpa using hconsumed, hstage⟩
      | unbindResp hid => exact ⟨by simpa [SafeObs] using hconsumed, by simp [complete]⟩
      | deliver hid hpost hdeliver => exact safe_deliver hheld hscan hdeliver
  | resume hresume =>
      cases hresume with
      | readTimeoutAgain hread | readTimeout hread => exact ⟨by simp [SafeObs], by simp [suspend]⟩
      | readError hread | unbindSent hsent | sendError hsent =>
          exact ⟨by simp [SafeObs], by simp [complete]⟩
      | read hread | enquireLinkSent hsent => exact ⟨by simp, by simp⟩
      | enquireLinkRespSent hsent =>
          simp only [Inv, hsent] at hinv
          exact ⟨by simpa using hinv.safe_consumed hcovers, by simp⟩
      | unbindRespSent hsent =>
          simp only [Inv, hsent] at hinv
          exact ⟨by simpa [SafeObs] using hinv.safe_consumed hcovers, by simp [complete]⟩
      | posted hpost hdeliver =>
          simp only [Inv, hpost] at hinv
          exact safe_deliver hinv hcovers hdeliver
      | cancel hsuspended => exact ⟨by simp, hstage⟩

/-! ## The loop pauses -/

/-- One pass, then more. -/
theorem exec_iterate_cons (hstage : r.stage = .running) {n : Nat} {r'' : Receiver N}
    {obs' : List ReceiveObs}
    (hrest : (machine N).exec r.iterate.1 (List.replicate n .iterate) = some (r'', obs')) :
    (machine N).exec r (List.replicate (n + 1) .iterate) = some (r'', r.iterate.2 ++ obs') := by
  rw [List.replicate_succ, EventMachine.exec, step_iterate hstage]
  simp only [hrest]

/-- The coroutine pauses after {lit}`n` passes. -/
def PausesWithin (r : Receiver N) (n : Nat) : Prop :=
  ∃ k ≤ n, ∃ r' obs,
    (machine N).exec r (List.replicate k .iterate) = some (r', obs) ∧ r'.stage ≠ .running

theorem pausesWithin_of_paused (hstage : r.stage ≠ .running) : r.PausesWithin 0 :=
  ⟨0, Nat.le_refl 0, r, [], rfl, hstage⟩

theorem PausesWithin.iterate {n : Nat} (hstage : r.stage = .running)
    (hpauses : r.iterate.1.PausesWithin n) : r.PausesWithin (n + 1) := by
  rcases hpauses with ⟨k, hle, r', obs, hexec, hpaused⟩
  exact ⟨k + 1, by omega, r', _, exec_iterate_cons hstage hexec, hpaused⟩

theorem PausesWithin.mono {m n : Nat} (hpauses : r.PausesWithin m) (hle : m ≤ n) :
    r.PausesWithin n := by
  rcases hpauses with ⟨k, hk, hrest⟩
  exact ⟨k, by omega, hrest⟩

/-- A pass that starts a read pauses. -/
theorem pausesWithin_of_needsMore (hstage : r.stage = .running)
    (hneeds : r.op.needsMore = true) : r.PausesWithin 1 := by
  refine .iterate hstage (pausesWithin_of_paused ?_)
  have hmove := move_iterate hstage
  generalize r.iterate.1 = r' at hmove ⊢
  generalize r.iterate.2 = obs at hmove
  cases hmove with
  | startRead _ _ hreadable hroom => simp
  | incomplete _ hneeds' => simp [hneeds] at hneeds'
  | dispatch _ hneeds' => simp [hneeds] at hneeds'
  | resume hresume => cases hresume

/-- The loop pauses after at most one pass for every sixteen buffered octets and two
more. -/
theorem pausesWithin_of_covers {stream : Octets}
    (hannounces : commandFraming.Announces stream (headerLength ≤ ·))
    (hstage : r.stage = .running) (hinv : r.Inv) (haligned : Aligned stream r) :
    r.PausesWithin (r.receiveBuf.size / headerLength + 2) := by
  induction hn : r.receiveBuf.size using Nat.strongRecOn generalizing r with
  | ind n ih =>
      subst hn
      have hbound := Nat.zero_le (r.receiveBuf.size / headerLength)
      have hmove := move_iterate hstage
      have hinv' := inv_move hmove hinv
      have haligned' := aligned_move hmove hinv haligned
      rw [ReceiveEvent.octets, List.append_nil] at haligned'
      have hpass : ∀ {m}, r.iterate.1.PausesWithin m → r.PausesWithin (m + 1) := .iterate hstage
      generalize r.iterate.1 = r' at hmove hinv' haligned' hpass
      generalize r.iterate.2 = obs at hmove
      have hpaused : r'.stage ≠ .running →
          r.PausesWithin (r.receiveBuf.size / headerLength + 2) := fun hpaused =>
        (hpass (pausesWithin_of_paused hpaused)).mono (by omega)
      cases hmove with
      | startRead _ _ hreadable hroom => exact hpaused (by simp)
      | incomplete _ hneeds hwhole header =>
          exact (hpass (pausesWithin_of_needsMore hstage rfl)).mono (by omega)
      | resume hresume => cases hresume
      | dispatch _ hneeds hwhole hdispatch =>
          cases hdispatch with
          | enquireLink hid | unbind hid | post hid hpost => exact hpaused (by simp [suspend])
          | unbindResp hid => exact hpaused (by simp [complete])
          | deliver hid hpost hdeliver =>
              cases hdeliver with
              | undefined hrange => exact hpaused (by simp)
              | completed hheader hsize => exact hpaused (by simp [complete])
          | enquireLinkResp hid =>
              -- a swallowed frame frees at least its header
              have hcovers := covers_of_aligned haligned hannounces hwhole
              have hsize := (r.whole_iff.mp hwhole).2
              have hleft : r.scan.consume.receiveBuf.size =
                  r.receiveBuf.size - r.frameHeader.commandLength.toNat := by
                simp [consume, scan]
              have hheader : 0 < headerLength := by decide
              have hshrinks : r.scan.consume.receiveBuf.size < r.receiveBuf.size := by omega
              have hnext := ih _ hshrinks (r := r.scan.consume) hstage hinv' haligned' rfl
              refine (hpass hnext).mono ?_
              have hdiv : (r.scan.consume.receiveBuf.size + headerLength) / headerLength ≤
                  r.receiveBuf.size / headerLength := Nat.div_le_div_right (by omega)
              rw [Nat.add_div_right _ hheader] at hdiv
              omega

/-- While every announced length covers the header, every dispatch is safe and the coroutine is
where it is meant to be. -/
theorem safe_of_covers {es : List ReceiveEvent}
    (hrun : (machine N).Run EventMachine.anyStep es obs r)
    (hannounces : commandFraming.Announces (received es) (headerLength ≤ ·)) :
    (∀ o ∈ obs, SafeObs o) ∧ r.stage ≠ .undefined := by
  induction hrun with
  | refl => exact ⟨by simp, by simp [machine, new]⟩
  | snoc before hstep _ ih =>
      rw [received_concat] at hannounces
      rcases ih (hannounces.of_append _) with ⟨hsafe, hstage⟩
      rcases aligned_of_run before with ⟨hinv, haligned⟩
      have hcovers := covers_of_aligned haligned (hannounces.of_append _)
      rcases safe_move (move_of_step hstep) hinv hcovers hstage with ⟨hnew, hstage'⟩
      exact ⟨List.forall_mem_append.mpr ⟨hsafe, hnew⟩, hstage'⟩

/-- While every announced length covers the header, dispatching is safe and the loop
pauses. -/
theorem dispatch_safe (es : List ReceiveEvent) (os : List ReceiveObs)
    (s : Receiver receiveCapacity)
    (hrun : (machine receiveCapacity).Run EventMachine.anyStep es os s)
    (hannounces : commandFraming.Announces (received es) (headerLength ≤ ·)) :
    (∀ o ∈ os, SafeObs o) ∧ s.stage ≠ .undefined ∧
      (s.stage = .running → s.PausesWithin (s.receiveBuf.size / headerLength + 2)) := by
  rcases aligned_of_run hrun with ⟨hinv, haligned⟩
  rcases safe_of_covers hrun hannounces with ⟨hsafe, hdefined⟩
  exact ⟨hsafe, hdefined, fun hstage => pausesWithin_of_covers hannounces hstage hinv haligned⟩

/-- A whole frame is dispatched by the next pass. -/
theorem run_dispatched (received : Octets) (hroom : received.length ≤ N)
    (hwhole : commandFraming.Whole received) :
    ∃ os r, (machine N).Run EventMachine.anyStep
        [.asyncReceive, .iterate, .iterate, .readDone .success received, .iterate] os r ∧
      .dispatched (deserializeHeader received) received.length ∈ os := by
  rcases run_firstRead received hroom with ⟨r, hrun, hstage, _, hneeds, hreadable⟩
  have hlast := EventMachine.Steps.snoc hrun (step_iterate hstage) trivial
  refine ⟨_, _, hlast, List.mem_append_right _ ?_⟩
  have hmove := move_iterate hstage
  generalize r.iterate.1 = r' at hmove
  generalize r.iterate.2 = obs at hmove ⊢
  cases hmove with
  | startRead _ hmore => simp [hneeds] at hmore
  | incomplete _ _ hnot => exact absurd (by rwa [Whole, hreadable]) hnot
  | resume hresume => cases hresume
  | dispatch _ _ _ hdispatch =>
      rw [frameHeader, ← StaticFlatBuffer.length_readable, hreadable]
      exact List.mem_cons_self

/-- A run that swallows an {lit}`enquire_link_resp` of sixteen octets. -/
theorem dispatch_safe_enquireLinkResp :
    ∃ es os s, (machine receiveCapacity).Run EventMachine.anyStep es os s ∧
      received es = encodeHeader ⟨16, .enquireLinkResp, .rok, 1⟩ ∧
      ((∀ o ∈ os, SafeObs o) ∧ s.stage ≠ .undefined ∧
        (s.stage = .running → s.PausesWithin (s.receiveBuf.size / headerLength + 2))) := by
  have hframe : commandFraming.IsFrame (encodeHeader ⟨16, .enquireLinkResp, .rok, 1⟩) :=
    ⟨by decide, by decide⟩
  have hannounces := Framing.announces_flatten (F := commandFraming)
    (P := (headerLength ≤ ·)) (by decide) (List.forall_mem_singleton.mpr hframe)
    (List.forall_mem_singleton.mpr (by decide))
  obtain ⟨os, s, hrun, _⟩ := run_dispatched (N := receiveCapacity) _
    (by decide) (hframe.whole [])
  exact ⟨_, os, s, hrun, by rfl, dispatch_safe _ os s hrun hannounces⟩

/-- A frame that announces no octets at all is dispatched. -/
theorem not_dispatch_safe_empty :
    ¬ ∀ (es : List ReceiveEvent) (os : List ReceiveObs) (s : Receiver receiveCapacity),
      (machine receiveCapacity).Run EventMachine.anyStep es os s → ∀ o ∈ os, SafeObs o := by
  intro hsafe
  obtain ⟨os, s, hrun, hmem⟩ := run_dispatched (N := receiveCapacity)
    (encodeHeader ⟨0, .enquireLinkResp, .rok, 1⟩) (by decide) ⟨by decide, by decide⟩
  exact absurd (hsafe _ os s hrun _ hmem) (by decide)

/-! ## Regions of reads -/

/-- A read is given a region that can hold something. -/
def NonemptyRead : ReceiveObs → Prop
  | .readSome n => 0 < n
  | .dispatched _ _ | .sendCommand _ _ | .posted | .consumed _ _ _ | .shutdownSocket
  | .completed _ => True

/-- The loop reads only while the frame at the front is incomplete, so a frame that
fits the buffer leaves room. -/
theorem nonemptyRead_of_incomplete (hN : headerLength ≤ N) (hwhole : ¬ r.Whole)
    (hfits : headerLength ≤ r.receiveBuf.size →
      r.frameHeader.commandLength.toNat ≤ N) :
    NonemptyRead (.readSome (N - r.receiveBuf.size)) := by
  have hsize := r.receiveBuf.size_le
  rw [whole_iff] at hwhole
  change 0 < N - r.receiveBuf.size
  by_cases hheader : headerLength ≤ r.receiveBuf.size
  · have := hfits hheader
    omega
  · have : 0 < headerLength := by decide
    omega

/-- Only the start of a read shows a region. -/
theorem nonemptyRead_move (hmove : Move r event r' obs) (hN : headerLength ≤ N)
    (hinv : r.Inv) (hfits : headerLength ≤ r.receiveBuf.size →
      r.frameHeader.commandLength.toNat ≤ N) : ∀ o ∈ obs, NonemptyRead o := by
  have hdeliver : ∀ {r r' : Receiver N} {obs}, Deliver r r' obs → ∀ o ∈ obs, NonemptyRead o := by
    intro r r' obs hdeliver
    cases hdeliver <;> simp [NonemptyRead, consumedObs]
  cases hmove with
  | startRead hrunning hneeds hreadable hroom =>
      simp only [Inv, hrunning] at hinv
      simpa using nonemptyRead_of_incomplete hN (hinv hneeds) hfits
  | asyncReceive | incomplete => simp
  | dispatch hrunning hneeds hwhole hdispatch =>
      refine List.forall_mem_cons.mpr ⟨trivial, ?_⟩
      cases hdispatch with
      | deliver hid hpost hd => exact hdeliver hd
      | enquireLink | enquireLinkResp | unbind | unbindResp | post =>
          simp [NonemptyRead, consumedObs]
  | resume hresume =>
      cases hresume with
      | posted hpost hd => exact hdeliver hd
      | readTimeoutAgain | readTimeout | readError | read | unbindSent | sendError
      | enquireLinkSent | enquireLinkRespSent | unbindRespSent | cancel =>
          simp [NonemptyRead, consumedObs]

/-- While every announced length fits the buffer, each read of a run has room. -/
theorem nonemptyRead_of_run (hN : headerLength ≤ N) {es : List ReceiveEvent}
    (hrun : (machine N).Run EventMachine.anyStep es obs r)
    (hannounces : commandFraming.Announces (received es) (· ≤ N)) :
    ∀ o ∈ obs, NonemptyRead o := by
  induction hrun with
  | refl => simp
  | snoc before hstep _ ih =>
      rw [received_concat] at hannounces
      rcases aligned_of_run before with ⟨hinv, haligned⟩
      refine List.forall_mem_append.mpr ⟨ih (hannounces.of_append _), ?_⟩
      refine nonemptyRead_move (move_of_step hstep) hN hinv fun hheader => ?_
      exact hannounces.of_append _ _ haligned (by rwa [StaticFlatBuffer.length_readable])

/-- The session's own buffer. -/
theorem readSome_nonempty (es : List ReceiveEvent) (os : List ReceiveObs)
    (s : Receiver receiveCapacity)
    (hrun : (machine receiveCapacity).Run EventMachine.anyStep es os s)
    (hannounces : commandFraming.Announces (received es) (· ≤ receiveCapacity)) :
    ∀ o ∈ os, NonemptyRead o :=
  nonemptyRead_of_run (by decide) hrun hannounces

/-- A run that waits for a frame of seventeen octets after its first sixteen. -/
theorem readSome_nonempty_submitSmResp :
    ∃ es os s, (machine receiveCapacity).Run EventMachine.anyStep es os s ∧
      received es = encodeHeader ⟨17, .submitSmResp, .rok, 1⟩ ∧
      .readSome (receiveCapacity - 16) ∈ os ∧ ∀ o ∈ os, NonemptyRead o := by
  have hframe : commandFraming.IsFrame (encodeHeader ⟨17, .submitSmResp, .rok, 1⟩ ++ [0]) :=
    ⟨by decide, by decide⟩
  have hannounces := Framing.announces_flatten (F := commandFraming)
    (P := (· ≤ receiveCapacity)) (by decide) (List.forall_mem_singleton.mpr hframe)
    (List.forall_mem_singleton.mpr (by decide))
  obtain ⟨r, hrun, hstage, _, hneeds, hreadable⟩ := run_firstRead (N := receiveCapacity)
    (encodeHeader ⟨17, .submitSmResp, .rok, 1⟩) (by decide)
  have hwhole : ¬ r.Whole := by
    rw [Whole, hreadable]
    exact fun hwhole => absurd hwhole.2 (by decide)
  rcases steps_startRead hstage hneeds hwhole with ⟨s, hread, _⟩
  have hrun' := hrun.trans hread
  refine ⟨_, _, s, hrun', by rfl, ?_,
    readSome_nonempty _ _ s hrun' (hannounces.of_append [0])⟩
  rw [← StaticFlatBuffer.length_readable, hreadable]
  exact List.mem_append_right _ List.mem_cons_self

/-- A frame that is longer than the buffer fills it, and the next read has an empty
region. -/
theorem not_readSome_nonempty_long :
    ¬ ∀ (es : List ReceiveEvent) (os : List ReceiveObs) (s : Receiver receiveCapacity),
      (machine receiveCapacity).Run EventMachine.anyStep es os s →
        ∀ o ∈ os, NonemptyRead o := by
  intro hnonempty
  obtain ⟨body, hbody⟩ : ∃ body : Octets, body = List.replicate (receiveCapacity - 16) 0 :=
    ⟨_, rfl⟩
  have hlength : (encodeHeader ⟨131073, .submitSm, .rok, 1⟩ ++ body).length =
      receiveCapacity := by
    rw [hbody, List.length_append, List.length_replicate]
    rfl
  rcases run_firstRead _ (Nat.le_of_eq hlength) with ⟨r, hrun, hstage, _, hneeds, hreadable⟩
  have hsize : r.receiveBuf.size = receiveCapacity := by
    rw [← StaticFlatBuffer.length_readable, hreadable, hlength]
  have hwhole : ¬ r.Whole := by
    rw [whole_iff, frameHeader, hreadable, deserializeHeader_encodeHeader, hsize]
    exact fun hwhole => absurd hwhole.2 (by decide)
  rcases steps_startRead hstage hneeds hwhole with ⟨s, hread, _⟩
  rw [hsize, Nat.sub_self] at hread
  have hempty := hnonempty _ _ s (hrun.trans hread) (.readSome 0)
    (List.mem_append_right _ List.mem_cons_self)
  exact absurd hempty (Nat.lt_irrefl 0)

end Receiver

end Smpp
