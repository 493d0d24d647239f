import Smpp.Net.SendExclusion

/-!
# Handing the send buffer on

Whoever frees the send buffer has to wake the operation that waits longest, and
whoever was woken has to take the buffer or to wake the next one.

Main results:

- Theorem {lit}`Sender.noLostWakeup_iff_of_move`: a step keeps the promise that some
  operation will wake the waiting ones exactly when it hands the buffer on.
- Theorem {lit}`Sender.noLostWakeup_of_run`: so do whole runs.

Current gaps:

- Three ways out of the coroutines do not hand the buffer on: the {lit}`catch` block and
  the exit for a cancelled wait do not call {lit}`cancel_one`, and the exit for a command
  that timed out neither clears the buffer nor calls {lit}`cancel_one`.
-/

namespace Smpp

namespace Sender

variable {s s' : Sender} {id : Nat} {op : SendOp} {event : SendEvent} {obs : List SendObs}

/-- While an operation waits, a write is outstanding or a resumption is scheduled, and
only an operation that writes leaves something in the send buffer. -/
structure NoLostWakeup (s : Sender) : Prop where
  woken : (∃ i, s.phase i = some .waiting) →
    (∃ j frame, s.Writing j frame) ∨ ∃ j, s.phase j = some .woken
  owned : s.sendBuf ≠ [] → ∃ j frame, s.Writing j frame

/-- Nobody else is going to look after the operations that wait for operation
{lit}`id`: the send buffer is free and no other resumption is scheduled. -/
def LastWoken (s : Sender) (id : Nat) : Prop :=
  (∃ i, s.phase i = some .waiting) ∧ s.sendBuf = [] ∧ ∀ j, s.phase j = some .woken → j = id

/-- The event hands the send buffer on: no command times out, and the last operation
that is woken has not been cancelled and serializes. -/
def HandsOn (s : Sender) : SendEvent → Prop
  | .writeDone id ec => ∀ op, s.ops id = some op → ¬ TimedOut op ec
  | .resume id => s.LastWoken id → ∀ op, s.ops id = some op →
      op.cancellation.cancelled = false ∧ ∃ sendBuf, op.kind.fillBody = .ok sendBuf
  | .call _ _ | .callNext _ _ | .start _ | .cancel _ _ => True

/-! ## What keeps the promise -/

theorem noLostWakeup_of_writing {frame : Octets} (hwriting : s.Writing id frame) :
    s.NoLostWakeup :=
  ⟨fun _ => Or.inl ⟨id, frame, hwriting⟩, fun _ => ⟨id, frame, hwriting⟩⟩

/-- A write that is outstanding keeps the promise through the steps of others. -/
theorem NoLostWakeup.of_busy (hpromise : s.NoLostWakeup) (hbusy : s.sendBuf ≠ [])
    (hkeeps : ∀ j frame, s.Writing j frame → s'.Writing j frame) : s'.NoLostWakeup := by
  rcases hpromise.owned hbusy with ⟨j, frame, hwriting⟩
  exact noLostWakeup_of_writing (hkeeps j frame hwriting)

/-- With a free buffer the promise is about the waiting and the woken operations. -/
theorem noLostWakeup_iff_of_free (hinv : s.Inv) (hfree : s.sendBuf = []) :
    s.NoLostWakeup ↔ ((∃ i, s.phase i = some .waiting) → ∃ j, s.phase j = some .woken) := by
  constructor
  · intro hpromise hwaits
    rcases hpromise.woken hwaits with ⟨j, frame, hwriting⟩ | hwoken
    · exact absurd hwriting (hinv.not_writing hfree frame)
    · exact hwoken
  · intro hwoken
    exact ⟨fun hwaits => Or.inr (hwoken hwaits), fun hbusy => absurd hfree hbusy⟩

/-- The promise survives a step that makes nobody wait and takes back no write and no
resumption. -/
theorem NoLostWakeup.of_phase (hpromise : s.NoLostWakeup) (hbuf : s'.sendBuf = s.sendBuf)
    (hwaits : ∀ i, s'.phase i = some .waiting → s.phase i = some .waiting)
    (hwoken : ∀ j, s.phase j = some .woken → s'.phase j = some .woken)
    (hwriting : ∀ j frame, s.Writing j frame → s'.Writing j frame) : s'.NoLostWakeup := by
  refine ⟨fun ⟨i, hi⟩ => ?_, fun hbusy => ?_⟩
  · rcases hpromise.woken ⟨i, hwaits i hi⟩ with ⟨j, frame, hj⟩ | ⟨j, hj⟩
    · exact Or.inl ⟨j, frame, hwriting j frame hj⟩
    · exact Or.inr ⟨j, hwoken j hj⟩
  · rcases hpromise.owned (hbuf ▸ hbusy) with ⟨j, frame, hj⟩
    exact ⟨j, frame, hwriting j frame hj⟩

/-- An operation that was neither woken nor writing may go anywhere but into the queue. -/
theorem NoLostWakeup.put (hpromise : s.NoLostWakeup) {t : Sender} (hbuf : t.sendBuf = s.sendBuf)
    (hops : t.ops = s.ops) (hwoken : s.phase id ≠ some .woken)
    (hwriting : ∀ frame, ¬ s.Writing id frame) (hafter : op.phase ≠ .waiting) :
    (t.put id op).NoLostWakeup := by
  have hphase : ∀ j, t.phase j = s.phase j := fun j => by rw [phase, phase, hops]
  refine hpromise.of_phase hbuf (fun i hi => ?_) (fun j hj => ?_) (fun j frame hj => ?_)
  · rw [phase_put, hphase] at hi
    split at hi
    · injection hi with hi
      exact absurd hi hafter
    · exact hi
  · have hne : j ≠ id := fun heq => hwoken (heq ▸ hj)
    rw [phase_put_of_ne _ _ hne, hphase, hj]
  · have hne : j ≠ id := fun heq => hwriting frame (heq ▸ hj)
    rw [Writing, phase_put_of_ne _ _ hne, hphase, hj]

/-- An operation that was woken and leaves with the buffer free keeps the promise exactly
when it was not the last one. -/
theorem noLostWakeup_leave_iff (hinv' : (s.put id op).Inv) (hfree : s.sendBuf = [])
    (hphase : s.phase id = some .woken) (hdone : op.phase = .done) :
    (s.put id op).NoLostWakeup ↔ ¬ s.LastWoken id := by
  rw [noLostWakeup_iff_of_free hinv' hfree]
  have hwaits : (∃ i, (s.put id op).phase i = some .waiting) ↔
      ∃ i, s.phase i = some .waiting := by
    refine exists_congr fun i => ?_
    rw [phase_put]
    split
    · rename_i hi
      simp [hi, hphase, hdone]
    · rfl
  have hwoken : (∃ j, (s.put id op).phase j = some .woken) ↔
      ∃ j, s.phase j = some .woken ∧ j ≠ id := by
    refine exists_congr fun j => ?_
    rw [phase_put]
    split
    · rename_i hj
      simp [hj, hdone]
    · rename_i hj
      simp [hj]
  rw [hwaits, hwoken, LastWoken]
  simp only [hfree, true_and, not_and, not_forall, exists_prop]

/-! ## Steps and runs -/

/-- {lit}`cancel_one` keeps the promise for a buffer that was just cleared. -/
theorem noLostWakeup_written (hinv : s.Inv) {frame : Octets} (hop : s.ops id = some op)
    (hphase : op.phase = .writing frame) :
    ({ s with sendBuf := [] }.cancelOne.put id { op with phase := .done }).NoLostWakeup := by
  have hinv' := inv_written hinv hop hphase
  rcases hinv.cancelOne_cases [] with ⟨hcv, hsame⟩ | ⟨i, rest, op', _, hop', hwait, hsame⟩
  · rw [hsame] at hinv' ⊢
    rw [noLostWakeup_iff_of_free hinv' rfl]
    rintro ⟨i, hi⟩
    rw [← hinv'.queued i, sendCv_put, hcv] at hi
    cases hi
  · have hne : i ≠ id := by
      rintro rfl
      rw [hop, Option.some.injEq] at hop'
      rw [← hop', hphase] at hwait
      cases hwait
    rw [hsame] at hinv' ⊢
    rw [noLostWakeup_iff_of_free hinv' rfl]
    exact fun _ => ⟨i, by rw [phase_put_of_ne _ _ hne, phase_put_self]⟩

/-- The test of the waiting loop keeps the promise exactly when it hands the send buffer on. -/
theorem noLostWakeup_iff_of_enter (hready : Ready s id event op) (henter : Enter s id op s' obs)
    (hinv' : s'.Inv) (hpromise : s.NoLostWakeup) : s'.NoLostWakeup ↔ s.HandsOn event := by
  cases henter with
  | wait hbusy =>
      have hnot : ∀ frame, ¬ s.Writing id frame := by
        intro frame
        rcases hready.phase_eq with hphase | hphase <;> simp [Writing, hphase]
      have hkeeps : ∀ j frame, s.Writing j frame →
          ({ s with sendCv := s.sendCv ++ [id] }.put id
            { op with phase := .waiting }).Writing j frame := by
        intro j frame hj
        have hne : id ≠ j := fun heq => hnot frame (heq ▸ hj)
        exact Writing.put (s := { s with sendCv := s.sendCv ++ [id] }) hj hne _
      refine iff_of_true (hpromise.of_busy hbusy hkeeps) ?_
      cases hready with
      | start hop hphase => trivial
      | resume hop hphase hcancelled => exact fun hlast => absurd hlast.2.1 hbusy
  | fail hfree hfill =>
      cases hready with
      | start hop hphase =>
          have hcreated := phase_of_ops hop
          rw [hphase] at hcreated
          exact iff_of_true (hpromise.put rfl rfl (by simp [hcreated])
            (by simp [Writing, hcreated]) (by simp)) trivial
      | resume hop hphase hcancelled =>
          have hwoken := phase_of_ops hop
          rw [hphase] at hwoken
          rw [noLostWakeup_leave_iff hinv' hfree hwoken rfl]
          simp only [HandsOn, hop, Option.some.injEq, forall_eq', hfill]
          simp
  | write hfree hfill hnumber =>
      refine iff_of_true (noLostWakeup_of_writing (phase_put_self _ _ _)) ?_
      cases hready with
      | start hop hphase => trivial
      | resume hop hphase hcancelled =>
          intro _ op' hop'
          rw [hop, Option.some.injEq] at hop'
          exact hop' ▸ ⟨hcancelled, _, hfill⟩

/-- A command that times out leaves a buffer that nobody owns. -/
theorem not_noLostWakeup_timedOut {frame : Octets} (hinv : s.Inv) (hop : s.ops id = some op)
    (hphase : op.phase = .writing frame) :
    ¬ (s.put id { op with phase := .done }).NoLostWakeup := by
  intro hkept
  have hwriting : s.Writing id frame := by rw [Writing, phase_of_ops hop, hphase]
  rcases hinv.sendBuf_eq hwriting with ⟨hbuf, hne⟩
  rcases hkept.owned (by rw [sendBuf_put, hbuf]; exact hne) with ⟨j, g, hj⟩
  by_cases heq : j = id
  · subst heq
    simp [Writing] at hj
  · rw [Writing, phase_put_of_ne _ _ heq] at hj
    exact heq (hinv.alone j id g frame hj hwriting)

/-- A step keeps the promise exactly when it hands the send buffer on. -/
theorem noLostWakeup_iff_of_move (hmove : Move s event s' obs) (hinv : s.Inv)
    (hpromise : s.NoLostWakeup) : s'.NoLostWakeup ↔ s.HandsOn event := by
  have hinv' := inv_move hmove hinv
  cases hmove with
  | @call id hfresh kind =>
      have hnone : s.phase id = none := by simp [phase, hfresh]
      exact iff_of_true (hpromise.put rfl rfl (by simp [hnone]) (by simp [Writing, hnone])
        (by simp)) trivial
  | @callNext id hfresh commandId =>
      have hnone : s.phase id = none := by simp [phase, hfresh]
      exact iff_of_true (hpromise.put rfl rfl (by simp [hnone]) (by simp [Writing, hnone])
        (by simp)) trivial
  | enter hready henter => exact noLostWakeup_iff_of_enter hready henter hinv' hpromise
  | @giveUp id op hop hphase hcancelled =>
      have hwoken := phase_of_ops hop
      rw [hphase] at hwoken
      by_cases hfree : s.sendBuf = []
      · rw [noLostWakeup_leave_iff hinv' hfree hwoken rfl]
        simp only [HandsOn, hop, Option.some.injEq, forall_eq', hcancelled]
        simp
      · refine iff_of_true (hpromise.of_busy hfree fun j frame hj => ?_)
          fun hlast => absurd hlast.2.1 hfree
        have hne : id ≠ j := by
          rintro rfl
          simp [Writing, hwoken] at hj
        exact hj.put hne _
  | @timeOut id op frame ec hop hphase htimeout =>
      exact iff_of_false (not_noLostWakeup_timedOut hinv hop hphase) fun hhands =>
        hhands op hop htimeout
  | @written id op frame ec hop hphase htimeout =>
      refine iff_of_true (noLostWakeup_written hinv hop hphase) fun op' hop' => ?_
      rw [hop, Option.some.injEq] at hop'
      exact hop' ▸ htimeout
  | @cancelWait id op type hop hphase hadmitted =>
      have hwaiting := phase_of_ops hop
      rw [hphase] at hwaiting
      exact iff_of_true (hpromise.put rfl rfl (by simp [hwaiting]) (by simp [Writing, hwaiting])
        (by simp)) trivial
  | @cancel id op type hop hphase hrefused =>
      refine iff_of_true (hpromise.of_phase rfl ?_ ?_ ?_) trivial
      all_goals simp [Writing, phase_put_cancellation hop]

/-- In a run whose steps all hand the send buffer on the promise is kept, and the next
step keeps it exactly when it hands the buffer on as well. -/
theorem noLostWakeup_of_run (es : List SendEvent) (os : List SendObs) (s : Sender)
    (hrun : machine.Run (fun s event _ => s.HandsOn event) es os s) :
    s.NoLostWakeup ∧ ∀ event s' obs, s.step event = some (s', obs) →
      (s'.NoLostWakeup ↔ s.HandsOn event) := by
  have hpromise : s.NoLostWakeup := by
    induction hrun with
    | refl => exact ⟨by simp [machine, phase], by simp [machine]⟩
    | snoc before hstep hhands ih =>
        exact (noLostWakeup_iff_of_move (move_of_step hstep) (inv_of_run before.anyStep) ih).mpr
          hhands
  exact ⟨hpromise, fun event s' obs hstep =>
    noLostWakeup_iff_of_move (move_of_step hstep) (inv_of_run hrun.anyStep) hpromise⟩

/-- One {lit}`unbind` has been written, the second is woken, and the third waits. -/
theorem noLostWakeup_of_run_unbind :
    ∃ es os s, machine.Run (fun s event _ => s.HandsOn event) es os s ∧
      s.sendBuf = [] ∧ s.phase 1 = some .woken ∧ s.phase 2 = some .waiting ∧
      (s.NoLostWakeup ∧ ∀ event s' obs, s.step event = some (s', obs) →
        (s'.NoLostWakeup ↔ s.HandsOn event)) := by
  have hsteps := EventMachine.steps_of_exec (M := machine) (s := machine.init)
    [.callNext 0 .unbind, .start 0, .callNext 1 .unbind, .start 1, .callNext 2 .unbind,
      .start 2, .writeDone 0 .success] rfl
  have hrun : machine.Run (fun s event _ => s.HandsOn event) _ _ _ := hsteps.restrict (by
    simp only [List.forall_mem_cons, HandsOn, implies_true, true_and]
    simp [TimedOut])
  exact ⟨_, _, _, hrun, rfl, rfl, rfl, noLostWakeup_of_run _ _ _ hrun⟩

/-- A response that waits to be sent and cannot be serialized: its identifier is longer
than the field. -/
def overlongResponse : SendKind :=
  .response .submitSmResp { messageId := List.replicate 66 0x31 } 1 .rok rfl

/-- Between two {lit}`unbind`s the overlong response is woken, fails, and wakes nobody. -/
theorem not_noLostWakeup_overlong :
    ¬ ∀ (es : List SendEvent) (os : List SendObs) (s : Sender),
      machine.Run EventMachine.anyStep es os s → s.NoLostWakeup := by
  intro hpromise
  have hrun := EventMachine.steps_of_exec (M := machine) (s := machine.init)
    [.callNext 0 .unbind, .start 0, .call 1 overlongResponse, .start 1,
      .callNext 2 .unbind, .start 2, .writeDone 0 .success, .resume 1] rfl
  rcases (hpromise _ _ _ hrun).woken ⟨2, rfl⟩ with ⟨j, frame, hwriting⟩ | ⟨j, hwoken⟩
  · exact (inv_of_run hrun).not_writing rfl frame hwriting
  · rcases j with _ | _ | _ | j
    · cases hwoken
    · cases hwoken
    · cases hwoken
    · cases hwoken

end Sender

end Smpp
