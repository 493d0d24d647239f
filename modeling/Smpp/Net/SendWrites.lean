import Smpp.Net.SendExclusion

/-!
# Writes that start and end

The writes of a run, counted by what they write.

Main results:

- Theorem {lit}`Sender.writes_move`: a step starts a write, ends the outstanding one, or
  leaves the writes alone.
- Theorem {lit}`Sender.balanced_of_run`: of the frames of each kind as many were started as
  were finished, and the outstanding one.
-/

namespace Smpp

namespace Sender

variable {s s' : Sender} {id : Nat} {event : SendEvent} {obs : List SendObs}

/-! ## What a step does to the writes -/

/-- The observation is about a write. -/
def IsWrite : SendObs → Prop
  | .writeStarted _ _ | .writeDone _ _ _ => True
  | .allocated _ | .completed _ _ _ _ => False

/-- What a step about operation {lit}`id` does to the writes. -/
inductive Writes (s : Sender) (id : Nat) (s' : Sender) : List SendObs → Prop
  | idle {obs : List SendObs} (hsilent : ∀ o ∈ obs, ¬ IsWrite o)
      (hsame : ∀ j frame, s'.Writing j frame ↔ s.Writing j frame) : Writes s id s' obs
  | start {obs : List SendObs} {frame : Octets} (hsilent : ∀ o ∈ obs, ¬ IsWrite o)
      (hfree : ∀ j frame, ¬ s.Writing j frame) (hwriting : s'.Writing id frame) :
      Writes s id s' (obs ++ [.writeStarted id frame])
  | finish {frame : Octets} {ec ec' : ErrorCode} {exit : SendExit} {n : UInt32}
      (hwriting : s.Writing id frame) (hfree : ∀ j frame, ¬ s'.Writing j frame) :
      Writes s id s' [.writeDone id frame ec, .completed id exit ec' n]

/-- Storing the state of an operation that neither wrote nor writes. -/
theorem writing_put_iff {t : Sender} {op : SendOp} (hops : t.ops = s.ops)
    (hbefore : ∀ frame, ¬ s.Writing id frame) (hafter : ∀ frame, op.phase ≠ .writing frame)
    (j : Nat) (frame : Octets) : (t.put id op).Writing j frame ↔ s.Writing j frame := by
  rw [Writing, phase_put]
  split
  · rename_i hj
    subst hj
    exact iff_of_false (by simpa using hafter frame) (hbefore frame)
  · rw [phase, hops]
    exact Iff.rfl

/-- Once the outstanding write has ended nobody writes. -/
theorem not_writing_of_finish (hinv : s.Inv) {frame : Octets} (hwriting : s.Writing id frame)
    (hkept : ∀ j g, s'.Writing j g → j ≠ id ∧ s.Writing j g) (j : Nat) (g : Octets) :
    ¬ s'.Writing j g := by
  intro hj
  rcases hkept j g hj with ⟨hne, hbefore⟩
  exact hne (hinv.alone j id g frame hbefore hwriting)

/-- Every step does one of the three. -/
theorem writes_move (hmove : Move s event s' obs) (hinv : s.Inv) :
    Writes s event.id s' obs := by
  cases hmove with
  | call hfresh kind =>
      exact .idle (by simp) (writing_put_iff rfl (by simp [Writing, phase, hfresh])
        (by simp))
  | callNext hfresh commandId =>
      exact .idle (by simp [IsWrite]) (writing_put_iff rfl
        (by simp [Writing, phase, hfresh]) (by simp))
  | @enter id event op hready s' obs henter =>
      rw [hready.id_eq]
      have hidle : ∀ frame, ¬ s.Writing id frame := by
        intro frame
        rcases hready.phase_eq with hphase | hphase <;> simp [Writing, hphase]
      cases henter with
      | wait hbusy => exact .idle (by simp) (writing_put_iff rfl hidle (by simp))
      | fail hfree hfill => exact .idle (by simp [IsWrite]) (writing_put_iff rfl hidle (by simp))
      | write hfree hfill hnumber =>
          refine .start ?_ (fun j frame => hinv.not_writing hfree frame) (phase_put_self _ _ _)
          rcases number_obs hnumber with rfl | ⟨n, rfl⟩ <;> simp [IsWrite]
  | giveUp hop hphase hcancelled =>
      exact .idle (by simp [IsWrite]) (writing_put_iff rfl
        (by simp [Writing, phase_of_ops hop, hphase]) (by simp))
  | @timeOut id op frame ec hop hphase htimeout =>
      have hwriting : s.Writing id frame := by rw [Writing, phase_of_ops hop, hphase]
      refine .finish hwriting (not_writing_of_finish hinv hwriting fun j g hj => ?_)
      rw [Writing, phase_put] at hj
      split at hj
      · cases hj
      · rename_i hne
        exact ⟨hne, hj⟩
  | @written id op frame ec hop hphase htimeout =>
      have hwriting : s.Writing id frame := by rw [Writing, phase_of_ops hop, hphase]
      refine .finish hwriting (not_writing_of_finish hinv hwriting fun j g hj => ?_)
      rw [Writing, phase_put] at hj
      split at hj
      · cases hj
      · rename_i hne
        refine ⟨hne, ?_⟩
        rcases hinv.cancelOne_cases [] with ⟨_, hsame⟩ | ⟨i, rest, op', _, hop', _, hsame⟩
        · rwa [hsame] at hj
        · rw [hsame, phase_put] at hj
          split at hj
          · cases hj
          · exact hj
  | cancelWait hop hphase hadmitted =>
      exact .idle (by simp) (writing_put_iff rfl
        (by simp [Writing, phase_of_ops hop, hphase]) (by simp))
  | cancel hop hphase hrefused =>
      exact .idle (by simp) fun j frame => by rw [Writing, phase_put_cancellation hop, Writing]

/-! ## The balance of a run -/

/-- The writes of frames with {lit}`p` that were started. -/
def startedFrames (p : Octets → Bool) (os : List SendObs) : Nat :=
  os.countP fun
    | .writeStarted _ frame => p frame
    | .allocated _ | .writeDone _ _ _ | .completed _ _ _ _ => false

/-- The writes of frames with {lit}`p` that have ended, one way or another. -/
def finishedFrames (p : Octets → Bool) (os : List SendObs) : Nat :=
  os.countP fun
    | .writeDone _ frame _ => p frame
    | .allocated _ | .writeStarted _ _ | .completed _ _ _ _ => false

/-- The frames with {lit}`p` that were written completely. -/
def writtenFrames (p : Octets → Bool) (os : List SendObs) : Nat :=
  os.countP fun
    | .writeDone _ frame ec => p frame && ec = .success
    | .allocated _ | .writeStarted _ _ | .completed _ _ _ _ => false

variable {p : Octets → Bool}

@[simp]
theorem startedFrames_append (os os' : List SendObs) :
    startedFrames p (os ++ os') = startedFrames p os + startedFrames p os' :=
  List.countP_append

@[simp]
theorem finishedFrames_append (os os' : List SendObs) :
    finishedFrames p (os ++ os') = finishedFrames p os + finishedFrames p os' :=
  List.countP_append

@[simp]
theorem writtenFrames_append (os os' : List SendObs) :
    writtenFrames p (os ++ os') = writtenFrames p os + writtenFrames p os' :=
  List.countP_append

/-- A frame that was written completely is finished. -/
theorem writtenFrames_le (p : Octets → Bool) (os : List SendObs) :
    writtenFrames p os ≤ finishedFrames p os := by
  refine List.countP_mono_left fun o _ ho => ?_
  cases o with
  | writeDone => exact (Bool.and_eq_true_iff.mp ho).1
  | allocated | writeStarted | completed => cases ho

theorem frames_of_silent (hsilent : ∀ o ∈ obs, ¬ IsWrite o) :
    startedFrames p obs = 0 ∧ finishedFrames p obs = 0 := by
  simp only [startedFrames, finishedFrames, List.countP_eq_zero]
  refine ⟨fun o hmem => ?_, fun o hmem => ?_⟩
  all_goals
    have := hsilent o hmem
    cases o <;> simp_all [IsWrite]

/-- Only the completion of a write finishes a frame. -/
theorem finishedFrames_eq_zero (hmove : Move s event s' obs)
    (hother : ∀ id ec, event ≠ .writeDone id ec) : finishedFrames p obs = 0 := by
  cases hmove with
  | call | callNext | giveUp | cancelWait | cancel => rfl
  | timeOut | written => exact absurd rfl (hother _ _)
  | enter hready henter =>
      cases henter with
      | wait | fail => rfl
      | write hfree hfill hnumber =>
          rcases number_obs hnumber with rfl | ⟨n, rfl⟩ <;> rfl

/-- The started writes of frames with {lit}`p` are the finished ones and the outstanding one. -/
def Balanced (p : Octets → Bool) (s : Sender) (os : List SendObs) : Prop :=
  (∃ id frame, s.Writing id frame ∧
    startedFrames p os = finishedFrames p os + if p frame then 1 else 0) ∨
  ((∀ id frame, ¬ s.Writing id frame) ∧ startedFrames p os = finishedFrames p os)

theorem balanced_writes {os : List SendObs} (hwrites : Writes s id s' obs) (hinv : s.Inv)
    (hbalanced : Balanced p s os) : Balanced p s' (os ++ obs) := by
  cases hwrites with
  | idle hsilent hsame =>
      rcases frames_of_silent (p := p) hsilent with ⟨hstarted, hfinished⟩
      simpa [Balanced, hsame, hstarted, hfinished] using hbalanced
  | @start o frame hsilent hfree hwriting =>
      rcases frames_of_silent (p := p) hsilent with ⟨hstarted, hfinished⟩
      rcases hbalanced with ⟨j, g, hj, _⟩ | ⟨_, heq⟩
      · exact absurd hj (hfree j g)
      · refine Or.inl ⟨id, frame, hwriting, ?_⟩
        simp only [startedFrames_append, finishedFrames_append, hstarted, hfinished, heq]
        simp [startedFrames, finishedFrames, List.countP_cons]
  | @finish frame ec ec' exit n hwriting hfree =>
      refine Or.inr ⟨hfree, ?_⟩
      rcases hbalanced with ⟨j, g, hj, heq⟩ | ⟨hnone, _⟩
      · obtain rfl : frame = g :=
          (hinv.sendBuf_eq hwriting).1.symm.trans (hinv.sendBuf_eq hj).1
        simp only [startedFrames_append, finishedFrames_append, heq]
        simp [startedFrames, finishedFrames, List.countP_cons]
      · exact absurd hwriting (hnone id frame)

/-- The writes of every run balance. -/
theorem balanced_of_run {es : List SendEvent}
    (hrun : machine.Run EventMachine.anyStep es obs s) (p : Octets → Bool) :
    Balanced p s obs := by
  induction hrun with
  | refl => exact Or.inr ⟨by simp [machine, Writing, phase], rfl⟩
  | snoc before hstep _ ih =>
      have hinv := inv_of_run before
      exact balanced_writes (writes_move (move_of_step hstep) hinv) hinv ih

end Sender

end Smpp
