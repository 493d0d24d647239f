import Smpp.Net.SendOp

/-!
# One writer at a time

The send buffer as a lock, over every interleaving of any number of operations.

Main results:

- Theorem {lit}`Sender.inv_of_run`: in every reachable state the operations in the queue
  of {lit}`send_cv_` are those that wait, at most one operation writes, and the send buffer
  is the frame it started to write.
- Theorem {lit}`Sender.sendBuf_of_writing`: while an operation writes, no other event
  changes the send buffer.
- Theorem {lit}`Sender.exclusive_writes`: writing is exclusive, frames are well formed,
  and no operation writes twice.
-/

namespace Smpp

namespace Sender

variable {s s' : Sender} {id : Nat} {op : SendOp} {event : SendEvent} {obs : List SendObs}

/-! ## Storing the state of an operation -/

@[simp]
theorem sendBuf_put (s : Sender) (id : Nat) (op : SendOp) : (s.put id op).sendBuf = s.sendBuf :=
  rfl

@[simp]
theorem sendCv_put (s : Sender) (id : Nat) (op : SendOp) : (s.put id op).sendCv = s.sendCv :=
  rfl

theorem ops_put (s : Sender) (id : Nat) (op : SendOp) (j : Nat) :
    (s.put id op).ops j = if j = id then some op else s.ops j :=
  Function.update_apply _ _ _ _

theorem ops_put_self (s : Sender) (id : Nat) (op : SendOp) : (s.put id op).ops id = some op := by
  rw [ops_put, if_pos rfl]

theorem phase_put (s : Sender) (id : Nat) (op : SendOp) (j : Nat) :
    (s.put id op).phase j = if j = id then some op.phase else s.phase j := by
  unfold phase
  rw [ops_put]
  split <;> rfl

@[simp]
theorem phase_put_self (s : Sender) (id : Nat) (op : SendOp) :
    (s.put id op).phase id = some op.phase := by
  rw [phase_put, if_pos rfl]

theorem phase_put_of_ne (s : Sender) {id j : Nat} (op : SendOp) (hne : j ≠ id) :
    (s.put id op).phase j = s.phase j := by
  rw [phase_put, if_neg hne]

theorem phase_of_ops (hop : s.ops id = some op) : s.phase id = some op.phase := by
  rw [phase, hop]
  rfl

/-- Recording a cancellation changes no phase. -/
theorem phase_put_cancellation (hop : s.ops id = some op) (cancellation : CancellationState)
    (j : Nat) : (s.put id { op with cancellation := cancellation }).phase j = s.phase j := by
  rw [phase_put]
  split
  · rename_i hj
    rw [hj, phase_of_ops hop]
  · rfl

/-- An operation that is about to test the waiting loop does not wait. -/
theorem Ready.phase_eq (hready : Ready s id event op) :
    s.phase id = some .created ∨ s.phase id = some .woken := by
  cases hready with
  | start hop hphase =>
      rw [phase_of_ops hop, hphase]
      exact Or.inl rfl
  | resume hop hphase hcancelled =>
      rw [phase_of_ops hop, hphase]
      exact Or.inr rfl

/-! ## The invariant -/

/-- Operation {lit}`id` has a write of {lit}`frame` outstanding. -/
def Writing (s : Sender) (id : Nat) (frame : Octets) : Prop :=
  s.phase id = some (.writing frame)

/-- The frame is what the operation has to send, under the number it was given if it
was given one. -/
def Sends (op : SendOp) (frame : Octets) : Prop :=
  ∃ sendBuf, op.kind.fillBody = .ok sendBuf ∧
    frame = op.kind.frame sendBuf op.sequenceNumber ∧
    ∀ n, op.kind.givenNumber = some n → op.sequenceNumber = n

/-- What holds of the send buffer, its queue and its writer. -/
structure Inv (s : Sender) : Prop where
  queued : ∀ id, id ∈ s.sendCv ↔ s.phase id = some .waiting
  nodup : s.sendCv.Nodup
  owned : ∀ id op frame, s.ops id = some op → op.phase = .writing frame →
    s.sendBuf = frame ∧ Sends op frame
  alone : ∀ i j f g, s.Writing i f → s.Writing j g → i = j

theorem Sends.ne_nil {frame : Octets} (hsends : Sends op frame) : frame ≠ [] := by
  rcases hsends with ⟨sendBuf, hfill, rfl, _⟩
  exact SendKind.frame_ne_nil hfill _

/-- An operation that writes has its state on record. -/
theorem Writing.exists_op {frame : Octets} (hwriting : s.Writing id frame) :
    ∃ op, s.ops id = some op ∧ op.phase = .writing frame := by
  unfold Writing phase at hwriting
  cases hop : s.ops id with
  | none => simp [hop] at hwriting
  | some op => exact ⟨op, rfl, by simpa [hop] using hwriting⟩

/-- While an operation writes the send buffer is its frame. -/
theorem Inv.sendBuf_eq (hinv : s.Inv) {frame : Octets} (hwriting : s.Writing id frame) :
    s.sendBuf = frame ∧ frame ≠ [] := by
  rcases hwriting.exists_op with ⟨op, hop, hphase⟩
  rcases hinv.owned id op frame hop hphase with ⟨hbuf, hsends⟩
  exact ⟨hbuf, hsends.ne_nil⟩

/-- A free send buffer has no writer. -/
theorem Inv.not_writing (hinv : s.Inv) (hfree : s.sendBuf = []) (frame : Octets) :
    ¬ s.Writing id frame := by
  intro hwriting
  rcases hinv.sendBuf_eq hwriting with ⟨hbuf, hne⟩
  exact hne (hbuf.symm.trans hfree)

/-- {lit}`cancel_one` wakes the operation at the front of the queue. -/
theorem Inv.cancelOne_cases (hinv : s.Inv) (sendBuf : Octets) :
    (s.sendCv = [] ∧ { s with sendBuf := sendBuf }.cancelOne = { s with sendBuf := sendBuf }) ∨
      ∃ i rest op, s.sendCv = i :: rest ∧ s.ops i = some op ∧ op.phase = .waiting ∧
        { s with sendBuf := sendBuf }.cancelOne =
          { s with sendBuf := sendBuf, sendCv := rest }.put i { op with phase := .woken } := by
  cases hcv : s.sendCv with
  | nil =>
      refine Or.inl ⟨rfl, ?_⟩
      simp only [cancelOne]
  | cons i rest =>
      have hwaiting := (hinv.queued i).mp (by rw [hcv]; exact List.mem_cons_self)
      cases hop : s.ops i with
      | none => simp [phase, hop] at hwaiting
      | some op =>
          refine Or.inr ⟨i, rest, op, rfl, hop, ?_, ?_⟩
          · simpa [phase, hop] using hwaiting
          · simp only [cancelOne, hop]

/-- Operations whose phase is kept or set to one that is neither waiting nor writing
keep the invariant, as long as the queue stays the list of the waiting ones. -/
theorem Inv.put (hinv : s.Inv) (sendCv : List Nat) (sequenceNumber : UInt32)
    (hqueued : ∀ j, j ∈ sendCv ↔ (s.put id op).phase j = some .waiting)
    (hnodup : sendCv.Nodup) (hidle : ∀ frame, op.phase ≠ .writing frame) :
    ({ s with sendCv := sendCv, sequenceNumber := sequenceNumber }.put id op).Inv := by
  have hbefore : ∀ {j frame}, (s.put id op).Writing j frame → s.Writing j frame := by
    intro j frame hwriting
    by_cases hj : j = id
    · subst hj
      rw [Writing, phase_put_self] at hwriting
      injection hwriting with hphase
      exact absurd hphase (hidle frame)
    · rwa [Writing, phase_put_of_ne s op hj] at hwriting
  refine ⟨hqueued, hnodup, ?_, fun i j f g hi hj => hinv.alone i j f g (hbefore hi) (hbefore hj)⟩
  intro j op' frame hop' hphase
  have hop' : (if j = id then some op else s.ops j) = some op' := by rwa [← ops_put]
  split at hop'
  · injection hop' with hsame
    subst hsame
    exact absurd hphase (hidle frame)
  · exact hinv.owned j op' frame hop' hphase

/-- The queue is unaffected by an operation that does not wait before or after. -/
theorem Inv.queued_put (hinv : s.Inv) (hbefore : s.phase id ≠ some .waiting)
    (hafter : op.phase ≠ .waiting) (j : Nat) :
    j ∈ s.sendCv ↔ (s.put id op).phase j = some .waiting := by
  rw [hinv.queued j, phase_put]
  split
  · rename_i hj
    subst hj
    simp [hbefore, hafter]
  · rfl

/-- Waiting puts an operation at the end of the queue. -/
theorem inv_wait (hinv : s.Inv) (hphase : s.phase id ≠ some .waiting) :
    ({ s with sendCv := s.sendCv ++ [id] }.put id { op with phase := .waiting }).Inv := by
  have hnotMem : id ∉ s.sendCv := fun hmem => hphase ((hinv.queued id).mp hmem)
  refine hinv.put (s.sendCv ++ [id]) s.sequenceNumber ?_ ?_ (by simp)
  · intro j
    rw [List.mem_append, List.mem_singleton, hinv.queued j, phase_put]
    split
    · rename_i hj
      simp [hj]
    · rename_i hj
      simp [hj]
  · rw [List.nodup_append]
    exact ⟨hinv.nodup, List.pairwise_singleton _ id, fun i hi j hj hij =>
      hnotMem (List.mem_singleton.mp hj ▸ hij ▸ hi)⟩

/-- A free send buffer becomes the frame of the operation that takes it. -/
theorem inv_write (hinv : s.Inv) (hphase : s.phase id ≠ some .waiting) (hfree : s.sendBuf = [])
    {frame : Octets} (hwriting : op.phase = .writing frame) (hsends : Sends op frame)
    (next : UInt32) :
    ({ s with sendBuf := frame, sequenceNumber := next }.put id op).Inv := by
  have hnew : ∀ {j g}, ({ s with sendBuf := frame, sequenceNumber := next }.put id op).Writing
      j g → j = id := by
    intro j g hj
    by_contra hne
    rw [Writing, phase_put_of_ne _ op hne] at hj
    exact hinv.not_writing hfree g hj
  refine ⟨hinv.queued_put hphase (by simp [hwriting]), hinv.nodup, ?_,
    fun i j f g hi hj => (hnew hi).trans (hnew hj).symm⟩
  intro j op' g hop' hphase'
  have hj : j = id := hnew (g := g) (by rw [Writing, phase_of_ops hop', hphase'])
  rw [ops_put, if_pos hj] at hop'
  injection hop' with hsame
  subst hsame
  rw [hwriting] at hphase'
  injection hphase' with hframe
  exact hframe ▸ ⟨rfl, hsends⟩

/-- A frame is built under the number that the operation is given. -/
theorem sends_of_number {sendBuf : Octets} {next sequenceNumber : UInt32}
    (hfill : op.kind.fillBody = .ok sendBuf)
    (hnumber : s.number op.kind = ({ s with sequenceNumber := next }, sequenceNumber, obs))
    (phase : SendPhase) (cancellation : CancellationState) :
    Sends ⟨op.kind, phase, sequenceNumber, cancellation⟩
      (op.kind.frame sendBuf sequenceNumber) := by
  refine ⟨sendBuf, hfill, rfl, fun n hgiven => ?_⟩
  have hgiven : op.kind.givenNumber = some n := hgiven
  rcases number_cases hnumber with ⟨hsent, _⟩ | ⟨hnone, _⟩
  · rw [hgiven, Option.some.injEq] at hsent
    exact hsent.symm
  · rw [hgiven] at hnone
    cases hnone

/-- Clearing the buffer of the only writer and waking the front of the queue. -/
theorem inv_written (hinv : s.Inv) {frame : Octets} (hop : s.ops id = some op)
    (hphase : op.phase = .writing frame) :
    ({ s with sendBuf := [] }.cancelOne.put id { op with phase := .done }).Inv := by
  have hwriting : s.Writing id frame := by rw [Writing, phase_of_ops hop, hphase]
  have hidle : ∀ j g, ({ s with sendBuf := [] }.cancelOne.put id
      { op with phase := .done }).Writing j g → False := by
    intro j g hj
    by_cases hne : j = id
    · subst hne
      simp [Writing] at hj
    · rw [Writing, phase_put_of_ne _ _ hne] at hj
      rcases hinv.cancelOne_cases [] with ⟨_, hsame⟩ | ⟨i, rest, op', hcv, hop', hwait, hsame⟩
      · rw [hsame] at hj
        exact hne (hinv.alone j id g frame hj hwriting)
      · rw [hsame, phase_put] at hj
        split at hj
        · simp at hj
        · exact hne (hinv.alone j id g frame hj hwriting)
  have hqueue : (∀ j, j ∈ ({ s with sendBuf := [] }.cancelOne).sendCv ↔
      ({ s with sendBuf := [] }.cancelOne.put id { op with phase := .done }).phase j =
        some .waiting) ∧ ({ s with sendBuf := [] }.cancelOne).sendCv.Nodup := by
    have hbusy : s.phase id ≠ some .waiting := by rw [phase_of_ops hop, hphase]; simp
    rcases hinv.cancelOne_cases [] with ⟨_, hsame⟩ | ⟨i, rest, op', hcv, hop', hwait, hsame⟩
    · rw [hsame]
      exact ⟨hinv.queued_put hbusy (by simp), hinv.nodup⟩
    · have hnodup := hinv.nodup
      rw [hcv, List.nodup_cons] at hnodup
      rw [hsame]
      refine ⟨fun j => ?_, hnodup.2⟩
      have hqueued := hinv.queued j
      rw [hcv, List.mem_cons] at hqueued
      rw [sendCv_put, phase_put, phase_put]
      by_cases hj : j = id
      · subst hj
        rw [if_pos rfl]
        simp only [hbusy, iff_false, not_or] at hqueued
        simp [hqueued.2]
      · rw [if_neg hj]
        by_cases hi : j = i
        · subst hi
          simp [hnodup.1]
        · rw [if_neg hi]
          have hrest : j ∈ rest ↔ s.phase j = some .waiting := by simpa [hi] using hqueued
          exact hrest
  refine ⟨hqueue.1, hqueue.2, ?_, fun i j f g hi _ => (hidle i f hi).elim⟩
  intro j op' g hop' hphase'
  exact (hidle j g (by rw [Writing, phase_of_ops hop', hphase'])).elim

/-- An admitted cancellation takes a waiting operation out of the queue. -/
theorem inv_cancelWait (hinv : s.Inv) (cancellation : CancellationState) :
    ({ s with sendCv := s.sendCv.filter (· ≠ id) }.put id
      { op with phase := .woken, cancellation := cancellation }).Inv := by
  refine hinv.put _ s.sequenceNumber ?_ (hinv.nodup.filter _) (by simp)
  intro j
  rw [List.mem_filter, hinv.queued j, phase_put]
  split
  · rename_i hj
    simp [hj]
  · rename_i hj
    simp [hj]

/-- Every step keeps the invariant. -/
theorem inv_move (hmove : Move s event s' obs) (hinv : s.Inv) : s'.Inv := by
  cases hmove with
  | @call id hfresh kind =>
      have hnone : s.phase id ≠ some .waiting := by simp [phase, hfresh]
      exact hinv.put s.sendCv s.sequenceNumber (hinv.queued_put hnone (by simp)) hinv.nodup
        (by simp)
  | @callNext id hfresh commandId =>
      have hnone : s.phase id ≠ some .waiting := by simp [phase, hfresh]
      exact hinv.put s.sendCv _ (hinv.queued_put hnone (by simp)) hinv.nodup (by simp)
  | @enter id event op hready s' obs henter =>
      have hphase : s.phase id ≠ some .waiting := by
        rcases hready.phase_eq with hphase | hphase <;> simp [hphase]
      cases henter with
      | wait hbusy => exact inv_wait hinv hphase
      | fail hfree hfill =>
          exact hinv.put s.sendCv s.sequenceNumber (hinv.queued_put hphase (by simp)) hinv.nodup
            (by simp)
      | write hfree hfill hnumber =>
          exact inv_write hinv hphase hfree rfl (sends_of_number hfill hnumber _ _) _
  | @giveUp id op hop hphase hcancelled =>
      have hbefore : s.phase id ≠ some .waiting := by simp [phase_of_ops hop, hphase]
      exact hinv.put s.sendCv s.sequenceNumber (hinv.queued_put hbefore (by simp)) hinv.nodup
        (by simp)
  | @timeOut id op frame ec hop hphase htimeout =>
      have hbefore : s.phase id ≠ some .waiting := by simp [phase_of_ops hop, hphase]
      exact hinv.put s.sendCv s.sequenceNumber (hinv.queued_put hbefore (by simp)) hinv.nodup
        (by simp)
  | written hop hphase htimeout => exact inv_written hinv hop hphase
  | cancelWait hop hphase hadmitted => exact inv_cancelWait hinv _
  | @cancel id op type hop hphase hrefused =>
      have hsame := phase_put_cancellation hop (op.cancellation.request type)
      refine ⟨fun j => by rw [hsame]; exact hinv.queued j, hinv.nodup, ?_, ?_⟩
      · intro j op' frame hop' hphase'
        rw [ops_put] at hop'
        split at hop'
        · injection hop' with heq
          subst heq
          exact hinv.owned id op frame hop hphase'
        · exact hinv.owned j op' frame hop' hphase'
      · intro i j f g hi hj
        rw [Writing, hsame] at hi hj
        exact hinv.alone i j f g hi hj

/-- The invariant holds in every reachable state. -/
theorem inv_of_run {es : List SendEvent} (hrun : machine.Run EventMachine.anyStep es obs s) :
    s.Inv := by
  refine hrun.invariant (fun _ _ s => s.Inv) ?_
    fun _ _ _ _ _ _ hinv hstep _ => inv_move (move_of_step hstep) hinv
  exact ⟨by simp [machine, phase], List.nodup_nil, by simp [machine], by
    simp [machine, Writing, phase]⟩

/-! ## Nobody else touches the send buffer -/

theorem Writing.put {frame : Octets} {j : Nat} (hwriting : s.Writing id frame) (hne : j ≠ id)
    (op : SendOp) : (s.put j op).Writing id frame := by
  rw [Writing, phase_put_of_ne s op hne.symm]
  exact hwriting

/-- While an operation writes, every event except the completion of its write leaves
the send buffer alone. -/
theorem sendBuf_of_writing (hmove : Move s event s' obs) (hinv : s.Inv) {frame : Octets}
    (hwriting : s.Writing id frame) (hother : ∀ ec, event ≠ .writeDone id ec) :
    s'.sendBuf = frame ∧ s'.Writing id frame := by
  have hbuf := (hinv.sendBuf_eq hwriting).1
  have hne : ∀ {j : Nat}, s.phase j ≠ some (.writing frame) → j ≠ id := by
    rintro j hphase rfl
    exact hphase hwriting
  cases hmove with
  | call hfresh kind =>
      exact ⟨hbuf, hwriting.put (hne (by simp [phase, hfresh])) _⟩
  | callNext hfresh commandId =>
      exact ⟨hbuf, hwriting.put (hne (by simp [phase, hfresh])) _⟩
  | enter hready henter =>
      cases henter with
      | wait hbusy =>
          refine ⟨hbuf, hwriting.put (hne ?_) _⟩
          rcases hready.phase_eq with hphase | hphase <;> simp [hphase]
      | fail hfree hfill => exact absurd hwriting (hinv.not_writing hfree frame)
      | write hfree hfill hnumber => exact absurd hwriting (hinv.not_writing hfree frame)
  | giveUp hop hphase hcancelled =>
      exact ⟨hbuf, hwriting.put (hne (by simp [phase_of_ops hop, hphase])) _⟩
  | timeOut hop hphase htimeout =>
      exact ⟨hbuf, hwriting.put (fun heq => hother _ (by rw [heq])) _⟩
  | @written j op g ec hop hphase htimeout =>
      have hwriter : s.Writing j g := by rw [Writing, phase_of_ops hop, hphase]
      exact absurd (congrArg (SendEvent.writeDone · ec)
        (hinv.alone j id g frame hwriter hwriting)) (hother ec)
  | cancelWait hop hphase hadmitted =>
      exact ⟨hbuf, hwriting.put (hne (by simp [phase_of_ops hop, hphase])) _⟩
  | @cancel j op type hop hphase hrefused =>
      exact ⟨hbuf, (phase_put_cancellation hop _ id).trans hwriting⟩

/-! ## What a step does to each operation -/

/-- Numbering an operation shows at most the number. -/
theorem number_obs {kind : SendKind} {next sequenceNumber : UInt32}
    (hnumber : s.number kind = ({ s with sequenceNumber := next }, sequenceNumber, obs)) :
    obs = [] ∨ ∃ n, obs = [.allocated n] := by
  rcases number_cases hnumber with ⟨_, _, hobs⟩ | ⟨_, _, _, hobs⟩
  · exact Or.inl hobs
  · exact Or.inr ⟨_, hobs⟩

theorem Ready.id_eq (hready : Ready s id event op) : event.id = id := by
  cases hready <;> rfl

theorem Ready.exists_op (hready : Ready s id event op) :
    ∃ before, s.ops id = some before ∧ op.kind = before.kind := by
  cases hready with
  | start hop hphase => exact ⟨_, hop, rfl⟩
  | resume hop hphase hcancelled => exact ⟨_, hop, rfl⟩

/-- An event wakes at most one operation and leaves the others alone. -/
theorem ops_move_of_ne (hmove : Move s event s' obs) (hinv : s.Inv) {j : Nat}
    (hj : j ≠ event.id) :
    s'.ops j = s.ops j ∨ ∃ op, s.ops j = some op ∧ op.phase = .waiting ∧
      s'.ops j = some { op with phase := .woken } := by
  have hput : ∀ (t : Sender) (op : SendOp), (t.put event.id op).ops j = t.ops j :=
    fun t op => by rw [ops_put, if_neg hj]
  cases hmove with
  | call hfresh kind | callNext hfresh commandId | giveUp hop hphase hcancelled
  | timeOut hop hphase htimeout | cancelWait hop hphase hadmitted | cancel hop hphase hrefused =>
      exact Or.inl (hput _ _)
  | enter hready henter =>
      rw [hready.id_eq] at hput
      cases henter with
      | wait hbusy | fail hfree hfill | write hfree hfill hnumber => exact Or.inl (hput _ _)
  | written hop hphase htimeout =>
      simp only [SendEvent.id] at hj
      rw [ops_put, if_neg hj]
      rcases hinv.cancelOne_cases [] with ⟨_, hsame⟩ | ⟨i, rest, op', hcv, hop', hwait, hsame⟩
      · rw [hsame]
        exact Or.inl rfl
      · rw [hsame, ops_put]
        split
        · rename_i hi
          exact Or.inr ⟨op', hi ▸ hop', hwait, rfl⟩
        · exact Or.inl rfl

/-- The operation an event is about keeps what it sends. -/
theorem own_op_move (hmove : Move s event s' obs) (hop : s.ops event.id = some op) :
    ∃ op', s'.ops event.id = some op' ∧ op'.kind = op.kind ∧ op'.phase ≠ .created := by
  cases hmove with
  | call hfresh kind | callNext hfresh commandId => exact absurd hop (by simp [SendEvent.id, hfresh])
  | @enter id event op' hready s' obs henter =>
      rcases hready.exists_op with ⟨before, hbefore, hkind⟩
      rw [hready.id_eq, hbefore, Option.some.injEq] at hop
      rw [hready.id_eq]
      cases henter with
      | wait hbusy | fail hfree hfill | write hfree hfill hnumber =>
          exact ⟨_, ops_put_self _ _ _, hkind.trans (congrArg SendOp.kind hop), by simp⟩
  | giveUp hop' hphase hcancelled | timeOut hop' hphase htimeout | written hop' hphase htimeout
  | cancelWait hop' hphase hadmitted =>
      have heq := hop'.symm.trans hop
      rw [Option.some.injEq] at heq
      exact ⟨_, ops_put_self _ _ _, by rw [← heq], by simp⟩
  | cancel hop' hphase hrefused =>
      have heq := hop'.symm.trans hop
      rw [Option.some.injEq] at heq
      exact ⟨_, ops_put_self _ _ _, by rw [← heq], hphase.1⟩

/-- Exactly the operation that is done after the event completes in it. -/
theorem completed_iff (hmove : Move s event s' obs) (id : Nat) :
    (∃ exit ec n, .completed id exit ec n ∈ obs) ↔
      id = event.id ∧ s'.phase id = some .done := by
  have hother : ∀ {j : Nat} {phase : SendPhase} {t : Sender} {op : SendOp}, op.phase = phase →
      phase ≠ .done → ¬ (id = j ∧ (t.put j op).phase id = some .done) := by
    rintro j phase t op hphase hne ⟨rfl, hdone⟩
    rw [phase_put_self, Option.some.injEq] at hdone
    exact hne (hphase ▸ hdone)
  have hself : ∀ (j : Nat) (t : Sender) (op : SendOp),
      id = j ↔ id = j ∧ (t.put j { op with phase := .done }).phase id = some .done := by
    intro j t op
    refine ⟨?_, And.left⟩
    rintro rfl
    exact ⟨rfl, phase_put_self _ _ _⟩
  cases hmove with
  | call hfresh kind | callNext hfresh commandId | cancelWait hop hphase hadmitted =>
      exact iff_of_false (by simp) (hother rfl (by simp))
  | cancel hop hphase hrefused => exact iff_of_false (by simp) (hother rfl hphase.2)
  | enter hready henter =>
      rw [hready.id_eq]
      cases henter with
      | wait hbusy => exact iff_of_false (by simp) (hother rfl (by simp))
      | fail hfree hfill =>
          rw [← hself]
          simp
      | write hfree hfill hnumber =>
          refine iff_of_false ?_ (hother rfl (by simp))
          rcases number_obs hnumber with rfl | ⟨n, rfl⟩ <;> simp
  | giveUp hop hphase hcancelled | timeOut hop hphase htimeout | written hop hphase htimeout =>
      rw [SendEvent.id, ← hself]
      simp

/-- An event about an operation that completed is not enabled. -/
theorem not_done_of_move (hmove : Move s event s' obs) : s.phase event.id ≠ some .done := by
  cases hmove with
  | call hfresh kind | callNext hfresh commandId => simp [phase, SendEvent.id, hfresh]
  | enter hready henter =>
      rw [hready.id_eq]
      rcases hready.phase_eq with hphase | hphase <;> simp [hphase]
  | giveUp hop hphase hcancelled | timeOut hop hphase htimeout | written hop hphase htimeout
  | cancelWait hop hphase hadmitted =>
      simp [SendEvent.id, phase_of_ops hop, hphase]
  | cancel hop hphase hrefused => simp [SendEvent.id, phase_of_ops hop, hphase.2]

/-- An operation that was initiated stays, keeps what it sends, and is done only when it
completes. -/
theorem exists_op_move (hmove : Move s event s' obs) (hinv : s.Inv)
    (hop : s.ops id = some op) (hcreated : op.phase ≠ .created) (hdone : op.phase ≠ .done)
    (hpending : ∀ exit ec n, .completed id exit ec n ∉ obs) :
    ∃ op', s'.ops id = some op' ∧ op'.kind = op.kind ∧ op'.phase ≠ .created ∧
      op'.phase ≠ .done := by
  by_cases hid : id = event.id
  · subst hid
    rcases own_op_move hmove hop with ⟨op', hop', hkind, hcreated'⟩
    refine ⟨op', hop', hkind, hcreated', fun hdone' => ?_⟩
    obtain ⟨exit, ec, n, hmem⟩ :=
      (completed_iff hmove event.id).mpr ⟨rfl, by rw [phase_of_ops hop', hdone']⟩
    exact hpending exit ec n hmem
  · rcases ops_move_of_ne hmove hinv hid with hsame | ⟨op₀, hop₀, _, hwoken⟩
    · exact ⟨op, hsame.trans hop, rfl, hcreated, hdone⟩
    · rw [hop, Option.some.injEq] at hop₀
      exact ⟨_, hwoken, by rw [hop₀], by simp, by simp⟩

/-- An operation that is done stays so. -/
theorem done_move (hmove : Move s event s' obs) (hinv : s.Inv)
    (hdone : s.phase id = some .done) : s'.phase id = some .done := by
  have hid : id ≠ event.id := by
    rintro rfl
    exact not_done_of_move hmove hdone
  rcases ops_move_of_ne hmove hinv hid with hsame | ⟨op, hop, hwait, _⟩
  · rwa [phase, hsame]
  · rw [phase_of_ops hop, hwait] at hdone
    cases hdone

/-- An operation keeps what it sends. -/
theorem op_move (hmove : Move s event s' obs) (hinv : s.Inv) (hop : s.ops id = some op) :
    ∃ op', s'.ops id = some op' ∧ op'.kind = op.kind := by
  by_cases hid : id = event.id
  · subst hid
    rcases own_op_move hmove hop with ⟨op', hop', hkind, _⟩
    exact ⟨op', hop', hkind⟩
  · rcases ops_move_of_ne hmove hinv hid with hsame | ⟨op₀, hop₀, _, hwoken⟩
    · exact ⟨op, hsame.trans hop, rfl⟩
    · rw [hop, Option.some.injEq] at hop₀
      exact ⟨_, hwoken, by rw [hop₀]⟩

/-- A write goes on until it ends, and then the operation is done. -/
theorem writing_move (hmove : Move s event s' obs) (hinv : s.Inv) {frame : Octets}
    (hwriting : s.Writing id frame) : s'.Writing id frame ∨ s'.phase id = some .done := by
  by_cases hother : ∀ ec, event ≠ .writeDone id ec
  · exact Or.inl (sendBuf_of_writing hmove hinv hwriting hother).2
  · rw [not_forall] at hother
    rcases hother with ⟨ec, hevent⟩
    rw [ne_eq, not_not] at hevent
    subst hevent
    right
    cases hmove with
    | timeOut | written => exact phase_put_self _ _ _
    | enter hready henter => cases hready

/-- A command that is initiated writes or waits. -/
theorem start_command (hmove : Move s (.start id) s' obs) {commandId : CommandId} {n : UInt32}
    (hop : s.ops id = some op) (hkind : op.kind = .command commandId n) :
    ∃ op', s'.ops id = some op' ∧ op'.kind = op.kind ∧ op'.phase ≠ .created ∧
      op'.phase ≠ .done := by
  cases hmove with
  | enter hready henter =>
      cases hready with
      | start hop' hphase =>
          rw [hop, Option.some.injEq] at hop'
          subst hop'
          cases henter with
          | wait hbusy => exact ⟨_, ops_put_self _ _ _, rfl, by simp, by simp⟩
          | fail hfree hfill => simp [hkind, SendKind.fillBody] at hfill
          | write hfree hfill hnumber =>
              exact ⟨_, ops_put_self _ _ _, rfl, by simp, by simp⟩

/-! ## Nobody writes twice -/

/-- The observation is the start of a write by operation {lit}`id`. -/
def isStart (id : Nat) : SendObs → Bool
  | .writeStarted j _ => j == id
  | .allocated _ | .writeDone _ _ _ | .completed _ _ _ _ => false

/-- The number of writes operation {lit}`id` has started. -/
def startedWrites (id : Nat) (os : List SendObs) : Nat :=
  os.countP (isStart id)

/-- Operation {lit}`id` completed because it was cancelled while it waited or because its
PDU could not be serialized. -/
def GaveUp (id : Nat) (os : List SendObs) : Prop :=
  ∃ exit ec sequenceNumber, .completed id exit ec sequenceNumber ∈ os ∧
    (exit = .whileWaiting ∨ exit = .notSerialized)

/-- What an operation has shown, by where it is. -/
def History (phase : Option SendPhase) (starts : Nat) (gaveUp : Prop) : Prop :=
  match phase with
  | none | some .created | some .waiting | some .woken => starts = 0 ∧ ¬ gaveUp
  | some (.writing _) => starts = 1 ∧ ¬ gaveUp
  | some .done => starts ≤ 1 ∧ (gaveUp → starts = 0)

theorem startedWrites_append (id : Nat) (os os' : List SendObs) :
    startedWrites id (os ++ os') = startedWrites id os + startedWrites id os' :=
  List.countP_append

theorem gaveUp_append (id : Nat) (os os' : List SendObs) :
    GaveUp id (os ++ os') ↔ GaveUp id os ∨ GaveUp id os' := by
  simp only [GaveUp, List.mem_append, or_and_right, exists_or]

theorem startedWrites_number {kind : SendKind} {next sequenceNumber : UInt32}
    (hnumber : s.number kind = ({ s with sequenceNumber := next }, sequenceNumber, obs))
    (id : Nat) : startedWrites id obs = 0 ∧ ¬ GaveUp id obs := by
  rcases number_obs hnumber with rfl | ⟨n, rfl⟩ <;> simp [startedWrites, isStart, GaveUp]

/-- An event shows nothing about the operations it is not about. -/
theorem silent_of_ne (hmove : Move s event s' obs) {j : Nat} (hj : j ≠ event.id) :
    startedWrites j obs = 0 ∧ ¬ GaveUp j obs := by
  cases hmove with
  | call hfresh kind | callNext hfresh commandId | cancelWait hop hphase hadmitted
  | cancel hop hphase hrefused | timeOut hop hphase htimeout | written hop hphase htimeout =>
      simp [startedWrites, isStart, GaveUp]
  | giveUp hop hphase hcancelled =>
      simp only [SendEvent.id] at hj
      simp [startedWrites, isStart, GaveUp, hj]
  | enter hready henter =>
      rw [hready.id_eq] at hj
      cases henter with
      | wait hbusy => simp [startedWrites, GaveUp]
      | fail hfree hfill => simp [startedWrites, isStart, GaveUp, hj]
      | write hfree hfill hnumber =>
          rcases startedWrites_number hnumber j with ⟨hstarts, hgaveUp⟩
          rw [startedWrites_append, hstarts, gaveUp_append, not_or]
          exact ⟨by simp [startedWrites, isStart, hj.symm], hgaveUp, by simp [GaveUp]⟩

/-- What an event adds to the history of the operation it is about. -/
theorem own_move (hmove : Move s event s' obs) {starts : Nat} {gaveUp : Prop}
    (hhistory : History (s.phase event.id) starts gaveUp) :
    History (s'.phase event.id) (starts + startedWrites event.id obs)
      (gaveUp ∨ GaveUp event.id obs) := by
  cases hmove with
  | @call id hfresh kind =>
      have hbefore : s.phase id = none := by simp [phase, hfresh]
      simp only [SendEvent.id, hbefore, phase_put_self, History] at hhistory ⊢
      simpa [startedWrites, GaveUp] using hhistory
  | @callNext id hfresh commandId =>
      have hbefore : s.phase id = none := by simp [phase, hfresh]
      simp only [SendEvent.id, hbefore, phase_put_self, History] at hhistory ⊢
      simpa [startedWrites, isStart, GaveUp] using hhistory
  | @enter id event op hready s' obs henter =>
      rw [hready.id_eq] at hhistory ⊢
      have hbefore : starts = 0 ∧ ¬ gaveUp := by
        rcases hready.phase_eq with hphase | hphase <;> rwa [hphase] at hhistory
      cases henter with
      | wait hbusy =>
          rw [phase_put_self]
          simpa [History, startedWrites, GaveUp] using hbefore
      | fail hfree hfill =>
          rw [phase_put_self]
          simp [History, startedWrites, isStart, hbefore.1]
      | write hfree hfill hnumber =>
          rcases startedWrites_number hnumber id with ⟨hstarts, hgaveUp⟩
          rw [phase_put_self, startedWrites_append, gaveUp_append, hstarts, hbefore.1]
          refine ⟨by simp [startedWrites, isStart], ?_⟩
          simp only [hbefore.2, hgaveUp, false_or]
          simp [GaveUp]
  | giveUp hop hphase hcancelled =>
      simp only [SendEvent.id, phase_of_ops hop, hphase, phase_put_self, History] at hhistory ⊢
      simp [startedWrites, isStart, hhistory.1]
  | timeOut hop hphase htimeout | written hop hphase htimeout =>
      simp only [SendEvent.id, phase_of_ops hop, hphase, phase_put_self, History] at hhistory ⊢
      simp [startedWrites, isStart, GaveUp, hhistory.1, hhistory.2]
  | cancelWait hop hphase hadmitted =>
      simp only [SendEvent.id, phase_of_ops hop, hphase, phase_put_self, History] at hhistory ⊢
      simpa [startedWrites, GaveUp] using hhistory
  | cancel hop hphase hrefused =>
      simp only [SendEvent.id, phase_of_ops hop, phase_put_self] at hhistory ⊢
      simpa [startedWrites, GaveUp] using hhistory

/-- Every operation's observations agree with where it is. -/
theorem history_of_run {es : List SendEvent}
    (hrun : machine.Run EventMachine.anyStep es obs s) (id : Nat) :
    History (s.phase id) (startedWrites id obs) (GaveUp id obs) := by
  induction hrun with
  | refl => exact ⟨rfl, by simp [GaveUp]⟩
  | @snoc es os s₁ s₂ e o before hstep _ ih =>
      have hmove := move_of_step hstep
      rw [startedWrites_append, gaveUp_append]
      by_cases hid : id = e.id
      · subst hid
        exact own_move hmove ih
      · rcases silent_of_ne hmove hid with ⟨hstarts, hgaveUp⟩
        simp only [hstarts, hgaveUp, Nat.add_zero, or_false]
        rcases ops_move_of_ne hmove (inv_of_run before) hid with hsame | ⟨op, hop, hwait, hwoken⟩
        · rwa [phase, hsame]
        · rw [phase_of_ops hwoken]
          rwa [phase_of_ops hop, hwait] at ih

/-- No operation starts two writes, and one that gave up has started none. -/
theorem History.starts_le {phase : Option SendPhase} {starts : Nat} {gaveUp : Prop}
    (hhistory : History phase starts gaveUp) : starts ≤ 1 ∧ (gaveUp → starts = 0) := by
  unfold History at hhistory
  split at hhistory
  all_goals grind

/-! ## The frame of an operation -/

/-- The frame is one frame of the operation: its header, its size below {lit}`2 ^ 32`
octets, the number it was given, and the octets of its PDU. -/
structure FrameOf (op : SendOp) (frame : Octets) : Prop where
  header : deserializeHeader frame =
    ⟨UInt32.ofNat frame.length, op.kind.commandId, op.kind.commandStatus, op.sequenceNumber⟩
  announced : frame.length < 2 ^ 32 →
    (deserializeHeader frame).commandLength.toNat = frame.length
  number : ∀ n, op.kind.givenNumber = some n → op.sequenceNumber = n
  command : op.kind.value = none → frame.drop headerLength = []
  pdu : ∀ t pdu, op.kind.value = some ⟨t, pdu⟩ →
    (t.serializeTo pdu).run [] = .ok () (frame.drop headerLength)

theorem Sends.frameOf {frame : Octets} (hsends : Sends op frame) : FrameOf op frame := by
  rcases hsends with ⟨sendBuf, hfill, rfl, hnumber⟩
  refine ⟨SendKind.header_frame hfill _, SendKind.announced_frame hfill _, hnumber,
    fun hvalue => ?_, fun t pdu hvalue => SendKind.run_drop_frame hvalue hfill _⟩
  rw [SendKind.drop_frame hfill]
  cases hkind : op.kind with
  | command _ _ => rfl
  | request _ _ _ | response _ _ _ _ _ => simp [hkind, SendKind.value] at hvalue

/-- The caller asked for operation {lit}`id`. -/
def Called (es : List SendEvent) (id : Nat) (kind : SendKind) : Prop :=
  .call id kind ∈ es ∨
    ∃ commandId n, .callNext id commandId ∈ es ∧ kind = .command commandId n

/-- An operation keeps what it sends. -/
theorem kind_move (hmove : Move s event s' obs) (hinv : s.Inv) {j : Nat} {op' : SendOp}
    (hop' : s'.ops j = some op') :
    (∃ op, s.ops j = some op ∧ op'.kind = op.kind) ∨
      j = event.id ∧ s.ops j = none ∧ Called [event] j op'.kind := by
  by_cases hj : j = event.id
  · cases hop : s.ops j with
    | some op =>
        subst hj
        rcases own_op_move hmove hop with ⟨op₁, hop₁, hkind, _⟩
        rw [hop', Option.some.injEq] at hop₁
        exact Or.inl ⟨op, rfl, hop₁ ▸ hkind⟩
    | none =>
        refine Or.inr ⟨hj, rfl, ?_⟩
        subst hj
        cases hmove with
        | call hfresh kind =>
            rw [SendEvent.id, ops_put_self, Option.some.injEq] at hop'
            exact hop' ▸ Or.inl (List.mem_singleton.mpr rfl)
        | callNext hfresh commandId =>
            rw [SendEvent.id, ops_put_self, Option.some.injEq] at hop'
            exact hop' ▸ Or.inr ⟨commandId, _, List.mem_singleton.mpr rfl, rfl⟩
        | enter hready henter =>
            rcases hready.exists_op with ⟨before, hbefore, _⟩
            rw [hready.id_eq, hbefore] at hop
            cases hop
        | giveUp hbefore | timeOut hbefore | written hbefore | cancelWait hbefore
        | cancel hbefore => exact absurd hop (by simp [SendEvent.id, hbefore])
  · rcases ops_move_of_ne hmove hinv hj with hsame | ⟨op, hop, _, hwoken⟩
    · exact Or.inl ⟨op', hsame ▸ hop', rfl⟩
    · rw [hop', Option.some.injEq] at hwoken
      exact Or.inl ⟨op, hop, hwoken ▸ rfl⟩

theorem Called.append {es : List SendEvent} {kind : SendKind} (hcalled : Called es id kind)
    (more : List SendEvent) : Called (es ++ more) id kind := by
  rcases hcalled with hmem | ⟨commandId, n, hmem, hkind⟩
  · exact Or.inl (List.mem_append_left _ hmem)
  · exact Or.inr ⟨commandId, n, List.mem_append_left _ hmem, hkind⟩

theorem Called.prepend {es : List SendEvent} {kind : SendKind} (hcalled : Called es id kind)
    (more : List SendEvent) : Called (more ++ es) id kind := by
  rcases hcalled with hmem | ⟨commandId, n, hmem, hkind⟩
  · exact Or.inl (List.mem_append_right _ hmem)
  · exact Or.inr ⟨commandId, n, List.mem_append_right _ hmem, hkind⟩

/-- Every operation sends what its caller asked for. -/
theorem called_of_run {es : List SendEvent}
    (hrun : machine.Run EventMachine.anyStep es obs s) :
    ∀ id op, s.ops id = some op → Called es id op.kind := by
  induction hrun with
  | refl => simp [machine]
  | snoc before hstep _ ih =>
      intro id op hop
      rcases kind_move (move_of_step hstep) (inv_of_run before) hop with
        ⟨op', hop', hkind⟩ | ⟨_, _, hnew⟩
      · exact hkind ▸ (ih id op' hop').append _
      · exact hnew.prepend _

/-! ## Exclusive writes -/

/-- Writing is exclusive and whole: at most one operation writes; what it writes is one
frame of what its caller asked for, and the send buffer is that frame until the write
completes; no operation starts two writes, and one that gives up has started none. -/
theorem exclusive_writes (es : List SendEvent) (os : List SendObs) (s : Sender)
    (hrun : machine.Run EventMachine.anyStep es os s) :
    (∀ i j f g, s.Writing i f → s.Writing j g → i = j) ∧
      (∀ id frame, s.Writing id frame → s.sendBuf = frame ∧
        ∃ op, s.ops id = some op ∧ Called es id op.kind ∧ FrameOf op frame) ∧
      (∀ id frame event s' obs, s.Writing id frame → s.step event = some (s', obs) →
        (∀ ec, event ≠ .writeDone id ec) → s'.sendBuf = frame ∧ s'.Writing id frame) ∧
      ∀ id, startedWrites id os ≤ 1 ∧ (GaveUp id os → startedWrites id os = 0) := by
  have hinv := inv_of_run hrun
  refine ⟨hinv.alone, ?_, ?_, fun id => (history_of_run hrun id).starts_le⟩
  · intro id frame hwriting
    rcases hwriting.exists_op with ⟨op, hop, hphase⟩
    rcases hinv.owned id op frame hop hphase with ⟨hbuf, hsends⟩
    exact ⟨hbuf, op, hop, called_of_run hrun id op hop, hsends.frameOf⟩
  · intro id frame event s' obs hwriting hstep hother
    exact sendBuf_of_writing (move_of_step hstep) hinv hwriting hother

/-- An {lit}`enquire_link` is written while an {lit}`unbind` waits. -/
theorem exclusive_writes_enquireLink :
    ∃ es os s, machine.Run EventMachine.anyStep es os s ∧
      s.Writing 0 (encodeHeader ⟨16, .enquireLink, .rok, 1⟩) ∧ s.phase 1 = some .waiting ∧
      ((∀ i j f g, s.Writing i f → s.Writing j g → i = j) ∧
        (∀ id frame, s.Writing id frame → s.sendBuf = frame ∧
          ∃ op, s.ops id = some op ∧ Called es id op.kind ∧ FrameOf op frame) ∧
        (∀ id frame event s' obs, s.Writing id frame → s.step event = some (s', obs) →
          (∀ ec, event ≠ .writeDone id ec) → s'.sendBuf = frame ∧ s'.Writing id frame) ∧
        ∀ id, startedWrites id os ≤ 1 ∧ (GaveUp id os → startedWrites id os = 0)) := by
  have hrun := EventMachine.steps_of_exec (M := machine) (s := machine.init)
    [.callNext 0 .enquireLink, .start 0, .callNext 1 .unbind, .start 1] rfl
  exact ⟨_, _, _, hrun, rfl, rfl, exclusive_writes _ _ _ hrun⟩

end Sender

end Smpp
