import Smpp.Net.ConnectionWire
import Smpp.Net.SendWakeup

/-!
# Who gets the send buffer next

Operations are woken in the order in which they wait, but an operation that was woken only
competes for the send buffer: whoever tests the waiting loop first takes it.  The completion
handler of a send operation runs before the operation that was woken, so a caller who sends the
next PDU from there overtakes everybody else.

Main results:

- Theorem {lit}`Sender.handovers_of_waiting`: an operation that waits sees the send buffer handed
  on to those in front of it at most.
- Theorem {lit}`Sender.writes_in_order`: where nobody is initiated past an operation that waits
  for the free buffer, writes start in the order in which the operations were initiated.
- Theorem {lit}`Sender.overtaken_often`: otherwise no number of later writes is too large.
-/

namespace Smpp

namespace Sender

variable {s s' : Sender} {id : Nat} {op : SendOp} {event : SendEvent}
variable {es : List SendEvent} {os obs : List SendObs}

/-! ## Waking up in turn -/

/-- How often the send buffer was handed on. -/
def handovers (os : List SendObs) : Nat :=
  os.countP fun
    | .completed _ .written _ _ => true
    | .completed _ .whileWaiting _ _ | .completed _ .notSerialized _ _
    | .completed _ .timedOut _ _ | .allocated _ | .writeStarted _ _ | .writeDone _ _ _ => false

@[simp]
theorem handovers_append (os os' : List SendObs) :
    handovers (os ++ os') = handovers os + handovers os' :=
  List.countP_append

/-- The place of an operation in the queue after something happened: {lit}`front` was in front
of it, and the buffer was handed on {lit}`n` times. -/
def Advances (id : Nat) (front : List Nat) (n : Nat) (s' : Sender) : Prop :=
  ∃ front' back, s'.sendCv = front' ++ id :: back ∧ front'.Sublist front ∧
    n + front'.length ≤ front.length

/-- An event hands the send buffer on to the front of the queue or to nobody. -/
theorem advances_move (hmove : Move s event s' obs) (hinv : s.Inv) {front back : List Nat}
    (hcv : s.sendCv = front ++ id :: back) (hwaiting : s'.phase id = some .waiting) :
    Advances id front (handovers obs) s' := by
  have hstays : ∀ {t : Sender} {o : List SendObs}, t.sendCv = s.sendCv → handovers o = 0 →
      Advances id front (handovers o) t := by
    intro t o hsame hnone
    exact ⟨front, back, hsame.trans hcv, List.Sublist.refl _, by omega⟩
  cases hmove with
  | call | callNext | giveUp | timeOut | cancel => exact hstays rfl rfl
  | @enter j event op hready s' obs henter =>
      cases henter with
      | wait hbusy =>
          refine ⟨front, back ++ [j], ?_, List.Sublist.refl _, by simp [handovers]⟩
          rw [sendCv_put, hcv, List.append_assoc, List.cons_append]
      | fail hfree hfill => exact hstays rfl rfl
      | write hfree hfill hnumber =>
          refine hstays rfl ?_
          rcases number_obs hnumber with rfl | ⟨n, rfl⟩ <;> rfl
  | @written j op frame ec hop hphase htimeout =>
      rcases hinv.cancelOne_cases [] with ⟨hnil, _⟩ | ⟨i, rest, op', hcons, _, _, hsame⟩
      · simp [hnil] at hcv
      rw [hsame] at hwaiting ⊢
      rw [hcons] at hcv
      cases front with
      | nil =>
          -- the operation itself is woken
          obtain ⟨rfl, rfl⟩ : i = id ∧ rest = back := by simpa using hcv
          rw [phase_put, phase_put_self] at hwaiting
          split at hwaiting <;> cases hwaiting
      | cons first front =>
          obtain ⟨rfl, rfl⟩ : i = first ∧ rest = front ++ id :: back := by simpa using hcv
          exact ⟨front, back, rfl, List.sublist_cons_self _ _, by simp [handovers, Nat.add_comm]⟩
  | @cancelWait j op type hop hphase hadmitted =>
      have hne : id ≠ j := by
        rintro rfl
        rw [phase_put_self] at hwaiting
        cases hwaiting
      refine ⟨front.filter (· ≠ j), back.filter (· ≠ j), ?_, List.filter_sublist, ?_⟩
      · rw [sendCv_put, hcv, List.filter_append, List.filter_cons_of_pos (by simpa using hne)]
      · simpa [handovers] using List.length_filter_le _ front

/-- While an operation waits nobody gets in front of it in the queue, and the send buffer is handed
on no more often than operations leave the part of the queue in front of it. -/
theorem handovers_of_waiting (es₀ : List SendEvent) (os₀ : List SendObs) (s : Sender)
    (hrun : machine.Run EventMachine.anyStep es₀ os₀ s) (id : Nat) (front back : List Nat)
    (hcv : s.sendCv = front ++ id :: back) (es : List SendEvent) (os : List SendObs)
    (s' : Sender)
    (hsteps : machine.Steps (fun _ _ t => t.phase id = some .waiting) s es os s') :
    ∃ front' back', s'.sendCv = front' ++ id :: back' ∧ front'.Sublist front ∧
      handovers os + front'.length ≤ front.length := by
  induction hsteps with
  | refl => exact ⟨front, back, hcv, List.Sublist.refl _, by simp [handovers]⟩
  | snoc before hstep hwaiting ih =>
      rcases ih with ⟨front₁, back₁, hcv₁, hsub₁, hle₁⟩
      have hinv := inv_of_run (hrun.trans before.anyStep)
      rcases advances_move (move_of_step hstep) hinv hcv₁ hwaiting with
        ⟨front', back', hcv', hsub, hle⟩
      refine ⟨front', back', hcv', hsub.trans hsub₁, ?_⟩
      rw [handovers_append]
      omega

/-- One {lit}`unbind` is written, a second one is woken, writes and hands the buffer on, and the
fourth is still waiting behind the third. -/
theorem handovers_of_waiting_unbind :
    ∃ es₀ os₀ s es os s', machine.Run EventMachine.anyStep es₀ os₀ s ∧ s.sendCv = [1, 2, 3] ∧
      machine.Steps (fun _ _ t => t.phase 3 = some .waiting) s es os s' ∧ handovers os = 2 ∧
      ∃ front' back', s'.sendCv = front' ++ 3 :: back' ∧ front'.Sublist [1, 2] ∧
        handovers os + front'.length ≤ 2 := by
  have hrun := EventMachine.steps_of_exec (M := machine) (s := machine.init)
    [.callNext 0 .unbind, .start 0, .callNext 1 .unbind, .start 1, .callNext 2 .unbind, .start 2,
      .callNext 3 .unbind, .start 3] rfl
  refine ⟨_, _, _, ?es, ?os, ?s', hrun, rfl, ?steps, ?count,
    handovers_of_waiting _ _ _ hrun 3 [1, 2] [] rfl _ _ _ ?steps⟩
  case steps =>
    refine EventMachine.steps_of_execIf (M := machine)
      (fun _ _ t => decide (t.phase 3 = some .waiting)) (fun _ _ _ => of_decide_eq_true)
      [.writeDone 0 .success, .resume 1, .writeDone 1 .success] ?_
    rfl
  case count => rfl

/-! ## Writing in turn -/

/-- The operations that were initiated, in order. -/
def initiated (es : List SendEvent) : List Nat :=
  es.filterMap fun
    | .start id => some id
    | .call _ _ | .callNext _ _ | .resume _ | .writeDone _ _ | .cancel _ _ => none

@[simp]
theorem initiated_append (es es' : List SendEvent) :
    initiated (es ++ es') = initiated es ++ initiated es' :=
  List.filterMap_append

/-- The operation was woken and has not been cancelled: it is to test the waiting loop next. -/
def Summoned (s : Sender) (id : Nat) : Prop :=
  ∃ op, s.ops id = some op ∧ op.phase = .woken ∧ op.cancellation.cancelled = false

/-- Nobody is initiated past operations that are to take the free send buffer. -/
def InTurn (s : Sender) : SendEvent → Prop
  | .start _ => s.sendBuf = [] → s.sendCv = [] ∧ ∀ id, ¬ s.Summoned id
  | .call _ _ | .callNext _ _ | .resume _ | .writeDone _ _ | .cancel _ _ => True

/-- The operations that have started to write, the one that is to be next, and those that wait
have been initiated in this order. -/
def Ordered (es : List SendEvent) (os : List SendObs) (s : Sender) : Prop :=
  ∃ next : Option Nat, (∀ id, s.Summoned id ↔ next = some id) ∧
    (next.isSome → s.sendBuf = []) ∧
    ((writes os).map Prod.fst ++ (next.toList ++ s.sendCv)).Sublist (initiated es)

theorem summoned_put (s : Sender) (id : Nat) (op : SendOp) (j : Nat) :
    (s.put id op).Summoned j ↔
      if j = id then op.phase = .woken ∧ op.cancellation.cancelled = false else s.Summoned j := by
  unfold Summoned
  rw [ops_put]
  split <;> simp

/-- Nobody is summoned while the send buffer is taken. -/
theorem Ordered.of_busy (hordered : Ordered es os s) (hbusy : s.sendBuf ≠ []) :
    (∀ id, ¬ s.Summoned id) ∧ ((writes os).map Prod.fst ++ s.sendCv).Sublist (initiated es) := by
  rcases hordered with ⟨next, hnext, hfree, hsub⟩
  cases next with
  | none => exact ⟨fun id hsummoned => by simp [hnext id] at hsummoned, hsub⟩
  | some id => exact absurd (hfree rfl) hbusy

/-- The order is kept when nobody is summoned, nobody starts to wait and nobody writes. -/
theorem Ordered.shrink (hordered : Ordered es os s)
    (hsummoned : ∀ j, s'.Summoned j → s.Summoned j) (hbuf : s'.sendBuf = s.sendBuf)
    (hcv : s'.sendCv.Sublist s.sendCv) (hsilent : writes obs = []) (event : SendEvent) :
    Ordered (es ++ [event]) (os ++ obs) s' := by
  classical
  rcases hordered with ⟨next, hnext, hfree, hsub⟩
  refine ⟨next.filter (s'.Summoned ·), fun id => ?_, fun hsome => ?_, ?_⟩
  · rw [Option.filter_eq_some_iff, ← hnext id, decide_eq_true_eq]
    exact ⟨fun hid => ⟨hsummoned id hid, hid⟩, And.right⟩
  · rw [hbuf]
    exact hfree (by cases next <;> simp_all)
  · have hfilter : (next.filter (s'.Summoned ·)).toList.Sublist next.toList := by
      cases next with
      | none => exact List.Sublist.refl _
      | some id =>
          rw [Option.filter_some]
          split
          · exact List.Sublist.refl _
          · exact List.nil_sublist _
    rw [writes_append, hsilent, List.append_nil, initiated_append]
    have hkept := (List.Sublist.refl ((writes os).map Prod.fst)).append (hfilter.append hcv)
    exact (hkept.trans hsub).trans (List.sublist_append_left _ _)

/-- Whoever is ready and finds the send buffer free has its turn. -/
theorem Ordered.write (hordered : Ordered es os s) (hready : Ready s id event op)
    (hturn : s.InTurn event) (hfree : s.sendBuf = []) {t : Sender} {frame : Octets}
    (hops : t.ops = s.ops) (hcv : t.sendCv = s.sendCv) {op' : SendOp}
    (hwriting : op'.phase = .writing frame) (hwrites : writes obs = [(id, frame)]) :
    Ordered (es ++ [event]) (os ++ obs) (t.put id op') := by
  rcases hordered with ⟨next, hnext, _, hsub⟩
  have hput : ∀ j, (t.put id op').Summoned j ↔ j ≠ id ∧ s.Summoned j := by
    intro j
    rw [summoned_put, hwriting, Summoned, hops]
    split <;> simp_all [Summoned]
  have hnobody : ∀ j, ¬ (t.put id op').Summoned j := by
    intro j hsummoned
    rw [hput j] at hsummoned
    cases hready with
    | start hop hphase => exact (hturn hfree).2 j hsummoned.2
    | resume hop hphase hcancelled =>
        have hid := (hnext id).mp ⟨_, hop, hphase, hcancelled⟩
        have hj := (hnext j).mp hsummoned.2
        rw [hid, Option.some.injEq] at hj
        exact hsummoned.1 hj.symm
  refine ⟨none, fun j => iff_of_false (hnobody j) (by simp), by simp, ?_⟩
  rw [writes_append, hwrites, initiated_append, sendCv_put, hcv]
  cases hready with
  | start hop hphase =>
      rcases hturn hfree with ⟨hnil, hnone⟩
      rw [hnil] at hsub ⊢
      have hfirst := (List.sublist_append_left ((writes os).map Prod.fst) _).trans hsub
      simpa [initiated] using hfirst.append (List.Sublist.refl [id])
  | resume hop hphase hcancelled =>
      rw [(hnext id).mp ⟨_, hop, hphase, hcancelled⟩] at hsub
      simpa [initiated] using hsub

/-- Where a step leaves the operations of others as they are, it summons nobody else. -/
theorem summoned_of_put {t : Sender} (hops : t.ops = s.ops)
    (hnot : ¬ (op.phase = .woken ∧ op.cancellation.cancelled = false)) (j : Nat)
    (hsummoned : (t.put id op).Summoned j) : s.Summoned j := by
  rw [summoned_put] at hsummoned
  split at hsummoned
  · exact absurd hsummoned hnot
  · rwa [Summoned, hops] at hsummoned

/-- The front of the queue is summoned when the send buffer is handed on. -/
theorem Ordered.written (hordered : Ordered es os s) (hinv : s.Inv) {frame : Octets}
    (hop : s.ops id = some op) (hphase : op.phase = .writing frame) (ec : ErrorCode) :
    Ordered (es ++ [.writeDone id ec])
      (os ++ [.writeDone id frame ec, .completed id .written ec (resultNumber op)])
      ({ s with sendBuf := [] }.cancelOne.put id { op with phase := .done }) := by
  have hwriting : s.Writing id frame := by rw [Writing, phase_of_ops hop, hphase]
  rcases hinv.sendBuf_eq hwriting with ⟨hbuf, hne⟩
  rcases hordered.of_busy (hbuf ▸ hne) with ⟨hnobody, hsub⟩
  have hshow : (writes (os ++ [.writeDone id frame ec,
      .completed id .written ec (resultNumber op)])).map Prod.fst =
        (writes os).map Prod.fst := by simp [writes]
  unfold Ordered
  rw [hshow, initiated_append]
  rcases hinv.cancelOne_cases [] with ⟨hnil, hsame⟩ | ⟨i, rest, op', hcons, hop', _, hsame⟩
  · rw [hsame]
    refine ⟨none, fun j => iff_of_false (fun hsummoned => hnobody j ?_) (by simp), by simp, ?_⟩
    · exact summoned_of_put (t := { s with sendBuf := [] }) rfl (by simp) j hsummoned
    · exact hsub.trans (List.sublist_append_left _ _)
  · have hother : i ≠ id := by
      rintro rfl
      rw [hop, Option.some.injEq] at hop'
      simp_all
    rw [hsame]
    refine ⟨if op'.cancellation.cancelled then none else some i, fun j => ?_, fun _ => rfl, ?_⟩
    · rw [summoned_put, summoned_put]
      by_cases hid : j = id
      · rw [if_pos hid, hid]
        cases op'.cancellation.cancelled <;> simp [hother]
      · rw [if_neg hid]
        by_cases hi : j = i
        · rw [if_pos hi, hi]
          cases op'.cancellation.cancelled <;> simp
        · rw [if_neg hi]
          refine iff_of_false (hnobody j) ?_
          cases op'.cancellation.cancelled <;> simp [Ne.symm hi]
    · have hrest : ((if op'.cancellation.cancelled then none else some i).toList ++
          rest).Sublist (i :: rest) := by
        split
        · exact List.sublist_cons_self _ _
        · exact List.Sublist.refl _
      rw [hcons] at hsub
      exact (((List.Sublist.refl _).append hrest).trans hsub).trans (List.sublist_append_left _ _)

/-- A step in turn keeps the order. -/
theorem ordered_move (hmove : Move s event s' obs) (hinv : s.Inv) (hturn : s.InTurn event)
    (hordered : Ordered es os s) : Ordered (es ++ [event]) (os ++ obs) s' := by
  cases hmove with
  | call | callNext | giveUp | timeOut =>
      exact hordered.shrink (summoned_of_put rfl (by simp)) rfl (List.Sublist.refl _) rfl _
  | @enter id event op hready s' obs henter =>
      cases henter with
      | wait hbusy =>
          rcases hordered.of_busy hbusy with ⟨hnobody, hsub⟩
          refine ⟨none, fun j => iff_of_false (fun hsummoned => hnobody j ?_) (by simp), by simp, ?_⟩
          · exact summoned_of_put (t := { s with sendCv := s.sendCv ++ [id] }) rfl (by simp) j
              hsummoned
          cases hready with
          | start hop hphase =>
              simpa [initiated] using hsub.append (List.Sublist.refl [id])
          | resume hop hphase hcancelled => exact absurd ⟨_, hop, hphase, hcancelled⟩ (hnobody id)
      | fail hfree hfill =>
          exact hordered.shrink (summoned_of_put rfl (by simp)) rfl (List.Sublist.refl _) rfl _
      | write hfree hfill hnumber =>
          refine hordered.write hready hturn hfree ?_ ?_ (by rfl) ?_
          · rfl
          · rfl
          · rcases number_obs hnumber with rfl | ⟨n, rfl⟩ <;> rfl
  | written hop hphase htimeout => exact hordered.written hinv hop hphase _
  | @cancelWait id op type hop hphase hadmitted =>
      have hkept : ∀ j, ({ s with sendCv := s.sendCv.filter (· ≠ id) }.put id
          { op with
            phase := .woken
            cancellation := op.cancellation.request type }).Summoned j → s.Summoned j :=
        summoned_of_put rfl (by simp [CancellationState.request, hadmitted])
      exact hordered.shrink hkept rfl List.filter_sublist rfl _
  | @cancel id op type hop hphase hrefused =>
      have hkept : ∀ j, (s.put id { op with
          cancellation := op.cancellation.request type }).Summoned j → s.Summoned j := by
        intro j hsummoned
        rw [summoned_put] at hsummoned
        split at hsummoned
        · rename_i hj
          have hbefore : op.cancellation.cancelled = false := by
            by_contra hcancelled
            simp [CancellationState.request, hcancelled] at hsummoned
          exact ⟨op, hj ▸ hop, hsummoned.1, hbefore⟩
        · exact hsummoned
      exact hordered.shrink hkept rfl (List.Sublist.refl _) rfl _

/-- In a run in which nobody is initiated past operations that are to take the free send buffer,
the writes start in the order in which the operations were initiated, and the operations that
wait have been initiated behind them, in the order of the queue. -/
theorem writes_in_order (es : List SendEvent) (os : List SendObs) (s : Sender)
    (hrun : machine.Run (fun s event _ => s.InTurn event) es os s) :
    ((writes os).map Prod.fst ++ s.sendCv).Sublist (initiated es) := by
  have hordered : Ordered es os s := by
    induction hrun with
    | refl => exact ⟨none, by simp [Summoned, machine], by simp, by simp [writes, machine]⟩
    | snoc before hstep hturn ih =>
        exact ordered_move (move_of_step hstep) (inv_of_run before.anyStep) hturn ih
  rcases hordered with ⟨next, _, _, hsub⟩
  exact ((List.Sublist.refl _).append (List.sublist_append_right _ _)).trans hsub

/-- An operation may be initiated while the send buffer is taken. -/
def startsBusy (s : Sender) : SendEvent → Bool
  | .start _ => s.sendBuf ≠ []
  | .call _ _ | .callNext _ _ | .resume _ | .writeDone _ _ | .cancel _ _ => true

theorem inTurn_of_startsBusy (hbusy : s.startsBusy event = true) : s.InTurn event := by
  cases event with
  | start id => exact fun hfree => absurd hfree (by simpa [startsBusy] using hbusy)
  | call | callNext | resume | writeDone | cancel => trivial

/-- The send buffer is handed on once, and the fourth operation is initiated when the second has
taken it. -/
theorem writes_in_order_unbind :
    ∃ es os s, machine.Run (fun s event _ => s.InTurn event) es os s ∧
      (writes os).map Prod.fst = [0, 1] ∧ s.sendCv = [2, 3] ∧
      ((writes os).map Prod.fst ++ s.sendCv).Sublist (initiated es) := by
  have hcalled : machine.Run (fun s event _ => s.InTurn event) [.callNext 0 .unbind] _ _ :=
    .single rfl trivial
  have hfirst := hcalled.snoc (e := SendEvent.start 0) rfl (by
    exact fun _ => ⟨rfl, fun id =>
      mt (summoned_of_put (s := machine.init) rfl (by simp) id) (by simp [Summoned, machine])⟩)
  have hrun := hfirst.trans (EventMachine.steps_of_execIf (fun s event _ => s.startsBusy event)
    (fun _ _ _ => inTurn_of_startsBusy)
    [.callNext 1 .unbind, .start 1, .callNext 2 .unbind, .start 2, .writeDone 0 .success,
      .resume 1, .callNext 3 .unbind, .start 3] rfl)
  exact ⟨_, _, _, hrun, rfl, rfl, writes_in_order _ _ _ hrun⟩

/-! ## Being overtaken -/

/-- Operation {lit}`w` writes, operation {lit}`1` waits, and later numbers are free. -/
structure Behind (s : Sender) (w : Nat) : Prop where
  writing : ∃ frame, s.Writing w frame
  queue : s.sendCv = [1]
  waiting : ∃ op, s.ops 1 = some op ∧ op.phase = .waiting ∧ op.cancellation.cancelled = false
  fresh : ∀ j, w < j → j ≠ 1 → s.ops j = none
  other : w ≠ 1

/-- The step hands the send buffer on, and nobody is cancelled. -/
def Patient (s : Sender) (event : SendEvent) (_ : Sender) : Prop :=
  s.HandsOn event ∧ ∀ id type, event ≠ .cancel id type

/-- When its completion handler sends the next {lit}`unbind`, operation {lit}`1` is woken too
late and waits again. -/
theorem overtake {w : Nat} (hbehind : s.Behind w) :
    ∃ os s', machine.Steps Patient s
        [.writeDone w .success, .callNext (w + 2) .unbind, .start (w + 2), .resume 1] os s' ∧
      s'.Behind (w + 2) ∧ (writes os).map Prod.fst = [w + 2] := by
  rcases hbehind with ⟨⟨frame, hwriting⟩, hqueue, ⟨op₁, hop₁, hwaiting, hcancelled⟩, hfresh, hother⟩
  rcases hwriting.exists_op with ⟨op, hop, hphase⟩
  -- the send buffer is free, and operation 1 is woken
  let s₁ : Sender := ({ s with sendBuf := [], sendCv := [] }.put 1
    { op₁ with phase := .woken }).put w { op with phase := .done }
  have hdone : s.step (.writeDone w .success) = some (s₁, [.writeDone w frame .success,
      .completed w .written .success (resultNumber op)]) := by
    simp [step, hop, hphase, writeDone, cancelOne, hqueue, hop₁, s₁]
  have hfresh₁ : s₁.ops (w + 2) = none := by
    simp [s₁, ops_put, hfresh (w + 2) (by omega) (by omega)]
  -- the completion handler sends the next command
  let n := nextSequenceNumber s₁.sequenceNumber
  let kind : SendKind := .command .unbind n
  let frame' := kind.frame (List.replicate headerLength 0) n
  let s₂ : Sender := { s₁ with sequenceNumber := n }.put (w + 2) { kind := kind }
  have hcalled : s₁.step (.callNext (w + 2) .unbind) = some (s₂, [.allocated n]) := by
    simp [step, hfresh₁, s₂, kind, n]
  let s₃ : Sender := { s₂ with sendBuf := frame' }.put (w + 2)
    { kind := kind, phase := .writing frame', sequenceNumber := n,
      cancellation := .reset .enableTerminal }
  have hstarted : s₂.step (.start (w + 2)) = some (s₃, [.writeStarted (w + 2) frame']) := by
    simp [step, s₂, ops_put_self, enter, s₁, kind, SendKind.fillBody, number,
      SendKind.givenNumber, s₃, frame']
  -- operation 1 finds the send buffer taken
  have hfill : kind.fillBody = .ok (List.replicate headerLength 0) := rfl
  have hbusy : frame' ≠ [] := SendKind.frame_ne_nil hfill n
  have hop₃ : s₃.ops 1 = some { op₁ with phase := .woken } := by
    simp [s₃, s₂, s₁, ops_put, Ne.symm hother]
  let s₄ : Sender := { s₃ with sendCv := s₃.sendCv ++ [1] }.put 1 { op₁ with phase := .waiting }
  have hresumed : s₃.step (.resume 1) = some (s₄, []) := by
    simp [step, hop₃, hcancelled, enter, show s₃.sendBuf ≠ [] from hbusy, s₄]
  have hhands : s₃.HandsOn (.resume 1) := fun hlast => absurd hlast.2.1 hbusy
  have hsteps : machine.Steps Patient s [.writeDone w .success, .callNext (w + 2) .unbind,
      .start (w + 2), .resume 1] _ s₄ :=
    (((EventMachine.Steps.single hdone ⟨by simp [HandsOn, TimedOut], by simp⟩).snoc hcalled
      ⟨trivial, by simp⟩).snoc hstarted ⟨trivial, by simp⟩).snoc hresumed ⟨hhands, by simp⟩
  refine ⟨_, s₄, hsteps, ⟨⟨frame', ?_⟩, ?_, ⟨_, ops_put_self _ _ _, rfl, hcancelled⟩, ?_, ?_⟩, ?_⟩
  · rw [Writing, phase_put_of_ne _ _ (by omega)]
    exact phase_put_self _ _ _
  · rfl
  · intro j hj hne
    have hnew : j ≠ w + 2 := by omega
    have hold : j ≠ w := by omega
    simp [s₄, s₃, s₂, s₁, ops_put, hne, hnew, hold, hfresh j (by omega) hne]
  · omega
  · rfl

/-- An operation that is initiated early may wait while any number of operations that are
initiated later write, though every step hands the send buffer on and nobody is cancelled. -/
theorem overtaken_often (n : Nat) :
    ∃ es os s later, machine.Run Patient es os s ∧ s.phase 1 = some .waiting ∧
      initiated es = 0 :: 1 :: later ∧ (writes os).map Prod.fst = 0 :: later ∧
      later.length = n := by
  suffices hloop : ∃ es os s later w, machine.Run Patient es os s ∧ s.Behind w ∧
      initiated es = 0 :: 1 :: later ∧ (writes os).map Prod.fst = 0 :: later ∧
      later.length = n by
    rcases hloop with ⟨es, os, s, later, w, hrun, hbehind, hrest⟩
    rcases hbehind.waiting with ⟨op, hop, hwaiting, _⟩
    exact ⟨es, os, s, later, hrun, by rw [phase_of_ops hop, hwaiting], hrest⟩
  induction n with
  | zero =>
      have hsteps := EventMachine.steps_of_exec (M := machine) (s := machine.init)
        [.callNext 0 .unbind, .start 0, .callNext 1 .unbind, .start 1] rfl
      have hrun : machine.Run Patient _ _ _ := hsteps.restrict (by simp [Patient, HandsOn])
      refine ⟨_, _, _, [], 0, hrun, ⟨⟨_, rfl⟩, rfl, ⟨_, rfl, rfl, rfl⟩, ?_, by simp⟩, rfl, rfl, rfl⟩
      intro j hj hne
      rcases Nat.exists_eq_add_of_le (show 2 ≤ j by omega) with ⟨k, rfl⟩
      rw [Nat.add_comm]
      rfl
  | succ n ih =>
      rcases ih with ⟨es, os, s, later, w, hrun, hbehind, hinitiated, hwrites, hlength⟩
      rcases overtake hbehind with ⟨os', s', hsteps, hbehind', hwrites'⟩
      refine ⟨_, _, s', later ++ [w + 2], w + 2, hrun.trans hsteps, hbehind', ?_, ?_, ?_⟩
      · rw [initiated_append, hinitiated]
        rfl
      · rw [writes_append, List.map_append, hwrites, hwrites']
        rfl
      · rw [List.length_append, hlength]
        rfl

end Sender

end Smpp
