import Smpp.Net.Correlation

/-!
# Coroutines that use a session

A coroutine that awaits one operation of a session after the other, as the programs of the
{lit}`example` directory do.  An operation that fails throws, and so does a
{lit}`std::get` on a PDU of another type; in both cases the coroutine ends.

Main results:

- Theorem {lit}`Coroutine.follows_of_drives`: the coroutine sees the PDUs that the receive
  operations of the session complete with, and nothing else.
- Theorem {lit}`Coroutine.inOrder_of_drives`: the PDUs it sends are written in the order in
  which it awaits them, and only the last one may be missing.
- Theorem {lit}`Coroutine.sent_of_drives`: these are what the peer is to receive.
-/

namespace Smpp

/-! ## Coroutines -/

deriving instance DecidableEq for SendKind

/-- What a coroutine awaits at a point: a PDU that is sent, an {lit}`unbind` that is sent, a
PDU, or nothing because it has returned. -/
inductive Await where
  | send (kind : SendKind)
  | sendUnbind
  | receive
  | nothing
deriving DecidableEq

/-- A coroutine: where it starts, what it awaits at each point, and where it goes on when a send
or a receive operation succeeds, if the PDU is one it can use. -/
structure Coroutine (P : Type) where
  start : P
  awaits : P → Await
  sent : P → P
  received : P → Completion → Option P

/-- How far a coroutine has got: to a point in front of what it awaits there, into a send or a
receive operation, or to an exception. -/
inductive Progress (P : Type) where
  | ready (p : P)
  | sending (p : P) (id : Nat)
  | receiving (p : P)
  | failed (ec : ErrorCode)
  | badVariantAccess

/-- What the caller of a session initiates. -/
inductive Call where
  | send (id : Nat) (kind : SendKind)
  | sendUnbind (id : Nat)
  | receive

/-- What the caller initiates with an event. -/
def callOf : SessionEvent → Option Call
  | .send (.call id kind) => some (.send id kind)
  | .send (.callNext id _) => some (.sendUnbind id)
  | .receive .asyncReceive _ => some .receive
  | .send (.start _) | .send (.resume _) | .send (.writeDone _ _) | .send (.cancel _ _) => none
  | .receive .iterate _ | .receive (.readDone _ _) _ | .receive (.sendDone _) _ => none
  | .receive .postDone _ | .receive (.cancel _) _ | .cancelReceive _ => none

namespace Call

/-- What is awaited when the operation is initiated. -/
def await : Call → Await
  | .send _ kind => .send kind
  | .sendUnbind _ => .sendUnbind
  | .receive => .receive

/-- The coroutine behind the initiating function. -/
def progress {P : Type} (p : P) : Call → Progress P
  | .send id _ | .sendUnbind id => .sending p id
  | .receive => .receiving p

/-- The PDU that is sent, with the name of its operation. -/
def pdu : Call → Option (Nat × SendKind)
  | .send id kind => some (id, kind)
  | .sendUnbind _ | .receive => none

end Call

/-- The PDUs that the caller sends, in order. -/
def calls (es : List SessionEvent) : List (Nat × SendKind) :=
  es.filterMap fun e => (callOf e).bind Call.pdu

@[simp]
theorem calls_append (es es' : List SessionEvent) : calls (es ++ es') = calls es ++ calls es' :=
  List.filterMap_append

theorem calls_singleton (e : SessionEvent) : calls [e] = ((callOf e).bind Call.pdu).toList := by
  cases hcall : (callOf e).bind Call.pdu with
  | none => simp [calls, hcall]
  | some call => simp [calls, hcall]

namespace Coroutine

variable {P : Type} {C : Coroutine P} {N : Nat} {s s' : Session N}
variable {r r' : Progress P} {e : SessionEvent} {o os : List SessionObs} {es : List SessionEvent}

/-- The caller initiates nothing but what the coroutine awaits. -/
def Permits (C : Coroutine P) (r : Progress P) (e : SessionEvent) : Prop :=
  ∀ call, callOf e = some call → ∃ p, r = .ready p ∧ C.awaits p = call.await

/-- The coroutine behind an initiating function. -/
def initiate (r : Progress P) (e : SessionEvent) : Progress P :=
  match r, callOf e with
  | .ready p, some call => call.progress p
  | r, _ => r

theorem initiate_of_none (hcall : callOf e = none) : initiate r e = r := by
  unfold initiate
  rw [hcall]
  cases r <;> rfl

/-- The coroutine behind a completion of the operation that it waits for. -/
def resume (C : Coroutine P) (r : Progress P) : SessionObs → Progress P
  | .send (.completed id _ ec _) =>
      match r with
      | .sending p j =>
          if j = id then if ec = .success then .ready (C.sent p) else .failed ec else r
      | .ready _ | .receiving _ | .failed _ | .badVariantAccess => r
  | .receive (.completed completion) =>
      match r with
      | .receiving p =>
          if completion.ec = .success then
            match C.received p completion with
            | some p' => .ready p'
            | none => .badVariantAccess
          else .failed completion.ec
      | .ready _ | .sending _ _ | .failed _ | .badVariantAccess => r
  | .send (.allocated _) | .send (.writeStarted _ _) | .send (.writeDone _ _ _) => r
  | .receive (.readSome _) | .receive (.dispatched _ _) | .receive (.sendCommand _ _) => r
  | .receive .posted | .receive (.consumed _ _ _) | .receive .shutdownSocket => r

/-- {lit}`C.Drives es os s r`: a run of a session whose only caller is the coroutine, and how
far the coroutine has got. -/
inductive Drives (C : Coroutine P) {N : Nat} :
    List SessionEvent → List SessionObs → Session N → Progress P → Prop
  | start : Drives C [] [] (Session.machine N).init (.ready C.start)
  | step {es : List SessionEvent} {os : List SessionObs} {s s' : Session N} {r : Progress P}
      {e : SessionEvent} {o : List SessionObs} (before : Drives C es os s r)
      (hstep : s.step e = some (s', o)) (hpermits : C.Permits r e) :
      Drives C (es ++ [e]) (os ++ o) s' (o.foldl C.resume (initiate r e))

/-- {lit}`C.Permits` as a check. -/
def permits (C : Coroutine P) (r : Progress P) (e : SessionEvent) : Bool :=
  match callOf e with
  | none => true
  | some call =>
      match r with
      | .ready p => C.awaits p = call.await
      | .sending _ _ | .receiving _ | .failed _ | .badVariantAccess => false

theorem permits_of_check (hcheck : C.permits r e = true) : C.Permits r e := by
  intro call hcall
  cases r with
  | ready p => exact ⟨p, rfl, by simpa [permits, hcall] using hcheck⟩
  | sending | receiving | failed | badVariantAccess => simp [permits, hcall] at hcheck

/-- The run of the session. -/
theorem Drives.run (hdrives : C.Drives es os s r) :
    (Session.machine N).Run EventMachine.anyStep es os s := by
  induction hdrives with
  | start => exact .refl
  | step before hstep hpermits ih => exact ih.snoc hstep trivial

/-! ## Behind the observations of one step -/

/-- The coroutine waits for no operation. -/
def Settled : Progress P → Prop
  | .ready _ | .failed _ | .badVariantAccess => True
  | .sending _ _ | .receiving _ => False

theorem resume_of_settled (hsettled : Settled r) (x : SessionObs) : C.resume r x = r := by
  cases r with
  | ready | failed | badVariantAccess =>
      cases x with
      | send x => cases x <;> rfl
      | receive x => cases x <;> rfl
  | sending | receiving => exact hsettled.elim

/-- A coroutine that is resumed does not wait any longer. -/
theorem settled_of_resume {x : SessionObs} (hne : C.resume r x ≠ r) : Settled (C.resume r x) := by
  cases r with
  | ready | failed | badVariantAccess =>
      refine absurd (resume_of_settled ?_ x) hne
      trivial
  | sending p id =>
      cases x with
      | send x =>
          cases x with
          | completed j exit ec n =>
              by_cases hid : id = j
              · by_cases hec : ec = .success
                · simp [resume, hid, hec, Settled]
                · simp [resume, hid, hec, Settled]
              · exact absurd (if_neg hid) hne
          | allocated | writeStarted | writeDone => exact absurd rfl hne
      | receive x => cases x <;> exact absurd rfl hne
  | receiving p =>
      cases x with
      | send x => cases x <;> exact absurd rfl hne
      | receive x =>
          cases x with
          | completed completion =>
              by_cases hec : completion.ec = .success
              · cases hreceived : C.received p completion with
                | none => simp [resume, hec, hreceived, Settled]
                | some p' => simp [resume, hec, hreceived, Settled]
              · simp [resume, hec, Settled]
          | readSome | dispatched | sendCommand | posted | consumed | shutdownSocket =>
              exact absurd rfl hne

theorem foldl_of_settled (hsettled : Settled r) (o : List SessionObs) :
    o.foldl C.resume r = r := by
  induction o with
  | nil => rfl
  | cons x o ih => rw [List.foldl_cons, resume_of_settled hsettled, ih]

/-- Among the observations of a step at most one resumes the coroutine. -/
theorem foldl_cases (C : Coroutine P) (r : Progress P) (o : List SessionObs) :
    ((∀ x ∈ o, C.resume r x = r) ∧ o.foldl C.resume r = r) ∨
      ∃ x ∈ o, C.resume r x ≠ r ∧ o.foldl C.resume r = C.resume r x := by
  induction o with
  | nil => exact Or.inl ⟨by simp, rfl⟩
  | cons x o ih =>
      rw [List.foldl_cons]
      by_cases hsame : C.resume r x = r
      · rw [hsame]
        rcases ih with ⟨hnone, hfold⟩ | ⟨y, hmem, hne, hfold⟩
        · refine Or.inl ⟨?_, hfold⟩
          intro y hmem
          rcases List.mem_cons.mp hmem with rfl | hmem
          · exact hsame
          · exact hnone y hmem
        · exact Or.inr ⟨y, List.mem_cons_of_mem _ hmem, hne, hfold⟩
      · exact Or.inr ⟨x, List.mem_cons_self, hsame, foldl_of_settled (settled_of_resume hsame) o⟩

end Coroutine

/-! ## Completions -/

namespace Session

variable {N : Nat} {s s' : Session N} {event : SessionEvent} {obs : List SessionObs}

/-- What a step does to the receive operation: it is initiated, it goes on or there is none, or
it completes. -/
theorem endsOnce_move (hmove : Move s event s' obs) :
    (callOf event = some .receive ∧ s.recv.stage = .idle ∧ s'.recv.stage ≠ .idle ∧
        receivePart obs = []) ∨
      (callOf event ≠ some .receive ∧ completions (receivePart obs) = [] ∧
        (s'.recv.stage = .idle ↔ s.recv.stage = .idle)) ∨
      (callOf event = none ∧ s.recv.stage ≠ .idle ∧ s'.recv.stage = .idle ∧
        ∃ c, completions (receivePart obs) = [c]) := by
  -- what follows from a step of the receiving half other than the first one
  have hother : ∀ {recv : Receiver N} {recvObs : List ReceiveObs}, callOf event = none →
      s.recv.stage ≠ .idle → s'.recv = recv → receivePart obs = recvObs →
        EndsOnce recv recvObs →
      (callOf event ≠ some .receive ∧ completions (receivePart obs) = [] ∧
        (s'.recv.stage = .idle ↔ s.recv.stage = .idle)) ∨
      (callOf event = none ∧ s.recv.stage ≠ .idle ∧ s'.recv.stage = .idle ∧
        ∃ c, completions (receivePart obs) = [c]) := by
    rintro recv recvObs hcall hbusy rfl rfl hends
    rcases hends with ⟨hbusy', hnone⟩ | ⟨hidle, hone⟩
    · exact Or.inl ⟨by simp [hcall], hnone, iff_of_false hbusy' hbusy⟩
    · exact Or.inr ⟨hcall, hbusy, hidle, hone⟩
  have hexternal : ∀ {e : ReceiveEvent} {id : Nat}, e ≠ .asyncReceive →
      callOf (.receive e id) = none := by
    intro e id hne
    cases e with
    | asyncReceive => exact absurd rfl hne
    | iterate | readDone | sendDone | postDone | cancel => rfl
  cases hmove with
  | @send e send o hpaused hmay hsend hpending =>
      refine Or.inr (Or.inl ⟨?_, by simp [completions], Iff.rfl⟩)
      cases e <;> simp [callOf]
  | @resume e send o id exit ec n recv recvObs hmay hsend hnested hcompleted hrecv =>
      have hcall : callOf (.send e) = none := by
        cases Sender.move_of_step hsend with
        | call | callNext => simp at hcompleted
        | enter hready => cases hready <;> rfl
        | giveUp | timeOut | written | cancelWait | cancel => rfl
      rcases Receiver.endsOnce_move (Receiver.move_of_step hrecv) with ⟨heq, _⟩ | ⟨_, hbusy, hends⟩
      · cases heq
      · exact Or.inr (hother hcall hbusy rfl (by simp) hends)
  | @receive e id recv o hexternal' hrecv hquiet =>
      rcases Receiver.endsOnce_move (Receiver.move_of_step hrecv) with
        ⟨rfl, hidle, hbusy, rfl⟩ | ⟨hne, hbusy, hends⟩
      · exact Or.inl ⟨rfl, hidle, hbusy, rfl⟩
      · exact Or.inr (hother (hexternal hne) hbusy rfl (by simp) hends)
  | @command e id recv o commandId n called send callObs startObs hexternal' hrecv hcommand
      hcall hstart =>
      rcases Receiver.endsOnce_move (Receiver.move_of_step hrecv) with
        ⟨rfl, _, _, rfl⟩ | ⟨hne, hbusy, hends⟩
      · cases hcommand
      · exact Or.inr (hother (hexternal hne) hbusy rfl (by simp) hends)
  | cancel hrecv hnested =>
      rcases Receiver.endsOnce_move (Receiver.move_of_step hrecv) with ⟨heq, _⟩ | ⟨_, hbusy, hends⟩
      · cases heq
      · exact Or.inr (hother rfl hbusy rfl (by simp) hends)
  | cancelNested hrecv hnested hsend =>
      rcases Receiver.endsOnce_move (Receiver.move_of_step hrecv) with ⟨heq, _⟩ | ⟨_, hbusy, hends⟩
      · cases heq
      · exact Or.inr (hother rfl hbusy rfl (by simp) hends)

/-- Initiating an operation completes none and writes nothing. -/
theorem quiet_of_call (hmove : Move s event s' obs) {call : Call}
    (hcall : callOf event = some call) :
    (∀ id exit ec n, .send (.completed id exit ec n) ∉ obs) ∧ receivePart obs = [] ∧
      writes obs = [] := by
  cases hmove with
  | @send e send o hpaused hmay hsend hpending =>
      cases Sender.move_of_step hsend with
      | call | callNext => exact ⟨by simp, rfl, rfl⟩
      | enter hready => cases hready <;> cases hcall
      | giveUp | timeOut | written | cancelWait | cancel => cases hcall
  | @resume e send o id exit ec n recv recvObs hmay hsend hnested hcompleted hrecv =>
      cases Sender.move_of_step hsend with
      | call | callNext => simp at hcompleted
      | enter hready => cases hready <;> cases hcall
      | giveUp | timeOut | written | cancelWait | cancel => cases hcall
  | @receive e id recv o hexternal hrecv hquiet =>
      cases Receiver.move_of_step hrecv with
      | asyncReceive => exact ⟨by simp, rfl, rfl⟩
      | startRead | incomplete | dispatch => cases hcall
      | resume hresume => cases hresume <;> cases hcall
  | @command e id recv o commandId n called send callObs startObs hexternal hrecv hcommand
      hcall' hstart =>
      cases Receiver.move_of_step hrecv with
      | asyncReceive => cases hcommand
      | startRead | incomplete | dispatch => cases hcall
      | resume hresume => cases hresume <;> cases hcall
  | cancel | cancelNested => cases hcall

/-! ## The operations that were called -/

/-- The caller sends a PDU under a name nobody has used, or it sends none. -/
theorem call_move (hmove : Move s event s' obs) :
    calls [event] = [] ∨ ∃ id kind, calls [event] = [(id, kind)] ∧ kind.isCommand = false ∧
      s.send.ops id = none ∧ ∃ op, s'.send.ops id = some op ∧ op.kind = kind := by
  have hquiet : ∀ (e : ReceiveEvent) (id : Nat), calls [.receive e id] = [] := by
    intro e id
    cases e <;> rfl
  cases hmove with
  | @send e send o hpaused hmay hsend hpending =>
      cases Sender.move_of_step hsend with
      | call hfresh kind =>
          have hkind : kind.isCommand = false := by simpa [mayHappen] using hmay
          exact Or.inr ⟨_, kind, rfl, hkind, hfresh, _, Sender.ops_put_self _ _ _, rfl⟩
      | enter hready => cases hready <;> exact Or.inl rfl
      | callNext | giveUp | timeOut | written | cancelWait | cancel => exact Or.inl rfl
  | @resume e send o id exit ec n recv recvObs hmay hsend hnested hcompleted hrecv =>
      cases Sender.move_of_step hsend with
      | call | callNext => simp at hcompleted
      | enter hready => cases hready <;> exact Or.inl rfl
      | giveUp | timeOut | written | cancelWait | cancel => exact Or.inl rfl
  | receive | command => exact Or.inl (hquiet _ _)
  | cancel | cancelNested => exact Or.inl rfl

variable {es : List SessionEvent} {os : List SessionObs}
variable {R : Session N → SessionEvent → Session N → Prop}

/-- The send half of the session keeps its invariant. -/
theorem sendInv_of_run (hrun : (machine N).Run R es os s) : s.send.Inv := by
  rcases (halves_of_run hrun).1 with ⟨_, hsend⟩
  exact Sender.inv_of_run hsend

/-- Every PDU that the caller sends is sent by an operation of its own. -/
theorem calls_of_run (hrun : (machine N).Run R es os s) :
    (∀ call ∈ calls es, call.2.isCommand = false ∧
      ∃ op, s.send.ops call.1 = some op ∧ op.kind = call.2) ∧
        ((calls es).map Prod.fst).Nodup := by
  induction hrun with
  | refl => exact ⟨by simp [calls], by simp [calls]⟩
  | @snoc es os s s' e o before hstep _ ih =>
      have hmove := move_of_step hstep
      have hinv := sendInv_of_run before
      have hkeep : ∀ call ∈ calls es, call.2.isCommand = false ∧
          ∃ op, s'.send.ops call.1 = some op ∧ op.kind = call.2 := by
        intro call hmem
        rcases ih.1 call hmem with ⟨hcaller, op, hop, hkind⟩
        rcases op_of_move hmove hinv hop with ⟨op', hop', hsame⟩
        exact ⟨hcaller, op', hop', hsame.trans hkind⟩
      rcases call_move hmove with hnone | ⟨id, kind, hone, hcaller, hfresh, op, hop, hkind⟩
      · rw [calls_append, hnone, List.append_nil]
        exact ⟨hkeep, ih.2⟩
      · rw [calls_append, hone]
        constructor
        · intro call hmem
          rcases List.mem_append.mp hmem with hbefore | hnow
          · exact hkeep call hbefore
          · rw [List.mem_singleton] at hnow
            subst hnow
            exact ⟨hcaller, op, hop, hkind⟩
        · have hnew : id ∉ (calls es).map Prod.fst := by
            rw [List.mem_map]
            rintro ⟨call, hmem, rfl⟩
            rcases ih.1 call hmem with ⟨_, before, hbefore, _⟩
            rw [hfresh] at hbefore
            cases hbefore
          rw [List.map_append, List.map_singleton]
          exact ih.2.append (List.nodup_singleton id) (List.disjoint_singleton.mpr hnew)

/-- The operations that the caller has initiated to send PDUs and that have started to write. -/
def startedCalls (es : List SessionEvent) (os : List SessionObs) : List Nat :=
  ((writes os).map Prod.fst).filter (· ∈ (calls es).map Prod.fst)

/-- Every write is one of an operation on record. -/
theorem builds_of_writes (hrun : (machine N).Run R es os s) {write : Nat × Octets}
    (hmem : write ∈ writes os) :
    ∃ op, s.send.ops write.1 = some op ∧ op.kind.Builds write.2 := by
  induction hrun with
  | refl => cases hmem
  | @snoc es os s s' e o before hstep hR ih =>
      have hmove := move_of_step hstep
      have hinv := sendInv_of_run before
      have hinv' := sendInv_of_run (before.snoc hstep hR)
      rw [writes_append, List.mem_append] at hmem
      rcases hmem with hbefore | hnow
      · rcases ih hbefore with ⟨op, hop, hbuilds⟩
        rcases op_of_move hmove hinv hop with ⟨op', hop', hkind⟩
        exact ⟨op', hop', hkind ▸ hbuilds⟩
      · by_cases hother : ∀ id ec, e ≠ .send (.writeDone id ec)
        · exact ((grows_of_move hmove hinv hother).builds hinv' hnow).1
        · simp only [ne_eq, not_forall, not_not] at hother
          rcases hother with ⟨id, ec, rfl⟩
          simp [(ends_of_move hmove hinv).1] at hnow

/-- A step starts one write at most. -/
theorem writes_of_move (hmove : Move s event s' obs) (hinv : s.send.Inv) :
    writes obs = [] ∨ ∃ id frame, writes obs = [(id, frame)] := by
  by_cases hother : ∀ id ec, event ≠ .send (.writeDone id ec)
  · cases grows_of_move hmove hinv hother with
    | idle hwrites => exact Or.inl hwrites
    | start hwrites => exact Or.inr ⟨_, _, hwrites⟩
  · simp only [ne_eq, not_forall, not_not] at hother
    rcases hother with ⟨id, ec, rfl⟩
    exact Or.inl (ends_of_move hmove hinv).1

/-- An operation that has just been called has not written. -/
theorem startedCalls_of_call (hrun : (machine N).Run R es os s) (hwrites : writes obs = [])
    {id : Nat} {kind : SendKind} (hcalls : calls [event] = [(id, kind)])
    (hfresh : s.send.ops id = none) :
    startedCalls (es ++ [event]) (os ++ obs) = startedCalls es os := by
  rw [startedCalls, startedCalls, calls_append, hcalls, writes_append, hwrites, List.append_nil]
  refine List.filter_congr fun j hmem => ?_
  have hne : j ≠ id := by
    rintro rfl
    rcases List.mem_map.mp hmem with ⟨write, hwrite, rfl⟩
    rcases builds_of_writes hrun hwrite with ⟨op, hop, _⟩
    rw [hfresh] at hop
    cases hop
  simp [hne]

/-- Without a call the operations that start to write are added. -/
theorem startedCalls_of_none (es : List SessionEvent) (os obs : List SessionObs)
    (hcalls : calls [event] = []) :
    startedCalls (es ++ [event]) (os ++ obs) = startedCalls es os ++
      ((writes obs).map Prod.fst).filter (· ∈ (calls es).map Prod.fst) := by
  rw [startedCalls, startedCalls, calls_append, hcalls, List.append_nil, writes_append,
    List.map_append, List.filter_append]

/-- No operation starts to write twice. -/
theorem nodup_writes_of_run (hrun : (machine N).Run R es os s) :
    ((writes os).map Prod.fst).Nodup := by
  rcases (halves_of_run hrun).1 with ⟨_, hsend⟩
  exact Sender.nodup_writes hsend

end Session

namespace Sender

variable {s s' : Sender} {event : SendEvent} {obs os : List SendObs} {es : List SendEvent}

/-- An operation that completes with success has written. -/
theorem writing_of_success (hmove : Move s event s' obs) {id : Nat} {exit : SendExit} {n : UInt32}
    (hcompleted : .completed id exit .success n ∈ obs) : ∃ frame, s.Writing id frame := by
  cases hmove with
  | @written id' op frame ec hop hphase htimeout =>
      simp only [List.mem_cons, reduceCtorEq, SendObs.completed.injEq, List.not_mem_nil, or_false,
        false_or] at hcompleted
      rcases hcompleted with ⟨rfl, _⟩
      exact ⟨frame, by rw [Writing, phase_of_ops hop, hphase]⟩
  | enter hready henter =>
      cases henter with
      | wait => cases hcompleted
      | fail => simp at hcompleted
      | write hfree hfill hnumber =>
          rcases number_obs hnumber with rfl | ⟨m, rfl⟩ <;> simp at hcompleted
  | call | callNext | giveUp | timeOut | cancelWait | cancel => simp at hcompleted

/-- Only what has been written is reported as sent. -/
theorem started_of_success {R : Sender → SendEvent → Sender → Prop} (hrun : machine.Run R es os s)
    {id : Nat} {exit : SendExit} {n : UInt32} (hcompleted : .completed id exit .success n ∈ os) :
    id ∈ (writes os).map Prod.fst := by
  induction hrun with
  | refl => cases hcompleted
  | snoc before hstep _ ih =>
      rw [writes_append, List.map_append]
      rcases List.mem_append.mp hcompleted with hbefore | hnow
      · exact List.mem_append_left _ (ih hbefore)
      · rcases writing_of_success (move_of_step hstep) hnow with ⟨frame, hwriting⟩
        have hstarted := mem_writes.mpr (started_of_writing before hwriting)
        exact List.mem_append_left _ (List.mem_map.mpr ⟨_, hstarted, rfl⟩)

end Sender

namespace Coroutine

variable {P : Type} {C : Coroutine P} {N : Nat} {s s' : Session N}
variable {r r' : Progress P} {e : SessionEvent} {o os : List SessionObs} {es : List SessionEvent}

/-! ## The path of a coroutine -/

/-- {lit}`C.Path ds kinds r`: the coroutine has received {lit}`ds` and has gone on to send
{lit}`kinds`. -/
inductive Path (C : Coroutine P) : List Completion → List SendKind → Progress P → Prop
  | start : Path C [] [] (.ready C.start)
  | call {ds : List Completion} {kinds : List SendKind} {p : P} {call : Call}
      (before : Path C ds kinds (.ready p)) (hawaits : C.awaits p = call.await) :
      Path C ds (kinds ++ (call.pdu.map Prod.snd).toList) (call.progress p)
  | sent {ds : List Completion} {kinds : List SendKind} {p : P} {id : Nat}
      (before : Path C ds kinds (.sending p id)) : Path C ds kinds (.ready (C.sent p))
  | received {ds : List Completion} {kinds : List SendKind} {p p' : P} {completion : Completion}
      (before : Path C ds kinds (.receiving p)) (hreceived : C.received p completion = some p') :
      Path C (ds ++ [completion]) kinds (.ready p')
  | mismatch {ds : List Completion} {kinds : List SendKind} {p : P} {completion : Completion}
      (before : Path C ds kinds (.receiving p)) (hreceived : C.received p completion = none) :
      Path C (ds ++ [completion]) kinds .badVariantAccess
  | sendFailed {ds : List Completion} {kinds : List SendKind} {p : P} {id : Nat}
      (before : Path C ds kinds (.sending p id)) (ec : ErrorCode) : Path C ds kinds (.failed ec)
  | receiveFailed {ds : List Completion} {kinds : List SendKind} {p : P}
      (before : Path C ds kinds (.receiving p)) (ec : ErrorCode) : Path C ds kinds (.failed ec)

/-- What resumes a coroutine is the operation that it waits for. -/
theorem resume_cases {x : SessionObs} (hne : C.resume r x ≠ r) :
    (∃ p id exit ec n, r = .sending p id ∧ x = .send (.completed id exit ec n) ∧
      C.resume r x = if ec = .success then .ready (C.sent p) else .failed ec) ∨
    ∃ p completion, r = .receiving p ∧ x = .receive (.completed completion) := by
  cases r with
  | ready | failed | badVariantAccess =>
      refine absurd (resume_of_settled ?_ x) hne
      trivial
  | sending p id =>
      cases x with
      | receive x => cases x <;> exact absurd rfl hne
      | send x =>
          cases x with
          | allocated | writeStarted | writeDone => exact absurd rfl hne
          | completed j exit ec n =>
              by_cases hid : id = j
              · subst hid
                exact Or.inl ⟨p, id, exit, ec, n, rfl, rfl, if_pos rfl⟩
              · exact absurd (if_neg hid) hne
  | receiving p =>
      cases x with
      | send x => cases x <;> exact absurd rfl hne
      | receive x =>
          cases x with
          | completed completion => exact Or.inr ⟨p, completion, rfl, rfl⟩
          | readSome | dispatched | sendCommand | posted | consumed | shutdownSocket =>
              exact absurd rfl hne

/-- The completion of a receive operation resumes the coroutine that waits for it. -/
theorem resume_completed_ne (p : P) (completion : Completion) :
    C.resume (.receiving p) (.receive (.completed completion)) ≠ .receiving p := by
  simp only [resume]
  split
  · split <;> simp
  · simp

theorem mem_completions {completion : Completion} (hmem : .receive (.completed completion) ∈ o) :
    completion ∈ completions (Session.receivePart o) := by
  have hpart : .completed completion ∈ Session.receivePart o :=
    List.mem_filterMap.mpr ⟨_, hmem, rfl⟩
  exact List.mem_filterMap.mpr ⟨_, hpart, rfl⟩

theorem completed_mem {completion : Completion}
    (hmem : completion ∈ completions (Session.receivePart o)) :
    .receive (.completed completion) ∈ o := by
  rcases List.mem_filterMap.mp hmem with ⟨x, hx, hcompletion⟩
  cases x with
  | completed c =>
      cases hcompletion
      rcases List.mem_filterMap.mp hx with ⟨y, hy, hpart⟩
      cases y with
      | send => cases hpart
      | receive z =>
          cases hpart
          exact hy
  | readSome | dispatched | sendCommand | posted | consumed | shutdownSocket => cases hcompletion

/-- A coroutine that initiates an operation goes on to wait for it. -/
theorem foldl_of_call {p : P} (hmove : Session.Move s e s' o) {call : Call}
    (hcall : callOf e = some call) :
    o.foldl C.resume (initiate (.ready p) e) = call.progress p := by
  have hinitiate : initiate (.ready p) e = call.progress p := by simp only [initiate, hcall]
  rcases Session.quiet_of_call hmove hcall with ⟨hsend, hrecv, _⟩
  rw [hinitiate]
  rcases foldl_cases C (call.progress p) o with ⟨_, hfold⟩ | ⟨x, hmem, hne, _⟩
  · exact hfold
  · rcases resume_cases hne with ⟨_, _, _, _, _, _, rfl, _⟩ | ⟨_, completion, _, rfl⟩
    · exact absurd hmem (hsend _ _ _ _)
    · have hnone := mem_completions hmem
      rw [hrecv] at hnone
      cases hnone

/-- The coroutine behind a completion of its receive operation. -/
theorem Path.resume {ds : List Completion} {kinds : List SendKind} {p : P}
    (hpath : C.Path ds kinds (.receiving p)) (completion : Completion) :
    C.Path (ds ++ [completion].filter (·.ec = .success)) kinds
      (C.resume (.receiving p) (.receive (.completed completion))) := by
  by_cases hec : completion.ec = .success
  · have hkept : [completion].filter (·.ec = .success) = [completion] := by simp [hec]
    rw [hkept]
    simp only [Coroutine.resume, if_pos hec]
    cases hreceived : C.received p completion with
    | some p' => exact hpath.received hreceived
    | none => exact hpath.mismatch hreceived
  · have hdropped : [completion].filter (·.ec = .success) = [] := by simp [hec]
    rw [hdropped, List.append_nil]
    simp only [Coroutine.resume, if_neg hec]
    exact hpath.receiveFailed _

/-- The completion of its receive operation resumes the coroutine. -/
theorem foldl_of_completed {completion : Completion} (p : P)
    (hone : completions (Session.receivePart o) = [completion]) :
    o.foldl C.resume (.receiving p) =
      C.resume (.receiving p) (.receive (.completed completion)) := by
  have hcompleted : .receive (.completed completion) ∈ o := completed_mem (by rw [hone]; simp)
  rcases foldl_cases C (.receiving p) o with ⟨hsame, _⟩ | ⟨x, hmem, hne, hfold⟩
  · exact absurd (hsame _ hcompleted) (resume_completed_ne p completion)
  · rcases resume_cases hne with ⟨_, _, _, _, _, hsending, _⟩ | ⟨_, completion', _, rfl⟩
    · cases hsending
    · obtain rfl : completion' = completion := by simpa [hone] using mem_completions hmem
      exact hfold

/-- The coroutine has got as far as the session; when a receive operation is on its way the
coroutine waits for it. -/
structure Follows (C : Coroutine P) (s : Session N) (ds : List Completion)
    (kinds : List SendKind) (r : Progress P) : Prop where
  path : C.Path ds kinds r
  waits : s.recv.stage ≠ .idle → ∃ p, r = .receiving p

/-- The coroutine goes on to what it awaits. -/
theorem Follows.call {ds : List Completion} {kinds : List SendKind}
    (hfollows : C.Follows s ds kinds r) (hmove : Session.Move s e s' o) (hpermits : C.Permits r e)
    {call : Call} (hcall : callOf e = some call) :
    C.Follows s' (ds ++ Session.delivered o) (kinds ++ (calls [e]).map Prod.snd)
      (o.foldl C.resume (initiate r e)) := by
  rcases hpermits call hcall with ⟨p, rfl, hawaits⟩
  rcases Session.quiet_of_call hmove hcall with ⟨_, hrecv, _⟩
  have hnone : Session.delivered o = [] := by
    rw [Session.delivered, hrecv]
    rfl
  have hkinds : (calls [e]).map Prod.snd = (call.pdu.map Prod.snd).toList := by
    rw [calls_singleton, hcall, Option.bind_some]
    cases call.pdu <;> rfl
  rw [hnone, List.append_nil, hkinds, foldl_of_call hmove hcall]
  refine ⟨hfollows.path.call hawaits, fun hbusy => ?_⟩
  rcases Session.endsOnce_move hmove with ⟨hreceive, _⟩ | ⟨_, _, hsame⟩ | ⟨hother, _⟩
  · rw [hcall, Option.some.injEq] at hreceive
    subst hreceive
    exact ⟨p, rfl⟩
  · rcases hfollows.waits (mt hsame.mpr hbusy) with ⟨_, hready⟩
    cases hready
  · rw [hcall] at hother
    cases hother

/-- The session goes on without the coroutine, or completes the operation that it waits for. -/
theorem Follows.resume {ds : List Completion} {kinds : List SendKind}
    (hfollows : C.Follows s ds kinds r) (hmove : Session.Move s e s' o) (hcall : callOf e = none) :
    C.Follows s' (ds ++ Session.delivered o) kinds (o.foldl C.resume r) := by
  rcases hfollows with ⟨hpath, hwaits⟩
  rcases Session.endsOnce_move hmove with
    ⟨hreceive, _⟩ | ⟨_, hnone, hsame⟩ | ⟨_, hbusy, hidle, c, hone⟩
  · rw [hcall] at hreceive
    cases hreceive
  · have hdelivered : Session.delivered o = [] := by
      rw [Session.delivered, deliveries, hnone]
      rfl
    rw [hdelivered, List.append_nil]
    rcases foldl_cases C r o with ⟨_, hfold⟩ | ⟨x, hmem, hne, hfold⟩
    · rw [hfold]
      exact ⟨hpath, fun hbusy => hwaits (mt hsame.mpr hbusy)⟩
    · rw [hfold]
      rcases resume_cases hne with ⟨p, id, exit, ec, n, rfl, rfl, hresume⟩ | ⟨_, c, _, rfl⟩
      · refine ⟨?_, fun hbusy => ?_⟩
        · rw [hresume]
          split
          · exact hpath.sent
          · exact hpath.sendFailed _
        · rcases hwaits (mt hsame.mpr hbusy) with ⟨_, hsending⟩
          cases hsending
      · have hmem' := mem_completions hmem
        rw [hnone] at hmem'
        cases hmem'
  · rcases hwaits hbusy with ⟨p, rfl⟩
    have hdelivered : Session.delivered o = [c].filter (·.ec = .success) := by
      rw [Session.delivered, deliveries, hone]
    rw [hdelivered, foldl_of_completed p hone]
    exact ⟨hpath.resume c, fun hbusy' => absurd hidle hbusy'⟩

/-- The coroutine sees the PDUs that the receive operations of the session complete with, and
nothing else. -/
theorem follows_of_drives (hdrives : C.Drives es os s r) :
    C.Follows s (Session.delivered os) ((calls es).map Prod.snd) r := by
  induction hdrives with
  | start => exact ⟨.start, fun hbusy => absurd rfl hbusy⟩
  | @step es os s s' r e o before hstep hpermits ih =>
      have hmove := Session.move_of_step hstep
      rw [Session.delivered_append, calls_append, List.map_append]
      cases hcall : callOf e with
      | some call => exact ih.call hmove hpermits hcall
      | none =>
          have hnone : calls [e] = [] := by rw [calls_singleton, hcall]; rfl
          rw [initiate_of_none hcall, hnone, List.map_nil, List.append_nil]
          exact ih.resume hmove hcall

/-! ## The order of the PDUs that are sent -/

/-- The coroutine waits for the operation to send, or the operation has failed. -/
def Lagging (r : Progress P) (id : Nat) : Prop :=
  (∃ p, r = .sending p id) ∨ ∃ ec, r = .failed ec

/-- An operation that has not written does not let the coroutine go on. -/
theorem Lagging.foldl {id : Nat} (hlagging : Lagging r id)
    (hfails : ∀ exit ec n, .send (.completed id exit ec n) ∈ o → ec ≠ .success) :
    Lagging (o.foldl C.resume r) id := by
  rcases hlagging with ⟨p, rfl⟩ | ⟨ec, rfl⟩
  · rcases foldl_cases C (.sending p id) o with ⟨_, hfold⟩ | ⟨x, hmem, hne, hfold⟩
    · exact Or.inl ⟨p, hfold⟩
    · rw [hfold]
      rcases resume_cases hne with ⟨_, _, exit, ec, n, hsending, rfl, hresume⟩ | ⟨_, _, hsending, _⟩
      · cases hsending
        rw [hresume, if_neg (hfails exit ec n hmem)]
        exact Or.inr ⟨ec, rfl⟩
      · cases hsending
  · exact Or.inr ⟨ec, foldl_of_settled (r := .failed ec) True.intro o⟩

/-- How many of the PDUs that the coroutine sends have started to be written. -/
def InOrder (es : List SessionEvent) (os : List SessionObs) (r : Progress P) : Prop :=
  (calls es).map Prod.fst = Session.startedCalls es os ∨
    ∃ id, (calls es).map Prod.fst = Session.startedCalls es os ++ [id] ∧ Lagging r id

/-- The coroutine goes on to send a PDU once the one before it has been written. -/
theorem InOrder.call (hinOrder : InOrder es os r)
    (hrun : (Session.machine N).Run EventMachine.anyStep es os s) (hmove : Session.Move s e s' o)
    (hpermits : C.Permits r e) {id : Nat} {kind : SendKind} (hone : calls [e] = [(id, kind)])
    (hfresh : s.send.ops id = none) :
    InOrder (es ++ [e]) (os ++ o) (o.foldl C.resume (initiate r e)) := by
  have hcall : callOf e = some (.send id kind) := by
    rw [calls_singleton] at hone
    cases hcall : callOf e with
    | none => simp [hcall] at hone
    | some call =>
        cases call with
        | send => simpa [hcall, Call.pdu] using hone
        | sendUnbind | receive => simp [hcall, Call.pdu] at hone
  rcases hpermits _ hcall with ⟨p, rfl, _⟩
  rcases Session.quiet_of_call hmove hcall with ⟨_, _, hwrites⟩
  refine Or.inr ⟨id, ?_, ?_⟩
  · rcases hinOrder with hall | ⟨_, _, ⟨_, hsending⟩ | ⟨_, hfailed⟩⟩
    · rw [calls_append, hone, List.map_append, List.map_singleton, hall,
        Session.startedCalls_of_call hrun hwrites hone hfresh]
    · cases hsending
    · cases hfailed
  · rw [foldl_of_call hmove hcall]
    exact Or.inl ⟨p, rfl⟩

/-- Only a PDU that has been written lets the coroutine go on. -/
theorem InOrder.resume (hinOrder : InOrder es os r)
    (hrun : (Session.machine N).Run EventMachine.anyStep (es ++ [e]) (os ++ o) s')
    (hmove : Session.Move s e s' o) (hinv : s.send.Inv) (hnone : calls [e] = []) :
    InOrder (es ++ [e]) (os ++ o) (o.foldl C.resume (initiate r e)) := by
  rw [InOrder, calls_append, hnone, List.append_nil, Session.startedCalls_of_none es os o hnone]
  have hdistinct := Session.nodup_writes_of_run hrun
  rw [Session.writes_append, List.map_append, List.nodup_append'] at hdistinct
  -- what starts to write has not written before
  have hnew : ∀ j ∈ (Session.writes o).map Prod.fst, j ∉ Session.startedCalls es os :=
    fun j hmem hbefore => hdistinct.2.2 (List.mem_of_mem_filter hbefore) hmem
  rcases hinOrder with hall | ⟨id, hlast, hlagging⟩
  · refine Or.inl ?_
    rw [List.filter_eq_nil_iff.mpr, List.append_nil, hall]
    intro j hmem hcalled
    rw [hall] at hcalled
    exact hnew j hmem (by simpa using hcalled)
  · by_cases hstarts : id ∈ (Session.writes o).map Prod.fst
    · refine Or.inl ?_
      rcases Session.writes_of_move hmove hinv with hidle | ⟨j, frame, hwrites⟩
      · rw [hidle] at hstarts
        cases hstarts
      · rw [hwrites, List.map_singleton, List.mem_singleton] at hstarts
        subst hstarts
        rw [hlast, hwrites]
        simp
    · refine Or.inr ⟨id, ?_, ?_⟩
      · rw [List.filter_eq_nil_iff.mpr, List.append_nil, hlast]
        intro j hmem hcalled
        rw [hlast, decide_eq_true_eq, List.mem_append, List.mem_singleton] at hcalled
        rcases hcalled with hbefore | rfl
        · exact hnew j hmem hbefore
        · exact hstarts hmem
      · have hsame : initiate r e = r := by
          rcases hlagging with ⟨p, rfl⟩ | ⟨ec, rfl⟩ <;> rfl
        rw [hsame]
        refine hlagging.foldl fun exit ec n hcompleted hec => ?_
        subst hec
        rcases (Session.halves_of_run hrun).1 with ⟨_, hsend⟩
        have hpart : .completed id exit .success n ∈ Session.sendPart (os ++ o) :=
          List.mem_filterMap.mpr ⟨_, List.mem_append_right _ hcompleted, rfl⟩
        have hstarted := Sender.started_of_success hsend hpart
        rw [← Session.writes, Session.writes_append, List.map_append, List.mem_append] at hstarted
        have hbefore : id ∈ Session.startedCalls es os := by
          rw [Session.startedCalls, List.mem_filter, hlast]
          exact ⟨hstarted.resolve_right hstarts, by simp⟩
        have hcalls := (Session.calls_of_run hrun).2
        rw [calls_append, hnone, List.append_nil, hlast, List.nodup_append'] at hcalls
        exact hcalls.2.2 hbefore (List.mem_singleton_self id)

/-- The PDUs that the coroutine sends are written in the order in which it goes on to send them;
only the last one may be missing. -/
theorem inOrder_of_drives (hdrives : C.Drives es os s r) : InOrder es os r := by
  induction hdrives with
  | start => exact Or.inl rfl
  | @step es os s s' r e o before hstep hpermits ih =>
      have hmove := Session.move_of_step hstep
      have hrun := before.run
      rcases Session.call_move hmove with hnone | ⟨id, kind, hone, _, hfresh, _⟩
      · exact ih.resume (hrun.snoc hstep trivial) hmove (Session.sendInv_of_run hrun) hnone
      · exact ih.call hrun hmove hpermits hone hfresh

/-! ## What the peer is to receive -/

/-- A write of the operation is for the peer to receive as this. -/
def Conveys (kind : SendKind) (completion : Completion) : Prop :=
  ∃ frame, kind.Builds frame ∧ kind.message frame = [completion]

/-- A PDU is for the peer to receive as one PDU. -/
theorem conveys_of_builds {kind : SendKind} {frame : Octets} (hkind : kind.isCommand = false)
    (hbuilds : kind.Builds frame) :
    ∃ completion, kind.message frame = [completion] ∧ Conveys kind completion := by
  cases kind with
  | command => cases hkind
  | request | response => exact ⟨_, rfl, frame, hbuilds, rfl⟩

/-- The messages of the writes of some operations. -/
theorem conveys_of_writes {called : List (Nat × SendKind)} {ws : List (Nat × Octets)}
    (message : Nat × Octets → List Completion)
    (hmessage : ∀ call ∈ called, ∀ write ∈ ws, call.1 = write.1 →
      ∃ completion, message write = [completion] ∧ Conveys call.2 completion)
    (hsame : List.Forall₂ (fun call write => call.1 = write.1) called ws) :
    List.Forall₂ Conveys (called.map Prod.snd) (ws.flatMap message) := by
  induction hsame with
  | nil => exact .nil
  | @cons call write called ws hfirst _ ih =>
      rcases hmessage call List.mem_cons_self write List.mem_cons_self hfirst with
        ⟨completion, heq, hconveys⟩
      rw [List.flatMap_cons, heq, List.map_cons, List.singleton_append]
      exact .cons hconveys (ih fun call hcall write hwrite =>
        hmessage call (List.mem_cons_of_mem _ hcall) write (List.mem_cons_of_mem _ hwrite))

/-- What the peer is to receive for a write of the session. -/
def messages (s : Session N) (write : Nat × Octets) : List Completion :=
  ((s.send.ops write.1).map fun op => op.kind.message write.2).getD []

theorem sent_eq_messages (s : Session N) (os : List SessionObs) :
    s.sent os = (Session.writes os).flatMap (messages s) := by
  rw [Session.sent]
  refine List.flatMap_congr fun write _ => ?_
  unfold messages
  cases s.send.ops write.1 <;> rfl

/-- What has no messages may be left out. -/
theorem flatMap_filter {ws : List (Nat × Octets)} {p : Nat × Octets → Bool}
    {message : Nat × Octets → List Completion}
    (hnone : ∀ write ∈ ws, p write = false → message write = []) :
    (ws.filter p).flatMap message = ws.flatMap message := by
  induction ws with
  | nil => rfl
  | cons write ws ih =>
      have hrest := ih fun other hmem => hnone other (List.mem_cons_of_mem _ hmem)
      cases hp : p write with
      | true => rw [List.filter_cons_of_pos hp, List.flatMap_cons, List.flatMap_cons, hrest]
      | false =>
          have hfirst := hnone write List.mem_cons_self hp
          rw [List.filter_cons_of_neg (by simp [hp]), List.flatMap_cons, hfirst, hrest,
            List.nil_append]

/-- Operations that nobody called to send a PDU send none. -/
theorem messages_of_not_called (hrun : (Session.machine N).Run EventMachine.anyStep es os s)
    {write : Nat × Octets} (hcalled : write.1 ∉ (calls es).map Prod.fst) :
    messages s write = [] := by
  cases hop : s.send.ops write.1 with
  | none => simp [messages, hop]
  | some op =>
      cases hkind : op.kind with
      | command => simp [messages, hop, hkind, SendKind.message, SendKind.value]
      | request | response =>
          have hcall := Session.called_of_run hrun write.1 op hop (by rw [hkind]; rfl)
          have hmem : (write.1, op.kind) ∈ calls es := List.mem_filterMap.mpr ⟨_, hcall, rfl⟩
          exact absurd (List.mem_map.mpr ⟨_, hmem, rfl⟩) hcalled

/-- The PDUs that are written are the first of those that the coroutine has gone on to send. -/
theorem sent_of_drives (hdrives : C.Drives es os s r) :
    List.Forall₂ Conveys (((calls es).map Prod.snd).take (Session.startedCalls es os).length)
      (s.sent os) := by
  have hrun := hdrives.run
  have hcalls := (Session.calls_of_run hrun).1
  let ws := (Session.writes os).filter (·.1 ∈ (calls es).map Prod.fst)
  have hws : ws.map Prod.fst = Session.startedCalls es os := by
    rw [Session.startedCalls, List.filter_map]
    rfl
  have hinitial : ws.map Prod.fst <+: (calls es).map Prod.fst := by
    rw [hws]
    rcases inOrder_of_drives hdrives with hall | ⟨id, hlast, _⟩
    · exact hall ▸ List.prefix_rfl
    · exact hlast ▸ List.prefix_append _ _
  have hsame :
      List.Forall₂ (fun call write => call.1 = write.1) ((calls es).take ws.length) ws := by
    rw [List.prefix_iff_eq_take, List.length_map, ← List.map_take, eq_comm,
      ← List.forall₂_eq_eq_eq, List.forall₂_map_left_iff, List.forall₂_map_right_iff] at hinitial
    exact hinitial
  have hsent : s.sent os = ws.flatMap (messages s) := by
    rw [sent_eq_messages]
    exact (flatMap_filter fun write _ hcalled =>
      messages_of_not_called hrun (by simpa using hcalled)).symm
  rw [hsent, ← hws, List.length_map, ← List.map_take]
  refine conveys_of_writes _ ?_ hsame
  intro call hcall write hwrite hid
  rcases hcalls call (List.mem_of_mem_take hcall) with ⟨hcaller, op, hop, hkind⟩
  rcases Session.builds_of_writes hrun (List.mem_of_mem_filter hwrite) with ⟨op', hop', hbuilt⟩
  rw [hid, hop', Option.some.injEq] at hop
  subst hop
  have hmessages : messages s write = op'.kind.message write.2 := by simp [messages, hop']
  rw [← hkind] at hcaller ⊢
  rw [hmessages]
  exact conveys_of_builds hcaller hbuilt

/-- Of the operations on record only those that the coroutine has called send PDUs. -/
theorem portable_of_drives (hdrives : C.Drives es os s r)
    (hportable : ∀ kind ∈ (calls es).map Prod.snd, kind.Portable) :
    ∀ id op, s.send.ops id = some op → op.kind.Portable := by
  intro id op hop
  cases hkind : op.kind with
  | command => trivial
  | request | response =>
      have hcall := Session.called_of_run hdrives.run id op hop (by rw [hkind]; rfl)
      have hmem : (id, op.kind) ∈ calls es := List.mem_filterMap.mpr ⟨_, hcall, rfl⟩
      exact hkind ▸ hportable _ (List.mem_map.mpr ⟨_, hmem, rfl⟩)

/-- The coroutine waits for what it awaits. -/
theorem Path.awaits_of_receiving {ds : List Completion} {kinds : List SendKind} {p : P}
    (hpath : C.Path ds kinds (.receiving p)) : C.awaits p = .receive := by
  generalize hprogress : Progress.receiving p = r at hpath
  cases hpath with
  | @call _ _ p' call before hawaits =>
      cases call with
      | send | sendUnbind => cases hprogress
      | receive =>
          cases hprogress
          exact hawaits
  | start | sent | received | mismatch | sendFailed | receiveFailed => cases hprogress

end Coroutine

end Smpp
