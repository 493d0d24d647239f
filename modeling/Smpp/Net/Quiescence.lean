import Smpp.Net.Conversation
import Smpp.Net.LinkExchange

/-!
# Coroutines at rest

What is known of two coroutines when nothing is on its way between their sessions.

Main results:

- Theorem {lit}`Receiver.error_of_unbind`: an {lit}`unbind` or {lit}`unbind_resp` leaves the
  buffer with a completion that reports an error.
- Theorem {lit}`Coroutine.unbound_of_drives`: a coroutine gets behind its
  {lit}`async_send_unbind` only by writing an {lit}`unbind`.
- Theorem {lit}`Connection.failed_of_unbind`: at rest a coroutine whose peer has written an
  {lit}`unbind` has failed.
-/

namespace Smpp

namespace Receiver

variable {N : Nat} {r r' : Receiver N} {event : ReceiveEvent} {obs os : List ReceiveObs}
variable {header : Header}

/-! ## What ends a session -/

/-- A delivery removes no frame that ends the session. -/
theorem removed_deliver {P : CommandId → Prop} (hheld : r.Held P) (hdeliver : Deliver r r' obs)
    (hmem : header ∈ removed obs) : P header.commandId := by
  cases hdeliver with
  | undefined => cases hmem
  | completed =>
      obtain rfl : header = r.op.header := List.mem_singleton.mp hmem
      exact hheld.commandId

/-- A frame that ends the session leaves the buffer with a completion that reports an error. -/
theorem error_of_unbind_move (hmove : Move r event r' obs) (hinv : r.Inv)
    (hmem : header ∈ removed obs)
    (hid : header.commandId = .unbind ∨ header.commandId = .unbindResp) :
    ∃ c ∈ completions obs, c.ec ≠ .success := by
  have hcontrol : header.commandId ∈ control := by
    rcases hid with hid | hid <;> rw [hid] <;> decide
  cases hmove with
  | asyncReceive | startRead | incomplete => cases hmem
  | dispatch hstage hneeds hwhole hdispatch =>
      have hheld : r.scan.Held (· = r.scan.op.header.commandId) :=
        held_scan _ hneeds hwhole rfl
      cases hdispatch with
      | enquireLink | unbind | post => cases hmem
      | enquireLinkResp hlink =>
          obtain rfl : header = r.scan.op.header := List.mem_singleton.mp hmem
          rw [hlink] at hid
          rcases hid with hid | hid <;> cases hid
      | unbindResp => exact ⟨_, List.mem_singleton_self _, by simp⟩
      | deliver hother hneeds' hdeliver =>
          have hsame := removed_deliver hheld hdeliver hmem
          exact absurd hcontrol (hsame ▸ hother)
  | resume hresume =>
      cases hresume with
      | readTimeoutAgain | readTimeout | readError | read | unbindSent | sendError
      | enquireLinkSent | cancel => cases hmem
      | unbindRespSent => exact ⟨_, List.mem_singleton_self _, by simp⟩
      | enquireLinkRespSent hstage =>
          simp only [Inv, hstage] at hinv
          obtain rfl : header = r.op.header := List.mem_singleton.mp hmem
          rw [hinv.commandId] at hid
          rcases hid with hid | hid <;> cases hid
      | posted hstage hdeliver =>
          simp only [Inv, hstage] at hinv
          exact absurd hcontrol (removed_deliver hinv hdeliver hmem)

/-- In every run a frame that ends the session has left the buffer with a completion that reports
an error. -/
theorem error_of_unbind {es : List ReceiveEvent}
    (hrun : (machine N).Run EventMachine.anyStep es os r) (hmem : header ∈ removed os)
    (hid : header.commandId = .unbind ∨ header.commandId = .unbindResp) :
    ∃ c ∈ completions os, c.ec ≠ .success := by
  induction hrun with
  | refl => cases hmem
  | snoc before hstep _ ih =>
      rw [removed_append, List.mem_append] at hmem
      rw [completions_append]
      rcases hmem with hbefore | hnow
      · rcases ih hbefore with ⟨c, hc, hec⟩
        exact ⟨c, List.mem_append_left _ hc, hec⟩
      · rcases error_of_unbind_move (move_of_step hstep) (inv_of_run before) hnow hid with
          ⟨c, hc, hec⟩
        exact ⟨c, List.mem_append_right _ hc, hec⟩

end Receiver

namespace Session

variable {N : Nat} {s s' : Session N} {event : SessionEvent} {obs os : List SessionObs}
variable {es : List SessionEvent} {R : Session N → SessionEvent → Session N → Prop}

/-- What the caller initiates to send is on record behind the call. -/
theorem op_of_call (hmove : Move s event s' obs) {call : Call} (hcall : callOf event = some call) :
    (∀ id kind, call = .send id kind → ∃ op, s'.send.ops id = some op) ∧
      ∀ id, call = .sendUnbind id →
        ∃ op, s'.send.ops id = some op ∧ op.kind.commandId = .unbind := by
  cases hmove with
  | @send e send o hpaused hmay hsend hpending =>
      cases Sender.move_of_step hsend with
      | call =>
          cases hcall
          refine ⟨?_, by simp⟩
          rintro id kind ⟨⟩
          exact ⟨_, Sender.ops_put_self _ _ _⟩
      | @callNext id hfresh commandId =>
          cases hcall
          refine ⟨by simp, ?_⟩
          rintro id ⟨⟩
          have hunbind : commandId = .unbind := by simpa [mayHappen] using hmay
          exact ⟨_, Sender.ops_put_self _ _ _, hunbind⟩
      | enter hready => cases hready <;> cases hcall
      | giveUp | timeOut | written | cancelWait | cancel => cases hcall
  | @resume e send o id exit ec n recv recvObs hmay hsend hnested hcompleted hrecv =>
      cases Sender.move_of_step hsend with
      | call | callNext => simp at hcompleted
      | enter hready => cases hready <;> cases hcall
      | giveUp | timeOut | written | cancelWait | cancel => cases hcall
  | @receive e id | @command e id =>
      cases e with
      | asyncReceive =>
          cases hcall
          exact ⟨by simp, by simp⟩
      | iterate | readDone | sendDone | postDone | cancel => cases hcall
  | cancel | cancelNested => cases hcall

end Session

namespace Coroutine

variable {P : Type} {C : Coroutine P} {N : Nat} {s s' : Session N}
variable {r r' : Progress P} {e : SessionEvent} {o os : List SessionObs} {es : List SessionEvent}

/-! ## Errors -/

/-- A coroutine whose receive operation has reported an error has failed. -/
theorem failed_of_error (hdrives : C.Drives es os s r) {c : Completion}
    (hmem : c ∈ completions (Session.receivePart os)) (hec : c.ec ≠ .success) :
    ∃ ec, r = .failed ec := by
  induction hdrives with
  | start => cases hmem
  | @step es os s s' r e o before hstep hpermits ih =>
      rw [Session.receivePart_append, completions_append, List.mem_append] at hmem
      rcases hmem with hbefore | hnow
      · rcases ih hbefore with ⟨ec, rfl⟩
        exact ⟨ec, foldl_of_settled (r := .failed ec) True.intro o⟩
      · rcases Session.endsOnce_move (Session.move_of_step hstep) with
          ⟨_, _, _, hnone⟩ | ⟨_, hnone, _⟩ | ⟨_, hbusy, _, c', hone⟩
        · rw [hnone] at hnow
          cases hnow
        · rw [hnone] at hnow
          cases hnow
        · rcases (follows_of_drives before).waits hbusy with ⟨p, rfl⟩
          rw [hone, List.mem_singleton] at hnow
          subst hnow
          have hafter : initiate (.receiving p) e = .receiving p := by simp only [initiate]
          rw [hafter, foldl_of_completed p hone]
          exact ⟨c.ec, by simp only [resume, if_neg hec]⟩

/-! ## Unbinding -/

/-- Where the coroutine is. -/
def point : Progress P → Option P
  | .ready p | .sending p _ | .receiving p => some p
  | .failed _ | .badVariantAccess => none

/-- The points that the coroutine reaches without having sent an {lit}`unbind`. -/
inductive Bound (C : Coroutine P) : P → Prop
  | start : Bound C C.start
  | sent {p : P} (before : Bound C p) (hawaits : C.awaits p ≠ .sendUnbind) : Bound C (C.sent p)
  | received {p p' : P} {completion : Completion} (before : Bound C p)
      (hreceived : C.received p completion = some p') : Bound C p'

/-- The session has started to write an {lit}`unbind`. -/
def WritesUnbind (os : List SessionObs) : Prop :=
  ∃ write ∈ Session.writes os, (deserializeHeader write.2).commandId = .unbind

/-- The operation that the coroutine waits for is on record. -/
theorem sending_of_drives (hdrives : C.Drives es os s r) {p : P} {id : Nat}
    (hsending : r = .sending p id) :
    ∃ op, s.send.ops id = some op ∧ (C.awaits p = .sendUnbind → op.kind.commandId = .unbind) := by
  induction hdrives with
  | start => cases hsending
  | @step es os s s' r e o before hstep hpermits ih =>
      have hmove := Session.move_of_step hstep
      cases hcall : callOf e with
      | some call =>
          rcases hpermits call hcall with ⟨q, rfl, hawaits⟩
          rcases Session.op_of_call hmove hcall with ⟨hpdu, hunbind⟩
          rw [foldl_of_call hmove hcall] at hsending
          cases call with
          | receive => cases hsending
          | send j kind =>
              cases hsending
              rcases hpdu id kind rfl with ⟨op, hop⟩
              exact ⟨op, hop, fun hother => by rw [hawaits] at hother; cases hother⟩
          | sendUnbind j =>
              cases hsending
              rcases hunbind id rfl with ⟨op, hop, hkind⟩
              exact ⟨op, hop, fun _ => hkind⟩
      | none =>
          rw [initiate_of_none hcall] at hsending
          rcases foldl_cases C r o with ⟨_, hfold⟩ | ⟨x, _, hne, hfold⟩
          · rw [hfold] at hsending
            rcases ih hsending with ⟨op, hop, hkind⟩
            rcases Session.op_of_move hmove (Session.sendInv_of_run before.run) hop with
              ⟨op', hop', hsame⟩
            exact ⟨op', hop', fun hawaits => hsame ▸ hkind hawaits⟩
          · have hsettled := settled_of_resume hne
            rw [← hfold, hsending] at hsettled
            exact hsettled.elim

/-- An {lit}`unbind` that has been sent was written. -/
theorem writesUnbind_of_success {R : Session N → SessionEvent → Session N → Prop}
    (hrun : (Session.machine N).Run R es os s) {id : Nat} {exit : SendExit} {n : UInt32}
    (hcompleted : .send (.completed id exit .success n) ∈ os) {op : SendOp}
    (hop : s.send.ops id = some op) (hkind : op.kind.commandId = .unbind) : WritesUnbind os := by
  rcases (Session.halves_of_run hrun).1 with ⟨_, hsend⟩
  have hpart : .completed id exit .success n ∈ Session.sendPart os :=
    List.mem_filterMap.mpr ⟨_, hcompleted, rfl⟩
  rcases List.mem_map.mp (Sender.started_of_success hsend hpart) with ⟨write, hwrite, rfl⟩
  rcases Session.builds_of_writes hrun hwrite with ⟨op', hop', sendBuf, m, hfill, hframe, _⟩
  obtain rfl : op = op' := Option.some.inj (hop.symm.trans hop')
  exact ⟨write, hwrite, by rw [hframe, SendKind.header_frame hfill, hkind]⟩

theorem bound_of_completed {p : P} (hbound : C.Bound p) (completion : Completion) :
    ∀ p', point (C.resume (.receiving p) (.receive (.completed completion))) = some p' →
      C.Bound p' := by
  intro p' hpoint
  simp only [resume] at hpoint
  split at hpoint
  · split at hpoint
    · rename_i q hreceived
      cases hpoint
      exact hbound.received hreceived
    · cases hpoint
  · cases hpoint

/-- A coroutine gets behind its {lit}`async_send_unbind` only by writing an {lit}`unbind`. -/
theorem unbound_of_drives (hdrives : C.Drives es os s r) :
    WritesUnbind os ∨ ∀ p, point r = some p → C.Bound p := by
  induction hdrives with
  | start =>
      refine Or.inr ?_
      rintro p ⟨⟩
      exact .start
  | @step es os s s' r e o before hstep hpermits ih =>
      have hmove := Session.move_of_step hstep
      rcases ih with ⟨write, hwrite, hid⟩ | hbound
      · refine Or.inl ⟨write, ?_, hid⟩
        rw [Session.writes_append]
        exact List.mem_append_left _ hwrite
      cases hcall : callOf e with
      | some call =>
          rcases hpermits call hcall with ⟨q, rfl, hawaits⟩
          have hpoint : point (call.progress q) = some q := by cases call <;> rfl
          rw [foldl_of_call hmove hcall, hpoint]
          exact Or.inr hbound
      | none =>
          rw [initiate_of_none hcall]
          rcases foldl_cases C r o with ⟨_, hfold⟩ | ⟨x, hmem, hne, hfold⟩
          · rw [hfold]
            exact Or.inr hbound
          · rw [hfold]
            rcases resume_cases hne with
              ⟨p, id, exit, ec, n, rfl, rfl, hresume⟩ | ⟨p, completion, rfl, rfl⟩
            · rw [hresume]
              by_cases hec : ec = .success
              · subst hec
                by_cases hawaits : C.awaits p = .sendUnbind
                · rcases sending_of_drives before rfl with ⟨op, hop, hkind⟩
                  rcases Session.op_of_move hmove (Session.sendInv_of_run before.run) hop with
                    ⟨op', hop', hsame⟩
                  exact Or.inl (writesUnbind_of_success (before.run.snoc hstep trivial)
                    (List.mem_append_right _ hmem) hop' (hsame ▸ hkind hawaits))
                · refine Or.inr ?_
                  rintro _ ⟨⟩
                  exact (hbound p rfl).sent hawaits
              · rw [if_neg hec]
                exact Or.inr (by simp [point])
            · exact Or.inr (bound_of_completed (hbound p rfl) completion)

end Coroutine

namespace Connection

variable {N : Nat} {c : Connection N} {es : List ConnectionEvent}
variable {os : List (Side × SessionObs)} {side : Side}
variable {P : Type} {C : Coroutine P} {r : Progress P}

/-! ## At rest -/

/-- At rest a coroutine whose peer has written an {lit}`unbind` has failed. -/
theorem failed_of_unbind (hrun : (machine N).Run Intact es os c) (hsettled : c.Settled)
    (hunbind : Coroutine.WritesUnbind (obsOf side os))
    (hdrives : C.Drives (eventsOf side.peer es) (obsOf side.peer os) (c side.peer).session r) :
    ∃ ec, r = .failed ec := by
  rcases hunbind with ⟨write, hwrite, hid⟩
  have hremoved : deserializeHeader write.2 ∈ removed side.peer os := by
    rw [removed_of_settled hrun hsettled side]
    exact List.mem_map_of_mem (List.mem_map_of_mem hwrite)
  rcases Session.halves_of_run (session_run side.peer hrun) with ⟨_, _, hrecv, _⟩
  rcases Receiver.error_of_unbind hrecv hremoved (Or.inl hid) with ⟨c, hc, hec⟩
  exact Coroutine.failed_of_error hdrives hc hec

end Connection

end Smpp
