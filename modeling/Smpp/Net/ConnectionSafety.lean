import Smpp.Net.EndToEnd

/-!
# What a session does not do to its peer

A receive operation is safe only as far as the peer announces sensible lengths.  A peer that is
itself a session does, as long as nothing is transmitted behind a write that ended short and
every frame is shorter than 2^32 octets.

Main results:

- Theorem {lit}`Connection.safe_of_run`: in such a run two connected sessions never take a range
  that is not in the buffer, and never wait for a frame that cannot arrive unless a frame that
  does not fit was written.
-/

namespace Smpp

namespace Connection

variable {N : Nat} {c : Connection N} {es : List ConnectionEvent}
variable {os : List (Side × SessionObs)}

/-- What has arrived announces the lengths of frames that were written. -/
theorem announces_of_run (hrun : (machine N).Run Intact es os c) (side : Side)
    {P : Nat → Prop} (hlengths : ∀ frame ∈ frames side.peer os, P frame.length) :
    commandFraming.Announces (arrived side es) P := by
  have hannounces := Framing.announces_flatten (F := commandFraming) (P := P) (by decide)
    (isFrame_of_run hrun side.peer) hlengths
  have hwire := (wire_of_run hrun side.peer).onWire
  rw [Side.peer_peer] at hwire
  obtain ⟨more, hmore⟩ := (List.prefix_append (arrived side es) _).trans hwire
  rw [← hmore] at hannounces
  exact Framing.Announces.of_append more hannounces

/-- While nothing is transmitted behind a write that ended short and every frame is shorter than
2^32 octets, at either end of two connected sessions: every frame that is dispatched covers its
header and lies in the buffer, and a {lit}`consume` removes exactly one frame; the coroutine
never leaves the buffer, and its loop pauses after at most one pass for every sixteen buffered
octets and two more.  If what the peer has written fits the buffer, no read is given an empty
region. -/
theorem safe_of_run (es : List ConnectionEvent) (os : List (Side × SessionObs))
    (c : Connection N) (hrun : (machine N).Run Intact es os c) (side : Side) :
    (∀ o ∈ Session.receivePart (obsOf side os), Receiver.SafeObs o) ∧
      (c side).session.recv.stage ≠ .undefined ∧
      ((c side).session.recv.stage = .running →
        (c side).session.recv.PausesWithin
          ((c side).session.recv.receiveBuf.size / headerLength + 2)) ∧
      (headerLength ≤ N → (∀ frame ∈ frames side.peer os, frame.length ≤ N) →
        ∀ o ∈ Session.receivePart (obsOf side os), Receiver.NonemptyRead o) := by
  rcases Session.halves_of_run (session_run side hrun) with ⟨_, es₂, hrecv, hreceived⟩
  have hcovers : commandFraming.Announces (received es₂) (headerLength ≤ ·) := by
    rw [hreceived]
    exact announces_of_run hrun side fun frame hmem =>
      (isFrame_of_run hrun side.peer frame hmem).header
  rcases Receiver.safe_of_covers hrecv hcovers with ⟨hsafe, hdefined⟩
  rcases Receiver.aligned_of_run hrecv with ⟨hinv, haligned⟩
  refine ⟨hsafe, hdefined, fun hstage => ?_, fun hN hfits => ?_⟩
  · exact Receiver.pausesWithin_of_covers hcovers hstage hinv haligned
  · refine Receiver.nonemptyRead_of_run hN hrecv ?_
    rw [hreceived]
    exact announces_of_run hrun side hfits

/-- An empty {lit}`submit_sm_resp` has arrived and is about to be dispatched. -/
theorem safe_of_run_submitSmResp :
    ∃ es os, ∃ c : Connection 64, (machine 64).Run Intact es os c ∧
      arrived .right es = encodeHeader ⟨17, .submitSmResp, .rok, 1⟩ ++ [0] ∧
      ((∀ o ∈ Session.receivePart (obsOf .right os), Receiver.SafeObs o) ∧
        (c .right).session.recv.stage ≠ .undefined ∧
        ((c .right).session.recv.stage = .running →
          (c .right).session.recv.PausesWithin
            ((c .right).session.recv.receiveBuf.size / headerLength + 2)) ∧
        (headerLength ≤ 64 → (∀ frame ∈ frames .left os, frame.length ≤ 64) →
          ∀ o ∈ Session.receivePart (obsOf .right os), Receiver.NonemptyRead o)) := by
  have hrun := EventMachine.steps_of_execIf (M := machine 64) (s := (machine 64).init)
    isIntact (fun _ _ _ => intact_of_isIntact)
    [.session .left (.send (.call 0 (.response .submitSmResp {} 1 .rok rfl))),
      .session .left (.send (.start 0)), .transmit .left 0 17,
      .session .right (.receive .asyncReceive 0), .session .right (.receive .iterate 0),
      .session .right (.receive .iterate 0),
      .session .right (.receive (.readDone .success
        (encodeHeader ⟨17, .submitSmResp, .rok, 1⟩ ++ [0])) 0)] rfl
  exact ⟨_, _, _, hrun, rfl, safe_of_run _ _ _ hrun .right⟩

end Connection

end Smpp
