import Smpp.Net.Coroutine

/-!
# Two coroutines that talk to each other

A connection whose two ends are used by a coroutine each, as one machine.  The coroutines
initiate operations at the points that await them; the operations, the transport and the timers
go on in any order.  Each coroutine uses a session that was built where it is used, none that
was copied or moved there.

Main results:

- Theorem {lit}`Conversation.drives_of_run`: seen from either end, a run of the conversation is
  a run of a session that the coroutine drives.
- Theorem {lit}`Connection.delivered_of_drives`: a coroutine is received in the order of its
  program.
-/

namespace Smpp

/-- A connection, and how far the coroutines at its two ends have got. -/
structure Conversation (P Q : Type) (N : Nat) where
  connection : Connection N
  left : Progress P
  right : Progress Q

namespace Conversation

open Connection (eventsOf obsOf)

variable {P Q : Type} {C : Coroutine P} {D : Coroutine Q} {N : Nat} {d d' : Conversation P Q N}
variable {event : ConnectionEvent} {obs os : List (Side × SessionObs)}
variable {es : List ConnectionEvent}

/-! ## The machine -/

/-- One event.  What is initiated is what the coroutine at that end awaits. -/
def step (C : Coroutine P) (D : Coroutine Q) (d : Conversation P Q N) (event : ConnectionEvent) :
    Option (Conversation P Q N × List (Side × SessionObs)) :=
  match d.connection.step event with
  | none => none
  | some (c, obs) =>
      match event with
      | .transmit _ _ _ => some ({ d with connection := c }, obs)
      | .session .left e =>
          if C.permits d.left e then
            some ({ d with
              connection := c
              left := (obsOf .left obs).foldl C.resume (Coroutine.initiate d.left e) }, obs)
          else none
      | .session .right e =>
          if D.permits d.right e then
            some ({ d with
              connection := c
              right := (obsOf .right obs).foldl D.resume (Coroutine.initiate d.right e) }, obs)
          else none

/-- Two coroutines that have just been connected, each with a session built in place. -/
def machine (C : Coroutine P) (D : Coroutine Q) (N : Nat) :
    EventMachine (Conversation P Q N) ConnectionEvent (Side × SessionObs) where
  init := ⟨(Connection.machine N).init, .ready C.start, .ready D.start⟩
  step := step C D

/-- {lit}`Connection.Intact` of the connection. -/
def Intact (d : Conversation P Q N) (event : ConnectionEvent) (d' : Conversation P Q N) : Prop :=
  Connection.Intact d.connection event d'.connection

/-- {lit}`Intact` as a check. -/
def isIntact (d : Conversation P Q N) (event : ConnectionEvent) (d' : Conversation P Q N) : Bool :=
  Connection.isIntact d.connection event d'.connection

/-! ## The two ends -/

/-- What a step does: a coroutine goes on with its session, or the transport takes octets. -/
inductive Move (C : Coroutine P) (D : Coroutine Q) (d : Conversation P Q N) :
    ConnectionEvent → Conversation P Q N → List (Side × SessionObs) → Prop
  | left {e : SessionEvent} {c : Connection N} {obs : List (Side × SessionObs)}
      (hstep : d.connection.step (.session .left e) = some (c, obs))
      (hpermits : C.Permits d.left e) :
      Move C D d (.session .left e)
        { d with
          connection := c
          left := (obsOf .left obs).foldl C.resume (Coroutine.initiate d.left e) } obs
  | right {e : SessionEvent} {c : Connection N} {obs : List (Side × SessionObs)}
      (hstep : d.connection.step (.session .right e) = some (c, obs))
      (hpermits : D.Permits d.right e) :
      Move C D d (.session .right e)
        { d with
          connection := c
          right := (obsOf .right obs).foldl D.resume (Coroutine.initiate d.right e) } obs
  | transmit {side : Side} {id n : Nat} {c : Connection N} {obs : List (Side × SessionObs)}
      (hstep : d.connection.step (.transmit side id n) = some (c, obs)) :
      Move C D d (.transmit side id n) { d with connection := c } obs

/-- Everything a step can do. -/
theorem move_of_step (hstep : d.step C D event = some (d', obs)) : Move C D d event d' obs := by
  unfold step at hstep
  split at hstep
  · cases hstep
  rename_i c o hconnection
  cases event with
  | transmit =>
      cases hstep
      exact .transmit hconnection
  | session side e =>
      cases side with
      | left =>
          dsimp only at hstep
          split at hstep
          · rename_i hcheck
            cases hstep
            exact .left hconnection (Coroutine.permits_of_check hcheck)
          · cases hstep
      | right =>
          dsimp only at hstep
          split at hstep
          · rename_i hcheck
            cases hstep
            exact .right hconnection (Coroutine.permits_of_check hcheck)
          · cases hstep

variable {c c' : Connection N} {side : Side} {r : Progress P}

/-- The coroutine at an end goes on with its session. -/
theorem drives_own {e : SessionEvent}
    (hdrives : C.Drives (eventsOf side es) (obsOf side os) (c side).session r)
    (hstep : c.step (.session side e) = some (c', obs)) (hpermits : C.Permits r e) :
    C.Drives (eventsOf side (es ++ [.session side e])) (obsOf side (os ++ obs)) (c' side).session
      ((obsOf side obs).foldl C.resume (Coroutine.initiate r e)) := by
  rw [Connection.eventsOf_append, Connection.obsOf_append]
  rcases Connection.session_steps_of_move (Connection.move_of_step hstep) side with
    ⟨hnone, _⟩ | ⟨e', o, heq, hevents, rfl, hsession⟩
  · simp at hnone
  · cases heq
    rw [hevents]
    exact hdrives.step hsession hpermits

/-- The coroutine at an end takes no part in the other events. -/
theorem drives_other (hdrives : C.Drives (eventsOf side es) (obsOf side os) (c side).session r)
    (hstep : c.step event = some (c', obs)) (hother : ∀ e, event ≠ .session side e) :
    C.Drives (eventsOf side (es ++ [event])) (obsOf side (os ++ obs)) (c' side).session r := by
  rw [Connection.eventsOf_append, Connection.obsOf_append]
  rcases Connection.session_steps_of_move (Connection.move_of_step hstep) side with
    ⟨hevents, hobs, hsame⟩ | ⟨e, o, heq, _⟩
  · rw [hevents, hobs, hsame, List.append_nil, List.append_nil]
    exact hdrives
  · exact absurd heq (hother e)

/-- Seen from either end, a run of the conversation is a run of a session that the coroutine
drives. -/
theorem drives_of_run (hrun : (machine C D N).Run Intact es os d) :
    (Connection.machine N).Run Connection.Intact es os d.connection ∧
      C.Drives (eventsOf .left es) (obsOf .left os) (d.connection .left).session d.left ∧
      D.Drives (eventsOf .right es) (obsOf .right os) (d.connection .right).session d.right := by
  induction hrun with
  | refl => exact ⟨.refl, .start, .start⟩
  | snoc before hstep hintact ih =>
      rcases ih with ⟨hconnection, hleft, hright⟩
      cases move_of_step hstep with
      | left hconnected hpermits =>
          exact ⟨hconnection.snoc hconnected hintact, drives_own hleft hconnected hpermits,
            drives_other hright hconnected (by simp)⟩
      | right hconnected hpermits =>
          exact ⟨hconnection.snoc hconnected hintact, drives_other hleft hconnected (by simp),
            drives_own hright hconnected hpermits⟩
      | transmit hconnected =>
          exact ⟨hconnection.snoc hconnected hintact, drives_other hleft hconnected (by simp),
            drives_other hright hconnected (by simp)⟩

end Conversation

namespace Connection

variable {P : Type} {C : Coroutine P} {N : Nat}

/-! ## Program order -/

/-- When no write has ended short, nothing is on the way and the coroutine does not lag behind,
the other end has received all that it has gone on to send. -/
theorem conveyed_of_drained {es : List ConnectionEvent} {os : List (Side × SessionObs)}
    {c : Connection N} (hrun : (machine N).Run Intact es os c) {side : Side} {r : Progress P}
    (hdrives : C.Drives (eventsOf side es) (obsOf side os) (c side).session r)
    (hportable : ∀ kind ∈ (calls (eventsOf side es)).map Prod.snd, kind.Portable)
    (hcut : (c side).cut = false) (hidle : ∀ id frame, ¬ (c side).session.send.Writing id frame)
    (hempty : (c side).outgoing = [])
    (hreading : (c side.peer).session.recv.stage = .suspended .read)
    (hlagging : ∀ id, ¬ Coroutine.Lagging r id) :
    List.Forall₂ Coroutine.Conveys ((calls (eventsOf side es)).map Prod.snd)
      (delivered side.peer os) := by
  have hsent := Coroutine.sent_of_drives hdrives
  rcases exists_missing hrun side (Coroutine.portable_of_drives hdrives hportable) with
    ⟨missing, hmissing, hdrained⟩
  rw [hmissing, hdrained hcut hidle hempty hreading, List.append_nil] at hsent
  rcases Coroutine.inOrder_of_drives hdrives with hall | ⟨id, _, hlast⟩
  · rwa [← hall, List.length_map, List.take_of_length_le (by rw [List.length_map])] at hsent
  · exact absurd hlast (hlagging id)

end Connection

end Smpp
