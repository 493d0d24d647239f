import Smpp.Net.Teardown

/-!
# Two sessions and what is between them

Both ends of a connection as one machine.  The transport carries the octets of a write in
pieces, while the write is outstanding, straight out of the send buffer; what it has taken
it hands to the reads of the other end in the same order.  When a write that is reported as
complete ends the transport has taken all of it, one that is reported as failed may have
got anywhere.  Nothing is assumed about how long the connection lasts.

Main results:

- Theorem {lit}`Connection.move_of_step`: what a step of the connection can do.
- Theorem {lit}`Connection.session_run_of_run`: seen from either end, a run of the connection
  is a run of a session.
-/

namespace Smpp

/-- The two ends of a connection. -/
inductive Side where
  | left
  | right
deriving DecidableEq, Repr

/-- The other end. -/
def Side.peer : Side → Side
  | .left => .right
  | .right => .left

@[simp]
theorem Side.peer_peer (side : Side) : side.peer.peer = side := by
  cases side <;> rfl

@[simp]
theorem Side.peer_ne (side : Side) : side.peer ≠ side := by
  cases side <;> decide

theorem Side.eq_peer_of_ne {side other : Side} (hne : other ≠ side) : other = side.peer := by
  cases side <;> cases other <;> simp_all [Side.peer]

/-- One end: its session, how many octets of the outstanding write the transport has taken,
the octets that it has taken and the peer has not read, and whether a write has ended
before all of it was taken. -/
structure Endpoint (N : Nat) where
  session : Session N
  written : Nat := 0
  outgoing : Octets := []
  cut : Bool := false

/-- A connection of two sessions. -/
abbrev Connection (N : Nat) := Side → Endpoint N

/-- An event of either session, or the transport takes the next octets of a write. -/
inductive ConnectionEvent where
  | session (side : Side) (event : SessionEvent)
  | transmit (side : Side) (id : Nat) (n : Nat)

namespace Endpoint

variable {N : Nat}

/-- The octets that the transport takes next. -/
def next (e : Endpoint N) (n : Nat) : Octets :=
  (e.session.send.sendBuf.drop e.written).take n

/-- The transport takes the next octets of the outstanding write. -/
def transmit (e : Endpoint N) (n : Nat) : Endpoint N :=
  { e with written := e.written + n, outgoing := e.outgoing ++ e.next n }

/-- The octets of a read have arrived. -/
def deliver (e : Endpoint N) (received : Octets) : Endpoint N :=
  { e with outgoing := e.outgoing.drop received.length }

/-- The session has made a step; behind a write the transport starts afresh. -/
def advance (e : Endpoint N) (event : SessionEvent) (session : Session N) : Endpoint N :=
  match event with
  | .send (.writeDone _ _) =>
      { e with
        session := session
        written := 0
        cut := e.cut || e.written ≠ e.session.send.sendBuf.length }
  | .send _ | .receive _ _ | .cancelReceive _ => { e with session := session }

end Endpoint

namespace Connection

variable {N : Nat}

/-! ## The machine -/

/-- What the transport must have done for an event: a write that succeeds has been taken in
full, and a read returns the octets at the front. -/
def Allows (c : Connection N) (side : Side) : SessionEvent → Prop
  | .send (.writeDone _ ec) =>
      ec = .success → (c side).written = (c side).session.send.sendBuf.length
  | .receive (.readDone _ received) _ => received <+: (c side.peer).outgoing
  | .send _ | .receive _ _ | .cancelReceive _ => True

instance (c : Connection N) (side : Side) : DecidablePred (c.Allows side) := fun event => by
  unfold Allows
  split <;> infer_instance

/-- One event. -/
def step (c : Connection N) (event : ConnectionEvent) :
    Option (Connection N × List (Side × SessionObs)) :=
  match event with
  | .session side event =>
      if c.Allows side event then
        match (c side).session.step event with
        | none => none
        | some (session, obs) =>
            some (Function.update (Function.update c side ((c side).advance event session))
                side.peer ((c side.peer).deliver (Session.octets event)),
              obs.map (side, ·))
      else none
  | .transmit side id n =>
      match (c side).session.send.phase id with
      | some (.writing _) =>
          if (c side).written + n ≤ (c side).session.send.sendBuf.length then
            some (Function.update c side ((c side).transmit n), [])
          else none
      | _ => none

/-- Two sessions that have just been connected. -/
def machine (N : Nat) :
    EventMachine (Connection N) ConnectionEvent (Side × SessionObs) where
  init := fun _ => { session := (Session.machine N).init }
  step := step

/-! ## What a step can do -/

variable {c c' : Connection N} {event : ConnectionEvent} {obs : List (Side × SessionObs)}

/-- What a step does. -/
inductive Move (c : Connection N) :
    ConnectionEvent → Connection N → List (Side × SessionObs) → Prop
  | session {side : Side} {event : SessionEvent} {session : Session N}
      {obs : List SessionObs} {c' : Connection N} (hallows : c.Allows side event)
      (hstep : (c side).session.step event = some (session, obs))
      (hown : c' side = (c side).advance event session)
      (hpeer : c' side.peer = (c side.peer).deliver (Session.octets event)) :
      Move c (.session side event) c' (obs.map (side, ·))
  | transmit {side : Side} {id n : Nat} {frame : Octets} {c' : Connection N}
      (hwriting : (c side).session.send.Writing id frame)
      (hroom : (c side).written + n ≤ (c side).session.send.sendBuf.length)
      (hown : c' side = (c side).transmit n) (hpeer : c' side.peer = c side.peer) :
      Move c (.transmit side id n) c' []

/-- Everything a step can do. -/
theorem move_of_step (hstep : c.step event = some (c', obs)) : Move c event c' obs := by
  unfold step at hstep
  cases event with
  | session side event =>
      dsimp only at hstep
      split at hstep
      · rename_i hallows
        split at hstep
        · cases hstep
        rename_i session obs hsession
        cases hstep
        refine .session hallows hsession ?_ (Function.update_self _ _ _)
        rw [Function.update_of_ne side.peer_ne.symm, Function.update_self]
      · cases hstep
  | transmit side id n =>
      dsimp only at hstep
      split at hstep
      · rename_i frame hphase
        split at hstep
        · rename_i hroom
          cases hstep
          exact .transmit hphase hroom (Function.update_self _ _ _)
            (Function.update_of_ne side.peer_ne _ _)
        · cases hstep
      · cases hstep

/-! ## The two ends -/

/-- What happens to the session of one end. -/
def eventsOf (side : Side) (es : List ConnectionEvent) : List SessionEvent :=
  es.filterMap fun
    | .session other event => if other = side then some event else none
    | .transmit _ _ _ => none

/-- What the session of one end shows. -/
def obsOf (side : Side) (os : List (Side × SessionObs)) : List SessionObs :=
  os.filterMap fun o => if o.1 = side then some o.2 else none

@[simp]
theorem eventsOf_append (side : Side) (es es' : List ConnectionEvent) :
    eventsOf side (es ++ es') = eventsOf side es ++ eventsOf side es' :=
  List.filterMap_append

@[simp]
theorem obsOf_append (side : Side) (os os' : List (Side × SessionObs)) :
    obsOf side (os ++ os') = obsOf side os ++ obsOf side os' :=
  List.filterMap_append

@[simp]
theorem eventsOf_session (side other : Side) (event : SessionEvent) :
    eventsOf side [.session other event] = if other = side then [event] else [] := by
  simp only [eventsOf, List.filterMap_cons, List.filterMap_nil]
  split
  · rename_i hnone
    rw [if_neg fun hsame => by simp [hsame] at hnone]
  · rename_i hsome
    rw [Option.ite_none_right_eq_some] at hsome
    rw [if_pos hsome.1, Option.some.inj hsome.2]

@[simp]
theorem eventsOf_transmit (side other : Side) (id n : Nat) :
    eventsOf side [.transmit other id n] = [] :=
  rfl

@[simp]
theorem obsOf_map (side other : Side) (os : List SessionObs) :
    obsOf side (os.map (other, ·)) = if other = side then os else [] := by
  induction os with
  | nil => simp [obsOf]
  | cons o os ih =>
      simp only [obsOf, List.map_cons, List.filterMap_cons] at ih ⊢
      by_cases hsame : other = side
      · simp only [if_pos hsame] at ih ⊢
        rw [ih]
      · simp only [if_neg hsame] at ih ⊢
        exact ih

@[simp]
theorem obsOf_nil (side : Side) : obsOf side [] = [] :=
  rfl

@[simp]
theorem session_advance (e : Endpoint N) (event : SessionEvent) (session : Session N) :
    (e.advance event session).session = session := by
  unfold Endpoint.advance
  split <;> rfl

/-- A step of the connection is a step of the session at one end, if it is one at all. -/
theorem session_steps_of_move (hmove : Move c event c' obs) (side : Side) :
    (eventsOf side [event] = [] ∧ obsOf side obs = [] ∧
      (c' side).session = (c side).session) ∨
    ∃ e o, event = .session side e ∧ eventsOf side [event] = [e] ∧ obsOf side obs = o ∧
      (c side).session.step e = some ((c' side).session, o) := by
  cases hmove with
  | @session other e session o _ hallows hstep hown hpeer =>
      by_cases hsame : other = side
      · subst hsame
        refine Or.inr ⟨e, o, rfl, by simp, by simp, ?_⟩
        rw [hown, session_advance]
        exact hstep
      · have hother : side = other.peer := Side.eq_peer_of_ne (Ne.symm hsame)
        refine Or.inl ⟨by simp [hsame], by simp [hsame], ?_⟩
        rw [hother, hpeer]
        rfl
  | @transmit other id n frame _ hwriting hroom hown hpeer =>
      refine Or.inl ⟨rfl, rfl, ?_⟩
      by_cases hsame : side = other
      · rw [hsame, hown]
        rfl
      · rw [Side.eq_peer_of_ne hsame, hpeer]

variable {R : Connection N → ConnectionEvent → Connection N → Prop}
variable {Q : Session N → SessionEvent → Session N → Prop} {es : List ConnectionEvent}

/-- Seen from either end, a run of the connection is a run of a session. -/
theorem session_run_of_run (side : Side)
    (hQ : ∀ c e c', R c (.session side e) c' → Q (c side).session e (c' side).session)
    (hrun : (machine N).Run R es obs c) :
    (Session.machine N).Run Q (eventsOf side es) (obsOf side obs) (c side).session := by
  induction hrun with
  | refl => exact .refl
  | snoc before hstep hR ih =>
      rw [eventsOf_append, obsOf_append]
      rcases session_steps_of_move (move_of_step hstep) side with
        ⟨hevents, hobs, hsame⟩ | ⟨e, o, rfl, hevents, hobs, hsession⟩
      · rw [hevents, hobs, hsame, List.append_nil, List.append_nil]
        exact ih
      · rw [hevents, hobs]
        exact ih.snoc hsession (hQ _ _ _ hR)

/-- Every run of the connection is a run of the session at either end. -/
theorem session_run (side : Side) (hrun : (machine N).Run R es obs c) :
    (Session.machine N).Run EventMachine.anyStep (eventsOf side es) (obsOf side obs)
      (c side).session :=
  session_run_of_run side (fun _ _ _ _ => trivial) hrun

end Connection

end Smpp
