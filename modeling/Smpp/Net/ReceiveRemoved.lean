import Smpp.Net.ReceiveInvariant

/-!
# Frames that leave the receive buffer

Every frame leaves the buffer whole and once, whatever becomes of it.

Main results:

- Theorem {lit}`Receiver.removes_move`: a step adds to the end of the buffer or removes the
  frame at its front.
- Theorem {lit}`Receiver.removed_of_run`: the frames that were removed are those in front of
  the buffer in the stream.
-/

namespace Smpp

/-- The headers of the frames that were removed from the buffer, in order. -/
def removed (os : List ReceiveObs) : List Header :=
  os.filterMap fun
    | .consumed header _ _ => some header
    | .readSome _ | .dispatched _ _ | .sendCommand _ _ | .posted | .shutdownSocket
    | .completed _ => none

@[simp]
theorem removed_nil : removed [] = [] :=
  rfl

@[simp]
theorem removed_append (os os' : List ReceiveObs) :
    removed (os ++ os') = removed os ++ removed os' :=
  List.filterMap_append

/-- A frame is known by its header. -/
def frontHeader (rest : Octets) : List Header :=
  [deserializeHeader rest]

theorem frontHeader_append (rest more : Octets) (hwhole : commandFraming.Whole rest) :
    frontHeader (rest ++ more) = frontHeader rest := by
  rw [frontHeader, deserializeHeader_append more hwhole.1, frontHeader]

namespace Receiver

variable {N : Nat} {r r' : Receiver N} {event : ReceiveEvent} {obs : List ReceiveObs}
variable {stream : Octets}

/-- What a step does to the buffer. -/
inductive Removes (r : Receiver N) (event : ReceiveEvent) (r' : Receiver N)
    (obs : List ReceiveObs) : Prop
  | keep (hremoved : removed obs = [])
      (hreadable : r'.receiveBuf.readable = r.receiveBuf.readable ++ event.octets)
  | take (hwhole : r.Whole) (hremoved : removed obs = [r.frameHeader])
      (hoctets : event.octets = [])
      (hreadable : r'.receiveBuf.readable =
        r.receiveBuf.readable.drop r.frameHeader.commandLength.toNat)

/-- Consuming a held frame removes it. -/
theorem Held.removes {P : CommandId → Prop} (hheld : r.Held P) (hoctets : event.octets = [])
    (hreadable : r'.receiveBuf.readable = r.consume.receiveBuf.readable)
    (hremoved : removed obs = [r.op.header]) : Removes r event r' obs := by
  refine .take hheld.whole (hheld.header ▸ hremoved) hoctets ?_
  rw [hreadable, readable_consume, hheld.header]

theorem removes_deliver {P : CommandId → Prop} (hheld : r.Held P) (hoctets : event.octets = [])
    (hdeliver : Deliver r r' obs) : Removes r event r' obs := by
  cases hdeliver with
  | undefined hrange => exact .keep rfl (by rw [hoctets, List.append_nil])
  | completed hheader hsize => exact hheld.removes hoctets rfl rfl

/-- A step adds to the end of the buffer or removes the frame at its front. -/
theorem removes_move (hmove : Move r event r' obs) (hinv : r.Inv) : Removes r event r' obs := by
  have hsame : ∀ {q : Receiver N} {e : ReceiveEvent} {o : List ReceiveObs},
      q.receiveBuf.readable = r.receiveBuf.readable → e.octets = [] → removed o = [] →
        Removes r e q o := by
    intro q e o hreadable hoctets hremoved
    exact .keep hremoved (by rw [hreadable, hoctets, List.append_nil])
  cases hmove with
  | asyncReceive hstage => exact hsame rfl rfl rfl
  | startRead hstage hneeds hreadable hroom => exact hsame hreadable rfl rfl
  | incomplete hstage hneeds hwhole header => exact hsame rfl rfl rfl
  | dispatch hstage hneeds hwhole hdispatch =>
      have hheld : r.scan.Held fun _ => True := held_scan _ hneeds hwhole trivial
      have htaken : ∀ {o}, Removes r.scan .iterate r' o → Removes r .iterate r'
          (.dispatched r.frameHeader r.receiveBuf.size :: o) := by
        intro o hremoves
        cases hremoves with
        | keep hremoved hreadable => exact .keep hremoved hreadable
        | take hwhole hremoved hoctets hreadable => exact .take hwhole hremoved hoctets hreadable
      cases hdispatch with
      | enquireLink hid | unbind hid | post hid hpost => exact hsame rfl rfl rfl
      | enquireLinkResp hid => exact htaken (hheld.removes rfl rfl rfl)
      | unbindResp hid => exact htaken (hheld.removes rfl rfl rfl)
      | deliver hid hpost hdeliver => exact htaken (removes_deliver hheld rfl hdeliver)
  | resume hresume =>
      cases hresume with
      | readTimeoutAgain hstage hroom | readTimeout hstage hroom | readError hstage hroom
      | read hstage hroom => exact .keep rfl (readable_commit hroom)
      | unbindSent hstage | sendError hstage | enquireLinkSent hstage | cancel hstage =>
          exact hsame rfl rfl rfl
      | enquireLinkRespSent hstage | unbindRespSent hstage =>
          simp only [Inv, hstage] at hinv
          exact hinv.removes rfl rfl rfl
      | posted hstage hdeliver =>
          simp only [Inv, hstage] at hinv
          exact removes_deliver hinv rfl hdeliver

/-- In every run the frames that were removed are those in front of the buffer. -/
theorem removed_of_run {es : List ReceiveEvent}
    (hrun : (machine N).Run EventMachine.anyStep es obs r) :
    commandFraming.Passed frontHeader (received es) (removed obs) r.receiveBuf.readable := by
  induction hrun with
  | refl =>
      have hempty : (new N).receiveBuf.readable = [] := StaticFlatBuffer.readable_new
      rw [machine, hempty]
      exact .start
  | snoc before hstep _ ih =>
      rw [received_concat, removed_append]
      cases removes_move (move_of_step hstep) (inv_of_run before) with
      | keep hremoved hreadable =>
          rw [hremoved, hreadable, List.append_nil]
          exact ih.append frontHeader_append _
      | take hwhole hremoved hoctets hreadable =>
          rw [hremoved, hoctets, hreadable, List.append_nil]
          exact ih.hop hwhole

end Receiver

end Smpp
