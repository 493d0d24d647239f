import Mathlib.Tactic.Common

/-!
# Error codes and per-operation cancellation

What a completion handler can be told, and the cancellation state that an
operation made by {lit}`asio::async_compose` carries: a request is recorded, and
passed on to the operation it waits for, as far as the current filter admits it;
replacing the filter forgets what was recorded.

Main results:

- Theorem {lit}`CancellationState.cancelled_request`: a request is recorded exactly
  when the filter admits some part of it.
-/

namespace Smpp

/-! ## Error codes -/

/-- {lit}`enum class error`. -/
inductive Error where
  | serializationFailed
  | enquireLinkTimeout
  | unbinded
deriving DecidableEq, Repr

/-- {lit}`boost::system::error_code`: no error, {lit}`asio::error::operation_aborted`, an
error of this library, or any other error of the system. -/
inductive ErrorCode where
  | success
  | operationAborted
  | smpp (error : Error)
  | system (value : Nat)
deriving DecidableEq, Repr

/-! ## Cancellation -/

/-- {lit}`asio::cancellation_type`, a set of flags. -/
structure CancellationType where
  terminal : Bool := false
  partially : Bool := false
  total : Bool := false
deriving DecidableEq, Repr

/-- Some flag is set. -/
def CancellationType.any (type : CancellationType) : Bool :=
  type.terminal || type.partially || type.total

/-- The filters {lit}`asio::enable_terminal_cancellation` and
{lit}`asio::enable_total_cancellation`. -/
inductive CancellationFilter where
  | enableTerminal
  | enableTotal
deriving DecidableEq, Repr

/-- The part of a request that a filter admits. -/
def CancellationFilter.admitted (filter : CancellationFilter) (type : CancellationType) :
    CancellationType :=
  match filter with
  | .enableTerminal => { terminal := type.terminal }
  | .enableTotal => type

/-- The cancellation state of a composed operation; {lit}`cancelled` is
{lit}`!!self.cancelled()`. -/
structure CancellationState where
  filter : CancellationFilter := .enableTerminal
  cancelled : Bool := false
deriving DecidableEq, Repr

namespace CancellationState

/-- {lit}`self.reset_cancellation_state(filter)`. -/
def reset (filter : CancellationFilter) : CancellationState := ⟨filter, false⟩

/-- The signal of the operation is emitted. -/
def request (state : CancellationState) (type : CancellationType) : CancellationState :=
  { state with cancelled := state.cancelled || (state.filter.admitted type).any }

/-- A request is recorded exactly when the filter admits some part of it. -/
theorem cancelled_request (state : CancellationState) (type : CancellationType) :
    (state.request type).cancelled = true ↔
      state.cancelled = true ∨ (state.filter.admitted type).any = true := by
  simp [request]

end CancellationState

end Smpp
