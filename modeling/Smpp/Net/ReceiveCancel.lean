import Smpp.Library.History
import Smpp.Net.EnquireLink
import Smpp.Net.ReceivePassed

/-!
# Cancelling a receive operation

A total cancellation request is recorded, but the coroutine looks at the record only behind a
read that was aborted.  Behind every other suspension it goes on with the octets it has got,
and with a further read if they do not suffice.

Main results:

- Theorem {lit}`Receiver.behind_move`: while the octets suffice, every move of the coroutine
  brings it nearer to its completion and none starts a read.
- Theorem {lit}`Session.honoured_of_run`: under this condition a total request ends the operation
  after a bounded number of moves, and no PDU is lost or delivered twice.

Current gaps:

- The record of a request is forgotten by the next read, and the result of sending a response
  is not looked at: a request that arrives while the response to an {lit}`enquire_link` waits or
  is written is without effect.
-/

namespace Smpp

/-! ## Octets that conclude an operation -/

/-- The octets start with whole frames that end a receive operation without a read: any number
of {lit}`enquire_link` and {lit}`enquire_link_resp`, and another frame, which covers its header
unless it is an {lit}`unbind` or {lit}`unbind_resp`. -/
inductive Concludes : Octets → Prop
  | last {buf : Octets} (hwhole : commandFraming.Whole buf)
      (hid : (deserializeHeader buf).commandId ∉ [CommandId.enquireLink, .enquireLinkResp])
      (hcovers : (deserializeHeader buf).commandId ∉ [CommandId.unbind, .unbindResp] →
        headerLength ≤ (deserializeHeader buf).commandLength.toNat) : Concludes buf
  | skip {buf : Octets} (hwhole : commandFraming.Whole buf)
      (hid : (deserializeHeader buf).commandId ∈ [CommandId.enquireLink, .enquireLinkResp])
      (hrest : Concludes (buf.drop (deserializeHeader buf).commandLength.toNat)) : Concludes buf

theorem Concludes.whole {buf : Octets} (hconcludes : Concludes buf) :
    commandFraming.Whole buf := by
  cases hconcludes with
  | last hwhole | skip hwhole => exact hwhole

/-- A frame that is skipped is not empty: nothing would come behind it. -/
theorem Concludes.rest {buf : Octets} (hconcludes : Concludes buf)
    (hid : (deserializeHeader buf).commandId ∈ [CommandId.enquireLink, .enquireLinkResp]) :
    0 < (deserializeHeader buf).commandLength.toNat ∧
      Concludes (buf.drop (deserializeHeader buf).commandLength.toNat) := by
  induction hconcludes with
  | last hwhole hnot hcovers => exact absurd hid hnot
  | @skip buf hwhole hlink hrest ih =>
      refine ⟨Nat.pos_of_ne_zero fun hzero => ?_, hrest⟩
      rw [hzero, List.drop_zero] at ih
      exact absurd hzero (Nat.pos_iff_ne_zero.mp (ih hid).1)

/-- A skipped frame leaves it to the octets behind it. -/
theorem concludes_iff_of_skip {buf : Octets} (hwhole : commandFraming.Whole buf)
    (hid : (deserializeHeader buf).commandId ∈ [CommandId.enquireLink, .enquireLinkResp]) :
    Concludes buf ↔ Concludes (buf.drop (deserializeHeader buf).commandLength.toNat) :=
  ⟨fun hconcludes => (hconcludes.rest hid).2, .skip hwhole hid⟩

/-- A delivered frame has to cover its header. -/
theorem concludes_iff_of_deliver {buf : Octets} (hwhole : commandFraming.Whole buf)
    (hid : (deserializeHeader buf).commandId ∉ Receiver.control) :
    Concludes buf ↔ headerLength ≤ (deserializeHeader buf).commandLength.toNat := by
  simp only [Receiver.control, List.mem_cons, List.not_mem_nil, or_false, not_or] at hid
  constructor
  · intro hconcludes
    cases hconcludes with
    | last hwhole hnot hcovers => exact hcovers (by simp [hid])
    | skip hwhole hlink => simp [hid] at hlink
  · intro hcovers
    exact .last hwhole (by simp [hid]) fun _ => hcovers

/-- The end of a session needs no header to be covered. -/
theorem concludes_of_ending {buf : Octets} (hwhole : commandFraming.Whole buf)
    (hid : (deserializeHeader buf).commandId ∈ [CommandId.unbind, .unbindResp]) :
    Concludes buf := by
  refine .last hwhole ?_ fun hnot => absurd hid hnot
  simp only [List.mem_cons, List.not_mem_nil, or_false] at hid
  rcases hid with hid | hid <;> rw [hid] <;> decide

namespace Receiver

variable {N : Nat} {r r' : Receiver N} {event : ReceiveEvent} {obs : List ReceiveObs}

/-! ## Behind a request -/

/-- What the coroutine has got when it is resumed concludes the operation. -/
def Leads (r : Receiver N) : ReceiveEvent → Prop
  | .readDone ec received => ec = .success → Concludes (r.receiveBuf.readable ++ received)
  | .sendDone ec =>
      (r.stage = .suspended .sendEnquireLink → ec = .success → Concludes r.receiveBuf.readable) ∧
        (r.stage = .suspended .sendEnquireLinkResp →
          Concludes (r.receiveBuf.readable.drop r.frameHeader.commandLength.toNat))
  | .postDone => headerLength ≤ r.frameHeader.commandLength.toNat
  | .asyncReceive | .iterate | .cancel _ => True

/-- What is known of an operation that was requested to end and has not. -/
def Behind (r : Receiver N) : Prop :=
  match r.stage with
  | .idle | .undefined => False
  | .running => r.op.needsMore = false ∧ Concludes r.receiveBuf.readable
  | .suspended .read => r.cancellation.cancelled = true
  | .suspended .sendUnbind | .suspended .sendEnquireLink | .suspended .sendEnquireLinkResp
  | .suspended .sendUnbindResp | .suspended .post => True

/-- The moves that are left at most: one for each suspension and each pass through the loop. -/
def left (r : Receiver N) : Nat :=
  match r.stage with
  | .idle | .undefined => 0
  | .running => 2 * r.receiveBuf.size + 2
  | .suspended .read => 2 * N + 3
  | .suspended .sendEnquireLink => 2 * r.receiveBuf.size + 3
  | .suspended .sendEnquireLinkResp => 2 * r.receiveBuf.size + 1
  | .suspended .sendUnbind | .suspended .sendUnbindResp | .suspended .post => 1

theorem left_le (r : Receiver N) : r.left ≤ 2 * N + 3 := by
  have hsize := r.receiveBuf.size_le
  unfold left
  split <;> omega

/-- Behind a skipped frame less is left. -/
theorem concludes_consume (hheader : r.op.header = r.frameHeader)
    (hconcludes : Concludes r.receiveBuf.readable)
    (hid : r.op.header.commandId ∈ [CommandId.enquireLink, .enquireLinkResp]) :
    Concludes r.consume.receiveBuf.readable ∧
      r.consume.receiveBuf.size < r.receiveBuf.size := by
  rw [hheader] at hid
  rcases hconcludes.rest hid with ⟨hpos, hrest⟩
  have hwhole := hconcludes.whole.2
  rw [readable_consume, hheader]
  refine ⟨hrest, ?_⟩
  rw [← StaticFlatBuffer.length_readable, ← StaticFlatBuffer.length_readable, readable_consume,
    hheader, List.length_drop]
  change 0 < r.frameHeader.commandLength.toNat at hpos
  change r.frameHeader.commandLength.toNat ≤ r.receiveBuf.readable.length at hwhole
  omega

/-- A delivery completes the operation if the frame covers its header. -/
theorem not_open_of_deliver (hcovers : headerLength ≤ r.op.header.commandLength.toNat)
    (hsize : r.op.header.commandLength.toNat ≤ r.receiveBuf.size)
    (hdeliver : Deliver r r' obs) : ∃ completion, .completed completion ∈ obs := by
  cases hdeliver with
  | undefined hrange => omega
  | completed hheader hfits => exact ⟨_, List.mem_cons_of_mem _ List.mem_cons_self⟩

/-- The loop has not been told to read. -/
theorem quiet_of_behind (hmove : Move r event r' obs) (hbehind : r.Behind) (n : Nat) :
    .readSome n ∉ obs := by
  cases hmove with
  | startRead hstage hneeds => simp [Behind, hstage, hneeds] at hbehind
  | asyncReceive | incomplete => simp
  | dispatch hstage hneeds hwhole hdispatch =>
      cases hdispatch with
      | enquireLink | enquireLinkResp | unbind | unbindResp | post => simp [consumedObs]
      | deliver hid hpost hdeliver => simpa using hdeliver.not_mem (by simp) (by simp)
  | resume hresume =>
      cases hresume with
      | posted hstage hdeliver => exact hdeliver.not_mem (by simp) (by simp)
      | readTimeoutAgain | readTimeout | readError | read | unbindSent | sendError
      | enquireLinkSent | enquireLinkRespSent | unbindRespSent | cancel => simp [consumedObs]

/-- While the operation is open a pass through the loop brings it nearer to its completion. -/
theorem behind_dispatch (hdispatch : Dispatch r r' obs) (hstage : r.stage = .running)
    (hneeds : r.op.needsMore = false) (hheader : r.op.header = r.frameHeader)
    (hconcludes : Concludes r.receiveBuf.readable)
    (hopen : ∀ completion, .completed completion ∉ obs) : r'.Behind ∧ r'.left < r.left := by
  have hleft : r.left = 2 * r.receiveBuf.size + 2 := by simp only [left, hstage]
  rw [hleft]
  cases hdispatch with
  | enquireLink hid =>
      refine ⟨trivial, ?_⟩
      change 2 * r.receiveBuf.size + 1 < _
      omega
  | unbind hid | post hid hpost =>
      refine ⟨trivial, ?_⟩
      change 1 < _
      omega
  | enquireLinkResp hid =>
      rcases concludes_consume hheader hconcludes (by simp [hid]) with ⟨hrest, hshrinks⟩
      have hrunning : r.consume.stage = .running := hstage
      refine ⟨?_, ?_⟩
      · simp only [Behind, hrunning]
        exact ⟨hneeds, hrest⟩
      · simp only [left, hrunning]
        omega
  | unbindResp hid => simp [consumedObs] at hopen
  | deliver hid hpost hdeliver =>
      have hwhole := hconcludes.whole
      rw [hheader] at hid
      have hcovers := (concludes_iff_of_deliver hwhole hid).mp hconcludes
      rcases not_open_of_deliver (hheader ▸ hcovers) (hheader ▸ (r.whole_iff.mp hwhole).2)
        hdeliver with ⟨completion, hmem⟩
      exact absurd hmem (hopen completion)

/-- So does every resumption that leads. -/
theorem behind_resume (hresume : Resume r event r' obs) (hinv : r.Inv) (hbehind : r.Behind)
    (hleads : r.Leads event) (hopen : ∀ completion, .completed completion ∉ obs)
    (hother : ∀ type, event ≠ .cancel type) : r'.Behind ∧ r'.left < r.left := by
  cases hresume with
  | readTimeoutAgain hstage hroom hcancelled | readTimeout hstage hroom hcancelled =>
      simp [Behind, hstage, hcancelled] at hbehind
  | readError | unbindSent | sendError | unbindRespSent => simp [consumedObs] at hopen
  | @read received hstage hroom =>
      simp only [Inv, hstage] at hinv
      have hsize : (r.commit received).receiveBuf.size ≤ N :=
        (r.commit received).receiveBuf.size_le
      refine ⟨⟨?_, ?_⟩, ?_⟩
      · rw [needsMore_commit]
        exact hinv.1
      · rw [readable_commit hroom]
        exact hleads rfl
      · simp only [left, hstage]
        omega
  | enquireLinkSent hstage =>
      simp only [Inv, hstage] at hinv
      refine ⟨⟨hinv, hleads.1 hstage rfl⟩, ?_⟩
      simp only [left, hstage]
      omega
  | enquireLinkRespSent hstage =>
      simp only [Inv, hstage] at hinv
      have hrest := hleads.2 hstage
      have hlink : r.frameHeader.commandId ∈ [CommandId.enquireLink, .enquireLinkResp] := by
        rw [← hinv.header, hinv.commandId]
        exact List.mem_cons_self
      have hconcludes : Concludes r.receiveBuf.readable := .skip hinv.whole hlink hrest
      rcases concludes_consume hinv.header hconcludes (by simp [hinv.commandId]) with
        ⟨hrest, hshrinks⟩
      refine ⟨⟨hinv.needsMore, hrest⟩, ?_⟩
      simp only [left, hstage]
      omega
  | posted hstage hdeliver =>
      simp only [Inv, hstage] at hinv
      have hsize := (r.whole_iff.mp hinv.whole).2
      rw [← hinv.header] at hsize
      have hcovers : headerLength ≤ r.op.header.commandLength.toNat := by
        rw [hinv.header]
        exact hleads
      rcases not_open_of_deliver hcovers hsize hdeliver with ⟨completion, hmem⟩
      exact absurd hmem (hopen completion)
  | cancel hstage => exact absurd rfl (hother _)

/-- While the operation is open every move brings it nearer to its completion. -/
theorem behind_move (hmove : Move r event r' obs) (hinv : r.Inv) (hbehind : r.Behind)
    (hleads : r.Leads event) (hopen : ∀ completion, .completed completion ∉ obs)
    (hother : ∀ type, event ≠ .cancel type) : r'.Behind ∧ r'.left < r.left := by
  cases hmove with
  | asyncReceive hstage => simp [Behind, hstage] at hbehind
  | startRead hstage hneeds => simp [Behind, hstage, hneeds] at hbehind
  | incomplete hstage hneeds hwhole =>
      simp only [Behind, hstage] at hbehind
      exact absurd hbehind.2.whole hwhole
  | dispatch hstage hneeds hwhole hdispatch =>
      simp only [Behind, hstage] at hbehind
      have hnext : r'.Behind ∧ r'.left < r.scan.left :=
        behind_dispatch hdispatch hstage hneeds rfl hbehind.2 fun completion hmem =>
          hopen completion (List.mem_cons_of_mem _ hmem)
      exact hnext
  | resume hresume => exact behind_resume hresume hinv hbehind hleads hopen hother

/-- A further request changes nothing. -/
theorem behind_cancel {type : CancellationType} (hmove : Move r (.cancel type) r' obs)
    (hbehind : r.Behind) : r'.Behind ∧ obs = [] ∧ r'.left = r.left := by
  cases hmove with
  | resume hresume =>
      cases hresume with
      | @cancel _ yield hstage =>
          refine ⟨?_, rfl, rfl⟩
          cases yield with
          | read =>
              simp only [Behind, hstage] at hbehind ⊢
              simp [CancellationState.request, hbehind]
          | sendUnbind | sendEnquireLink | sendEnquireLinkResp | sendUnbindResp | post =>
              simp only [Behind, hstage]

/-! ## The request -/

/-- Once the operation has read, every kind of request is admitted. -/
structure Filtered (r : Receiver N) : Prop where
  reading : r.stage = .suspended .read → r.op.needsPost = false
  admits : r.op.needsPost = false → r.cancellation.filter = .enableTotal

theorem filtered_move (hmove : Move r event r' obs) (hfiltered : r.Filtered) : r'.Filtered := by
  have hadmits := hfiltered.admits
  cases hmove with
  | asyncReceive => exact ⟨by simp, by simp⟩
  | startRead => exact ⟨fun _ => rfl, fun _ => rfl⟩
  | incomplete hstage => exact ⟨by simp [hstage], hadmits⟩
  | dispatch hstage hneeds hwhole hdispatch =>
      cases hdispatch with
      | enquireLink | unbind | post => exact ⟨by simp [suspend], hadmits⟩
      | enquireLinkResp =>
          have hrunning : r.scan.consume.stage = .running := hstage
          exact ⟨by simp [hrunning], hadmits⟩
      | unbindResp => exact ⟨by simp [complete], hadmits⟩
      | deliver hid hpost hdeliver =>
          cases hdeliver with
          | undefined => exact ⟨by simp, hadmits⟩
          | completed => exact ⟨by simp [complete], hadmits⟩
  | resume hresume =>
      have hcommit : ∀ received, ((r.commit received).op.needsPost = false →
          (r.commit received).cancellation.filter = .enableTotal) := by
        intro received
        unfold commit
        split <;> exact hadmits
      cases hresume with
      | readTimeoutAgain | readTimeout => exact ⟨by simp [suspend], hcommit _⟩
      | readError => exact ⟨by simp [complete], hcommit _⟩
      | read => exact ⟨by simp, hcommit _⟩
      | unbindSent | sendError | unbindRespSent => exact ⟨by simp [complete], hadmits⟩
      | enquireLinkSent | enquireLinkRespSent => exact ⟨by simp, hadmits⟩
      | posted hstage hdeliver =>
          cases hdeliver with
          | undefined => exact ⟨by simp, hadmits⟩
          | completed => exact ⟨by simp [complete], hadmits⟩
      | cancel => exact ⟨hfiltered.reading, hadmits⟩

theorem filtered_of_run {es : List ReceiveEvent}
    (hrun : (machine N).Run EventMachine.anyStep es obs r) : r.Filtered :=
  hrun.invariant (fun _ _ r => r.Filtered) ⟨by simp [machine, new], by simp [machine, new]⟩
    fun _ _ _ _ _ _ hfiltered hstep _ => filtered_move (move_of_step hstep) hfiltered

/-- Behind a total request the operation is one that was requested to end. -/
theorem behind_of_total {type : CancellationType} {yield : Yield} (hfiltered : r.Filtered)
    (hstage : r.stage = .suspended yield) (htotal : type.total = true) :
    Behind { r with cancellation := r.cancellation.request type } := by
  cases yield with
  | read =>
      simp only [Behind, hstage]
      rw [CancellationState.cancelled_request, hfiltered.admits (hfiltered.reading hstage)]
      simp [CancellationFilter.admitted, CancellationType.any, htotal]
  | sendUnbind | sendEnquireLink | sendEnquireLinkResp | sendUnbindResp | post =>
      simp only [Behind, hstage]

/-! ## Behind a move that does not lead -/

/-- The octets do not suffice: the operation will not complete before another read. -/
def Forsaken (r : Receiver N) : Prop :=
  match r.stage with
  | .running => ¬ Concludes r.receiveBuf.readable
  | .suspended .sendEnquireLinkResp =>
      ¬ Concludes (r.receiveBuf.readable.drop r.frameHeader.commandLength.toNat)
  | .suspended .post => ¬ headerLength ≤ r.frameHeader.commandLength.toNat
  | .undefined => True
  | .idle | .suspended .read | .suspended .sendUnbind | .suspended .sendEnquireLink
  | .suspended .sendUnbindResp => False

/-- A frame that does not cover its header is not delivered. -/
theorem forsaken_deliver (hshort : ¬ headerLength ≤ r.op.header.commandLength.toNat)
    (hdeliver : Deliver r r' obs) :
    r'.Forsaken ∧ ∀ completion, .completed completion ∉ obs := by
  cases hdeliver with
  | undefined hrange => exact ⟨trivial, by simp⟩
  | completed hheader hsize => exact absurd hheader hshort

/-- A move that does not lead forsakes the request. -/
theorem forsaken_of_not_leads (hmove : Move r event r' obs) (hinv : r.Inv)
    (hnot : ¬ r.Leads event) : r'.Forsaken ∧ ∀ completion, .completed completion ∉ obs := by
  cases hmove with
  | asyncReceive | startRead | incomplete | dispatch => exact absurd trivial hnot
  | resume hresume =>
      cases hresume with
      | cancel => exact absurd trivial hnot
      | readTimeoutAgain | readTimeout => simp [Leads] at hnot
      | readError hstage hroom herror => simp [Leads, herror] at hnot
      | @read received hstage hroom =>
          refine ⟨?_, by simp⟩
          change ¬ Concludes (r.commit received).receiveBuf.readable
          rw [readable_commit hroom]
          exact fun hconcludes => hnot fun _ => hconcludes
      | unbindSent hstage | unbindRespSent hstage => simp [Leads, hstage] at hnot
      | sendError hstage herror =>
          rcases hstage with hstage | hstage <;> simp [Leads, hstage, herror] at hnot
      | enquireLinkSent hstage =>
          refine ⟨fun hconcludes => hnot ⟨fun _ _ => hconcludes, ?_⟩, by simp⟩
          simp [hstage]
      | enquireLinkRespSent hstage =>
          simp only [Inv, hstage] at hinv
          refine ⟨fun hconcludes => hnot ⟨by simp [hstage], fun _ => ?_⟩, by simp [consumedObs]⟩
          change Concludes r.consume.receiveBuf.readable at hconcludes
          rwa [readable_consume, hinv.header] at hconcludes
      | posted hstage hdeliver =>
          simp only [Inv, hstage] at hinv
          rw [Leads, ← hinv.header] at hnot
          exact forsaken_deliver hnot hdeliver

/-- A frame that does not conclude the operation leaves the request without effect. -/
theorem forsaken_dispatch (hdispatch : Dispatch r r' obs) (hstage : r.stage = .running)
    (hwhole : r.Whole) (hheader : r.op.header = r.frameHeader)
    (hnot : ¬ Concludes r.receiveBuf.readable) :
    r'.Forsaken ∧ ∀ completion, .completed completion ∉ obs := by
  have hrest : r.op.header.commandId ∈ [CommandId.enquireLink, .enquireLinkResp] →
      ¬ Concludes (r.receiveBuf.readable.drop r.op.header.commandLength.toNat) := by
    intro hid hrest
    rw [hheader] at hid hrest
    exact hnot ((concludes_iff_of_skip hwhole hid).mpr hrest)
  have hshort : r.op.header.commandId ∉ control →
      ¬ headerLength ≤ r.op.header.commandLength.toNat := by
    intro hid hcovers
    rw [hheader] at hid hcovers
    exact hnot ((concludes_iff_of_deliver hwhole hid).mpr hcovers)
  have hending : r.op.header.commandId ∉ [CommandId.unbind, .unbindResp] := by
    intro hid
    rw [hheader] at hid
    exact hnot (concludes_of_ending hwhole hid)
  cases hdispatch with
  | enquireLink hid =>
      refine ⟨?_, by simp⟩
      have hnext := hrest (by simp [hid])
      rwa [hheader] at hnext
  | enquireLinkResp hid =>
      have hrunning : r.consume.stage = .running := hstage
      refine ⟨?_, by simp [consumedObs]⟩
      simp only [Forsaken, hrunning, readable_consume]
      exact hrest (by simp [hid])
  | unbind hid | unbindResp hid => exact absurd (by simp [hid]) hending
  | post hid hpost =>
      refine ⟨?_, by simp⟩
      have hnext := hshort hid
      rwa [hheader] at hnext
  | deliver hid hpost hdeliver => exact forsaken_deliver (hshort hid) hdeliver

/-- A forsaken request stays without effect until a read starts. -/
theorem forsaken_move (hmove : Move r event r' obs) (hinv : r.Inv) (hforsaken : r.Forsaken)
    (hquiet : ∀ n, .readSome n ∉ obs) :
    r'.Forsaken ∧ ∀ completion, .completed completion ∉ obs := by
  cases hmove with
  | asyncReceive hstage => simp [Forsaken, hstage] at hforsaken
  | startRead => simp at hquiet
  | incomplete hstage hneeds hwhole header =>
      simp only [Forsaken, hstage] at hforsaken ⊢
      exact ⟨hforsaken, by simp⟩
  | dispatch hstage hneeds hwhole hdispatch =>
      simp only [Forsaken, hstage] at hforsaken
      rcases forsaken_dispatch hdispatch hstage hwhole rfl hforsaken with ⟨hnext, hnone⟩
      exact ⟨hnext, fun completion hmem => hnone completion (by simpa using hmem)⟩
  | resume hresume =>
      cases hresume with
      | readTimeoutAgain hstage | readTimeout hstage | readError hstage | read hstage
      | unbindSent hstage | enquireLinkSent hstage | unbindRespSent hstage =>
          simp [Forsaken, hstage] at hforsaken
      | sendError hstage =>
          rcases hstage with hstage | hstage <;> simp [Forsaken, hstage] at hforsaken
      | enquireLinkRespSent hstage =>
          simp only [Inv, hstage] at hinv
          simp only [Forsaken, hstage] at hforsaken
          refine ⟨?_, by simp [consumedObs]⟩
          change ¬ Concludes r.consume.receiveBuf.readable
          rwa [readable_consume, hinv.header]
      | posted hstage hdeliver =>
          simp only [Inv, hstage] at hinv
          simp only [Forsaken, hstage] at hforsaken
          exact forsaken_deliver (by rwa [hinv.header]) hdeliver
      | cancel hstage => exact ⟨hforsaken, by simp⟩

end Receiver

namespace Session

variable {N : Nat} {s s' s₁ : Session N} {event : SessionEvent} {obs : List SessionObs}
variable {τ : List (Turn (Session N) SessionEvent SessionObs)}

/-! ## The condition -/

/-- What the coroutine has got when a step resumes it concludes the operation.  The command it
waits for ends when its write ends, or when it is resumed and has been cancelled. -/
def Leads (s : Session N) (event : SessionEvent) (_ : Session N) : Prop :=
  match event with
  | .receive e _ => s.recv.Leads e
  | .send (.writeDone id ec) => s.nested = some id → s.recv.Leads (.sendDone ec)
  | .send (.resume id) => s.nested = some id → ∀ op, s.send.ops id = some op →
      op.cancellation.cancelled = true → s.recv.Leads (.sendDone .operationAborted)
  | .send (.call _ _) | .send (.callNext _ _) | .send (.start _) | .send (.cancel _ _)
  | .cancelReceive _ => True

/-- Only whether the command has ended well is looked at. -/
theorem leads_sendDone_iff {r : Receiver N} {ec ec' : ErrorCode}
    (hsame : ec = .success ↔ ec' = .success) :
    r.Leads (.sendDone ec) ↔ r.Leads (.sendDone ec') := by
  simp only [Receiver.Leads, hsame]

/-- A step that ends the command leads exactly when the coroutine is led by its result. -/
theorem leads_iff_of_completed {e : SendEvent} {send : Sender} {sendObs : List SendObs} {id : Nat}
    {exit : SendExit} {ec : ErrorCode} {n : UInt32} (hlinked : s.Linked)
    (hmove : Sender.Move s.send e send sendObs) (hnested : s.nested = some id)
    (hcompleted : .completed id exit ec n ∈ sendObs) :
    Leads s (.send e) s' ↔ s.recv.Leads (.sendDone ec) := by
  rcases hlinked.awaits id hnested with ⟨before, commandId, m, hbefore, hkind, _⟩
  cases hmove with
  | call | callNext | cancelWait | cancel => simp at hcompleted
  | enter hready henter =>
      cases henter with
      | wait => cases hcompleted
      | fail hfree hfill =>
          simp only [List.mem_singleton, SendObs.completed.injEq] at hcompleted
          rcases hcompleted with ⟨rfl, _⟩
          rcases hready.exists_op with ⟨op, hop, hsame⟩
          rw [hbefore, Option.some.injEq] at hop
          rw [hsame, ← hop, hkind] at hfill
          cases hfill
      | write hfree hfill hnumber =>
          rcases Sender.number_obs hnumber with rfl | ⟨k, rfl⟩ <;> simp at hcompleted
  | giveUp hop hphase hcancelled =>
      simp only [List.mem_singleton, SendObs.completed.injEq] at hcompleted
      rcases hcompleted with ⟨rfl, _, rfl, _⟩
      exact ⟨fun hleads => hleads hnested _ hop hcancelled, fun hleads _ _ _ _ => hleads⟩
  | timeOut hop hphase htimeout =>
      simp only [List.mem_cons, reduceCtorEq, SendObs.completed.injEq, List.not_mem_nil, or_false,
        false_or] at hcompleted
      rcases hcompleted with ⟨rfl, _, rfl, _⟩
      have hsame : ErrorCode.smpp .enquireLinkTimeout = .success ↔
          ErrorCode.operationAborted = .success := by simp
      rw [leads_sendDone_iff hsame, ← htimeout.2.1]
      exact ⟨fun hleads => hleads hnested, fun hleads _ => hleads⟩
  | written hop hphase htimeout =>
      simp only [List.mem_cons, reduceCtorEq, SendObs.completed.injEq, List.not_mem_nil, or_false,
        false_or] at hcompleted
      rcases hcompleted with ⟨rfl, _, rfl, _⟩
      exact ⟨fun hleads => hleads hnested, fun hleads _ => hleads⟩

/-- A step that does not end the command resumes nobody. -/
theorem leads_of_pending {e : SendEvent} {send : Sender} {sendObs : List SendObs}
    (hmove : Sender.Move s.send e send sendObs)
    (hpending : ∀ id, s.nested = some id → ∀ exit ec n, .completed id exit ec n ∉ sendObs) :
    Leads s (.send e) s' := by
  cases hmove with
  | call | callNext | cancelWait | cancel => trivial
  | enter hready henter =>
      cases hready with
      | start => trivial
      | resume hop hphase hcancelled =>
          intro _ op hop' hcancelled'
          rw [hop, Option.some.injEq] at hop'
          rw [← hop', hcancelled] at hcancelled'
          cases hcancelled'
  | giveUp hop hphase hcancelled =>
      exact fun hnested => absurd List.mem_cons_self (hpending _ hnested _ _ _)
  | timeOut | written =>
      exact fun hnested =>
        absurd (List.mem_cons_of_mem _ List.mem_cons_self) (hpending _ hnested _ _ _)

/-! ## One step -/

/-- The turn moves the coroutine: it is a turn of its own, or it ends the command that the
coroutine waits for. -/
def moves (t : Turn (Session N) SessionEvent SessionObs) : Bool :=
  match t.event with
  | .receive _ _ => true
  | .send _ => t.before.nested.isSome && t.after.nested.isNone
  | .cancelReceive _ => false

/-- The operation has not completed. -/
def Open (os : List SessionObs) : Prop :=
  ∀ completion, .receive (.completed completion) ∉ os

/-- No read is started. -/
def NoRead (os : List SessionObs) : Prop :=
  ∀ n, .receive (.readSome n) ∉ os

/-- No step starts a read. -/
theorem noRead_of_behind (hmove : Move s event s' obs) (hbehind : s.recv.Behind) :
    NoRead obs := by
  have hpart : ∀ {e : ReceiveEvent} {recv : Receiver N} {o : List ReceiveObs},
      s.recv.step e = some (recv, o) → ∀ n, .readSome n ∉ o :=
    fun hrecv => Receiver.quiet_of_behind (Receiver.move_of_step hrecv) hbehind
  cases hmove with
  | send hpaused hmay hsend hpending => simp [NoRead]
  | resume hmay hsend hnested hcompleted hrecv | receive hexternal hrecv hquiet
  | command hexternal hrecv hcommand hcall hstart | cancel hrecv hnested
  | cancelNested hrecv hnested hsend => simpa [NoRead] using hpart hrecv

/-- While the operation is open a step that leads brings it nearer to its completion. -/
theorem behind_step (hmove : Move s event s' obs) (hlinked : s.Linked) (hinv : s.recv.Inv)
    (hbehind : s.recv.Behind) (hleads : Leads s event s') (hopen : Open obs) :
    s'.recv.Behind ∧
      (if moves ⟨s, event, obs, s'⟩ then 1 else 0) + s'.recv.left ≤ s.recv.left := by
  have hpart : ∀ {e : ReceiveEvent} {recv : Receiver N} {o : List ReceiveObs},
      s.recv.step e = some (recv, o) → s.recv.Leads e →
        (∀ completion, .completed completion ∉ o) → (∀ type, e ≠ .cancel type) →
          recv.Behind ∧ recv.left < s.recv.left :=
    fun hrecv => Receiver.behind_move (Receiver.move_of_step hrecv) hinv hbehind
  have hother : ∀ {e : ReceiveEvent}, isExternal e = true → ∀ type, e ≠ .cancel type := by
    rintro e hexternal type rfl
    cases hexternal
  cases hmove with
  | send hpaused hmay hsend hpending =>
      refine ⟨hbehind, ?_⟩
      cases hnested : s.nested <;> simp [moves, hnested]
  | @resume e send o id exit ec n recv recvObs hmay hsend hnested hcompleted hrecv =>
      have hled : s.recv.Leads (.sendDone ec) :=
        (leads_iff_of_completed hlinked (Sender.move_of_step hsend) hnested hcompleted).mp hleads
      rcases hpart hrecv hled (by simpa [Open] using hopen) (by simp) with ⟨hnext, hnearer⟩
      refine ⟨hnext, ?_⟩
      simp only [moves, hnested, Option.isSome_some, Option.isNone_none, Bool.and_self, if_true]
      omega
  | receive hexternal hrecv hquiet | command hexternal hrecv hcommand hcall hstart =>
      rcases hpart hrecv hleads (by simpa [Open] using hopen) (hother hexternal) with
        ⟨hnext, hnearer⟩
      refine ⟨hnext, ?_⟩
      simp only [moves, if_true]
      omega
  | cancel hrecv hnested | cancelNested hrecv hnested hsend =>
      rcases Receiver.behind_cancel (Receiver.move_of_step hrecv) hbehind with ⟨hnext, _, hsame⟩
      exact ⟨hnext, by simp [moves, hsame]⟩

/-- A step that does not lead forsakes the request. -/
theorem forsaken_of_not_leads (hmove : Move s event s' obs) (hlinked : s.Linked)
    (hinv : s.recv.Inv) (hnot : ¬ Leads s event s') : s'.recv.Forsaken ∧ Open obs := by
  cases hmove with
  | send hpaused hmay hsend hpending =>
      exact absurd (leads_of_pending (Sender.move_of_step hsend) hpending) hnot
  | @resume e send o id exit ec n recv recvObs hmay hsend hnested hcompleted hrecv =>
      rw [leads_iff_of_completed hlinked (Sender.move_of_step hsend) hnested hcompleted] at hnot
      rcases Receiver.forsaken_of_not_leads (Receiver.move_of_step hrecv) hinv hnot with
        ⟨hforsaken, hnone⟩
      exact ⟨hforsaken, by simpa [Open] using hnone⟩
  | receive hexternal hrecv hquiet | command hexternal hrecv hcommand hcall hstart =>
      rcases Receiver.forsaken_of_not_leads (Receiver.move_of_step hrecv) hinv hnot with
        ⟨hforsaken, hnone⟩
      exact ⟨hforsaken, by simpa [Open] using hnone⟩
  | cancel hrecv hnested | cancelNested hrecv hnested hsend => exact absurd trivial hnot

/-- A forsaken request stays without effect until a read starts. -/
theorem forsaken_step (hmove : Move s event s' obs) (hinv : s.recv.Inv)
    (hforsaken : s.recv.Forsaken) (hquiet : NoRead obs) : s'.recv.Forsaken ∧ Open obs := by
  have hpart : ∀ {e : ReceiveEvent} {recv : Receiver N} {o : List ReceiveObs},
      s.recv.step e = some (recv, o) → (∀ n, .readSome n ∉ o) →
        recv.Forsaken ∧ ∀ completion, .completed completion ∉ o :=
    fun hrecv => Receiver.forsaken_move (Receiver.move_of_step hrecv) hinv hforsaken
  cases hmove with
  | send hpaused hmay hsend hpending => exact ⟨hforsaken, by simp [Open]⟩
  | resume hmay hsend hnested hcompleted hrecv | receive hexternal hrecv hquiet'
  | command hexternal hrecv hcommand hcall hstart | cancel hrecv hnested
  | cancelNested hrecv hnested hsend =>
      rcases hpart hrecv (by simpa [NoRead] using hquiet) with ⟨hnext, hnone⟩
      exact ⟨hnext, by simpa [Open] using hnone⟩

/-! ## Whole runs -/

variable {R : Session N → SessionEvent → Session N → Prop}
variable {es es' : List SessionEvent} {os os' : List SessionObs}

/-- Something is under way that resumes the coroutine: its own loop, a read, a posted handler,
or the command it waits for. -/
def Pending (s : Session N) : Prop :=
  s.recv.stage = .running ∨ s.recv.stage = .suspended .read ∨ s.recv.stage = .suspended .post ∨
    ∃ id op, s.nested = some id ∧ s.send.ops id = some op ∧ op.phase ≠ .created ∧ op.phase ≠ .done

theorem pending_of_behind (hlinked : s.Linked) (hbehind : s.recv.Behind) : s.Pending := by
  have hawaits : (∃ commandId n, Awaits s.recv commandId n) → s.Pending := by
    rintro ⟨commandId, n, hawaits⟩
    cases hnested : s.nested with
    | none => exact absurd hawaits (hlinked.idle hnested commandId n)
    | some id =>
        rcases hlinked.awaits id hnested with ⟨op, _, _, hop, _, hcreated, hdone, _⟩
        exact Or.inr (Or.inr (Or.inr ⟨id, op, hnested, hop, hcreated, hdone⟩))
  cases hstage : s.recv.stage with
  | idle | undefined => simp [Receiver.Behind, hstage] at hbehind
  | running => exact Or.inl hstage
  | suspended yield =>
      cases yield with
      | read => exact Or.inr (Or.inl hstage)
      | post => exact Or.inr (Or.inr (Or.inl hstage))
      | sendUnbind => exact hawaits ⟨.unbind, 0, by simp [Awaits, hstage]⟩
      | sendEnquireLink => exact hawaits ⟨.enquireLink, 0, by simp [Awaits, hstage]⟩
      | sendEnquireLinkResp => exact hawaits ⟨.enquireLinkResp, _, by simp [Awaits, hstage]; rfl⟩
      | sendUnbindResp => exact hawaits ⟨.unbindResp, _, by simp [Awaits, hstage]; rfl⟩

/-- The halves are linked, and the coroutine is as its invariant says, wherever a run goes on. -/
theorem inv_of_steps (hrun : (machine N).Run R es os s)
    {R' : Session N → SessionEvent → Session N → Prop}
    (hsteps : (machine N).Steps R' s es' os' s') : s'.Linked ∧ s'.recv.Inv := by
  have hwhole := hrun.anyStep.trans hsteps.anyStep
  exact ⟨linked_of_run hwhole, (passed_of_run hwhole).2⟩

/-- Along steps that lead the operation comes nearer to its completion and starts no read. -/
theorem behind_of_traced (hrun : (machine N).Run R es os s) (hbehind : s.recv.Behind)
    (htraced : (machine N).Traced Leads s τ s') (hopen : Open (EventMachine.shown τ)) :
    s'.recv.Behind ∧ NoRead (EventMachine.shown τ) ∧
      τ.countP moves + s'.recv.left ≤ s.recv.left := by
  induction htraced with
  | refl => exact ⟨hbehind, by simp [NoRead], by simp⟩
  | @snoc τ s₂ s₃ e o before hstep hleads ih =>
      rw [EventMachine.shown_append, EventMachine.shown_singleton] at hopen ⊢
      rcases ih fun completion hmem => hopen completion (List.mem_append_left _ hmem) with
        ⟨hbehind₂, hquiet, hcount⟩
      rcases inv_of_steps hrun before.steps with ⟨hlinked, hinv⟩
      have hmove := move_of_step hstep
      rcases behind_step hmove hlinked hinv hbehind₂ hleads
        (fun completion hmem => hopen completion (List.mem_append_right _ hmem)) with
        ⟨hbehind₃, hnearer⟩
      refine ⟨hbehind₃, fun n hmem => ?_, ?_⟩
      · rcases List.mem_append.mp hmem with hmem | hmem
        · exact hquiet n hmem
        · exact noRead_of_behind hmove hbehind₂ n hmem
      · rw [List.countP_append, List.countP_singleton]
        omega

/-- Behind a step that does not lead the operation does not complete before a read starts. -/
theorem forsaken_of_steps (hrun : (machine N).Run R es os s) (hforsaken : s.recv.Forsaken)
    {R' : Session N → SessionEvent → Session N → Prop}
    (hsteps : (machine N).Steps R' s es' os' s') (hquiet : NoRead os') :
    s'.recv.Forsaken ∧ Open os' := by
  induction hsteps with
  | refl => exact ⟨hforsaken, by simp [Open]⟩
  | @snoc es' os' s₂ s₃ e o before hstep hleads ih =>
      rcases ih fun n hmem => hquiet n (List.mem_append_left _ hmem) with ⟨hforsaken₂, hopen⟩
      rcases forsaken_step (move_of_step hstep) (inv_of_steps hrun before).2 hforsaken₂
        (fun n hmem => hquiet n (List.mem_append_right _ hmem)) with ⟨hforsaken₃, hopen'⟩
      refine ⟨hforsaken₃, fun completion hmem => ?_⟩
      rcases List.mem_append.mp hmem with hmem | hmem
      · exact hopen completion hmem
      · exact hopen' completion hmem

/-- What a request that arrives in {lit}`s` and leaves {lit}`s₁` comes to.  While the steps lead,
the operation starts no read, goes on, and completes within {lit}`2 * N + 4` moves; behind a step
that does not it completes only after a read; and whatever is received from then on, the PDUs
that are delivered are those that are delivered without the request. -/
structure Honoured (s s₁ : Session N) : Prop where
  concluded : ∀ τ s₂, (machine N).Traced Leads s₁ τ s₂ → Open (EventMachine.shown τ) →
    NoRead (EventMachine.shown τ) ∧ τ.countP moves ≤ 2 * N + 3 ∧ s₂.Pending ∧
      ∀ event s₃ obs, (machine N).step s₂ event = some (s₃, obs) → NoRead obs
  forsaken : ∀ es os s₂ event s₃ obs es' os' s₄,
    (machine N).Steps EventMachine.anyStep s₁ es os s₂ →
      (machine N).step s₂ event = some (s₃, obs) → ¬ Leads s₂ event s₃ →
        (machine N).Steps EventMachine.anyStep s₃ es' os' s₄ → NoRead os' →
          Open obs ∧ Open os'
  lossless : ∀ es₁ os₁ t₁ es₂ os₂ t₂, (machine N).Steps EventMachine.anyStep s₁ es₁ os₁ t₁ →
    (machine N).Steps EventMachine.anyStep s es₂ os₂ t₂ → received es₁ = received es₂ →
      (delivered os₁ <+: delivered os₂ ∨ delivered os₂ <+: delivered os₁) ∧
        (t₁.recv.stage = .suspended .read → t₂.recv.stage = .suspended .read →
          delivered os₁ = delivered os₂)

/-- A suspended operation takes every request. -/
theorem step_cancelReceive (hlinked : s.Linked) {yield : Yield}
    (hstage : s.recv.stage = .suspended yield) (type : CancellationType) :
    ∃ s₁, (machine N).step s (.cancelReceive type) = some (s₁, []) ∧
      s₁.recv = { s.recv with cancellation := s.recv.cancellation.request type } := by
  have hrecv : s.recv.step (.cancel type) =
      some ({ s.recv with cancellation := s.recv.cancellation.request type }, []) := by
    simp only [Receiver.step, hstage]
  cases hnested : s.nested with
  | none =>
      refine ⟨⟨s.send, { s.recv with cancellation := s.recv.cancellation.request type }, none⟩, ?_,
        rfl⟩
      simp [machine, step, cancelReceive, hrecv, hnested]
  | some id =>
      rcases hlinked.awaits id hnested with ⟨op, _, _, hop, _, hcreated, hdone, _⟩
      have hsend : s.send.step (.cancel id (s.recv.cancellation.filter.admitted type)) =
          some (s.send.cancel id op (s.recv.cancellation.filter.admitted type), []) := by
        simp [Sender.step, hop, hcreated, hdone]
      refine ⟨⟨s.send.cancel id op (s.recv.cancellation.filter.admitted type),
        { s.recv with cancellation := s.recv.cancellation.request type }, some id⟩, ?_, rfl⟩
      simp [machine, step, cancelReceive, hrecv, hnested, hsend]

/-- A total request at any suspension of any run. -/
theorem honoured_of_run (hrun : (machine N).Run R es os s) {yield : Yield}
    (hstage : s.recv.stage = .suspended yield) {type : CancellationType}
    (htotal : type.total = true) :
    ∃ s₁, (machine N).step s (.cancelReceive type) = some (s₁, []) ∧ Honoured s s₁ := by
  rcases step_cancelReceive (linked_of_run hrun) hstage type with ⟨s₁, hcancel, hrecv⟩
  have hrequest : (machine N).Steps EventMachine.anyStep s [.cancelReceive type] [] s₁ :=
    .single hcancel trivial
  have hrun₁ := hrun.anyStep.trans hrequest
  have hbehind : s₁.recv.Behind := by
    rcases (halves_of_run hrun).2 with ⟨es₂, hhalf, _⟩
    rw [hrecv]
    exact Receiver.behind_of_total (Receiver.filtered_of_run hhalf) hstage htotal
  refine ⟨s₁, hcancel, ?_, ?_, ?_⟩
  · intro τ s₂ htraced hopen
    rcases behind_of_traced hrun₁ hbehind htraced hopen with ⟨hbehind₂, hquiet, hcount⟩
    have hleft := s₁.recv.left_le
    refine ⟨hquiet, by omega, pending_of_behind (inv_of_steps hrun₁ htraced.steps).1 hbehind₂, ?_⟩
    exact fun event s₃ obs hstep => noRead_of_behind (move_of_step hstep) hbehind₂
  · intro es os s₂ event s₃ obs es' os' s₄ hbefore hstep hnot hafter hquiet
    rcases inv_of_steps hrun₁ hbefore with ⟨hlinked, hinv⟩
    rcases forsaken_of_not_leads (move_of_step hstep) hlinked hinv hnot with ⟨hforsaken, hopen⟩
    have hrun₃ := (hrun₁.trans hbefore).trans (.single hstep trivial)
    exact ⟨hopen, (forsaken_of_steps hrun₃ hforsaken hafter hquiet).2⟩
  · intro es₁ os₁ t₁ es₂ os₂ t₂ hfirst hsecond hsame
    exact lossless_of_run hrun (hrequest.trans hfirst) hsecond hsame

/-- A request that arrives while the first read is outstanding. -/
theorem honoured_of_run_read :
    ∃ es os, ∃ s : Session 32, (machine 32).Run EventMachine.anyStep es os s ∧
      s.recv.stage = .suspended .read ∧
        ∃ s₁, (machine 32).step s (.cancelReceive { total := true }) = some (s₁, []) ∧
          Honoured s s₁ := by
  have hrun := EventMachine.steps_of_exec (M := machine 32) (s := (machine 32).init)
    [.receive .asyncReceive 0, .receive .iterate 0, .receive .iterate 0] rfl
  exact ⟨_, _, _, hrun, rfl, honoured_of_run hrun rfl rfl⟩

/-! ## A request without effect -/

/-- While an {lit}`unbind` is written, the response to an {lit}`enquire_link` waits; it is woken by
a total request and completes with {lit}`operation_aborted`. -/
theorem steps_waiting :
    ∃ created busy called waiting woken done : Sender,
      ({} : Sender).step (.callNext 1 .unbind) = some (created, [.allocated 1]) ∧
        created.step (.start 1) =
          some (busy, [.writeStarted 1 (encodeHeader ⟨16, .unbind, .rok, 1⟩)]) ∧
        busy.step (callCommand 0 .enquireLinkResp (some 1)) = some (called, []) ∧
        called.step (.start 0) = some (waiting, []) ∧
        waiting.step (.cancel 0 { total := true }) = some (woken, []) ∧
        woken.step (.resume 0) = some (done, [.completed 0 .whileWaiting .operationAborted 0]) :=
  ⟨_, _, _, _, _, _, rfl, rfl, rfl, rfl, rfl, rfl⟩

/-- A step of the sending half while the coroutine waits for no command. -/
theorem step_send {e : SendEvent} {send : Sender} {o : List SendObs} (hnested : s.nested = none)
    (hpaused : s.recv.stage ≠ .running) (hmay : s.mayHappen e = true)
    (hsend : s.send.step e = some (send, o)) :
    (machine N).step s (.send e) = some (⟨send, s.recv, none⟩, o.map .send) := by
  simp [machine, step, hpaused, hmay, hsend, resume, hnested]

/-- The response is aborted, its frame is removed all the same, and the loop runs on. -/
theorem step_aborted {done : Sender} (hnested : s.nested = some 0)
    (hstage : s.recv.stage = .suspended .sendEnquireLinkResp)
    (hsend : s.send.step (.resume 0) =
      some (done, [.completed 0 .whileWaiting .operationAborted 0])) :
    (machine N).step s (.send (.resume 0)) =
      some (⟨done, { s.recv.consume with stage := .running }, none⟩,
        [.send (.completed 0 .whileWaiting .operationAborted 0),
          .receive s.recv.consumedObs]) := by
  have hrecv : s.recv.step (.sendDone .operationAborted) =
      some ({ s.recv.consume with stage := .running }, [s.recv.consumedObs]) := by
    simp only [Receiver.step, hstage, Receiver.sendDone]
  simp [machine, step, hstage, mayHappen, hsend, resume, hnested, completionOf, hrecv]

/-- A total request that arrives while the response to an {lit}`enquire_link` waits is without
effect: the operation goes on reading. -/
theorem not_honoured_waiting :
    ¬ ∀ (es : List SessionEvent) (os : List SessionObs) (s : Session receiveCapacity)
        (yield : Yield) (type : CancellationType) (s₁ : Session receiveCapacity)
        (es' : List SessionEvent) (os' : List SessionObs) (s₂ : Session receiveCapacity),
      (machine receiveCapacity).Run EventMachine.anyStep es os s →
        s.recv.stage = .suspended yield → type.total = true →
          (machine receiveCapacity).step s (.cancelReceive type) = some (s₁, []) →
            (machine receiveCapacity).Steps EventMachine.anyStep s₁ es' os' s₂ →
              Open os' → NoRead os' := by
  intro hhonoured
  obtain ⟨created, busy, called, waiting, woken, done, hcreate, hwrite, hcall, hstart, hcancel,
    hresume⟩ := steps_waiting
  obtain ⟨es, os, r, hsteps, _, _, _, hstage, hpost, hheader, hneeds, hreadable⟩ :=
    steps_respond (N := receiveCapacity) (by decide) hcall hstart
  have hfirst := step_send (s := (machine receiveCapacity).init) rfl (by decide) rfl hcreate
  have hsecond := step_send (s := ⟨created, .new receiveCapacity, none⟩) rfl
    (by simp [Receiver.new]) rfl hwrite
  have hrun : (machine receiveCapacity).Run EventMachine.anyStep _ _ ⟨waiting, r, some 0⟩ :=
    ((EventMachine.Steps.single hfirst trivial).trans (.single hsecond trivial)).trans hsteps
  -- the request is recorded and passed on, since the operation has read
  have hadmits : r.cancellation.filter = .enableTotal := by
    rcases (halves_of_run hrun).2 with ⟨es₂, hhalf, _⟩
    exact (Receiver.filtered_of_run hhalf).admits hpost
  have hrequest : (machine receiveCapacity).step ⟨waiting, r, some 0⟩
      (.cancelReceive { total := true }) =
        some (⟨woken, { r with cancellation := r.cancellation.request { total := true } }, some 0⟩,
          []) := by
    simp [machine, step, cancelReceive, Receiver.step, hstage, hadmits,
      CancellationFilter.admitted, hcancel]
  -- the response gives up, its result is not looked at
  have haborted := step_aborted (s := ⟨woken,
    { r with cancellation := r.cancellation.request { total := true } }, some 0⟩) rfl hstage hresume
  have hempty : r.consume.receiveBuf.readable = [] := by
    rw [Receiver.readable_consume, hreadable, hheader]
    rfl
  have hwhole : ¬ commandFraming.Whole r.consume.receiveBuf.readable := by
    rw [hempty]
    exact fun hwhole => absurd hwhole.1 (by decide)
  obtain ⟨r', hread, _⟩ := Receiver.steps_startRead (r := { Receiver.consume
    { r with cancellation := r.cancellation.request { total := true } } with
      stage := .running }) rfl hneeds hwhole
  have hrest := steps_of_receive_steps (s := ⟨done, _, none⟩) hread (by decide) (by simp)
  have hgoes := (EventMachine.Steps.single haborted trivial).trans hrest
  refine hhonoured _ _ _ _ { total := true } _ _ _ _ hrun hstage rfl hrequest hgoes ?_
    (receiveCapacity - r.consume.receiveBuf.size) ?_
  · intro completion hmem
    simp [Receiver.consumedObs] at hmem
  · exact List.mem_append_right _ (List.mem_map_of_mem List.mem_cons_self)

end Session

end Smpp
