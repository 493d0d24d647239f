import Smpp.Net.ReceiveProgress

/-!
# Receiving a well-formed stream

The specification of receiving is a fold over the frames of the whole stream:
control frames are swallowed, every other frame becomes one completion, and the
first {lit}`unbind` or {lit}`unbind_resp` ends the session.  The coroutine sees the same
stream in arbitrary pieces.

Main results:

- Theorem {lit}`Receiver.tracks_of_run`: the completions so far are those of the frames
  taken from the buffer so far, and the buffer holds what has arrived behind them.
- Theorem {lit}`Receiver.completions_of_stream`: however the stream is cut, the
  completions are those of the specification, in order and one for each operation; an
  operation that does not wait for octets ends by itself, and while it waits for octets
  none of the frames that have arrived is missing.
-/

namespace Smpp

variable {N : Nat}

/-! ## The specification -/

/-- A frame whose {lit}`command_length` is its real size, within the capacity. -/
structure Frame (N : Nat) where
  octets : Octets
  wellFormed : commandFraming.IsFrame octets
  fits : octets.length ≤ N

namespace Frame

/-- The header of a frame. -/
def header (frame : Frame N) : Header := deserializeHeader frame.octets

/-- What the body of a frame decodes to. -/
def pdu (frame : Frame N) : PduVariant :=
  match PduType.owner frame.header.commandId with
  | some t =>
      match t.deserialize (frame.octets.drop headerLength) with
      | .ok pdu => .pdu t pdu
      | .error e => .invalidPdu frame.octets e.what
  | none => .invalidPdu frame.octets "Unknown PDU"

/-- The completion of a frame that is handed to the caller. -/
def completion (frame : Frame N) : Completion where
  ec := .success
  pdu := frame.pdu
  sequenceNumber := frame.header.sequenceNumber
  commandStatus := frame.header.commandStatus

/-- The completions one frame gives rise to. -/
def completions (frame : Frame N) : List Completion :=
  if frame.header.commandId = .enquireLink ∨ frame.header.commandId = .enquireLinkResp then []
  else if frame.header.commandId = .unbind ∨ frame.header.commandId = .unbindResp then
    [{ ec := .smpp .unbinded }]
  else [frame.completion]

theorem completions_of_link {frame : Frame N} (hid : frame.header.commandId = .enquireLink ∨
    frame.header.commandId = .enquireLinkResp) : frame.completions = [] :=
  if_pos hid

theorem completions_of_ending {frame : Frame N} (hid : frame.header.commandId = .unbind ∨
    frame.header.commandId = .unbindResp) : frame.completions = [{ ec := .smpp .unbinded }] := by
  have hnot : ¬(frame.header.commandId = .enquireLink ∨
      frame.header.commandId = .enquireLinkResp) := by
    rcases hid with hid | hid <;> rw [hid] <;> decide
  rw [completions, if_neg hnot, if_pos hid]

/-- The coroutine decodes a frame as the specification does. -/
theorem decodeFrame_eq (frame : Frame N) :
    decodeFrame frame.header.commandId frame.octets = frame.pdu := by
  unfold pdu
  split
  · rename_i t howner
    exact decodeFrame_of_owner howner frame.octets
  · rename_i howner
    exact decodeFrame_of_unknown howner frame.octets

theorem announce_eq (frame : Frame N) :
    frame.header.commandLength.toNat = frame.octets.length :=
  frame.wellFormed.announced

end Frame

/-- The octets of a list of frames. -/
def stream (frames : List (Frame N)) : Octets :=
  (frames.map Frame.octets).flatten

/-- The completions of successive receive operations on a list of frames, up to the
first {lit}`unbind` or {lit}`unbind_resp`. -/
def expected : List (Frame N) → List Completion
  | [] => []
  | frame :: frames =>
      if frame.header.commandId = .enquireLink ∨ frame.header.commandId = .enquireLinkResp then
        expected frames
      else if frame.header.commandId = .unbind ∨ frame.header.commandId = .unbindResp then
        [{ ec := .smpp .unbinded }]
      else frame.completion :: expected frames

/-- The completions up to the first one with {lit}`error::unbinded`. -/
def untilUnbind : List Completion → List Completion
  | [] => []
  | c :: cs => if c.ec = .smpp .unbinded then [c] else c :: untilUnbind cs

theorem untilUnbind_mono {cs cs' : List Completion} (hinitial : cs <+: cs') :
    untilUnbind cs <+: untilUnbind cs' := by
  rcases hinitial with ⟨more, rfl⟩
  induction cs with
  | nil => exact List.nil_prefix
  | cons c cs ih =>
      by_cases hunbind : c.ec = .smpp .unbinded
      · simp [untilUnbind, hunbind]
      · simpa [untilUnbind, hunbind] using ih

/-- The specification frame by frame. -/
theorem untilUnbind_flatMap (frames : List (Frame N)) :
    untilUnbind (frames.flatMap Frame.completions) = expected frames := by
  induction frames with
  | nil => rfl
  | cons frame frames ih =>
      rw [List.flatMap_cons, expected, Frame.completions]
      split
      · exact ih
      split
      · simp [untilUnbind]
      · simp [untilUnbind, Frame.completion, ih]

theorem expected_mono {frames frames' : List (Frame N)} (hinitial : frames <+: frames') :
    expected frames <+: expected frames' := by
  rcases hinitial with ⟨more, rfl⟩
  rw [← untilUnbind_flatMap, ← untilUnbind_flatMap, List.flatMap_append]
  exact untilUnbind_mono (List.prefix_append _ _)

theorem isFrame_of_mem {frames : List (Frame N)} :
    ∀ octets ∈ frames.map Frame.octets, commandFraming.IsFrame octets := by
  intro octets hmem
  rcases List.mem_map.mp hmem with ⟨frame, _, rfl⟩
  exact frame.wellFormed

/-- What has arrived of a stream of frames announces lengths between the header and
the capacity. -/
theorem announces_of_stream {frames : List (Frame N)} {arrived : Octets}
    (hinitial : arrived <+: stream frames) :
    commandFraming.Announces arrived (headerLength ≤ ·) ∧
      commandFraming.Announces arrived (· ≤ N) := by
  rcases hinitial with ⟨more, hmore⟩
  constructor
  · refine Framing.Announces.of_append more ?_
    rw [hmore]
    refine Framing.announces_flatten (by decide) isFrame_of_mem fun octets hmem => ?_
    exact (isFrame_of_mem octets hmem).header
  · refine Framing.Announces.of_append more ?_
    rw [hmore]
    refine Framing.announces_flatten (by decide) isFrame_of_mem fun octets hmem => ?_
    rcases List.mem_map.mp hmem with ⟨frame, _, rfl⟩
    exact frame.fits

namespace Receiver

variable {r r' : Receiver N} {event : ReceiveEvent} {obs : List ReceiveObs}
variable {frames : List (Frame N)}

/-! ## The coroutine follows the specification -/

/-- Reads succeed with at least one octet, sends succeed, nothing is cancelled. -/
def Quiet : ReceiveEvent → Prop
  | .readDone ec received => ec = .success ∧ received ≠ []
  | .sendDone ec => ec = .success
  | .cancel _ => False
  | .asyncReceive | .iterate | .postDone => True

instance : DecidablePred Quiet
  | .readDone ec received => inferInstanceAs (Decidable (ec = .success ∧ received ≠ []))
  | .sendDone ec => inferInstanceAs (Decidable (ec = .success))
  | .cancel _ => inferInstanceAs (Decidable False)
  | .asyncReceive | .iterate | .postDone => inferInstanceAs (Decidable True)

/-- Steps whose event is quiet. -/
def QuietStep (_ : Receiver N) (event : ReceiveEvent) (_ : Receiver N) : Prop :=
  Quiet event

/-- The frames {lit}`taken` have left the buffer, which holds what has arrived behind
them. -/
structure Tracks (taken : List (Frame N)) (arrived : Octets) (cs : List Completion)
    (r : Receiver N) : Prop where
  arrived_eq : arrived = stream taken ++ r.receiveBuf.readable
  completions_eq : cs = taken.flatMap Frame.completions
  defined : r.stage ≠ .undefined
  inTime : r.stage ≠ .suspended .sendUnbind

/-- A whole frame at the front of the buffer is the next frame of the stream. -/
theorem front_of_whole {pending : List (Frame N)}
    (hinitial : r.receiveBuf.readable <+: stream pending) (hwhole : r.Whole) :
    ∃ frame pending' rest, pending = frame :: pending' ∧
      r.receiveBuf.readable = frame.octets ++ rest ∧ r.frameHeader = frame.header := by
  cases pending with
  | nil =>
      have hempty : r.receiveBuf.readable = [] := List.prefix_nil.mp hinitial
      have hheader := hwhole.1
      rw [hempty] at hheader
      exact absurd hheader (by decide)
  | cons frame pending' =>
      have hfront : frame.octets <+: r.receiveBuf.readable :=
        (frame.wellFormed.whole_iff (stream pending')
          (by simpa [stream] using hinitial)).mp hwhole
      rcases hfront with ⟨rest, hrest⟩
      refine ⟨frame, pending', rest, rfl, hrest.symm, ?_⟩
      rw [frameHeader, ← hrest]
      exact deserializeHeader_append rest frame.wellFormed.header

/-- Nothing leaves the buffer. -/
theorem Tracks.keep {taken : List (Frame N)} {arrived : Octets} {cs : List Completion}
    (htracks : Tracks taken arrived cs r)
    (hreadable : r'.receiveBuf.readable = r.receiveBuf.readable)
    (hdefined : r'.stage ≠ .undefined) (hinTime : r'.stage ≠ .suspended .sendUnbind) :
    Tracks taken (arrived ++ []) (cs ++ []) r' := by
  rw [List.append_nil, List.append_nil]
  exact ⟨by rw [hreadable, htracks.arrived_eq], htracks.completions_eq, hdefined, hinTime⟩

/-- Taking the front frame out of the buffer. -/
theorem Tracks.take {taken : List (Frame N)} {arrived rest : Octets} {cs : List Completion}
    {frame : Frame N} (htracks : Tracks taken arrived cs r)
    (hfront : r.receiveBuf.readable = frame.octets ++ rest)
    (hheader : r.op.header = frame.header) (r' : Receiver N)
    (hreadable : r'.receiveBuf.readable = r.consume.receiveBuf.readable)
    (hdefined : r'.stage ≠ .undefined) (hinTime : r'.stage ≠ .suspended .sendUnbind) :
    Tracks (taken ++ [frame]) arrived (cs ++ frame.completions) r' where
  arrived_eq := by
    have hdrop : (frame.octets ++ rest).drop frame.header.commandLength.toNat = rest := by
      rw [frame.announce_eq, List.drop_left]
    rw [hreadable, readable_consume, hfront, hheader, hdrop, htracks.arrived_eq, hfront]
    simp [stream]
  completions_eq := by
    rw [htracks.completions_eq]
    simp
  defined := hdefined
  inTime := hinTime

/-- Delivering the front frame completes with what the specification says. -/
theorem Tracks.deliver {taken : List (Frame N)} {arrived rest : Octets}
    {cs : List Completion} {frame : Frame N} (htracks : Tracks taken arrived cs r)
    (hfront : r.receiveBuf.readable = frame.octets ++ rest)
    (hheader : r.op.header = frame.header) (hid : r.op.header.commandId ∉ control)
    (hdeliver : Deliver r r' obs) :
    Tracks (taken ++ [frame]) arrived (cs ++ completions obs) r' := by
  have hlength : r.op.header.commandLength.toNat = frame.octets.length := by
    rw [hheader, frame.announce_eq]
  have hsize : frame.octets.length ≤ r.receiveBuf.size := by
    rw [← StaticFlatBuffer.length_readable, hfront, List.length_append]
    omega
  have hframe : headerLength ≤ frame.octets.length := frame.wellFormed.header
  cases hdeliver with
  | undefined hrange => omega
  | completed hcovers hfits =>
      have hcompletions : frame.completions = [frame.completion] := by
        rw [hheader] at hid
        simp only [control, List.mem_cons, List.not_mem_nil, or_false, not_or] at hid
        simp [Frame.completions, hid]
      have htake : r.receiveBuf.readable.take r.op.header.commandLength.toNat =
          frame.octets := by
        rw [hlength, hfront, List.take_left]
      have hnext := htracks.take hfront hheader r.consume.complete rfl
        (by simp [complete]) (by simp [complete])
      rw [hcompletions] at hnext
      rw [htake, hheader, frame.decodeFrame_eq]
      exact hnext

/-- A pass through the loop keeps the front frame or takes it. -/
theorem tracks_dispatch {taken : List (Frame N)} {arrived rest : Octets} {cs : List Completion}
    {frame : Frame N} (hdispatch : Dispatch r r' obs) (htracks : Tracks taken arrived cs r)
    (hfront : r.receiveBuf.readable = frame.octets ++ rest)
    (hheader : r.op.header = frame.header) :
    Tracks taken (arrived ++ []) (cs ++ completions obs) r' ∨
      Tracks (taken ++ [frame]) arrived (cs ++ completions obs) r' := by
  cases hdispatch with
  | enquireLink hid | unbind hid | post hid hpost =>
      exact Or.inl (htracks.keep rfl (by simp [suspend]) (by simp [suspend]))
  | enquireLinkResp hid =>
      rw [hheader] at hid
      have hnext := htracks.take hfront hheader r.consume rfl htracks.defined htracks.inTime
      rw [Frame.completions_of_link (Or.inr hid)] at hnext
      exact Or.inr hnext
  | unbindResp hid =>
      rw [hheader] at hid
      have hnext := htracks.take hfront hheader r.consume.complete rfl (by simp [complete])
        (by simp [complete])
      rw [Frame.completions_of_ending (Or.inr hid)] at hnext
      exact Or.inr hnext
  | deliver hid hpost hdeliver => exact Or.inr (htracks.deliver hfront hheader hid hdeliver)

/-- A quiet step keeps the frames taken or takes the next one. -/
theorem tracks_move {taken pending : List (Frame N)} {arrived : Octets}
    {cs : List Completion} (hmove : Move r event r' obs) (hquiet : QuietStep r event r')
    (hinv : r.Inv) (hinitial : r.receiveBuf.readable <+: stream pending)
    (htracks : Tracks taken arrived cs r) :
    Tracks taken (arrived ++ event.octets) (cs ++ completions obs) r' ∨
      ∃ frame pending', pending = frame :: pending' ∧
        Tracks (taken ++ [frame]) (arrived ++ event.octets) (cs ++ completions obs) r' := by
  cases hmove with
  | asyncReceive hidle => exact Or.inl (htracks.keep rfl (by simp) (by simp))
  | startRead hrunning hneeds hreadable hroom =>
      exact Or.inl (htracks.keep hreadable (by simp) (by simp))
  | incomplete hrunning hneeds hwhole header =>
      exact Or.inl (htracks.keep rfl htracks.defined htracks.inTime)
  | dispatch hrunning hneeds hwhole hdispatch =>
      rcases front_of_whole hinitial hwhole with
        ⟨frame, pending', rest, hpending, hfront, hheader⟩
      have hscan : Tracks taken arrived cs r.scan :=
        ⟨htracks.arrived_eq, htracks.completions_eq, htracks.defined, htracks.inTime⟩
      rcases tracks_dispatch hdispatch hscan hfront hheader with hstay | hnext
      · exact Or.inl hstay
      · rw [← List.append_nil arrived] at hnext
        exact Or.inr ⟨frame, pending', hpending, hnext⟩
  | resume hresume =>
      cases hresume with
      | readTimeoutAgain hread | readTimeout hread => exact absurd hquiet.1 (by simp)
      | readError hread hroom herror => exact absurd hquiet.1 herror
      | read hread hroom =>
          refine Or.inl ⟨?_, ?_, by simp, by simp⟩
          · rw [readable_commit hroom, htracks.arrived_eq, List.append_assoc]
            rfl
          · rw [htracks.completions_eq]
            exact List.append_nil _
      | unbindSent hsent => exact absurd hsent htracks.inTime
      | sendError hsent herror => exact absurd hquiet herror
      | enquireLinkSent hsent => exact Or.inl (htracks.keep rfl (by simp) (by simp))
      | enquireLinkRespSent hsent =>
          simp only [Inv, hsent] at hinv
          rcases front_of_whole hinitial hinv.whole with
            ⟨frame, pending', rest, hpending, hfront, hheader⟩
          rw [← hinv.header] at hheader
          have hid := hheader ▸ hinv.commandId
          have hnext := htracks.take hfront hheader { r.consume with stage := .running } rfl
            (by simp) (by simp)
          rw [Frame.completions_of_link (Or.inl hid), ← List.append_nil arrived] at hnext
          exact Or.inr ⟨frame, pending', hpending, hnext⟩
      | unbindRespSent hsent =>
          simp only [Inv, hsent] at hinv
          rcases front_of_whole hinitial hinv.whole with
            ⟨frame, pending', rest, hpending, hfront, hheader⟩
          rw [← hinv.header] at hheader
          have hid := hheader ▸ hinv.commandId
          have hnext := htracks.take hfront hheader r.consume.complete rfl (by simp [complete])
            (by simp [complete])
          rw [Frame.completions_of_ending (Or.inl hid), ← List.append_nil arrived] at hnext
          exact Or.inr ⟨frame, pending', hpending, hnext⟩
      | posted hpost hdeliver =>
          simp only [Inv, hpost] at hinv
          rcases front_of_whole hinitial hinv.whole with
            ⟨frame, pending', rest, hpending, hfront, hheader⟩
          have hnext := htracks.deliver hfront (hinv.header.trans hheader) hinv.commandId hdeliver
          rw [← List.append_nil arrived] at hnext
          exact Or.inr ⟨frame, pending', hpending, hnext⟩
      | cancel hsuspended => exact absurd hquiet id

/-- In a quiet run on a stream of frames the completions are those of the frames
taken from the buffer. -/
theorem tracks_of_run {es : List ReceiveEvent} (hrun : (machine N).Run QuietStep es obs r)
    (hreceived : received es <+: stream frames) :
    ∃ taken pending, frames = taken ++ pending ∧
      Tracks taken (received es) (completions obs) r := by
  induction hrun with
  | refl =>
      have hempty : (new N).receiveBuf.readable = [] := StaticFlatBuffer.readable_new
      exact ⟨[], frames, rfl, by simp [machine, hempty, stream], rfl, by simp [machine, new],
        by simp [machine, new]⟩
  | @snoc es os s s' e o before hstep hquiet ih =>
      rw [received_concat] at hreceived ⊢
      have harrived := (List.prefix_append (received es) e.octets).trans hreceived
      rcases ih harrived with ⟨taken, pending, rfl, htracks⟩
      have hinitial : s.receiveBuf.readable <+: stream pending := by
        rw [htracks.arrived_eq] at harrived
        simpa [stream] using harrived
      have hinv := inv_of_run before.anyStep
      rw [completions_append]
      rcases tracks_move (move_of_step hstep) hquiet hinv hinitial htracks with
        hstay | ⟨frame, pending', rfl, hnext⟩
      · exact ⟨taken, pending, rfl, hstay⟩
      · exact ⟨taken ++ [frame], pending', by simp, hnext⟩

/-- What receive operations have made of a stream of frames. -/
structure Parses (frames : List (Frame N)) (es : List ReceiveEvent) (os : List ReceiveObs)
    (s : Receiver N) : Prop where
  /-- The completions are, in order, those of the first frames, all of which have arrived. -/
  sound : ∃ taken pending, frames = taken ++ pending ∧ stream taken <+: received es ∧
    untilUnbind (completions os) = expected taken
  /-- While an operation waits for octets, no frame that has arrived is missing. -/
  complete : s.stage = .suspended .read → ∀ arrived, arrived <+: frames →
    stream arrived <+: received es → expected arrived <+: untilUnbind (completions os)
  /-- Every operation has completed once, but for the one that is under way. -/
  once : (completions os).length + (if s.stage = .idle then 0 else 1) = es.count .asyncReceive
  /-- An operation that does not wait for octets ends or comes to wait for them by itself. -/
  settles : s.SettlesWithin (2 * (s.receiveBuf.size / headerLength) + 3)
  defined : s.stage ≠ .undefined
  reads : ∀ o ∈ os, NonemptyRead o
  pauses : s.stage = .running → s.PausesWithin (s.receiveBuf.size / headerLength + 2)

/-- However a stream of frames is cut, successive receive operations complete with what the
specification says, one completion for each operation and each frame that is handed to the
caller, up to the first {lit}`unbind` or {lit}`unbind_resp`. -/
theorem completions_of_stream (frames : List (Frame receiveCapacity))
    (es : List ReceiveEvent) (os : List ReceiveObs) (s : Receiver receiveCapacity)
    (hrun : (machine receiveCapacity).Run QuietStep es os s)
    (hreceived : received es <+: stream frames) : Parses frames es os s := by
  rcases announces_of_stream hreceived with ⟨hcovers, hfits⟩
  rcases aligned_of_run hrun.anyStep with ⟨hinv, haligned⟩
  rcases tracks_of_run hrun hreceived with ⟨taken, pending, rfl, htracks⟩
  have hcompletions : untilUnbind (completions os) = expected taken := by
    rw [htracks.completions_eq, untilUnbind_flatMap]
  have hsettles := settles_of_covers hcovers hinv haligned htracks.defined
  refine
    { sound := ⟨taken, pending, rfl, htracks.arrived_eq ▸ List.prefix_append _ _, hcompletions⟩
      complete := ?_
      once := completions_of_run hrun
      settles := hsettles.mono s.work_le
      defined := htracks.defined
      reads := nonemptyRead_of_run (by decide) hrun.anyStep hfits
      pauses := fun hstage => pausesWithin_of_covers hcovers hstage hinv haligned }
  intro hstage arrived harrived hlength
  have hpending : s.receiveBuf.readable <+: stream pending := by
    rw [htracks.arrived_eq] at hreceived
    simpa [stream] using hreceived
  simp only [Inv, hstage] at hinv
  rw [htracks.arrived_eq] at hlength
  have htaken : arrived.map Frame.octets <+: taken.map Frame.octets :=
    Framing.prefix_of_incomplete (isFrame_of_mem) hpending hinv.2.1
      (by simpa using harrived.map Frame.octets) hlength
  have hcount : arrived.length ≤ taken.length := by simpa using htaken.length_le
  rw [hcompletions]
  exact expected_mono (List.prefix_of_prefix_length_le harrived (List.prefix_append _ _) hcount)

/-- A frame of seventeen octets that arrives in two pieces, cut inside its header, is delivered
by one operation. -/
theorem completions_of_stream_submitSmResp :
    ∃ (frame : Frame receiveCapacity) (es : List ReceiveEvent) (os : List ReceiveObs)
      (s : Receiver receiveCapacity),
      frame.octets = encodeHeader ⟨17, .submitSmResp, .rok, 1⟩ ++ [0] ∧
      (machine receiveCapacity).Run QuietStep es os s ∧ received es = stream [frame] ∧
      es.count .asyncReceive = 1 ∧ s.stage = .idle ∧
      completions os =
        [{ ec := .success
           pdu := .pdu .submitSmResp {}
           sequenceNumber := 1
           commandStatus := .rok }] ∧
      Parses [frame] es os s := by
  obtain ⟨frame, hframe⟩ : ∃ frame : Frame receiveCapacity,
      frame.octets = encodeHeader ⟨17, .submitSmResp, .rok, 1⟩ ++ [0] :=
    ⟨⟨_, ⟨by decide, by decide⟩, by decide⟩, rfl⟩
  have hstream : stream [frame] = encodeHeader ⟨17, .submitSmResp, .rok, 1⟩ ++ [0] := by
    simp [stream, hframe]
  obtain ⟨r, hrun, hstage, _, hneeds, hreadable⟩ := run_firstRead (N := receiveCapacity)
    ((encodeHeader ⟨17, .submitSmResp, .rok, 1⟩).take 10) (by decide)
  have hwhole : ¬ r.Whole := by
    rw [Whole, hreadable]
    exact fun hwhole => absurd hwhole.1 (by decide)
  have hsize : r.receiveBuf.size = 10 := by
    rw [← StaticFlatBuffer.length_readable, hreadable]
    rfl
  rcases steps_startRead hstage hneeds hwhole with
    ⟨r', hread, hstage', hpost', hneeds', hreadable', hroom⟩
  rw [hsize] at hroom
  obtain ⟨rest, hrest⟩ : ∃ rest : Octets,
      rest = (encodeHeader ⟨17, .submitSmResp, .rok, 1⟩).drop 10 ++ [0] := ⟨_, rfl⟩
  have hfits : rest.length ≤ r'.receiveBuf.room := by
    rw [hroom, hrest]
    decide
  have hlast := steps_readDone hstage' rest hfits
  have hfront : (r'.commit rest).receiveBuf.readable =
      encodeHeader ⟨17, .submitSmResp, .rok, 1⟩ ++ [0] := by
    rw [readable_commit hfits, hreadable', hreadable, hrest]
    rfl
  have hwhole' : commandFraming.IsFrame (encodeHeader ⟨17, .submitSmResp, .rok, 1⟩ ++ [0]) :=
    ⟨by decide, by decide⟩
  -- the pass behind the second read delivers the frame
  rcases iterate_of_frame (r := { r'.commit rest with stage := .running }) hwhole'
    (by decide) rfl (by rw [← hpost']; unfold commit; split <;> rfl)
    (by rw [needsMore_commit, hneeds']) hfront with ⟨hidle, hcompletions⟩
  have hwholeRun := ((hrun.trans hread).trans hlast).trans (.single (step_iterate rfl) trivial)
  have hquiet : (machine receiveCapacity).Run QuietStep _ _ _ :=
    hwholeRun.restrict fun e hmem _ _ => by
      subst hrest
      exact (by decide : ∀ e ∈ _, Quiet e) e hmem
  refine ⟨frame, _, _, _, hframe, hquiet, ?received, ?once, hidle, ?completions,
    completions_of_stream [frame] _ _ _ hquiet ?arrived⟩
  case received =>
    rw [hstream, hrest]
    rfl
  case once =>
    rw [hrest]
    rfl
  case completions =>
    rw [completions_append, hcompletions]
    rfl
  case arrived =>
    rw [hstream, hrest]
    exact List.prefix_refl _

end Receiver

end Smpp
