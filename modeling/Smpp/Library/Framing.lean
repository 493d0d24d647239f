import Mathlib.Data.List.Basic
import Mathlib.Tactic.Common

/-!
# Length-announced framing

A stream is cut into frames by an announcement in the first elements of each
frame.  Nothing is assumed about the announced numbers: a frame may announce more
than will ever arrive, or less than its own header.

Main results:

- Theorem {lit}`Boundary.append`: a frame boundary of a prefix is a frame boundary of
  the longer stream, so that a reader may act on what it has got so far.
- Theorem {lit}`Announces.of_append`: what holds of every announcement of a stream held
  when less of it had arrived.
- Theorem {lit}`announces_flatten`: a stream of well-formed frames announces their
  lengths only.
- Theorem {lit}`Counted.hop`: a reader that takes frames one by one from a growing stream
  has taken as many of each kind as it has passed.
- Theorem {lit}`Passed.eq_of_incomplete`: two readers of one stream that both wait for the
  frame at their front to be completed have taken the same frames.
- Theorem {lit}`prefix_of_incomplete`: while the frame at the front is incomplete,
  the frames that have arrived in full are those already taken.
- Theorem {lit}`Passed.of_flatten`: what is taken off a stream of frames, as far as it has
  arrived, are its first frames.
-/

/-- How frames announce their length.  The announcement depends on the first
{lit}`headerLength` elements only. -/
structure Framing (β : Type) where
  headerLength : Nat
  announce : List β → Nat
  announce_append : ∀ xs ys, headerLength ≤ xs.length → announce (xs ++ ys) = announce xs

namespace Framing

variable {β : Type} {F : Framing β} {stream rest more : List β}

/-- {lit}`F.Boundary stream rest`: skipping frames from the start of the stream as they
announce themselves can leave {lit}`rest`. -/
inductive Boundary (F : Framing β) (stream : List β) : List β → Prop
  | start : Boundary F stream stream
  | hop {rest : List β} (before : Boundary F stream rest)
      (hheader : F.headerLength ≤ rest.length) (hwhole : F.announce rest ≤ rest.length) :
      Boundary F stream (rest.drop (F.announce rest))

/-- A longer stream keeps the boundaries of its prefixes. -/
theorem Boundary.append (hboundary : F.Boundary stream rest) (more : List β) :
    F.Boundary (stream ++ more) (rest ++ more) := by
  induction hboundary with
  | start => exact .start
  | hop before hheader hwhole ih =>
      have hsame := F.announce_append _ more hheader
      have hnext := ih.hop (by rw [List.length_append]; omega)
        (by rw [hsame, List.length_append]; omega)
      rwa [hsame, List.drop_append_of_le_length hwhole] at hnext

/-- Every header at a frame boundary of the stream announces a length with {lit}`P`. -/
def Announces (F : Framing β) (stream : List β) (P : Nat → Prop) : Prop :=
  ∀ rest, F.Boundary stream rest → F.headerLength ≤ rest.length → P (F.announce rest)

/-- What holds of all announcements of a stream holds of those of its prefixes. -/
theorem Announces.of_append {P : Nat → Prop} (more : List β)
    (hannounces : F.Announces (stream ++ more) P) :
    F.Announces stream P := by
  intro rest hboundary hheader
  rw [← F.announce_append rest more hheader]
  refine hannounces _ (hboundary.append more) ?_
  rw [List.length_append]
  omega

/-- The front of the stream is a header whose announced frame has arrived. -/
def Whole (F : Framing β) (rest : List β) : Prop :=
  F.headerLength ≤ rest.length ∧ F.announce rest ≤ rest.length

/-! ## Counting frames -/

instance : Decidable (F.Whole rest) :=
  inferInstanceAs (Decidable (_ ∧ _))

/-- The number of frames with {lit}`p` that have arrived, up to the first one that
announces nothing. -/
def count (F : Framing β) (p : List β → Bool) (stream : List β) : Nat :=
  if F.Whole stream ∧ 0 < F.announce stream then
    (if p stream then 1 else 0) + F.count p (stream.drop (F.announce stream))
  else 0
termination_by stream.length
decreasing_by
  rename_i harrived
  have hwhole := harrived.1.2
  rw [List.length_drop]
  omega

theorem count_of_whole {p : List β → Bool} (hwhole : F.Whole stream)
    (hpos : 0 < F.announce stream) :
    F.count p stream =
      (if p stream then 1 else 0) + F.count p (stream.drop (F.announce stream)) := by
  rw [count, if_pos ⟨hwhole, hpos⟩]

/-- Whatever arrives, {lit}`k` frames with {lit}`p` lie in front of {lit}`rest`. -/
def Counted (F : Framing β) (p : List β → Bool) (stream rest : List β) (k : Nat) : Prop :=
  ∀ more, F.count p (stream ++ more) = k + F.count p (rest ++ more)

theorem Counted.start (p : List β → Bool) (stream : List β) : F.Counted p stream stream 0 :=
  fun _ => (Nat.zero_add _).symm

theorem Counted.append {p : List β → Bool} {k : Nat} (hcounted : F.Counted p stream rest k)
    (more : List β) : F.Counted p (stream ++ more) (rest ++ more) k := by
  intro more'
  rw [List.append_assoc, List.append_assoc, hcounted]

/-- Taking a frame counts it; a frame that announces nothing must not be counted. -/
theorem Counted.hop {p : List β → Bool} {k : Nat} (hcounted : F.Counted p stream rest k)
    (hlocal : ∀ more, p (rest ++ more) = p rest) (hwhole : F.Whole rest)
    (hpos : p rest = true → 0 < F.announce rest) :
    F.Counted p stream (rest.drop (F.announce rest)) (k + if p rest then 1 else 0) := by
  intro more
  rw [hcounted]
  rcases Nat.eq_zero_or_pos (F.announce rest) with hzero | hlong
  · have hnot : p rest = false := by
      rw [← Bool.not_eq_true]
      exact fun hp => by have := hpos hp; omega
    simp [hzero, hnot]
  · have hsame := F.announce_append rest more hwhole.1
    have harrived : F.Whole (rest ++ more) := by
      have hheader := hwhole.1
      have harrived := hwhole.2
      refine ⟨?_, ?_⟩ <;> rw [List.length_append] <;> omega
    rw [count_of_whole harrived (by omega), hlocal, hsame,
      List.drop_append_of_le_length hwhole.2, Nat.add_assoc]

/-! ## Taking frames off a stream -/

variable {α : Type} {label : List β → List α} {cs cs' : List α} {rest' : List β}

/-- {lit}`F.Passed label stream cs rest`: whole frames are taken off the front of the stream one
by one until {lit}`rest` is left, and their labels are {lit}`cs`. -/
inductive Passed (F : Framing β) (label : List β → List α) (stream : List β) :
    List α → List β → Prop
  | start : Passed F label stream [] stream
  | hop {cs : List α} {rest : List β} (before : Passed F label stream cs rest)
      (hwhole : F.Whole rest) :
      Passed F label stream (cs ++ label rest) (rest.drop (F.announce rest))

/-- More of the stream leaves a whole frame as it is. -/
theorem Whole.append (hwhole : F.Whole rest) (more : List β) :
    F.Whole (rest ++ more) ∧ F.announce (rest ++ more) = F.announce rest := by
  have hsame := F.announce_append rest more hwhole.1
  have hheader := hwhole.1
  have harrived := hwhole.2
  refine ⟨⟨?_, ?_⟩, hsame⟩ <;> rw [List.length_append] <;> omega

/-- What was taken off a stream is taken off the longer one as well. -/
theorem Passed.append (hlocal : ∀ rest more, F.Whole rest → label (rest ++ more) = label rest)
    (hpassed : F.Passed label stream cs rest) (more : List β) :
    F.Passed label (stream ++ more) cs (rest ++ more) := by
  induction hpassed with
  | start => exact .start
  | @hop cs rest before hwhole ih =>
      rcases hwhole.append more with ⟨hwhole', hsame⟩
      have hnext := ih.hop hwhole'
      rwa [hlocal rest more hwhole, hsame, List.drop_append_of_le_length hwhole.2] at hnext

/-- The first frame that is taken, if any is. -/
theorem Passed.cases_head (hpassed : F.Passed label stream cs rest) :
    cs = [] ∧ rest = stream ∨ F.Whole stream ∧
      ∃ cs', cs = label stream ++ cs' ∧
        F.Passed label (stream.drop (F.announce stream)) cs' rest := by
  induction hpassed with
  | start => exact Or.inl ⟨rfl, rfl⟩
  | @hop cs rest before hwhole ih =>
      rcases ih with ⟨rfl, rfl⟩ | ⟨hfirst, cs', rfl, hrest⟩
      · exact Or.inr ⟨hwhole, [], by simp, .start⟩
      · exact Or.inr ⟨hfirst, cs' ++ label rest, by simp, hrest.hop hwhole⟩

/-- Of two readers of one stream one goes on where the other is. -/
theorem Passed.comparable (hpassed : F.Passed label stream cs rest)
    (hpassed' : F.Passed label stream cs' rest') :
    (∃ ds, cs' = cs ++ ds ∧ F.Passed label rest ds rest') ∨
      ∃ ds, cs = cs' ++ ds ∧ F.Passed label rest' ds rest := by
  induction hpassed with
  | start => exact Or.inl ⟨cs', rfl, hpassed'⟩
  | @hop cs rest before hwhole ih =>
      rcases ih with ⟨ds, rfl, hgoes⟩ | ⟨ds, rfl, hgoes⟩
      · rcases hgoes.cases_head with ⟨rfl, rfl⟩ | ⟨_, ds', rfl, hnext⟩
        · exact Or.inr ⟨label rest', by simp, by simpa using Passed.start.hop hwhole⟩
        · exact Or.inl ⟨ds', by simp, hnext⟩
      · exact Or.inr ⟨ds ++ label rest, by simp, hgoes.hop hwhole⟩

/-- The labels are the same up to where the shorter list ends. -/
theorem Passed.prefix_or_prefix (hpassed : F.Passed label stream cs rest)
    (hpassed' : F.Passed label stream cs' rest') : cs <+: cs' ∨ cs' <+: cs := by
  rcases hpassed.comparable hpassed' with ⟨ds, rfl, _⟩ | ⟨ds, rfl, _⟩
  · exact Or.inl (List.prefix_append cs ds)
  · exact Or.inr (List.prefix_append cs' ds)

/-- A reader that waits for its front to be completed can take nothing. -/
theorem Passed.eq_of_not_whole (hpassed : F.Passed label stream cs rest)
    (hincomplete : ¬ F.Whole stream) : cs = [] ∧ rest = stream := by
  rcases hpassed.cases_head with hnone | ⟨hwhole, _⟩
  · exact hnone
  · exact absurd hwhole hincomplete

/-- Two readers that both wait have taken the same frames. -/
theorem Passed.eq_of_incomplete (hpassed : F.Passed label stream cs rest)
    (hpassed' : F.Passed label stream cs' rest') (hincomplete : ¬ F.Whole rest)
    (hincomplete' : ¬ F.Whole rest') : cs = cs' ∧ rest = rest' := by
  rcases hpassed.comparable hpassed' with ⟨ds, rfl, hgoes⟩ | ⟨ds, rfl, hgoes⟩
  · rcases hgoes.eq_of_not_whole hincomplete with ⟨rfl, rfl⟩
    simp
  · rcases hgoes.eq_of_not_whole hincomplete' with ⟨rfl, rfl⟩
    simp

/-! ## Well-formed frames -/

/-- A frame that holds its header and announces its own length. -/
structure IsFrame (F : Framing β) (frame : List β) : Prop where
  header : F.headerLength ≤ frame.length
  announced : F.announce frame = frame.length

/-- A frame announces its length whatever follows it. -/
theorem IsFrame.announce_append {frame : List β} (hframe : F.IsFrame frame)
    (more : List β) : F.announce (frame ++ more) = frame.length := by
  rw [F.announce_append _ _ hframe.header, hframe.announced]

/-- A frame at the front of a stream is whole. -/
theorem IsFrame.whole {frame : List β} (hframe : F.IsFrame frame) (more : List β) :
    F.Whole (frame ++ more) := by
  have hheader := hframe.header
  refine ⟨by rw [List.length_append]; omega, ?_⟩
  rw [hframe.announce_append, List.length_append]
  omega

/-- What has arrived of a stream that starts with a frame is whole exactly when the
frame has arrived. -/
theorem IsFrame.whole_iff {frame : List β} (hframe : F.IsFrame frame) (tail : List β)
    (hinitial : rest <+: frame ++ tail) : F.Whole rest ↔ frame <+: rest := by
  have hheader := hframe.header
  constructor
  · rintro ⟨harrived, hwhole⟩
    have hannounce : F.announce rest = frame.length := by
      rcases hinitial with ⟨more, hmore⟩
      rw [← F.announce_append rest more harrived, hmore, hframe.announce_append]
    exact List.prefix_of_prefix_length_le (List.prefix_append frame tail) hinitial (by omega)
  · rintro ⟨more, rfl⟩
    exact hframe.whole more

/-- A stream of frames announces the lengths of its frames and nothing else. -/
theorem announces_flatten {P : Nat → Prop} {frames : List (List β)}
    (hpos : 0 < F.headerLength) (hframes : ∀ frame ∈ frames, F.IsFrame frame)
    (hlengths : ∀ frame ∈ frames, P frame.length) : F.Announces frames.flatten P := by
  have hcut : ∀ rest, F.Boundary frames.flatten rest →
      ∃ pending : List (List β), rest = pending.flatten ∧ ∀ frame ∈ pending, frame ∈ frames := by
    intro rest hboundary
    induction hboundary with
    | start => exact ⟨frames, rfl, fun _ hmem => hmem⟩
    | hop before hheader hwhole ih =>
        rcases ih with ⟨pending, rfl, hmem⟩
        cases pending with
        | nil => simp at hheader; omega
        | cons frame pending =>
            have hframe := hframes frame (hmem frame (by simp))
            refine ⟨pending, ?_, fun f hf => hmem f (by simp [hf])⟩
            rw [List.flatten_cons, hframe.announce_append, List.drop_left]
  intro rest hboundary hheader
  rcases hcut rest hboundary with ⟨pending, rfl, hmem⟩
  cases pending with
  | nil => simp at hheader; omega
  | cons frame pending =>
      have hframe := hframes frame (hmem frame (by simp))
      rw [List.flatten_cons, hframe.announce_append]
      exact hlengths frame (hmem frame (by simp))

/-- While the frame at the front is incomplete, the frames that have arrived in full
are those already taken. -/
theorem prefix_of_incomplete {taken pending arrived : List (List β)}
    (hframes : ∀ frame ∈ pending, F.IsFrame frame) (hinitial : rest <+: pending.flatten)
    (hincomplete : ¬ F.Whole rest)
    (harrived : arrived <+: taken ++ pending)
    (hlength : arrived.flatten <+: taken.flatten ++ rest) : arrived <+: taken := by
  rcases List.prefix_or_prefix_of_prefix harrived (List.prefix_append taken pending) with
    hle | ⟨extra, rfl⟩
  · exact hle
  · cases extra with
    | nil => simp
    | cons frame extra =>
        exfalso
        rw [List.prefix_append_right_inj] at harrived
        rcases harrived with ⟨pending', rfl⟩
        have hframe := hframes frame (by simp)
        apply hincomplete
        rw [hframe.whole_iff (extra ++ pending').flatten (by simpa using hinitial)]
        rw [List.flatten_append, List.prefix_append_right_inj] at hlength
        rcases hlength with ⟨more, hmore⟩
        exact ⟨extra.flatten ++ more, by simpa using hmore⟩

/-! ## Frames taken off a stream of frames -/

/-- A reader waits at the end of a stream of frames, or the frame at its front arrives. -/
theorem exists_front_of_whole {pending : List (List β)} (hpos : 0 < F.headerLength)
    (hframes : ∀ frame ∈ pending, F.IsFrame frame) (hinitial : rest <+: pending.flatten)
    (hwhole : F.Whole rest) :
    ∃ frame pending' more, pending = frame :: pending' ∧ rest = frame ++ more := by
  cases pending with
  | nil =>
      have hheader := hwhole.1
      rw [List.prefix_nil.mp hinitial, List.length_nil] at hheader
      omega
  | cons frame pending' =>
      rw [List.flatten_cons] at hinitial
      have hfront := ((hframes frame (by simp)).whole_iff pending'.flatten hinitial).mp hwhole
      rcases hfront with ⟨more, hmore⟩
      exact ⟨frame, pending', more, rfl, hmore.symm⟩

/-- Whatever has arrived of a stream of frames, what is taken off it are its first frames. -/
theorem Passed.of_flatten {frames : List (List β)} (hpos : 0 < F.headerLength)
    (hframes : ∀ frame ∈ frames, F.IsFrame frame)
    (hlocal : ∀ rest more, F.Whole rest → label (rest ++ more) = label rest)
    (hinitial : stream <+: frames.flatten) (hpassed : F.Passed label stream cs rest) :
    ∃ taken pending, frames = taken ++ pending ∧ cs = taken.flatMap label ∧
      stream = taken.flatten ++ rest := by
  induction hpassed with
  | start => exact ⟨[], frames, rfl, rfl, rfl⟩
  | @hop cs rest before hwhole ih =>
      rcases ih with ⟨taken, pending, rfl, rfl, rfl⟩
      rw [List.flatten_append, List.prefix_append_right_inj] at hinitial
      rcases exists_front_of_whole hpos (fun f hf => hframes f (List.mem_append_right _ hf))
        hinitial hwhole with ⟨frame, pending', more, rfl, rfl⟩
      have hframe : F.IsFrame frame := hframes frame (by simp)
      have hlabel : label (frame ++ more) = label frame := by
        refine hlocal frame more ?_
        simpa using hframe.whole []
      refine ⟨taken ++ [frame], pending', by simp, by simp [hlabel], ?_⟩
      rw [hframe.announce_append, List.drop_left]
      simp

/-- A reader that waits at the end of a stream of frames has taken them all. -/
theorem eq_nil_of_incomplete {taken pending : List (List β)}
    (hframes : ∀ frame ∈ pending, F.IsFrame frame)
    (harrived : (taken ++ pending).flatten = taken.flatten ++ rest)
    (hincomplete : ¬ F.Whole rest) : pending = [] := by
  rw [List.flatten_append, List.append_cancel_left_eq] at harrived
  cases pending with
  | nil => rfl
  | cons frame pending' =>
      refine absurd ?_ hincomplete
      rw [← harrived, List.flatten_cons]
      exact (hframes frame (by simp)).whole _

/-- Of a stream of frames no more frames with {lit}`p` arrive than it consists of. -/
theorem count_le_countP {p : List β → Bool} (hpos : 0 < F.headerLength)
    (hlocal : ∀ rest more, F.Whole rest → p (rest ++ more) = p rest)
    {frames : List (List β)} (hframes : ∀ frame ∈ frames, F.IsFrame frame)
    (hinitial : stream <+: frames.flatten) : F.count p stream ≤ frames.countP p := by
  induction frames generalizing stream with
  | nil =>
      have hnot : ¬ (F.Whole stream ∧ 0 < F.announce stream) := by
        rintro ⟨hwhole, _⟩
        obtain ⟨_, _, _, hnone, _⟩ := exists_front_of_whole hpos hframes hinitial hwhole
        cases hnone
      rw [count, if_neg hnot]
      exact Nat.zero_le _
  | cons frame frames ih =>
      by_cases hwhole : F.Whole stream
      · obtain ⟨_, _, more, hcons, rfl⟩ := exists_front_of_whole hpos hframes hinitial hwhole
        cases hcons
        have hframe : F.IsFrame frame := hframes frame (by simp)
        have hheader := hframe.header
        have hlabel : p (frame ++ more) = p frame := hlocal frame more (by
          simpa using hframe.whole [])
        rw [List.flatten_cons, List.prefix_append_right_inj] at hinitial
        have hrest := ih (fun f hf => hframes f (List.mem_cons_of_mem _ hf)) hinitial
        rw [count_of_whole hwhole (by rw [hframe.announce_append]; omega), hlabel,
          hframe.announce_append, List.drop_left, List.countP_cons]
        omega
      · rw [count, if_neg fun harrived => hwhole harrived.1]
        exact Nat.zero_le _

end Framing
