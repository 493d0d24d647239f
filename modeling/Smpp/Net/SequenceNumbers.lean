import Smpp.Library.History
import Smpp.Net.SendWrites
import Smpp.Net.Session

/-!
# Sequence numbers

The numbers that {lit}`next_sequence_number` hands out, who gets them, and what becomes of
them.  A ledger lists the operations in the order in which they were given a number.

Main results:

- Theorem {lit}`Sender.counter_of_run`: the numbers count up to {lit}`0x7FFFFFFF` and start again
  at one.
- Theorem {lit}`Sender.ledger_of_run`: no operation is given two numbers, every request frame
  carries the number of its own operation, and an operation that could not serialize its
  PDU is given none.
- Theorem {lit}`Sender.reported_of_run`: the number a successful {lit}`async_send` reports is the
  one in its frame.
- Theorem {lit}`Session.requestNumbers_of_run`: all of this for every run of a session.
-/

namespace Smpp

namespace Sender

variable {s s' : Sender} {id : Nat} {op : SendOp} {event : SendEvent} {obs os : List SendObs}
variable {es : List SendEvent} {R : Sender → SendEvent → Sender → Prop}

/-! ## The counter -/

/-- The numbers handed out, in order. -/
def allocated (os : List SendObs) : List UInt32 :=
  os.filterMap fun
    | .allocated n => some n
    | .writeStarted _ _ | .writeDone _ _ _ | .completed _ _ _ _ => none

@[simp]
theorem allocated_append (os os' : List SendObs) :
    allocated (os ++ os') = allocated os ++ allocated os' :=
  List.filterMap_append

/-- The {lit}`k`-th number, counted from zero. -/
def numberAt (k : Nat) : Nat :=
  k % (2 ^ 31 - 1) + 1

/-- The counter after {lit}`k` allocations. -/
def counterAfter : Nat → Nat
  | 0 => 0
  | k + 1 => numberAt k

/-- Counting up and starting again goes through the numbers in turn. -/
theorem toNat_nextSequenceNumber {n : UInt32} {k : Nat} (hcounter : n.toNat = counterAfter k) :
    (nextSequenceNumber n).toNat = numberAt k := by
  have hsmall : n.toNat < 2 ^ 31 := by
    rw [hcounter]
    cases k with
    | zero => decide
    | succ k =>
        rw [counterAfter, numberAt]
        omega
  have hsucc : (n + 1).toNat = n.toNat + 1 := by
    rw [UInt32.toNat_add, UInt32.toNat_one]
    omega
  unfold nextSequenceNumber
  split
  · rename_i hmax
    have hmax : 0x7FFFFFFF < (n + 1).toNat := UInt32.lt_iff_toNat_lt.mp hmax
    rw [hsucc, hcounter] at hmax
    cases k with
    | zero => simp [counterAfter] at hmax
    | succ k =>
        simp only [counterAfter, numberAt] at hmax ⊢
        change 1 = _
        omega
  · rename_i hmax
    have hmax : ¬0x7FFFFFFF < (n + 1).toNat := fun hlt => hmax (UInt32.lt_iff_toNat_lt.mpr hlt)
    rw [hsucc, hcounter] at hmax
    rw [hsucc, hcounter]
    cases k with
    | zero => rfl
    | succ k =>
        simp only [counterAfter, numberAt] at hmax ⊢
        omega

/-- What a step does to the counter: nothing, or it hands out the next number, to the
operation the event is about. -/
inductive Numbering (s : Sender) (event : SendEvent) (s' : Sender) (obs : List SendObs) : Prop
  | keep (hnone : allocated obs = []) (hcounter : s'.sequenceNumber = s.sequenceNumber)
      (hcall : ∀ id commandId, event ≠ .callNext id commandId)
  | next (hone : allocated obs = [nextSequenceNumber s.sequenceNumber])
      (hcounter : s'.sequenceNumber = nextSequenceNumber s.sequenceNumber)

theorem numbering_move (hmove : Move s event s' obs) (hinv : s.Inv) :
    Numbering s event s' obs := by
  cases hmove with
  | call hfresh kind => exact .keep rfl rfl (by simp)
  | callNext hfresh commandId => exact .next rfl rfl
  | giveUp hop hphase hcancelled => exact .keep rfl rfl (by simp)
  | timeOut hop hphase htimeout => exact .keep rfl rfl (by simp)
  | cancelWait hop hphase hadmitted => exact .keep rfl rfl (by simp)
  | cancel hop hphase hrefused => exact .keep rfl rfl (by simp)
  | written hop hphase htimeout =>
      refine .keep rfl ?_ (by simp)
      rcases hinv.cancelOne_cases [] with ⟨_, hsame⟩ | ⟨i, rest, op', _, _, _, hsame⟩
      · rw [hsame]
        rfl
      · rw [hsame]
        rfl
  | enter hready henter =>
      have hcall : ∀ id commandId, event ≠ .callNext id commandId := by
        rintro id commandId rfl
        cases hready
      cases henter with
      | wait hbusy => exact .keep rfl rfl hcall
      | fail hfree hfill => exact .keep rfl rfl hcall
      | write hfree hfill hnumber =>
          rcases number_cases hnumber with ⟨_, hsame, rfl⟩ | ⟨_, rfl, rfl, rfl⟩
          · exact .keep rfl hsame hcall
          · exact .next rfl rfl

/-- The numbers handed out so far and the counter. -/
def Counted (s : Sender) (os : List SendObs) : Prop :=
  s.sequenceNumber.toNat = counterAfter (allocated os).length ∧
    ∀ k n, (allocated os)[k]? = some n → n.toNat = numberAt k

theorem counted_move (hmove : Move s event s' obs) (hinv : s.Inv) (hcounted : Counted s os) :
    Counted s' (os ++ obs) := by
  rcases hcounted with ⟨hcounter, hnumbers⟩
  cases numbering_move hmove hinv with
  | keep hnone hsame hcall =>
      rw [Counted, allocated_append, hnone, List.append_nil, hsame]
      exact ⟨hcounter, hnumbers⟩
  | next hone hnext =>
      have hvalue := toNat_nextSequenceNumber hcounter
      rw [Counted, allocated_append, hone, hnext, List.length_append]
      refine ⟨hvalue, ?_⟩
      intro k n hget
      rcases Nat.lt_trichotomy k (allocated os).length with hlt | heq | hgt
      · rw [List.getElem?_append_left hlt] at hget
        exact hnumbers k n hget
      · subst heq
        rw [List.getElem?_append_right (Nat.le_refl _), Nat.sub_self] at hget
        cases hget
        exact hvalue
      · rw [List.getElem?_eq_none (by simp; omega)] at hget
        cases hget

/-- The numbers count up and start again at one. -/
theorem counter_of_run (hrun : machine.Run R es os s) : Counted s os := by
  induction hrun with
  | refl => exact ⟨rfl, fun k n hget => by simp [allocated] at hget⟩
  | snoc before hstep _ ih =>
      exact counted_move (move_of_step hstep) (inv_of_run before.anyStep) ih

/-! ## Operations that have completed or write -/

/-- An operation that has completed is done. -/
theorem done_of_completed (hrun : machine.Run R es os s) {exit : SendExit} {ec : ErrorCode}
    {n : UInt32} (hcompleted : .completed id exit ec n ∈ os) : s.phase id = some .done := by
  induction hrun with
  | refl => cases hcompleted
  | snoc before hstep _ ih =>
      have hmove := move_of_step hstep
      rcases List.mem_append.mp hcompleted with hbefore | hnow
      · exact done_move hmove (inv_of_run before.anyStep) (ih hbefore)
      · exact ((completed_iff hmove id).mp ⟨exit, ec, n, hnow⟩).2

/-- A write that is outstanding was started. -/
theorem started_of_writing (hrun : machine.Run R es os s) {frame : Octets}
    (hwriting : s.Writing id frame) : .writeStarted id frame ∈ os := by
  induction hrun with
  | refl => simp [machine, Writing, phase] at hwriting
  | snoc before hstep _ ih =>
      have hinv := inv_of_run before.anyStep
      cases writes_move (move_of_step hstep) hinv with
      | idle hsilent hsame =>
          exact List.mem_append_left _ (ih ((hsame id frame).mp hwriting))
      | start hsilent hfree hnew =>
          have hinv' := inv_move (move_of_step hstep) hinv
          have hid := hinv'.alone _ _ _ _ hwriting hnew
          subst hid
          have hframe := (hinv'.sendBuf_eq hwriting).1.symm.trans (hinv'.sendBuf_eq hnew).1
          subst hframe
          simp
      | finish hold hfree => exact absurd hwriting (hfree id frame)

/-- What a step shows when the write of a request ends well. -/
theorem reported_move (hmove : Move s event s' obs) (hinv : s.Inv) {exit : SendExit}
    {n : UInt32} (hcompleted : .completed id exit .success n ∈ obs) {op' : SendOp}
    (hop' : s'.ops id = some op') (hrequest : op'.kind.givenNumber = none) :
    ∃ frame, s.Writing id frame ∧ .writeDone id frame .success ∈ obs ∧
      n = (deserializeHeader frame).sequenceNumber := by
  cases hmove with
  | @written id' op frame ec hop hphase htimeout =>
      simp only [List.mem_cons, reduceCtorEq, SendObs.completed.injEq, List.not_mem_nil, or_false,
        false_or] at hcompleted
      rcases hcompleted with ⟨rfl, rfl, rfl, rfl⟩
      rw [ops_put_self] at hop'
      cases hop'
      have hframe := (hinv.owned id op frame hop hphase).2.frameOf
      refine ⟨frame, by rw [Writing, phase_of_ops hop, hphase], List.mem_cons_self, ?_⟩
      rw [hframe.header]
      cases hkind : op.kind with
      | request => simp only [resultNumber, hkind]
      | command | response => simp [hkind, SendKind.givenNumber] at hrequest
  | enter hready henter =>
      cases henter with
      | wait hbusy => cases hcompleted
      | fail hfree hfill => simp at hcompleted
      | write hfree hfill hnumber =>
          rcases number_obs hnumber with rfl | ⟨m, rfl⟩ <;> simp at hcompleted
  | call | callNext | giveUp | timeOut | cancelWait | cancel => simp at hcompleted

/-- The number a successful {lit}`async_send` of a request reports is the one in the header of
the frame it wrote. -/
theorem reported_of_run (hrun : machine.Run R es os s) (hop : s.ops id = some op)
    (hrequest : op.kind.givenNumber = none) {exit : SendExit} {n : UInt32}
    (hcompleted : .completed id exit .success n ∈ os) :
    ∃ frame, .writeStarted id frame ∈ os ∧ .writeDone id frame .success ∈ os ∧
      n = (deserializeHeader frame).sequenceNumber := by
  induction hrun generalizing op with
  | refl => cases hcompleted
  | snoc before hstep _ ih =>
      have hmove := move_of_step hstep
      have hinv := inv_of_run before.anyStep
      rcases List.mem_append.mp hcompleted with hbefore | hnow
      · have hdone := done_of_completed before hbefore
        rcases kind_move hmove hinv hop with ⟨op₀, hop₀, hkind⟩ | ⟨_, hfresh, _⟩
        · rcases ih hop₀ (hkind ▸ hrequest) hbefore with ⟨frame, hstarted, hwritten, hnumber⟩
          exact ⟨frame, List.mem_append_left _ hstarted, List.mem_append_left _ hwritten, hnumber⟩
        · simp [phase, hfresh] at hdone
      · rcases reported_move hmove hinv hnow hop hrequest with
          ⟨frame, hwriting, hwritten, hnumber⟩
        exact ⟨frame, List.mem_append_left _ (started_of_writing before hwriting),
          List.mem_append_right _ hwritten, hnumber⟩

/-! ## The ledger -/

/-- Operations that may have been given a number: commands, and requests that have got as far
as writing. -/
def Entitled (op : SendOp) : Prop :=
  match op.kind with
  | .command _ _ => True
  | .response _ _ _ _ _ => False
  | .request _ _ _ => op.phase = .done ∨ ∃ frame, op.phase = .writing frame

/-- An operation that was given a number stays one. -/
theorem entitled_move (hmove : Move s event s' obs) (hinv : s.Inv) (hop : s.ops id = some op)
    (hentitled : Entitled op) : ∃ op', s'.ops id = some op' ∧ Entitled op' := by
  rcases op_move hmove hinv hop with ⟨op', hop', hkind⟩
  refine ⟨op', hop', ?_⟩
  have hphase' := phase_of_ops hop'
  unfold Entitled at hentitled ⊢
  rw [hkind]
  cases hcase : op.kind with
  | command => trivial
  | response => simp [hcase] at hentitled
  | request =>
      simp only [hcase] at hentitled
      rcases hentitled with hdone | ⟨frame, hphase⟩
      · have hdone' := done_move hmove hinv (by rw [phase_of_ops hop, hdone])
        rw [hphase', Option.some.injEq] at hdone'
        exact Or.inl hdone'
      · have hwriting : s.Writing id frame := by rw [Writing, phase_of_ops hop, hphase]
        rcases writing_move hmove hinv hwriting with hstill | hdone'
        · rw [Writing, hphase', Option.some.injEq] at hstill
          exact Or.inr ⟨frame, hstill⟩
        · rw [hphase', Option.some.injEq] at hdone'
          exact Or.inl hdone'

/-- What a step that hands out the number {lit}`n` does to the operation it is about. -/
structure Award (s : Sender) (event : SendEvent) (s' : Sender) (obs : List SendObs)
    (n : UInt32) : Prop where
  fresh : ∀ op, s.ops event.id = some op → ¬ Entitled op
  owner : ∃ op, s'.ops event.id = some op ∧ Entitled op ∧
    ∀ commandId m, op.kind = .command commandId m → m = n
  started : ∀ id frame, .writeStarted id frame ∈ obs →
    id = event.id ∧ (deserializeHeader frame).sequenceNumber = n
  pending : ∀ id exit ec m, .completed id exit ec m ∉ obs

/-- An operation that is about to test the waiting loop without having a number takes none
before it writes. -/
theorem not_entitled_of_ready (hready : Ready s id event op) (hkind : op.kind.isCommand = false)
    {before : SendOp} (hop : s.ops id = some before) : ¬ Entitled before := by
  rcases hready.exists_op with ⟨op₀, hop₀, hsame⟩
  rw [hop, Option.some.injEq] at hop₀
  subst hop₀
  have hphase := hready.phase_eq
  rw [phase_of_ops hop, Option.some.injEq, Option.some.injEq] at hphase
  unfold Entitled
  cases hcase : before.kind with
  | command => simp [hsame, hcase, SendKind.isCommand] at hkind
  | response => exact not_false
  | request => rcases hphase with hphase | hphase <;> simp [hphase]

theorem award_move (hmove : Move s event s' obs) {n : UInt32} (hone : allocated obs = [n]) :
    Award s event s' obs n := by
  cases hmove with
  | callNext hfresh commandId =>
      obtain rfl : nextSequenceNumber s.sequenceNumber = n := by simpa [allocated] using hone
      refine ⟨fun op hop => ?_, ⟨_, ops_put_self _ _ _, trivial, ?_⟩, by simp, by simp⟩
      · rw [SendEvent.id, hfresh] at hop
        cases hop
      · intro commandId' m hkind
        injection hkind with _ hnumber
        exact hnumber.symm
  | @enter id event op hready s' obs henter =>
      rw [← hready.id_eq] at henter
      cases henter with
      | wait | fail => simp [allocated] at hone
      | @write hfree sendBuf hfill number next o hnumber =>
          rw [allocated_append] at hone
          rcases number_cases hnumber with ⟨_, _, rfl⟩ | ⟨hkind, _, _, rfl⟩
          · simp [allocated] at hone
          obtain rfl : number = n := by simpa [allocated] using hone
          have hcommand : op.kind.isCommand = false := by
            cases hcase : op.kind <;> simp_all [SendKind.isCommand, SendKind.givenNumber]
          refine ⟨fun before hop => ?_, ⟨_, ops_put_self _ _ _, ?_, ?_⟩, ?_, by simp⟩
          · rw [hready.id_eq] at hop
            exact not_entitled_of_ready hready hcommand hop
          · unfold Entitled
            cases hcase : op.kind with
            | command | response => simp [hcase, SendKind.givenNumber] at hkind
            | request => exact Or.inr ⟨_, rfl⟩
          · intro commandId m hcase
            have hcase : op.kind = .command commandId m := hcase
            simp [hcase, SendKind.isCommand] at hcommand
          · intro id' frame hmem
            simp only [List.cons_append, List.nil_append, List.mem_cons, reduceCtorEq,
              SendObs.writeStarted.injEq, List.not_mem_nil, or_false, false_or] at hmem
            rcases hmem with ⟨rfl, rfl⟩
            exact ⟨rfl, by rw [SendKind.header_frame hfill]⟩
  | call | giveUp | timeOut | written | cancelWait | cancel => simp [allocated] at hone

/-- A write that starts without a new number carries the one its operation was given. -/
theorem started_of_keep (hmove : Move s event s' obs) (hnone : allocated obs = [])
    {frame : Octets} (hmem : .writeStarted id frame ∈ obs) :
    ∃ op, s.ops id = some op ∧
      op.kind.givenNumber = some (deserializeHeader frame).sequenceNumber ∧
      (deserializeHeader frame).commandId = op.kind.commandId := by
  cases hmove with
  | @enter id' event op hready s' obs henter =>
      cases henter with
      | wait | fail => simp at hmem
      | @write hfree sendBuf hfill number next o hnumber =>
          rcases hready.exists_op with ⟨before, hbefore, hkind⟩
          rcases number_cases hnumber with ⟨hgiven, _, rfl⟩ | ⟨_, _, _, rfl⟩
          · simp only [List.nil_append, List.mem_singleton, SendObs.writeStarted.injEq] at hmem
            rcases hmem with ⟨rfl, rfl⟩
            refine ⟨before, hbefore, ?_, ?_⟩
            · rw [SendKind.header_frame hfill, ← hkind, hgiven]
            · rw [SendKind.header_frame hfill, hkind]
          · simp [allocated] at hnone
  | call | callNext | giveUp | timeOut | written | cancelWait | cancel => simp at hmem

/-- An operation completes with {lit}`serialization_failed` when the transport says so or when
its PDU cannot be serialized, and then it has no number. -/
theorem failed_move (hmove : Move s event s' obs) {exit : SendExit} {n : UInt32}
    (hmem : .completed id exit (.smpp .serializationFailed) n ∈ obs) :
    (∃ frame, .writeDone id frame (.smpp .serializationFailed) ∈ obs) ∨
      ∀ op, s.ops id = some op → ¬ Entitled op := by
  cases hmove with
  | @enter id' event op hready s' obs henter =>
      cases henter with
      | wait => cases hmem
      | fail hfree hfill =>
          simp only [List.mem_singleton, SendObs.completed.injEq] at hmem
          rcases hmem with ⟨rfl, _⟩
          have hkind : op.kind.isCommand = false := by
            cases hcase : op.kind with
            | command => simp [hcase, SendKind.fillBody] at hfill
            | request | response => rfl
          exact Or.inr fun before hop => not_entitled_of_ready hready hkind hop
      | write hfree hfill hnumber =>
          rcases number_obs hnumber with rfl | ⟨m, rfl⟩ <;> simp at hmem
  | @written id' op frame ec hop hphase htimeout =>
      simp only [List.mem_cons, reduceCtorEq, SendObs.completed.injEq, List.not_mem_nil, or_false,
        false_or] at hmem
      rcases hmem with ⟨rfl, _, rfl, _⟩
      exact Or.inl ⟨frame, List.mem_cons_self⟩
  | call | callNext | giveUp | timeOut | cancelWait | cancel => simp at hmem

/-- The numbers a history hands out, each with the operation it goes to. -/
def ledger (τ : List (Turn Sender SendEvent SendObs)) : List (Nat × UInt32) :=
  τ.flatMap fun t => (allocated t.obs).map (t.event.id, ·)

variable {τ : List (Turn Sender SendEvent SendObs)}

theorem ledger_concat (τ : List (Turn Sender SendEvent SendObs))
    (t : Turn Sender SendEvent SendObs) :
    ledger (τ ++ [t]) = ledger τ ++ (allocated t.obs).map (t.event.id, ·) := by
  simp [ledger]

/-- The ledger lists all numbers in the order in which they are handed out. -/
theorem map_snd_ledger (τ : List (Turn Sender SendEvent SendObs)) :
    (ledger τ).map Prod.snd = allocated (EventMachine.shown τ) := by
  induction τ with
  | nil => rfl
  | cons t τ ih =>
      simp only [ledger, List.flatMap_cons, List.map_append] at ih ⊢
      rw [ih]
      simp [EventMachine.shown, allocated, Function.comp_def]

/-- Who was given which number. -/
structure Kept (entries : List (Nat × UInt32)) (s : Sender) (os : List SendObs) : Prop where
  nodup : (entries.map Prod.fst).Nodup
  owners : ∀ entry ∈ entries, ∃ op, s.ops entry.1 = some op ∧ Entitled op
  commands : ∀ id op commandId n, s.ops id = some op → op.kind = .command commandId n →
    isResponse commandId = false → (id, n) ∈ entries
  started : ∀ id frame, .writeStarted id frame ∈ os →
    isResponse (deserializeHeader frame).commandId = false →
      (id, (deserializeHeader frame).sequenceNumber) ∈ entries
  failed : ∀ id exit n, .completed id exit (.smpp .serializationFailed) n ∈ os →
    id ∈ entries.map Prod.fst → ∃ frame, .writeDone id frame (.smpp .serializationFailed) ∈ os

variable {entries : List (Nat × UInt32)}

/-- A step that hands out no number keeps the entries. -/
theorem Kept.keep (hkept : Kept entries s os) (hmove : Move s event s' obs) (hinv : s.Inv)
    (hreplies : Session.Replies event) (hnone : allocated obs = [])
    (hcall : ∀ id commandId, event ≠ .callNext id commandId) : Kept entries s' (os ++ obs) := by
  refine ⟨hkept.nodup, ?_, ?_, ?_, ?_⟩
  · intro entry hmem
    rcases hkept.owners entry hmem with ⟨op, hop, hentitled⟩
    exact entitled_move hmove hinv hop hentitled
  · intro id op commandId n hop hkind hrequest
    rcases kind_move hmove hinv hop with ⟨before, hbefore, hsame⟩ | ⟨_, _, hcalled⟩
    · exact hkept.commands id before commandId n hbefore (hsame ▸ hkind) hrequest
    · rcases hcalled with hmem | ⟨commandId', m, hmem, _⟩
      · rw [List.mem_singleton, hkind] at hmem
        subst hmem
        rw [Session.Replies, hrequest] at hreplies
        cases hreplies
      · exact absurd (List.mem_singleton.mp hmem).symm (hcall id commandId')
  · intro id frame hmem hrequest
    rcases List.mem_append.mp hmem with hbefore | hnow
    · exact hkept.started id frame hbefore hrequest
    · rcases started_of_keep hmove hnone hnow with ⟨op, hop, hgiven, hcommandId⟩
      rw [hcommandId] at hrequest
      cases hcase : op.kind with
      | command commandId n =>
          rw [hcase] at hgiven hrequest
          injection hgiven with hnumber
          exact hnumber ▸ hkept.commands id op commandId n hop hcase hrequest
      | request => simp [hcase, SendKind.givenNumber] at hgiven
      | response t pdu n commandStatus hresponse =>
          rw [hcase, SendKind.commandId, hresponse] at hrequest
          cases hrequest
  · intro id exit n hmem howner
    rcases List.mem_append.mp hmem with hbefore | hnow
    · rcases hkept.failed id exit n hbefore howner with ⟨frame, hframe⟩
      exact ⟨frame, List.mem_append_left _ hframe⟩
    · rcases failed_move hmove hnow with ⟨frame, hframe⟩ | hnot
      · exact ⟨frame, List.mem_append_right _ hframe⟩
      · rcases List.mem_map.mp howner with ⟨entry, hentry, rfl⟩
        rcases hkept.owners entry hentry with ⟨op, hop, hentitled⟩
        exact absurd hentitled (hnot op hop)

/-- A step that hands out a number adds an entry. -/
theorem Kept.award (hkept : Kept entries s os) (hmove : Move s event s' obs) (hinv : s.Inv)
    {n : UInt32} (haward : Award s event s' obs n)
    (hdone : ∀ exit ec m, .completed event.id exit ec m ∉ os) :
    Kept (entries ++ [(event.id, n)]) s' (os ++ obs) := by
  have hfresh : event.id ∉ entries.map Prod.fst := by
    intro hmem
    rcases List.mem_map.mp hmem with ⟨entry, hentry, heq⟩
    rcases hkept.owners entry hentry with ⟨op, hop, hentitled⟩
    exact haward.fresh op (heq ▸ hop) hentitled
  refine ⟨?_, ?_, ?_, ?_, ?_⟩
  · rw [List.map_append, List.nodup_append]
    refine ⟨hkept.nodup, List.pairwise_singleton _ _, ?_⟩
    intro i hi j hj hij
    have hj : j = event.id := List.mem_singleton.mp hj
    exact hfresh (hj ▸ hij ▸ hi)
  · intro entry hmem
    rcases List.mem_append.mp hmem with hbefore | hnew
    · rcases hkept.owners entry hbefore with ⟨op, hop, hentitled⟩
      exact entitled_move hmove hinv hop hentitled
    · rcases haward.owner with ⟨op, hop, hentitled, _⟩
      exact ⟨op, List.mem_singleton.mp hnew ▸ hop, hentitled⟩
  · intro id op commandId m hop hkind hrequest
    by_cases hid : id = event.id
    · subst hid
      rcases haward.owner with ⟨op', hop', _, hnumber⟩
      rw [hop, Option.some.injEq] at hop'
      subst hop'
      rw [hnumber commandId m hkind]
      simp
    · rcases kind_move hmove hinv hop with ⟨before, hbefore, hsame⟩ | ⟨hown, _⟩
      · exact List.mem_append_left _
          (hkept.commands id before commandId m hbefore (hsame ▸ hkind) hrequest)
      · exact absurd hown hid
  · intro id frame hmem hrequest
    rcases List.mem_append.mp hmem with hbefore | hnow
    · exact List.mem_append_left _ (hkept.started id frame hbefore hrequest)
    · rcases haward.started id frame hnow with ⟨rfl, hnumber⟩
      rw [hnumber]
      simp
  · intro id exit m hmem howner
    rcases List.mem_append.mp hmem with hbefore | hnow
    · rw [List.map_append, List.mem_append] at howner
      rcases howner with howner | howner
      · rcases hkept.failed id exit m hbefore howner with ⟨frame, hframe⟩
        exact ⟨frame, List.mem_append_left _ hframe⟩
      · rw [List.map_singleton, List.mem_singleton] at howner
        exact absurd hbefore (howner ▸ hdone exit _ m)
    · exact absurd hnow (haward.pending id exit _ m)

/-- The ledger of every run is kept. -/
theorem ledger_of_run (htraced : machine.Traced (fun _ e _ => Session.Replies e) machine.init τ s) :
    Kept (ledger τ) s (EventMachine.shown τ) := by
  induction htraced with
  | refl => exact ⟨List.nodup_nil, by simp [ledger], by simp [machine], by simp, by simp⟩
  | @snoc τ s₁ s₂ e o before hstep hreplies ih =>
      have hmove := move_of_step hstep
      have hinv := inv_of_run before.steps.anyStep
      rw [ledger_concat, EventMachine.shown_append, EventMachine.shown_singleton]
      cases numbering_move hmove hinv with
      | keep hnone hcounter hcall =>
          rw [hnone, List.map_nil, List.append_nil]
          exact ih.keep hmove hinv hreplies hnone hcall
      | next hone hcounter =>
          rw [hone, List.map_singleton]
          refine ih.award hmove hinv (award_move hmove hone) fun exit ec m hmem => ?_
          exact not_done_of_move hmove (done_of_completed before.steps hmem)

/-! ## The numbers of requests -/

/-- What holds of the numbers of requests behind the turns {lit}`τ`.  Counted from zero, the
{lit}`k`-th number is {lit}`k % (2 ^ 31 - 1) + 1`; an operation gets one number at most, and the
frame of a request carries the number of its operation. -/
structure RequestNumbers (τ : List (Turn Sender SendEvent SendObs)) (s : Sender) : Prop where
  kth : ∀ k id n, (ledger τ)[k]? = some (id, n) → n.toNat = k % (2 ^ 31 - 1) + 1
  distinct : ∀ j k entry entry', (ledger τ)[j]? = some entry → (ledger τ)[k]? = some entry' →
    j < k → k - j < 2 ^ 31 - 1 → entry.2 ≠ entry'.2
  owners : ((ledger τ).map Prod.fst).Nodup
  frames : ∀ id frame, .writeStarted id frame ∈ EventMachine.shown τ →
    isResponse (deserializeHeader frame).commandId = false →
      (id, (deserializeHeader frame).sequenceNumber) ∈ ledger τ ∧
        1 ≤ (deserializeHeader frame).sequenceNumber.toNat ∧
        (deserializeHeader frame).sequenceNumber.toNat ≤ 0x7FFFFFFF
  failed : ∀ id exit n,
    .completed id exit (.smpp .serializationFailed) n ∈ EventMachine.shown τ →
      (∀ frame, .writeDone id frame (.smpp .serializationFailed) ∉ EventMachine.shown τ) →
        ∀ m, (id, m) ∉ ledger τ
  reported : ∀ id op exit n, s.ops id = some op → op.kind.givenNumber = none →
    .completed id exit .success n ∈ EventMachine.shown τ →
      ∃ frame, .writeStarted id frame ∈ EventMachine.shown τ ∧
        .writeDone id frame .success ∈ EventMachine.shown τ ∧
        n = (deserializeHeader frame).sequenceNumber

/-- The numbers of requests in every run of send operations. -/
theorem requestNumbers_of_traced
    (htraced : machine.Traced (fun _ e _ => Session.Replies e) machine.init τ s) :
    RequestNumbers τ s := by
  have hkept := ledger_of_run htraced
  have hkth : ∀ k entry, (ledger τ)[k]? = some entry →
      entry.2.toNat = k % (2 ^ 31 - 1) + 1 := by
    intro k entry hget
    refine (counter_of_run htraced.steps).2 k entry.2 ?_
    rw [← map_snd_ledger, List.getElem?_map, hget]
    rfl
  refine ⟨fun k id n hget => hkth k (id, n) hget, ?_, hkept.nodup, ?_, ?_, ?_⟩
  · intro j k entry entry' hj hk hlt hnear hsame
    have hvalue : j % (2 ^ 31 - 1) + 1 = k % (2 ^ 31 - 1) + 1 := by
      rw [← hkth j entry hj, hsame, hkth k entry' hk]
    omega
  · intro id frame hmem hrequest
    have hentry := hkept.started id frame hmem hrequest
    rcases List.getElem?_of_mem hentry with ⟨k, hget⟩
    have hvalue := hkth k _ hget
    refine ⟨hentry, ?_, ?_⟩
    all_goals
      simp only at hvalue
      omega
  · intro id exit n hmem hno m howner
    rcases hkept.failed id exit n hmem (List.mem_map_of_mem howner) with ⟨frame, hframe⟩
    exact hno frame hframe
  · intro id op exit n hop hrequest hmem
    exact reported_of_run htraced.steps hop hrequest hmem

end Sender

namespace Session

variable {N : Nat} {s : Session N} {R : Session N → SessionEvent → Session N → Prop}
variable {es : List SessionEvent} {os : List SessionObs}

/-- In every run of a session, whatever operations are in progress at the same time, the
numbers of requests are in range, told apart, and reported as they were sent. -/
theorem requestNumbers_of_run (hrun : (machine N).Run R es os s) :
    ∃ τ, Sender.machine.Traced (fun _ e _ => Replies e) Sender.machine.init τ s.send ∧
      EventMachine.shown τ = sendPart os ∧ Sender.RequestNumbers τ s.send := by
  rcases send_run_of_run hrun with ⟨es₁, hsend⟩
  rcases hsend.exists_traced with ⟨τ, htraced, _, hshown⟩
  exact ⟨τ, htraced, hshown, Sender.requestNumbers_of_traced htraced⟩

/-- Behind an {lit}`unbind` come two {lit}`outbind`s: the first cannot be serialized, the second
is sent under the number behind that of the {lit}`unbind`. -/
theorem requestNumbers_of_run_outbind :
    ∃ es os s, (machine 64).Run EventMachine.anyStep es os s ∧
      .completed 1 .notSerialized (.smpp .serializationFailed) 0 ∈ sendPart os ∧
      .completed 2 .written .success 2 ∈ sendPart os ∧
      ∃ τ, Sender.machine.Traced (fun _ e _ => Replies e) Sender.machine.init τ s.send ∧
        EventMachine.shown τ = sendPart os ∧ Sender.RequestNumbers τ s.send := by
  have hrun := EventMachine.steps_of_exec (M := machine 64) (s := (machine 64).init)
    [.send (.callNext 0 .unbind), .send (.start 0),
      .send (.call 1 (.request .outbind { password := List.replicate 9 0x31 } rfl)),
      .send (.call 2 (.request .outbind {} rfl)), .send (.start 1),
      .send (.writeDone 0 .success), .send (.resume 1), .send (.start 2),
      .send (.writeDone 2 .success)] rfl
  exact ⟨_, _, _, hrun, by decide, by decide, requestNumbers_of_run hrun⟩

end Session

end Smpp
