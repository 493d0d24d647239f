import Smpp.Net.Quiescence

/-!
# The client and the server of the examples

The coroutine {lit}`client` of {lit}`client.cpp` and the coroutine {lit}`handle_session` of
{lit}`server.cpp`, once they are connected.  What they print and the second that the client
lets pass are left out.

Main results:

- Theorem {lit}`Conversation.answers_of_run`: the client receives the answers of the server to
  its own requests, in order; neither of the two gets a PDU it does not expect, and the last
  receive operation of the client never succeeds.
- Theorem {lit}`Conversation.not_settled_of_run`: they never wait for each other.

Current gaps:

- The session of {lit}`handle_session` is taken as one that was not moved.  {lit}`server.cpp`
  passes it by value, so that the one in the coroutine frame was moved there and the pointers of
  its {lit}`receive_buf_` are those into the parameter; what such a buffer does is the subject
  of {lit}`FlatBufferMemory`.  The session of {lit}`client` is built where it is used.
- Nothing is transmitted behind a write that ended short, and every frame is shorter than 2^32
  octets.
-/

namespace Smpp

/-- The octets of ASCII characters. -/
def octetsOf (characters : List Char) : Octets :=
  characters.map fun c => UInt8.ofNat c.toNat

/-- {lit}`get<T>(pdu)` does not throw. -/
def Completion.holds (t : PduType) (completion : Completion) : Bool :=
  match completion.pdu with
  | .pdu t' _ => t' = t
  | .invalidPdu _ _ => false

/-- A PDU holds one type. -/
theorem Completion.holds_eq {t : PduType} {d : Completion} (hholds : d.holds t = true)
    (t' : PduType) :
    d.holds t' = decide (t = t') := by
  unfold Completion.holds at hholds ⊢
  cases hpdu : d.pdu with
  | invalidPdu => simp [hpdu] at hholds
  | pdu t₀ pdu =>
      simp only [hpdu, decide_eq_true_eq] at hholds ⊢
      rw [hholds]

/-! ## The client -/

/-- Where {lit}`client` is: in front of the operation of that name.  {lit}`i` is the variable of
its loop. -/
inductive ClientPoint where
  | bind
  | bindResp
  | submit (i : Nat)
  | submitResp (i : Nat)
  | unbind
  | unbindResp
  | returned

/-- The head of the loop. -/
def ClientPoint.loop (i : Nat) : ClientPoint :=
  if i < 3 then .submit i else .unbind

/-- {lit}`client()`. -/
def client : Coroutine ClientPoint where
  start := .bind
  awaits
    | .bind => .send (.request .bindTransceiver { systemId := octetsOf "client_01".toList } rfl)
    | .submit i =>
        .send (.request .submitSm { destAddr := octetsOf (Nat.toDigits 10 (1000 + i)) } rfl)
    | .unbind => .sendUnbind
    | .bindResp | .submitResp _ | .unbindResp => .receive
    | .returned => .nothing
  sent
    | .bind => .bindResp
    | .submit i => .submitResp i
    | .unbind => .unbindResp
    | .bindResp => .bindResp
    | .submitResp i => .submitResp i
    | .unbindResp => .unbindResp
    | .returned => .returned
  received
    | .bindResp, completion =>
        if completion.holds .bindTransceiverResp then some (.loop 0) else none
    | .submitResp i, completion =>
        if completion.holds .submitSmResp then some (.loop (i + 1)) else none
    | .unbindResp, _ => some .returned
    | .bind, _ | .submit _, _ | .unbind, _ | .returned, _ => none

/-- The PDUs that the client sends, in order. -/
def clientRequests : List SendKind :=
  .request .bindTransceiver { systemId := octetsOf "client_01".toList } rfl ::
    (List.range 3).map fun i =>
      .request .submitSm { destAddr := octetsOf (Nat.toDigits 10 (1000 + i)) } rfl

namespace ClientPoint

/-- How many PDUs the client has sent. -/
def sends : ClientPoint → Nat
  | .bind => 0
  | .bindResp => 1
  | .submit i => i + 1
  | .submitResp i => i + 2
  | .unbind | .unbindResp | .returned => 4

/-- How many PDUs the client has received. -/
def receives : ClientPoint → Nat
  | .bind | .bindResp => 0
  | .submit i | .submitResp i => i + 1
  | .unbind | .unbindResp => 4
  | .returned => 5

/-- The client is in its loop with a variable that passes the test. -/
def Valid : ClientPoint → Prop
  | .submit i | .submitResp i => i < 3
  | .bind | .bindResp | .unbind | .unbindResp | .returned => True

/-- The type of the PDU that the client expects behind those it has received. -/
def expected (before : List Completion) : PduType :=
  if before = [] then .bindTransceiverResp else .submitSmResp

end ClientPoint

/-! ## The server -/

theorem isResponse_bindTransceiverResp :
    isResponse PduType.bindTransceiverResp.commandId = true :=
  rfl

theorem isResponse_submitSmResp : isResponse PduType.submitSmResp.commandId = true :=
  rfl

/-- Where {lit}`handle_session` is: in front of the operation of that name.  The answers go out
under {lit}`seq_num`. -/
inductive ServerPoint where
  | bind
  | bindResp (seqNum : UInt32)
  | submit
  | submitResp (seqNum : UInt32)

/-- {lit}`handle_session()`, on a session that was not moved to where it is used. -/
def handleSession : Coroutine ServerPoint where
  start := .bind
  awaits
    | .bindResp seqNum =>
        .send (.response .bindTransceiverResp { systemId := octetsOf "server_01".toList } seqNum
          .rok isResponse_bindTransceiverResp)
    | .submitResp seqNum =>
        .send (.response .submitSmResp { messageId := octetsOf "123".toList } seqNum .rok
          isResponse_submitSmResp)
    | .bind | .submit => .receive
  sent _ := .submit
  received
    | .bind, completion =>
        if completion.holds .bindTransceiver then some (.bindResp completion.sequenceNumber)
        else none
    | .submit, completion =>
        if completion.holds .submitSm then some (.submitResp completion.sequenceNumber) else none
    | .bindResp _, _ | .submitResp _, _ => none

/-! ## The client on its own -/

namespace ClientPoint

variable {ds : List Completion} {kinds : List SendKind} {r : Progress ClientPoint}

/-- The client is at a point: it has sent so many of its PDUs and has received so many. -/
structure At (p : ClientPoint) (n : Nat) (ds : List Completion) (kinds : List SendKind) :
    Prop where
  valid : p.Valid
  kinds_eq : kinds = clientRequests.take n
  length_eq : ds.length = p.receives

/-- How far the client has got with what it has received. -/
def Inv (ds : List Completion) (kinds : List SendKind) : Progress ClientPoint → Prop
  | .ready p | .receiving p => At p p.sends ds kinds
  | .sending p _ => At p (client.sent p).sends ds kinds
  | .failed _ => kinds <+: clientRequests
  | .badVariantAccess => kinds <+: clientRequests ∧
      ∃ before d, ds = before ++ [d] ∧ d.holds (expected before) = false

/-- The next PDU is the one that the client awaits to send. -/
theorem take_sends {p : ClientPoint} (hvalid : p.Valid) {kind : SendKind}
    (hawaits : client.awaits p = .send kind) :
    clientRequests.take (client.sent p).sends = clientRequests.take p.sends ++ [kind] := by
  cases p with
  | bind =>
      cases hawaits
      rfl
  | submit i =>
      cases hawaits
      have hnext : clientRequests[i + 1]? = some (.request .submitSm
          { destAddr := octetsOf (Nat.toDigits 10 (1000 + i)) } rfl) := by
        have hlt : i < 3 := hvalid
        rw [clientRequests, List.getElem?_cons_succ, List.getElem?_map,
          List.getElem?_range hlt]
        rfl
      change clientRequests.take (i + 1 + 1) = _
      rw [List.take_add_one, hnext]
      rfl
  | bindResp | submitResp | unbind | unbindResp | returned => cases hawaits

/-- The client goes on to what it awaits. -/
theorem At.call {p : ClientPoint} (hat : At p p.sends ds kinds) {call : Call}
    (hawaits : client.awaits p = call.await) :
    Inv ds (kinds ++ (call.pdu.map Prod.snd).toList) (call.progress p) := by
  rcases hat with ⟨hvalid, rfl, hlength⟩
  cases call with
  | send id kind => exact ⟨hvalid, (take_sends hvalid hawaits).symm, hlength⟩
  | receive => exact ⟨hvalid, List.append_nil _, hlength⟩
  | sendUnbind id =>
      refine ⟨hvalid, ?_, hlength⟩
      cases p with
      | unbind => rfl
      | bind | bindResp | submit | submitResp | unbindResp | returned => cases hawaits

/-- Behind an operation the client has a PDU to send or to receive. -/
theorem At.sent {p : ClientPoint} (hat : At p (client.sent p).sends ds kinds) :
    At (client.sent p) (client.sent p).sends ds kinds := by
  rcases hat with ⟨hvalid, hkinds, hlength⟩
  refine ⟨?_, hkinds, ?_⟩
  · cases p <;> exact hvalid
  · cases p <;> exact hlength

theorem at_loop {i : Nat} {d : Completion} (hi : i ≤ 3) (hlength : ds.length = i) :
    At (.loop i) (loop i).sends (ds ++ [d]) (clientRequests.take (i + 1)) := by
  by_cases hlt : i < 3
  · rw [loop, if_pos hlt]
    exact ⟨hlt, rfl, by rw [List.length_append, hlength]; rfl⟩
  · obtain rfl : i = 3 := by omega
    exact ⟨trivial, rfl, by rw [List.length_append, hlength]; rfl⟩

/-- The client has received what it expects. -/
theorem At.received {p p' : ClientPoint} (hat : At p p.sends ds kinds) {d : Completion}
    (hreceived : client.received p d = some p') : At p' p'.sends (ds ++ [d]) kinds := by
  rcases hat with ⟨hvalid, rfl, hlength⟩
  cases p with
  | bindResp =>
      simp only [client, Option.ite_none_right_eq_some, Option.some.injEq] at hreceived
      rcases hreceived with ⟨_, rfl⟩
      exact at_loop (Nat.zero_le 3) hlength
  | submitResp i =>
      simp only [client, Option.ite_none_right_eq_some, Option.some.injEq] at hreceived
      rcases hreceived with ⟨_, rfl⟩
      exact at_loop hvalid hlength
  | unbindResp =>
      cases hreceived
      exact ⟨trivial, rfl, by rw [List.length_append, hlength]; rfl⟩
  | bind | submit | unbind | returned => cases hreceived

/-- The client has received what it does not expect. -/
theorem At.mismatch {p : ClientPoint} (hat : At p p.sends ds kinds) {d : Completion}
    (hawaits : client.awaits p = .receive) (hreceived : client.received p d = none) :
    d.holds (expected ds) = false := by
  have hlength := hat.length_eq
  cases p with
  | bindResp =>
      obtain rfl : ds = [] := List.length_eq_zero_iff.mp hlength
      simpa [client, expected] using hreceived
  | submitResp i =>
      have hne : ds ≠ [] := List.length_pos_iff.mp (by rw [hlength]; exact Nat.succ_pos i)
      simpa [client, expected, hne] using hreceived
  | unbindResp => cases hreceived
  | bind | submit | unbind | returned => cases hawaits

/-- The client keeps to the order of its operations, whatever it receives. -/
theorem inv_of_path (hpath : client.Path ds kinds r) : Inv ds kinds r := by
  induction hpath with
  | start => exact ⟨trivial, rfl, rfl⟩
  | call before hawaits ih => exact At.call ih hawaits
  | sent before ih => exact At.sent ih
  | received before hreceived ih => exact At.received ih hreceived
  | mismatch before hreceived ih =>
      have hat : At _ _ _ _ := ih
      refine ⟨?_, _, _, rfl, hat.mismatch before.awaits_of_receiving hreceived⟩
      rw [hat.kinds_eq]
      exact List.take_prefix _ _
  | sendFailed before ec ih | receiveFailed before ec ih =>
      have hat : At _ _ _ _ := ih
      rw [Inv, hat.kinds_eq]
      exact List.take_prefix _ _

/-- Whatever the client receives, it sends its PDUs in order. -/
theorem Inv.prefix_requests (hinv : Inv ds kinds r) : kinds <+: clientRequests := by
  cases r with
  | ready | sending | receiving =>
      have hat : At _ _ _ _ := hinv
      rw [hat.kinds_eq]
      exact List.take_prefix _ _
  | failed => exact hinv
  | badVariantAccess => exact hinv.1

/-- The client is past its loop. -/
def unbinds : Progress ClientPoint → Bool
  | .ready .unbind | .sending .unbind _ | .ready .unbindResp | .receiving .unbindResp => true
  | .ready _ | .sending _ _ | .receiving _ | .failed _ | .badVariantAccess => false

/-- Past its loop the client has received four PDUs. -/
theorem length_of_unbinds (hinv : Inv ds kinds r)
    (hunbinds : unbinds r = true) : ds.length = 4 := by
  cases r with
  | ready point | sending point | receiving point =>
      have hlength := At.length_eq hinv
      cases point with
      | unbind | unbindResp => exact hlength
      | bind | bindResp | submit | submitResp | returned => cases hunbinds
  | failed | badVariantAccess => cases hunbinds

end ClientPoint

/-! ## The server on its own -/

/-- What the server sends when it has received the PDU. -/
def reply (d : Completion) : SendKind :=
  if d.holds .bindTransceiver then
    .response .bindTransceiverResp { systemId := octetsOf "server_01".toList } d.sequenceNumber
      .rok isResponse_bindTransceiverResp
  else
    .response .submitSmResp { messageId := octetsOf "123".toList } d.sequenceNumber .rok
      isResponse_submitSmResp

/-- The PDUs are a first one of one type and others of another type. -/
def Opens (first others : PduType) : List Completion → Prop
  | [] => True
  | d :: ds => d.holds first = true ∧ ∀ other ∈ ds, other.holds others = true

theorem Opens.of_prefix {first others : PduType} {ds ds' : List Completion}
    (hopens : Opens first others ds') (hinitial : ds <+: ds') : Opens first others ds := by
  rcases hinitial with ⟨more, rfl⟩
  cases ds with
  | nil => exact trivial
  | cons d ds =>
      exact ⟨hopens.1, fun other hmem => hopens.2 other (List.mem_append_left _ hmem)⟩

theorem Opens.last {first others : PduType} {ds : List Completion} {d : Completion}
    (hopens : Opens first others (ds ++ [d])) :
    d.holds (if ds = [] then first else others) = true := by
  cases ds with
  | nil => exact hopens.1
  | cons d' ds => exact hopens.2 d (by simp)

namespace ServerPoint

variable {ds : List Completion} {kinds : List SendKind} {r : Progress ServerPoint}

/-- The server is at a point: it has answered what it has received, but for the PDU that it is
to answer there. -/
def At (p : ServerPoint) (ds : List Completion) (kinds : List SendKind) : Prop :=
  match p with
  | .bind => ds = [] ∧ kinds = []
  | .submit => ds ≠ [] ∧ kinds = ds.map reply
  | .bindResp _ | .submitResp _ => ∃ before d, ds = before ++ [d] ∧ kinds = before.map reply ∧
      handleSession.awaits p = .send (reply d)

/-- How far the server has got with what it has received. -/
def Inv (ds : List Completion) (kinds : List SendKind) : Progress ServerPoint → Prop
  | .ready p | .receiving p => At p ds kinds
  | .sending _ _ => ds ≠ [] ∧ kinds = ds.map reply
  | .failed _ => kinds <+: ds.map reply
  | .badVariantAccess => ∃ before d, ds = before ++ [d] ∧ kinds = before.map reply ∧
      d.holds (if before = [] then .bindTransceiver else .submitSm) = false

/-- The server goes on to what it awaits. -/
theorem At.call {p : ServerPoint} (hat : At p ds kinds) {call : Call}
    (hawaits : handleSession.awaits p = call.await) :
    Inv ds (kinds ++ (call.pdu.map Prod.snd).toList) (call.progress p) := by
  cases call with
  | receive => simpa [Call.pdu, Call.progress, Inv] using hat
  | sendUnbind => cases p <;> cases hawaits
  | send id kind =>
      cases p with
      | bind | submit => cases hawaits
      | bindResp | submitResp =>
          rcases hat with ⟨before, d, rfl, rfl, hreply⟩
          rw [hawaits] at hreply
          cases hreply
          exact ⟨by simp, by simp [Call.pdu]⟩

/-- A PDU that the server can answer is one that it is to answer. -/
theorem At.received {p p' : ServerPoint} (hat : At p ds kinds) {d : Completion}
    (hreceived : handleSession.received p d = some p') : At p' (ds ++ [d]) kinds := by
  cases p with
  | bind =>
      simp only [handleSession, Option.ite_none_right_eq_some, Option.some.injEq] at hreceived
      rcases hreceived with ⟨hholds, rfl⟩
      rcases hat with ⟨rfl, rfl⟩
      exact ⟨[], d, rfl, rfl, by rw [reply, if_pos hholds]; rfl⟩
  | submit =>
      simp only [handleSession, Option.ite_none_right_eq_some, Option.some.injEq] at hreceived
      rcases hreceived with ⟨hholds, rfl⟩
      rcases hat with ⟨_, rfl⟩
      refine ⟨ds, d, rfl, rfl, ?_⟩
      rw [reply, if_neg (by simp [Completion.holds_eq hholds])]
      rfl
  | bindResp | submitResp => cases hreceived

/-- The server has received what it does not expect. -/
theorem At.mismatch {p : ServerPoint} (hat : At p ds kinds) {d : Completion}
    (hawaits : handleSession.awaits p = .receive)
    (hreceived : handleSession.received p d = none) : Inv (ds ++ [d]) kinds .badVariantAccess := by
  cases p with
  | bind =>
      rcases hat with ⟨rfl, rfl⟩
      exact ⟨[], d, rfl, rfl, by simpa [handleSession] using hreceived⟩
  | submit =>
      rcases hat with ⟨hne, rfl⟩
      exact ⟨ds, d, rfl, rfl, by simpa [handleSession, hne] using hreceived⟩
  | bindResp | submitResp => cases hawaits

/-- What the server has sent are the first of its replies. -/
theorem At.prefix_replies {p : ServerPoint} (hat : At p ds kinds) : kinds <+: ds.map reply := by
  cases p with
  | bind => exact hat.2 ▸ List.nil_prefix
  | submit => exact hat.2 ▸ List.prefix_rfl
  | bindResp | submitResp =>
      rcases hat with ⟨before, d, rfl, rfl, _⟩
      rw [List.map_append]
      exact List.prefix_append _ _

/-- The server answers what it receives, one PDU after the other. -/
theorem inv_of_path (hpath : handleSession.Path ds kinds r) : Inv ds kinds r := by
  induction hpath with
  | start => exact ⟨rfl, rfl⟩
  | call before hawaits ih => exact At.call ih hawaits
  | sent before ih => exact ih
  | received before hreceived ih => exact At.received ih hreceived
  | mismatch before hreceived ih => exact At.mismatch ih before.awaits_of_receiving hreceived
  | sendFailed before ec ih =>
      rcases ih with ⟨_, rfl⟩
      exact List.prefix_rfl
  | receiveFailed before ec ih => exact At.prefix_replies ih

/-- When the server waits for a PDU it has answered all others. -/
theorem length_of_receiving {q : ServerPoint} (hpath : handleSession.Path ds kinds (.receiving q)) :
    kinds.length = ds.length := by
  have hat : At q ds kinds := inv_of_path hpath
  have hawaits := hpath.awaits_of_receiving
  cases q with
  | bind =>
      rcases hat with ⟨rfl, rfl⟩
      rfl
  | submit =>
      rcases hat with ⟨_, rfl⟩
      exact List.length_map _
  | bindResp | submitResp => cases hawaits

/-- Whatever the server receives, what it sends are its replies, in order. -/
theorem Inv.prefix_replies (hinv : Inv ds kinds r) : kinds <+: ds.map reply := by
  cases r with
  | ready | receiving => exact At.prefix_replies hinv
  | sending => exact hinv.2 ▸ List.prefix_rfl
  | failed => exact hinv
  | badVariantAccess =>
      rcases hinv with ⟨before, d, rfl, rfl, _⟩
      rw [List.map_append]
      exact List.prefix_append _ _

end ServerPoint

/-! ## The conversation -/

/-- What the server answers a PDU with. -/
def answer (d : Completion) : Completion where
  ec := .success
  pdu :=
    if d.holds .bindTransceiver then
      .pdu .bindTransceiverResp { systemId := octetsOf "server_01".toList }
    else .pdu .submitSmResp { messageId := octetsOf "123".toList }
  sequenceNumber := d.sequenceNumber
  commandStatus := .rok

open Coroutine (Conveys)

/-- A response is received as it is. -/
theorem eq_of_conveys {t : PduType} {pdu : t.Struct} {n : UInt32} {commandStatus : CommandStatus}
    {hresponse : isResponse t.commandId = true} {completion : Completion}
    (hconveys : Conveys (.response t pdu n commandStatus hresponse) completion) :
    completion = ⟨.success, .pdu t pdu, n, commandStatus⟩ := by
  rcases hconveys with ⟨frame, ⟨sendBuf, m, hfill, rfl, hgiven⟩, hmessage⟩
  obtain rfl : m = n := hgiven n rfl
  simp only [SendKind.message, SendKind.value, SendKind.header_frame hfill m,
    List.cons.injEq, and_true] at hmessage
  exact hmessage.symm

/-- A request is received as a PDU of its type. -/
theorem holds_of_conveys {t : PduType} {pdu : t.Struct} {hrequest : isResponse t.commandId = false}
    {completion : Completion} (hconveys : Conveys (.request t pdu hrequest) completion) :
    completion.holds t = true := by
  rcases hconveys with ⟨frame, _, hmessage⟩
  simp only [SendKind.message, SendKind.value, List.cons.injEq, and_true] at hmessage
  rw [← hmessage]
  exact decide_eq_true rfl

/-- A reply is received as the answer. -/
theorem eq_answer_of_conveys {d completion : Completion} (hconveys : Conveys (reply d) completion) :
    completion = answer d := by
  unfold reply at hconveys
  unfold answer
  split at hconveys
  · rename_i hbind
    rw [if_pos hbind]
    exact eq_of_conveys hconveys
  · rename_i hbind
    rw [if_neg hbind]
    exact eq_of_conveys hconveys

/-- The replies that are written are received as the answers. -/
theorem prefix_answers {ds cs : List Completion} {kinds : List SendKind}
    (hinitial : kinds <+: ds.map reply) (hconveys : List.Forall₂ Conveys kinds cs) :
    cs <+: ds.map answer := by
  induction hconveys generalizing ds with
  | nil => exact List.nil_prefix
  | @cons kind c kinds cs hfirst hrest ih =>
      cases ds with
      | nil => simp at hinitial
      | cons d ds =>
          rw [List.map_cons, List.cons_prefix_cons] at hinitial
          rcases hinitial with ⟨rfl, hinitial⟩
          rw [List.map_cons, List.cons_prefix_cons]
          exact ⟨eq_answer_of_conveys hfirst, ih hinitial⟩

/-- The messages of the client are received as messages. -/
theorem holds_submitSm {cs : List Completion} {kinds : List SendKind}
    (hkinds : ∀ kind ∈ kinds, kind ∈ clientRequests.tail)
    (hconveys : List.Forall₂ Conveys kinds cs) : ∀ c ∈ cs, c.holds .submitSm = true := by
  induction hconveys with
  | nil => simp
  | @cons kind c kinds cs hfirst _ ih =>
      intro other hmem
      rcases List.mem_cons.mp hmem with rfl | hmem
      · rcases List.mem_map.mp (hkinds kind List.mem_cons_self) with ⟨i, _, rfl⟩
        exact holds_of_conveys hfirst
      · exact ih (fun kind hkind => hkinds kind (List.mem_cons_of_mem _ hkind)) other hmem

/-- The requests of the client open with a bind. -/
theorem opens_of_conveys {cs : List Completion} {kinds : List SendKind}
    (hinitial : kinds <+: clientRequests) (hconveys : List.Forall₂ Conveys kinds cs) :
    Opens .bindTransceiver .submitSm cs ∧ cs.length ≤ 4 := by
  refine ⟨?_, hconveys.length_eq ▸ hinitial.length_le⟩
  cases hconveys with
  | nil => exact trivial
  | cons hfirst hrest =>
      rw [clientRequests, List.cons_prefix_cons] at hinitial
      rcases hinitial with ⟨rfl, hinitial⟩
      exact ⟨holds_of_conveys hfirst, holds_submitSm (fun kind hmem => hinitial.subset hmem) hrest⟩

/-- The answers to a bind and to messages. -/
theorem Opens.map_answer {ds : List Completion} (hopens : Opens .bindTransceiver .submitSm ds) :
    Opens .bindTransceiverResp .submitSmResp (ds.map answer) := by
  cases ds with
  | nil => exact trivial
  | cons d ds =>
      refine ⟨?_, fun other hmem => ?_⟩
      · rw [answer, if_pos hopens.1]
        rfl
      · rcases List.mem_map.mp hmem with ⟨d', hd', rfl⟩
        have hother := Completion.holds_eq (hopens.2 d' hd') .bindTransceiver
        rw [answer, if_neg (by simp [hother])]
        rfl

/-! ## What goes over the wire -/

/-- The requests of the client arrive as they are. -/
theorem portable_of_clientRequests : ∀ kind ∈ clientRequests, kind.Portable := by
  intro kind hmem
  rcases List.mem_cons.mp hmem with rfl | hmem
  · refine ⟨⟨trivial, trivial, trivial, trivial, trivial, trivial, trivial, trivial⟩, ?_⟩
    exact ⟨by decide, List.not_mem_nil, List.not_mem_nil, trivial, trivial, trivial,
      List.not_mem_nil, trivial⟩
  · rcases List.mem_map.mp hmem with ⟨i, hi, rfl⟩
    have hdigits : ∀ i ∈ List.range 3, 0 ∉ octetsOf (Nat.toDigits 10 (1000 + i)) := by decide
    exact ⟨SubmitSm.meta.default_flagsKept,
      ⟨List.not_mem_nil, trivial, trivial, List.not_mem_nil, trivial, trivial, hdigits i hi,
        trivial, trivial, trivial, List.not_mem_nil, List.not_mem_nil, trivial, trivial, trivial,
        trivial, trivial, trivial⟩⟩

/-- The replies of the server arrive as they are. -/
theorem portable_of_reply (d : Completion) : (reply d).Portable := by
  unfold reply
  split
  · exact ⟨⟨trivial, trivial⟩, by decide, trivial⟩
  · exact ⟨⟨trivial, trivial⟩, by decide, trivial⟩

/-- What the client goes on to send arrives as it is. -/
theorem portable_of_client {N : Nat} {es : List SessionEvent} {os : List SessionObs}
    {s : Session N} {p : Progress ClientPoint} (hclient : client.Drives es os s p) :
    ∀ kind ∈ (calls es).map Prod.snd, kind.Portable := by
  have hinv := ClientPoint.inv_of_path (Coroutine.follows_of_drives hclient).path
  exact fun kind hmem => portable_of_clientRequests kind (hinv.prefix_requests.subset hmem)

/-- What the server goes on to send arrives as it is. -/
theorem portable_of_server {N : Nat} {es : List SessionEvent} {os : List SessionObs}
    {s : Session N} {q : Progress ServerPoint} (hserver : handleSession.Drives es os s q) :
    ∀ kind ∈ (calls es).map Prod.snd, kind.Portable := by
  have hinv := ServerPoint.inv_of_path (Coroutine.follows_of_drives hserver).path
  intro kind hmem
  rcases List.mem_map.mp (hinv.prefix_replies.subset hmem) with ⟨d, _, rfl⟩
  exact portable_of_reply d

namespace Connection

variable {N : Nat} {c : Connection N} {es : List ConnectionEvent}
variable {os : List (Side × SessionObs)} {p : Progress ClientPoint} {q : Progress ServerPoint}

/-- What the client sends opens with a bind, and the server receives the first of it. -/
theorem opens_of_drives (hrun : (machine N).Run Intact es os c)
    (hclient : client.Drives (eventsOf .left es) (obsOf .left os) (c .left).session p) :
    delivered .right os <+: (c .left).session.sent (obsOf .left os) ∧
      Opens .bindTransceiver .submitSm ((c .left).session.sent (obsOf .left os)) ∧
      ((c .left).session.sent (obsOf .left os)).length ≤ 4 := by
  have hinv := ClientPoint.inv_of_path (Coroutine.follows_of_drives hclient).path
  have hkinds := hinv.prefix_requests
  have hconveys := Coroutine.sent_of_drives hclient
  have hportable := Coroutine.portable_of_drives hclient (portable_of_client hclient)
  rcases exists_missing hrun .left hportable with ⟨missing, hsent, _⟩
  exact ⟨⟨missing, hsent.symm⟩, opens_of_conveys ((List.take_prefix _ _).trans hkinds) hconveys⟩

/-- The client receives the first of the answers to what the server has received. -/
theorem answers_of_drives (hrun : (machine N).Run Intact es os c)
    (hserver : handleSession.Drives (eventsOf .right es) (obsOf .right os) (c .right).session q) :
    delivered .left os <+: (delivered .right os).map answer := by
  have hinv := ServerPoint.inv_of_path (Coroutine.follows_of_drives hserver).path
  have hconveys := Coroutine.sent_of_drives hserver
  have hportable := Coroutine.portable_of_drives hserver (portable_of_server hserver)
  rcases exists_missing hrun .right hportable with ⟨missing, hsent, _⟩
  have hback : delivered .left os <+: (c .right).session.sent (obsOf .right os) :=
    ⟨missing, hsent.symm⟩
  exact hback.trans (prefix_answers ((List.take_prefix _ _).trans hinv.prefix_replies) hconveys)

end Connection

namespace Conversation

variable {N : Nat}

/-- In every run of the two examples on sessions that were not moved, while nothing is transmitted
behind a write that ended short and every frame is shorter than 2^32 octets: neither of them
gets a PDU that it does not expect; the PDUs that the client receives are the answers to those
that it has sent, in order and under their numbers, and it goes on to unbind with the last of
them; and its last receive operation never succeeds. -/
theorem answers_of_run (es : List ConnectionEvent) (os : List (Side × SessionObs))
    (d : Conversation ClientPoint ServerPoint N)
    (hrun : (machine client handleSession N).Run Intact es os d) :
    d.left ≠ .badVariantAccess ∧ d.right ≠ .badVariantAccess ∧ d.left ≠ .ready .returned ∧
      Connection.delivered .left os <+:
        ((d.connection .left).session.sent (Connection.obsOf .left os)).map answer ∧
      (ClientPoint.unbinds d.left = true → Connection.delivered .left os =
        ((d.connection .left).session.sent (Connection.obsOf .left os)).map answer) := by
  rcases drives_of_run hrun with ⟨hconnection, hclient, hserver⟩
  rcases Connection.opens_of_drives hconnection hclient with ⟨hthere, hopens, hfour⟩
  have hback := (Connection.answers_of_drives hconnection hserver).trans (hthere.map answer)
  have hfew : (Connection.delivered .left os).length ≤ 4 :=
    hback.length_le.trans (by rwa [List.length_map])
  have hclientInv := ClientPoint.inv_of_path (Coroutine.follows_of_drives hclient).path
  have hserverInv := ServerPoint.inv_of_path (Coroutine.follows_of_drives hserver).path
  refine ⟨fun hbad => ?_, fun hbad => ?_, fun hreturned => ?_, hback, fun hunbinds => ?_⟩
  · rw [hbad] at hclientInv
    rcases hclientInv with ⟨_, before, c, hdelivered, hmismatch⟩
    have hanswers := hopens.map_answer.of_prefix hback
    rw [Connection.delivered, hdelivered] at hanswers
    have hholds := hanswers.last
    rw [ClientPoint.expected] at hmismatch
    rw [hmismatch] at hholds
    cases hholds
  · rw [hbad] at hserverInv
    rcases hserverInv with ⟨before, c, hdelivered, _, hmismatch⟩
    have hrequests := hopens.of_prefix hthere
    rw [Connection.delivered, hdelivered] at hrequests
    have hholds := hrequests.last
    rw [hmismatch] at hholds
    cases hholds
  · rw [hreturned] at hclientInv
    have hfive : (Connection.delivered .left os).length = 5 := hclientInv.length_eq
    omega
  · have hlength : (Connection.delivered .left os).length = 4 :=
      ClientPoint.length_of_unbinds hclientInv hunbinds
    refine hback.eq_of_length_le ?_
    rw [hlength, List.length_map]
    exact hfour

/-- The client binds, and the server answers. -/
theorem answers_of_run_bind :
    ∃ es os, ∃ d : Conversation ClientPoint ServerPoint 64,
      (machine client handleSession 64).Run Intact es os d ∧
      (Connection.delivered .left os).length = 1 ∧
      (d.left ≠ .badVariantAccess ∧ d.right ≠ .badVariantAccess ∧ d.left ≠ .ready .returned ∧
        Connection.delivered .left os <+:
          ((d.connection .left).session.sent (Connection.obsOf .left os)).map answer ∧
        (ClientPoint.unbinds d.left = true → Connection.delivered .left os =
          ((d.connection .left).session.sent (Connection.obsOf .left os)).map answer)) := by
  have hexec : ((machine client handleSession 64).execIf isIntact
      (machine client handleSession 64).init
      [.session .left (.send (.call 0 (.request .bindTransceiver
          { systemId := octetsOf "client_01".toList } rfl))),
        .session .left (.send (.start 0)), .transmit .left 0 32,
        .session .left (.send (.writeDone 0 .success)), .session .right (.receive .asyncReceive 0),
        .session .right (.receive .iterate 0), .session .right (.receive .iterate 0),
        .session .right (.receive (.readDone .success
          (encodeHeader ⟨32, .bindTransceiver, .rok, 1⟩ ++
            octetsOf "client_01".toList ++ [0, 0, 0, 0x34, 0, 0, 0])) 0),
        .session .right (.receive .iterate 0),
        .session .right (.send (.call 0 (.response .bindTransceiverResp
          { systemId := octetsOf "server_01".toList } 1 .rok rfl))),
        .session .right (.send (.start 0)), .transmit .right 0 26,
        .session .right (.send (.writeDone 0 .success)), .session .left (.receive .asyncReceive 0),
        .session .left (.receive .iterate 0), .session .left (.receive .iterate 0),
        .session .left (.receive (.readDone .success
          (encodeHeader ⟨26, .bindTransceiverResp, .rok, 1⟩ ++
            octetsOf "server_01".toList ++ [0])) 0),
        .session .left (.receive .iterate 0)]).any
      (fun result => (Connection.delivered .left result.2).length = 1) = true := by
    decide +kernel
  rw [Option.any_eq_true] at hexec
  rcases hexec with ⟨⟨d, os⟩, hexec, hone⟩
  have hrun := EventMachine.steps_of_execIf isIntact
    (fun _ _ _ => Connection.intact_of_isIntact) _ hexec
  exact ⟨_, os, d, hrun, of_decide_eq_true hone, answers_of_run _ _ _ hrun⟩

/-! ## No deadlock -/

/-- The client waits for the last PDU only behind its {lit}`async_send_unbind`. -/
theorem ne_unbindResp_of_bound {p : ClientPoint} (hbound : client.Bound p) :
    p ≠ .unbindResp ∧ p ≠ .returned := by
  induction hbound with
  | start => exact ⟨by simp [client], by simp [client]⟩
  | @sent p before hawaits ih =>
      cases p with
      | unbind => exact absurd rfl hawaits
      | bind | bindResp | submit | submitResp => exact ⟨by simp [client], by simp [client]⟩
      | unbindResp => exact absurd rfl ih.1
      | returned => exact absurd rfl ih.2
  | @received p p' completion before hreceived ih =>
      have hloop : ∀ i, ClientPoint.loop i ≠ .unbindResp ∧ ClientPoint.loop i ≠ .returned := by
        intro i
        unfold ClientPoint.loop
        split <;> simp
      cases p with
      | bindResp | submitResp =>
          simp only [client, Option.ite_none_right_eq_some, Option.some.injEq] at hreceived
          rcases hreceived with ⟨_, rfl⟩
          exact hloop _
      | unbindResp => exact absurd rfl ih.1
      | bind | submit | unbind | returned => cases hreceived

/-- The two examples never wait for each other: on sessions that were not moved, while nothing is
transmitted behind a write that ended short and every frame is shorter than 2^32 octets, they
reach no state in which both sessions wait for octets while nothing is being written, nothing is
in transit and no write has ended short. -/
theorem not_settled_of_run (es : List ConnectionEvent) (os : List (Side × SessionObs))
    (d : Conversation ClientPoint ServerPoint N)
    (hrun : (machine client handleSession N).Run Intact es os d) : ¬ d.connection.Settled := by
  intro hsettled
  rcases drives_of_run hrun with ⟨hconnection, hclient, hserver⟩
  have hfollowsClient := Coroutine.follows_of_drives hclient
  have hfollowsServer := Coroutine.follows_of_drives hserver
  obtain ⟨p, hp⟩ := hfollowsClient.waits (by rw [hsettled.reading]; simp)
  obtain ⟨q, hq⟩ := hfollowsServer.waits (by rw [hsettled.reading]; simp)
  have hclientPath := hfollowsClient.path
  have hserverPath := hfollowsServer.path
  rw [hp] at hclientPath
  rw [hq] at hserverPath
  have hat : ClientPoint.At p p.sends _ _ := ClientPoint.inv_of_path hclientPath
  have hvalid := hat.valid
  have hawaits := hclientPath.awaits_of_receiving
  -- everything that was sent has been received, and the server has answered all of it
  have hthere := (Connection.conveyed_of_drained hconnection hclient (portable_of_client hclient)
    (hsettled.uncut .left) (hsettled.idle .left) (hsettled.drained .left)
    (hsettled.reading .right) (by simp [hp, Coroutine.Lagging])).length_eq
  have hback := (Connection.conveyed_of_drained hconnection hserver (portable_of_server hserver)
    (hsettled.uncut .right) (hsettled.idle .right) (hsettled.drained .right)
    (hsettled.reading .left) (by simp [hq, Coroutine.Lagging])).length_eq
  have hsame : (clientRequests.take p.sends).length = p.receives := by
    calc (clientRequests.take p.sends).length
        = ((calls (Connection.eventsOf .left es)).map Prod.snd).length := by rw [← hat.kinds_eq]
      _ = (Connection.delivered .right os).length := hthere
      _ = ((calls (Connection.eventsOf .right es)).map Prod.snd).length :=
          (ServerPoint.length_of_receiving hserverPath).symm
      _ = (Connection.delivered .left os).length := hback
      _ = p.receives := hat.length_eq
  cases p with
  | bindResp => cases hsame
  | submitResp i =>
      have hlt : i < 3 := hvalid
      have hsent : (clientRequests.take (i + 2)).length = i + 2 :=
        List.length_take_of_le (Nat.add_le_add_right (Nat.le_of_lt_succ hlt) 2)
      have hreceived : (clientRequests.take (i + 2)).length = i + 1 := hsame
      omega
  | unbindResp =>
      rcases Coroutine.unbound_of_drives hclient with hunbind | hbound
      · rcases Connection.failed_of_unbind hconnection hsettled hunbind hserver with ⟨ec, hfailed⟩
        rw [hq] at hfailed
        cases hfailed
      · have hnext := hbound .unbindResp (by rw [hp]; rfl)
        exact (ne_unbindResp_of_bound hnext).1 rfl
  | bind | submit | unbind | returned => cases hawaits

/-- Both wait for octets while the bind is in transit. -/
theorem not_settled_of_run_bind :
    ∃ es os, ∃ d : Conversation ClientPoint ServerPoint 64,
      (machine client handleSession 64).Run Intact es os d ∧
      (d.connection .left).session.recv.stage = .suspended .read ∧
      (d.connection .right).session.recv.stage = .suspended .read ∧
      ¬ d.connection.Settled := by
  have hexec : ((machine client handleSession 64).execIf isIntact
      (machine client handleSession 64).init
      [.session .left (.send (.call 0 (.request .bindTransceiver
          { systemId := octetsOf "client_01".toList } rfl))),
        .session .left (.send (.start 0)), .transmit .left 0 32,
        .session .left (.send (.writeDone 0 .success)), .session .left (.receive .asyncReceive 0),
        .session .left (.receive .iterate 0), .session .left (.receive .iterate 0),
        .session .right (.receive .asyncReceive 0), .session .right (.receive .iterate 0),
        .session .right (.receive .iterate 0)]).any
      (fun result =>
        (result.1.connection .left).session.recv.stage = .suspended .read ∧
          (result.1.connection .right).session.recv.stage = .suspended .read) = true := by
    decide +kernel
  rw [Option.any_eq_true] at hexec
  rcases hexec with ⟨⟨d, os⟩, hexec, hreading⟩
  have hrun := EventMachine.steps_of_execIf isIntact
    (fun _ _ _ => Connection.intact_of_isIntact) _ hexec
  rcases of_decide_eq_true hreading with ⟨hleft, hright⟩
  exact ⟨_, os, d, hrun, hleft, hright, not_settled_of_run _ _ _ hrun⟩

end Conversation

end Smpp
