import Smpp.Net.EndToEnd
import Smpp.Utility.ShortMessage

/-!
# Texts from one application to the other

An application packs a user data header and a text into the short message of a PDU and sets
the {lit}`esm_class` and the {lit}`data_coding` to match; the application of the peer unpacks
what its receive operations complete with.

Main results:

- Theorem {lit}`Connection.texts_of_run`: what is unpacked at one end are the headers and texts
  that were packed at the other, in order.
-/

namespace Smpp

/-! ## Short messages -/

/-- The short message of a PDU that has one, with what it takes to unpack it. -/
def shortMessageOf : PduVariant → Option (EsmClass × DataCoding × Octets)
  | .pdu t pdu =>
      match t, pdu with
      | .submitSm, pdu => some (pdu.esmClass, pdu.dataCoding, pdu.shortMessage)
      | .deliverSm, pdu => some (pdu.esmClass, pdu.dataCoding, pdu.shortMessage)
      | _, _ => none
  | .invalidPdu _ _ => none

/-- What the short message of a PDU is unpacked to. -/
def unpacked (pdu : PduVariant) : Option (Except Fault (UserDataHeader × Octets)) :=
  (shortMessageOf pdu).map fun ⟨esmClass, dataCoding, shortMessage⟩ =>
    unpackShortMessage esmClass dataCoding shortMessage

namespace SendKind

variable {kind : SendKind} {text : UserDataHeader × Octets}

/-- The short message that the operation sends, if it sends one, was packed from the text, and
the {lit}`esm_class` says whether it has a header. -/
def Packs (kind : SendKind) (text : UserDataHeader × Octets) : Prop :=
  ∀ t pdu, kind.value = some ⟨t, pdu⟩ →
    ∀ esmClass dataCoding shortMessage,
      shortMessageOf (.pdu t pdu) = some (esmClass, dataCoding, shortMessage) →
        packShortMessage text.1 text.2 dataCoding = .ok shortMessage ∧
          (hasUdhi esmClass = true ↔ text.1.headers ≠ [])

/-- The operation sends a short message. -/
def hasShortMessage (kind : SendKind) : Bool :=
  match kind.value with
  | some ⟨t, pdu⟩ => (shortMessageOf (.pdu t pdu)).isSome
  | none => false

/-- The message of an operation is unpacked to what it was packed from. -/
theorem unpacked_message (hpacks : kind.Packs text) (frame : Octets) :
    (kind.message frame).filterMap (unpacked ·.pdu) =
      if kind.hasShortMessage then [.ok text] else [] := by
  unfold message hasShortMessage
  cases hvalue : kind.value with
  | none => rfl
  | some value =>
      rcases value with ⟨t, pdu⟩
      cases hmessage : shortMessageOf (.pdu t pdu) with
      | none => simp [unpacked, hmessage]
      | some parts =>
          rcases parts with ⟨esmClass, dataCoding, shortMessage⟩
          rcases hpacks t pdu hvalue _ _ _ hmessage with ⟨hpack, hudhi⟩
          simp [unpacked, hmessage, unpackShortMessage_of_pack hpack hudhi]

end SendKind

namespace Session

variable {N : Nat}

/-- The texts whose short messages a session has started to write. -/
def packed (s : Session N) (text : Nat → UserDataHeader × Octets) (os : List SessionObs) :
    List (UserDataHeader × Octets) :=
  (writes os).filterMap fun write =>
    match s.send.ops write.1 with
    | some op => if op.kind.hasShortMessage then some (text write.1) else none
    | none => none

/-- What is sent is unpacked to what was packed. -/
theorem unpacked_sent {s : Session N} {text : Nat → UserDataHeader × Octets}
    (hpacks : ∀ id op, s.send.ops id = some op → op.kind.Packs (text id))
    (os : List SessionObs) :
    (s.sent os).filterMap (unpacked ·.pdu) = (s.packed text os).map .ok := by
  rw [sent, packed]
  induction writes os with
  | nil => rfl
  | cons write later ih =>
      rw [List.flatMap_cons, List.filterMap_append, ih, List.filterMap_cons]
      cases hop : s.send.ops write.1 with
      | none => rfl
      | some op =>
          simp only [SendKind.unpacked_message (hpacks write.1 op hop) write.2]
          cases op.kind.hasShortMessage with
          | true => rfl
          | false => rfl

end Session

namespace Connection

variable {N : Nat}

/-- What the application of one end unpacks. -/
def texts (side : Side) (os : List (Side × SessionObs)) :
    List (Except Fault (UserDataHeader × Octets)) :=
  (delivered side os).filterMap (unpacked ·.pdu)

/-- While nothing is transmitted behind a write that ended short, every frame is shorter than
2^32 octets and the PDUs that one end sends hold no NUL in a C string and keep their flags: what
is unpacked at the other end are, in order, the first of the headers and texts that were packed
for the writes that it has started.  When no write of this end has ended short, none is
outstanding, nothing is in transit and the receiver waits for octets, none is missing. -/
theorem texts_of_run (es : List ConnectionEvent) (os : List (Side × SessionObs))
    (c : Connection N) (hrun : (machine N).Run Intact es os c) (side : Side)
    (hportable : ∀ id op, (c side).session.send.ops id = some op → op.kind.Portable)
    (text : Nat → UserDataHeader × Octets)
    (hpacks : ∀ id op, (c side).session.send.ops id = some op → op.kind.Packs (text id)) :
    texts side.peer os <+: ((c side).session.packed text (obsOf side os)).map .ok ∧
      ((c side).cut = false → (∀ id frame, ¬ (c side).session.send.Writing id frame) →
        (c side).outgoing = [] → (c side.peer).session.recv.stage = .suspended .read →
          texts side.peer os = ((c side).session.packed text (obsOf side os)).map .ok) := by
  rcases exists_missing hrun side hportable with ⟨missing, hsent, hdrained⟩
  have htexts := Session.unpacked_sent hpacks (obsOf side os)
  rw [hsent, List.filterMap_append] at htexts
  rw [← htexts]
  refine ⟨List.prefix_append _ _, fun hcut hidle hempty hreading => ?_⟩
  rw [hdrained hcut hidle hempty hreading, List.filterMap_nil, List.append_nil]
  rfl

/-- A {lit}`submit_sm` with a multi-part header and a text. -/
theorem texts_of_run_submitSm :
    ∃ es os, ∃ c : Connection 64, (machine 64).Run Intact es os c ∧
      texts .right os = [.ok (UserDataHeader.ofMultiPartData ⟨7, 2, 1⟩, [0x68, 0x69])] ∧
      (texts .right os <+: ((c .left).session.packed
          (fun _ => (UserDataHeader.ofMultiPartData ⟨7, 2, 1⟩, [0x68, 0x69]))
          (obsOf .left os)).map .ok ∧
        ((c .left).cut = false → (∀ id frame, ¬ (c .left).session.send.Writing id frame) →
          (c .left).outgoing = [] → (c .right).session.recv.stage = .suspended .read →
            texts .right os = ((c .left).session.packed
              (fun _ => (UserDataHeader.ofMultiPartData ⟨7, 2, 1⟩, [0x68, 0x69]))
              (obsOf .left os)).map .ok)) := by
  have hrun := EventMachine.steps_of_execIf (M := machine 64) (s := (machine 64).init)
    isIntact (fun _ _ _ => intact_of_isIntact)
    [.session .left (.send (.call 0 (.request .submitSm
        { esmClass := { gsmNetworkFeatures := .uhdi }
          shortMessage := [0x05, 0x00, 0x03, 0x07, 0x02, 0x01, 0x68, 0x69] } rfl))),
      .session .left (.send (.start 0)), .transmit .left 0 41,
      .session .left (.send (.writeDone 0 .success)), .session .right (.receive .asyncReceive 0),
      .session .right (.receive .iterate 0), .session .right (.receive .iterate 0),
      .session .right (.receive (.readDone .success (encodeHeader ⟨41, .submitSm, .rok, 1⟩ ++
        [0, 0, 0, 0, 0, 0, 0, 0x40, 0, 0, 0, 0, 0, 0, 0, 0,
          8, 0x05, 0x00, 0x03, 0x07, 0x02, 0x01, 0x68, 0x69])) 0),
      .session .right (.receive .iterate 0)] rfl
  refine ⟨_, _, _, hrun, by decide +kernel, texts_of_run _ _ _ hrun .left ?portable _ ?packs⟩
  case portable =>
    intro id op hop
    cases id with
    | zero =>
        cases hop
        exact ⟨⟨trivial, trivial, trivial, trivial, trivial, trivial, trivial, rfl, trivial,
          trivial, trivial, trivial, rfl, trivial, trivial, trivial, trivial, trivial⟩,
          ⟨List.not_mem_nil, trivial, trivial, List.not_mem_nil, trivial, trivial,
            List.not_mem_nil, trivial, trivial, trivial, List.not_mem_nil, List.not_mem_nil,
            trivial, trivial, trivial, trivial, trivial, trivial⟩⟩
    | succ id => cases hop
  case packs =>
    intro id op hop
    cases id with
    | zero =>
        cases hop
        rintro t pdu ⟨⟩ esmClass dataCoding shortMessage ⟨⟩
        exact ⟨rfl, by decide⟩
    | succ id => cases hop

end Connection

end Smpp
