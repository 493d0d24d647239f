import Smpp.Param.Flags
import Smpp.Utility.DataCodingUnicode
import Smpp.Utility.UserDataHeader

/-!
# Packing and unpacking short messages

{lit}`pack_short_message` puts the serialized user data header, if it is not empty, behind
one octet with its length and in front of the body; {lit}`unpack_short_message` takes the
message apart again if the UDHI bit of the esm_class says so.  Both check the length of
the message against the same limit.

Main results:

- Theorem {lit}`unpackShortMessage_packShortMessage`: unpacking undoes packing.
- Theorem {lit}`unpackShortMessage_splits`: which messages are rejected, and how the others
  are split.
- Theorem {lit}`multiPartData_survives_iff`: the reference numbers that arrive unchanged.
- Theorem {lit}`UserDataHeader.not_overwrites`: setting a part a second time adds a second
  concatenation element.
-/

namespace Smpp

/-- The check of the length of a message, which both functions make. -/
def checkLength (dataCoding : DataCoding) (length : Nat) : Except Fault Unit :=
  if extractUnicode dataCoding = .ascii8Bit then
    if length > 160 then
      throw (.lengthError "short_message length is larger than 160")
    else
      pure ()
  else
    if length > 140 then
      throw (.lengthError "short_message length is larger than 140")
    else
      pure ()

/-- {lit}`std::string::substr`. -/
def stringSubstr (s : Octets) (pos count : Nat) : Except Fault Octets :=
  if pos ≤ s.length then .ok ((s.drop pos).take count) else .error .outOfRange

/-- The two values of {lit}`gsm_network_features` with the UDHI bit. -/
def hasUdhi (esmClass : EsmClass) : Bool :=
  esmClass.gsmNetworkFeatures = .uhdi || esmClass.gsmNetworkFeatures = .both

/-- {lit}`unpack_short_message`; the character at position 0 of an empty string is its
terminator. -/
def unpackShortMessage (esmClass : EsmClass) (dataCoding : DataCoding) (shortMessage : Octets) :
    Except Fault (UserDataHeader × Octets) := do
  checkLength dataCoding shortMessage.length
  if hasUdhi esmClass then
    let udhLength := shortMessage.headD 0
    if udhLength.toNat ≥ shortMessage.length then
      throw (.lengthError "UDH lenght is larger than short_message")
    else
      let udh ← UserDataHeader.ofView (← stringSubstr shortMessage 1 udhLength.toNat)
      return (udh, ← stringSubstr shortMessage (1 + udhLength.toNat) shortMessage.length)
  else
    return ({}, shortMessage)

/-- {lit}`pack_short_message`. -/
def packShortMessage (userDataHeader : UserDataHeader) (body : Octets) (dataCoding : DataCoding) :
    Except Fault Octets := do
  let serializedUdh := userDataHeader.serialize
  let shortMessage :=
    if serializedUdh.length ≠ 0 then
      [UInt8.ofNat serializedUdh.length] ++ serializedUdh
    else
      []
  let shortMessage := shortMessage ++ body
  checkLength dataCoding shortMessage.length
  return shortMessage

/-! ## The length limit -/

/-- The longest message for a data_coding. -/
def lengthLimit (dataCoding : DataCoding) : Nat :=
  if extractUnicode dataCoding = .ascii8Bit then 160 else 140

theorem lengthLimit_le (dataCoding : DataCoding) : lengthLimit dataCoding ≤ 160 := by
  unfold lengthLimit
  split <;> decide

theorem checkLength_of_le {dataCoding : DataCoding} {length : Nat}
    (hle : length ≤ lengthLimit dataCoding) : checkLength dataCoding length = .ok () := by
  unfold lengthLimit at hle
  unfold checkLength
  split
  · rename_i hascii
    rw [if_pos hascii] at hle
    rw [if_neg (Nat.not_lt.mpr hle)]
    rfl
  · rename_i hascii
    rw [if_neg hascii] at hle
    rw [if_neg (Nat.not_lt.mpr hle)]
    rfl

theorem checkLength_of_lt {dataCoding : DataCoding} {length : Nat}
    (hlt : lengthLimit dataCoding < length) :
    ∃ what, checkLength dataCoding length = .error (.lengthError what) := by
  unfold lengthLimit at hlt
  unfold checkLength
  split
  · rename_i hascii
    rw [if_pos hascii] at hlt
    exact ⟨_, if_pos hlt⟩
  · rename_i hascii
    rw [if_neg hascii] at hlt
    exact ⟨_, if_pos hlt⟩

/-! ## Packing -/

/-- A header in front of a body: nothing, or its length and its text. -/
def headerText (h : UserDataHeader) : Octets :=
  if h.serialize.length ≠ 0 then [UInt8.ofNat h.serialize.length] ++ h.serialize else []

theorem packShortMessage_eq_ok_iff {h : UserDataHeader} {body m : Octets}
    {dataCoding : DataCoding} :
    packShortMessage h body dataCoding = .ok m ↔
      m = headerText h ++ body ∧ m.length ≤ lengthLimit dataCoding := by
  have hpack : packShortMessage h body dataCoding = do
      checkLength dataCoding (headerText h ++ body).length
      return headerText h ++ body := rfl
  rw [hpack]
  by_cases hle : (headerText h ++ body).length ≤ lengthLimit dataCoding
  · rw [checkLength_of_le hle]
    constructor
    · intro hok
      cases hok
      exact ⟨rfl, hle⟩
    · rintro ⟨rfl, _⟩
      rfl
  · rcases checkLength_of_lt (Nat.not_le.mp hle) with ⟨what, herror⟩
    rw [herror]
    constructor
    · intro hok
      cases hok
    · rintro ⟨rfl, hle'⟩
      exact absurd hle' hle

theorem serialize_eq_nil_iff (h : UserDataHeader) : h.serialize = [] ↔ h.headers = [] := by
  unfold UserDataHeader.serialize
  rw [List.flatMap_eq_nil_iff]
  constructor
  · intro hall
    rw [List.eq_nil_iff_forall_not_mem]
    intro element hmem
    have hlength := UserDataHeader.length_encodeElement element
    rw [hall element hmem] at hlength
    simp [UserDataHeader.headerLength] at hlength
    omega
  · intro hnil element hmem
    rw [hnil] at hmem
    cases hmem

/-! ## Unpacking -/

theorem unpackShortMessage_of_lt {esmClass : EsmClass} {dataCoding : DataCoding} {m : Octets}
    (hlt : lengthLimit dataCoding < m.length) :
    ∃ what, unpackShortMessage esmClass dataCoding m = .error (.lengthError what) := by
  rcases checkLength_of_lt hlt with ⟨what, herror⟩
  refine ⟨what, ?_⟩
  unfold unpackShortMessage
  rw [herror]
  rfl

/-- Without the UDHI bit the whole message is the body. -/
theorem unpackShortMessage_plain {esmClass : EsmClass} {dataCoding : DataCoding} {m : Octets}
    (hle : m.length ≤ lengthLimit dataCoding) (hudhi : ¬hasUdhi esmClass = true) :
    unpackShortMessage esmClass dataCoding m = .ok ({}, m) := by
  unfold unpackShortMessage
  rw [checkLength_of_le hle, if_neg hudhi]
  rfl

/-- With the UDHI bit a header length that leaves the message is rejected. -/
theorem unpackShortMessage_overrun {esmClass : EsmClass} {dataCoding : DataCoding} {m : Octets}
    (hle : m.length ≤ lengthLimit dataCoding) (hudhi : hasUdhi esmClass = true)
    (hoverrun : m.length ≤ (m.headD 0).toNat) :
    unpackShortMessage esmClass dataCoding m =
      .error (.lengthError "UDH lenght is larger than short_message") := by
  unfold unpackShortMessage
  rw [checkLength_of_le hle, if_pos hudhi]
  exact if_pos hoverrun

/-- With the UDHI bit a message is a length, a header of this length and a body. -/
theorem unpackShortMessage_cons {esmClass : EsmClass} {dataCoding : DataCoding} {n : UInt8}
    {u body : Octets} (hle : (n :: (u ++ body)).length ≤ lengthLimit dataCoding)
    (hudhi : hasUdhi esmClass = true) (hlength : u.length = n.toNat) :
    unpackShortMessage esmClass dataCoding (n :: (u ++ body)) =
      (UserDataHeader.ofView u).map fun h => (h, body) := by
  have hsize : (n :: (u ++ body)).length = 1 + n.toNat + body.length := by
    rw [List.length_cons, List.length_append, hlength]
    omega
  have hwithin : ¬n.toNat ≥ (n :: (u ++ body)).length := by omega
  have hheader : stringSubstr (n :: (u ++ body)) 1 n.toNat = .ok u := by
    rw [stringSubstr, if_pos (by omega), ← hlength]
    simp
  have hbody : stringSubstr (n :: (u ++ body)) (1 + n.toNat) (n :: (u ++ body)).length =
      .ok body := by
    have hdrop : (n :: (u ++ body)).drop (1 + n.toNat) = body := by
      rw [← hlength, Nat.add_comm, List.drop_succ_cons, List.drop_left]
    rw [stringSubstr, if_pos (by omega), hdrop, List.take_of_length_le (by omega)]
  unfold unpackShortMessage
  rw [checkLength_of_le hle, if_pos hudhi]
  refine (if_neg hwithin).trans ?_
  show (do
    let udh ← UserDataHeader.ofView (← stringSubstr (n :: (u ++ body)) 1 n.toNat)
    return (udh, ← stringSubstr (n :: (u ++ body)) (1 + n.toNat) (n :: (u ++ body)).length)) = _
  rw [hheader, hbody]
  show (UserDataHeader.ofView u >>= fun h => pure (h, body)) = _
  cases UserDataHeader.ofView u <;> rfl

/-! ## Unpacking what has been packed -/

/-- The header text of a packed message fits the octet in front of it. -/
theorem length_serialize_le {h : UserDataHeader} {body m : Octets} {dataCoding : DataCoding}
    (hpack : packShortMessage h body dataCoding = .ok m) : h.serialize.length ≤ 159 := by
  rcases packShortMessage_eq_ok_iff.mp hpack with ⟨rfl, hle⟩
  have hlimit := lengthLimit_le dataCoding
  by_cases hnil : h.serialize.length ≠ 0
  · rw [headerText, if_pos hnil] at hle
    simp at hle
    omega
  · omega

/-- A packed message is unpacked to what it was made of. -/
theorem unpackShortMessage_of_pack {h : UserDataHeader} {body m : Octets}
    {dataCoding : DataCoding} {esmClass : EsmClass}
    (hpack : packShortMessage h body dataCoding = .ok m)
    (hudhi : hasUdhi esmClass = true ↔ h.headers ≠ []) :
    unpackShortMessage esmClass dataCoding m = .ok (h, body) := by
  have hshort := length_serialize_le hpack
  rcases packShortMessage_eq_ok_iff.mp hpack with ⟨rfl, hle⟩
  by_cases hnil : h.headers = []
  · have hempty : h = {} := UserDataHeader.ext hnil
    subst hempty
    exact unpackShortMessage_plain hle fun htrue => hudhi.mp htrue rfl
  · have hserialize : h.serialize.length ≠ 0 := fun hzero =>
      hnil ((serialize_eq_nil_iff h).mp (List.eq_nil_of_length_eq_zero hzero))
    have htext : headerText h ++ body =
        UInt8.ofNat h.serialize.length :: (h.serialize ++ body) := by
      rw [headerText, if_pos hserialize]
      rfl
    have hlength : h.serialize.length = (UInt8.ofNat h.serialize.length).toNat := by
      rw [UInt8.toNat_ofNat']
      omega
    rw [htext] at hle ⊢
    rw [unpackShortMessage_cons hle (hudhi.mpr hnil) hlength, UserDataHeader.ofView_serialize]
    rfl

/-- Unpacking undoes packing for every header, body and data_coding, if the UDHI bit says
whether there is a header; no length octet is truncated. -/
theorem unpackShortMessage_packShortMessage (h : UserDataHeader) (body m : Octets)
    (dataCoding : DataCoding) (esmClass : EsmClass)
    (hpack : packShortMessage h body dataCoding = .ok m)
    (hudhi : hasUdhi esmClass = true ↔ h.headers ≠ []) :
    unpackShortMessage esmClass dataCoding m = .ok (h, body) ∧
      (UInt8.ofNat h.serialize.length).toNat = h.serialize.length ∧
      ∀ element ∈ h.headers, (UInt8.ofNat element.2.length).toNat = element.2.length := by
  refine ⟨unpackShortMessage_of_pack hpack hudhi, ?_, ?_⟩
  · have hshort := length_serialize_le hpack
    rw [UInt8.toNat_ofNat']
    omega
  · intro element hmem
    exact UserDataHeader.toNat_ofNat_length (h.fits element hmem).1

theorem unpackShortMessage_packShortMessage_hi :
    unpackShortMessage { gsmNetworkFeatures := .uhdi } .defaults
        [0x05, 0x00, 0x03, 0x07, 0x02, 0x01, 0x68, 0x69] =
        .ok (UserDataHeader.ofMultiPartData ⟨7, 2, 1⟩, [0x68, 0x69]) ∧
      (UInt8.ofNat (UserDataHeader.ofMultiPartData ⟨7, 2, 1⟩).serialize.length).toNat =
        (UserDataHeader.ofMultiPartData ⟨7, 2, 1⟩).serialize.length ∧
      ∀ element ∈ (UserDataHeader.ofMultiPartData ⟨7, 2, 1⟩).headers,
        (UInt8.ofNat element.2.length).toNat = element.2.length :=
  unpackShortMessage_packShortMessage (UserDataHeader.ofMultiPartData ⟨7, 2, 1⟩) [0x68, 0x69] _
    .defaults { gsmNetworkFeatures := .uhdi } rfl (by decide)

/-! ## Unpacking whatever arrives -/

/-- Messages longer than the limit, and messages with a header that leaves them or that
has a bad element. -/
def Unsplittable (esmClass : EsmClass) (dataCoding : DataCoding) (m : Octets) : Prop :=
  lengthLimit dataCoding < m.length ∨
    (hasUdhi esmClass = true ∧
      (m = [] ∨ ∃ n rest, m = n :: rest ∧
        (m.length ≤ n.toNat ∨ UserDataHeader.elementFormat.Malformed (rest.take n.toNat))))

/-- What is returned are the parts of the message: with the UDHI bit a length, a header with at
most one stray octet and a body, otherwise a body. -/
def Splits (esmClass : EsmClass) (m : Octets) (h : UserDataHeader) (body : Octets) : Prop :=
  if hasUdhi esmClass then
    ∃ n u tail, m = n :: (u ++ body) ∧ u.length = n.toNat ∧ u = h.serialize ++ tail ∧
      tail.length ≤ 1
  else h.headers = [] ∧ body = m

section Framed

variable {esmClass : EsmClass} {dataCoding : DataCoding} {n : UInt8} {rest : Octets}

theorem length_take_header (hinside : ¬(n :: rest).length ≤ n.toNat) :
    (rest.take n.toNat).length = n.toNat := by
  rw [List.length_take]
  simp only [List.length_cons, Nat.not_le] at hinside
  omega

/-- A message that contains its header is read as the header is. -/
theorem unpackShortMessage_framed (hle : (n :: rest).length ≤ lengthLimit dataCoding)
    (hudhi : hasUdhi esmClass = true) (hinside : ¬(n :: rest).length ≤ n.toNat) :
    unpackShortMessage esmClass dataCoding (n :: rest) =
      (UserDataHeader.ofView (rest.take n.toNat)).map fun h => (h, rest.drop n.toNat) := by
  have hm : n :: rest = n :: (rest.take n.toNat ++ rest.drop n.toNat) := by
    rw [List.take_append_drop]
  have hread := unpackShortMessage_cons (hm ▸ hle) hudhi (length_take_header hinside)
  rwa [← hm] at hread

/-- Nothing but its header can be wrong with it. -/
theorem unsplittable_framed_iff (hle : (n :: rest).length ≤ lengthLimit dataCoding)
    (hudhi : hasUdhi esmClass = true) (hinside : ¬(n :: rest).length ≤ n.toNat) :
    Unsplittable esmClass dataCoding (n :: rest) ↔
      UserDataHeader.elementFormat.Malformed (rest.take n.toNat) := by
  constructor
  · rintro (hlong | ⟨_, hnil | ⟨n', rest', hcons, hbad⟩⟩)
    · exact absurd hle (Nat.not_le.mpr hlong)
    · cases hnil
    · cases hcons
      exact hbad.resolve_left hinside
  · intro hmalformed
    exact Or.inr ⟨hudhi, Or.inr ⟨n, rest, rfl, Or.inr hmalformed⟩⟩

theorem splits_framed {h : UserDataHeader} (hudhi : hasUdhi esmClass = true)
    (hinside : ¬(n :: rest).length ≤ n.toNat)
    (hread : UserDataHeader.ofView (rest.take n.toNat) = .ok h) :
    Splits esmClass (n :: rest) h (rest.drop n.toNat) := by
  rcases UserDataHeader.eq_of_ofView hread with ⟨tail, htail, hu⟩
  rw [Splits, if_pos hudhi]
  refine ⟨n, rest.take n.toNat, tail, ?_, length_take_header hinside, hu, htail⟩
  rw [List.take_append_drop]

end Framed

/-- A message is rejected with a length error, or it is split. -/
theorem unpackShortMessage_cases (esmClass : EsmClass) (dataCoding : DataCoding) (m : Octets) :
    (Unsplittable esmClass dataCoding m ∧
      ∃ what, unpackShortMessage esmClass dataCoding m = .error (.lengthError what)) ∨
    (¬Unsplittable esmClass dataCoding m ∧
      ∃ h body, unpackShortMessage esmClass dataCoding m = .ok (h, body) ∧
        Splits esmClass m h body) := by
  by_cases hle : m.length ≤ lengthLimit dataCoding
  case neg =>
    exact Or.inl ⟨Or.inl (Nat.not_le.mp hle), unpackShortMessage_of_lt (Nat.not_le.mp hle)⟩
  by_cases hudhi : hasUdhi esmClass = true
  case neg =>
    refine Or.inr ⟨?_, {}, m, unpackShortMessage_plain hle hudhi, ?_⟩
    · rintro (hlong | ⟨htrue, _⟩)
      · exact absurd hle (Nat.not_le.mpr hlong)
      · exact hudhi htrue
    · rw [Splits, if_neg hudhi]
      exact ⟨rfl, rfl⟩
  cases m with
  | nil =>
      exact Or.inl ⟨Or.inr ⟨hudhi, Or.inl rfl⟩, _,
        unpackShortMessage_overrun hle hudhi (Nat.zero_le _)⟩
  | cons n rest =>
      by_cases hinside : (n :: rest).length ≤ n.toNat
      case pos =>
        exact Or.inl ⟨Or.inr ⟨hudhi, Or.inr ⟨n, rest, rfl, Or.inl hinside⟩⟩, _,
          unpackShortMessage_overrun hle hudhi hinside⟩
      rw [unpackShortMessage_framed hle hudhi hinside, unsplittable_framed_iff hle hudhi hinside]
      rcases UserDataHeader.ofView_cases (rest.take n.toNat) with ⟨h, hread⟩ | hmalformed
      · refine Or.inr ⟨UserDataHeader.not_malformed_of_ofView hread, h, rest.drop n.toNat, ?_,
          splits_framed hudhi hinside hread⟩
        rw [hread]
        rfl
      · rcases UserDataHeader.ofView_of_malformed hmalformed with ⟨what, herror⟩
        refine Or.inl ⟨hmalformed, what, ?_⟩
        rw [herror]
        rfl

/-- What {lit}`unpack_short_message` does with a message. -/
structure UnpacksExactly (esmClass : EsmClass) (dataCoding : DataCoding) (m : Octets) :
    Prop where
  rejects : (∃ what, unpackShortMessage esmClass dataCoding m = .error (.lengthError what)) ↔
    Unsplittable esmClass dataCoding m
  /-- No access leaves the message. -/
  faults : ∀ e, unpackShortMessage esmClass dataCoding m = .error e → ∃ what, e = .lengthError what
  splits : ∀ h body, unpackShortMessage esmClass dataCoding m = .ok (h, body) →
    Splits esmClass m h body

/-- Every message is rejected with a length error or split exactly, and looking up the
part information of a header stays within the stored values. -/
theorem unpackShortMessage_splits (esmClass : EsmClass) (dataCoding : DataCoding) (m : Octets) :
    UnpacksExactly esmClass dataCoding m ∧
      ∀ h : UserDataHeader, ∃ mpd, h.getMultiPartData = .ok mpd := by
  refine ⟨?_, UserDataHeader.getMultiPartData_eq_ok⟩
  rcases unpackShortMessage_cases esmClass dataCoding m with
    ⟨hbad, what, herror⟩ | ⟨hgood, h, body, hok, hsplits⟩
  · refine ⟨⟨fun _ => hbad, fun _ => ⟨what, herror⟩⟩, ?_, ?_⟩
    · intro e he
      rw [herror] at he
      cases he
      exact ⟨what, rfl⟩
    · intro h body hok
      rw [herror] at hok
      cases hok
  · refine ⟨⟨?_, fun hbad => absurd hbad hgood⟩, ?_, ?_⟩
    · rintro ⟨what, herror⟩
      rw [hok] at herror
      cases herror
    · intro e herror
      rw [hok] at herror
      cases herror
    · intro h' body' hok'
      rw [hok] at hok'
      cases hok'
      exact hsplits

/-! ## Concatenated messages -/

/-- The part information of a packed message arrives unchanged exactly if the lower octet of
the reference number has no sign bit or its upper octet consists of ones. -/
theorem multiPartData_survives_iff (h : UserDataHeader) (mpd : MultiPartData) (body m : Octets)
    (dataCoding : DataCoding) (esmClass : EsmClass) (hnone : h.concatenations = [])
    (hpack : packShortMessage (h.setMultiPartData mpd) body dataCoding = .ok m)
    (hudhi : hasUdhi esmClass = true) :
    (∃ h', unpackShortMessage esmClass dataCoding m = .ok (h', body) ∧
        h'.getMultiPartData = .ok mpd) ↔
      mpd.concatSmRefNum.toNat % 256 < 128 ∨ 0xFF00 ≤ mpd.concatSmRefNum.toNat := by
  have hunpack : unpackShortMessage esmClass dataCoding m = .ok (h.setMultiPartData mpd, body) :=
    unpackShortMessage_of_pack hpack ⟨fun _ => by simp, fun _ => hudhi⟩
  have hget := UserDataHeader.getMultiPartData_setMultiPartData mpd hnone
  rw [← UserDataHeader.readBack_eq_iff]
  constructor
  · rintro ⟨h', hunpack', hget'⟩
    rw [hunpack] at hunpack'
    cases hunpack'
    rw [hget] at hget'
    exact Except.ok.inj hget'
  · intro hsame
    exact ⟨_, hunpack, by rw [hget, hsame]⟩

theorem multiPartData_survives_iff_seven :
    (∃ h', unpackShortMessage { gsmNetworkFeatures := .both } ⟨0x08⟩
        [0x05, 0x00, 0x03, 0x07, 0x02, 0x01, 0x68, 0x69] = .ok (h', [0x68, 0x69]) ∧
        h'.getMultiPartData = .ok ⟨7, 2, 1⟩) ↔
      (7 : UInt16).toNat % 256 < 128 ∨ 0xFF00 ≤ (7 : UInt16).toNat :=
  multiPartData_survives_iff {} ⟨7, 2, 1⟩ [0x68, 0x69] _ ⟨0x08⟩ { gsmNetworkFeatures := .both }
    rfl rfl rfl

/-- Reference number 128 of a message of two parts comes back as 65408. -/
theorem not_multiPartData_survives_128 :
    ∃ m, packShortMessage (UserDataHeader.setMultiPartData {} ⟨128, 2, 1⟩) [0x68, 0x69] .defaults =
        .ok m ∧
      ¬∃ h', unpackShortMessage { gsmNetworkFeatures := .uhdi } .defaults m =
          .ok (h', [0x68, 0x69]) ∧
        h'.getMultiPartData = .ok ⟨128, 2, 1⟩ := by
  refine ⟨_, rfl, ?_⟩
  rintro ⟨h', hunpack, hget⟩
  have hpack : packShortMessage (UserDataHeader.setMultiPartData {} ⟨128, 2, 1⟩) [0x68, 0x69]
      .defaults = .ok _ := rfl
  have hudhi : hasUdhi { gsmNetworkFeatures := .uhdi } = true ↔
      (UserDataHeader.setMultiPartData {} ⟨128, 2, 1⟩).headers ≠ [] := by decide
  rw [unpackShortMessage_of_pack hpack hudhi] at hunpack
  cases hunpack
  revert hget
  decide

namespace UserDataHeader

/-- Setting one part and then another leaves a header that describes the second one
only. -/
def Overwrites (h : UserDataHeader) (a b : MultiPartData) : Prop :=
  ((h.setMultiPartData a).setMultiPartData b).getMultiPartData =
      (h.setMultiPartData b).getMultiPartData ∧
    ∃ parsed, ofView ((h.setMultiPartData a).setMultiPartData b).serialize = .ok parsed ∧
      parsed.concatenations.length = 1

/-- There are two concatenation elements in the header, whatever the parts are. -/
theorem not_overwrites (h : UserDataHeader) (a b : MultiPartData) (hnone : h.concatenations = []) :
    ¬Overwrites h a b := by
  rintro ⟨_, parsed, hparsed, hone⟩
  rw [ofView_serialize] at hparsed
  cases hparsed
  rw [concatenations_setMultiPartData, concatenations_setMultiPartData, hnone] at hone
  simp at hone

theorem not_overwrites_parts : ¬Overwrites {} ⟨7, 2, 1⟩ ⟨7, 2, 2⟩ :=
  not_overwrites {} ⟨7, 2, 1⟩ ⟨7, 2, 2⟩ rfl

/-- The header of the second part of a message still describes the first one. -/
theorem not_overwrites_reused :
    ((setMultiPartData {} ⟨7, 2, 1⟩).setMultiPartData ⟨7, 2, 2⟩).getMultiPartData =
        .ok ⟨7, 2, 1⟩ ∧
      ¬Overwrites {} ⟨7, 2, 1⟩ ⟨7, 2, 2⟩ := by
  refine ⟨by decide, ?_⟩
  rintro ⟨hget, _⟩
  revert hget
  decide

end UserDataHeader

end Smpp
