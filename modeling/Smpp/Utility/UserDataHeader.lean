import Smpp.Common.Octets
import Smpp.Library.BigEndian
import Smpp.Library.Records

/-!
# User data headers

{lit}`class user_data_header` keeps a list of elements, each a tag and a value.  The
constructor from a string reads elements while two octets are left, {lit}`serialize` writes
them one behind the other, and {lit}`set_multi_part_data` appends a concatenation element,
which {lit}`get_multi_part_data` looks for.

The type carries what the constructor checks and the setter keeps: a value fits its
length octet, and the two concatenation tags have values of three and four octets.
{lit}`char` is a signed octet.

Main results:

- Definition {lit}`elementFormat`: the element loop is a loop over records.
- Theorems {lit}`ofView_serialize` and {lit}`ofView_cases`: what the constructor returns and
  when it throws.
- Theorem {lit}`getMultiPartData_eq_ok`: the lookup never leaves a stored value.
-/

namespace Smpp

/-- {lit}`user_data_header::multi_part_data`. -/
structure MultiPartData where
  concatSmRefNum : UInt16 := 0
  numberOfParts : UInt8 := 0
  sequenceNumber : UInt8 := 0
deriving DecidableEq, Repr

namespace UserDataHeader

/-- {lit}`user_data_header::concatenated_sm_8bit_ref`. -/
def concatenatedSm8bitRef : UInt8 := 0x00

/-- {lit}`user_data_header::concatenated_sm_16bit_ref`. -/
def concatenatedSm16bitRef : UInt8 := 0x08

/-- The {lit}`header_length` of an element. -/
def headerLength : Nat := 2

/-- A length that the check of the constructor lets pass for a tag. -/
def LengthFits (tag : UInt8) (length : Nat) : Prop :=
  (tag = concatenatedSm8bitRef → length = 3) ∧ (tag = concatenatedSm16bitRef → length = 4)

instance (tag : UInt8) (length : Nat) : Decidable (LengthFits tag length) :=
  inferInstanceAs (Decidable (_ ∧ _))

/-- What holds of every element of a header. -/
def ElementFits (element : UInt8 × Octets) : Prop :=
  element.2.length ≤ 255 ∧ LengthFits element.1 element.2.length

instance (element : UInt8 × Octets) : Decidable (ElementFits element) :=
  inferInstanceAs (Decidable (_ ∧ _))

/-! ## Elements on the wire -/

/-- One element on the wire: tag, length, value. -/
def encodeElement (element : UInt8 × Octets) : Octets :=
  [element.1, UInt8.ofNat element.2.length] ++ element.2

/-- The body of the {lit}`while` loop of {lit}`user_data_header(std::string_view)`. -/
def readElement : Reader (UInt8 × Octets) := do
  let buf ← get
  let tag ← View.index 0
  let valLength ← View.index 1
  if valLength.toNat > (← View.sizeSub buf.length headerLength) then
    throw (.lengthError "user_data_header val length is bigger than available buf")
  else
    let valBuf ← View.substr headerLength valLength.toNat
    if (tag = concatenatedSm8bitRef ∧ valBuf.length ≠ 3) ∨
        (tag = concatenatedSm16bitRef ∧ valBuf.length ≠ 4) then
      throw (.lengthError "user_data_header multi_part_data length is invalid")
    else
      View.removePrefix (valLength.toNat + headerLength)
      return (tag, valBuf)

/-- A tag and a length octet in front of something that is not an element. -/
def BadElement (view : Octets) : Prop :=
  ∃ tag valLength rest, view = tag :: valLength :: rest ∧
    (rest.length < valLength.toNat ∨ ¬LengthFits tag valLength.toNat)

@[simp]
theorem length_encodeElement (element : UInt8 × Octets) :
    (encodeElement element).length = headerLength + element.2.length := by
  simp [encodeElement, headerLength]
  omega

theorem not_lengthFits_iff (tag : UInt8) (length : Nat) :
    (tag = concatenatedSm8bitRef ∧ length ≠ 3) ∨ (tag = concatenatedSm16bitRef ∧ length ≠ 4) ↔
      ¬LengthFits tag length := by
  rw [LengthFits, Classical.not_and_iff_not_or_not, Classical.not_imp, Classical.not_imp]

/-- One turn of the loop behind the two octets it looks at first. -/
theorem run_readElement (tag valLength : UInt8) (rest : Octets) :
    readElement.run (tag :: valLength :: rest) =
      if rest.length < valLength.toNat then
        .error (.lengthError "user_data_header val length is bigger than available buf")
          (tag :: valLength :: rest)
      else if LengthFits tag valLength.toNat then
        .ok (tag, rest.take valLength.toNat) (rest.drop valLength.toNat)
      else
        .error (.lengthError "user_data_header multi_part_data length is invalid")
          (tag :: valLength :: rest) := by
  have hsize : headerLength ≤ (tag :: valLength :: rest).length := by simp [headerLength]
  have hrest : (tag :: valLength :: rest).length - headerLength = rest.length := rfl
  unfold readElement
  simp only [EStateM.run_bind, EStateM.run_get, View.run_sizeSub hsize, hrest,
    View.run_index (show (tag :: valLength :: rest)[0]? = some tag from rfl),
    View.run_index (show (tag :: valLength :: rest)[1]? = some valLength from rfl)]
  by_cases hlong : rest.length < valLength.toNat
  · rw [if_pos hlong, if_pos hlong, View.run_throw]
  · have hval : ((tag :: valLength :: rest).drop headerLength).take valLength.toNat =
        rest.take valLength.toNat := rfl
    have hlength : (rest.take valLength.toNat).length = valLength.toNat :=
      List.length_take_of_le (Nat.not_lt.mp hlong)
    rw [if_neg hlong, if_neg hlong]
    simp only [EStateM.run_bind, View.run_substr hsize, hval, hlength, not_lengthFits_iff]
    by_cases hfits : LengthFits tag valLength.toNat
    · have hadvance : valLength.toNat + headerLength ≤ (tag :: valLength :: rest).length := by
        simp [headerLength]
        omega
      rw [if_neg (not_not_intro hfits), if_pos hfits]
      simp only [EStateM.run_bind, View.run_removePrefix hadvance, EStateM.run_pure]
      rfl
    · rw [if_pos hfits, if_neg hfits, View.run_throw]

theorem toNat_ofNat_length {val : Octets} (hlength : val.length ≤ 255) :
    (UInt8.ofNat val.length).toNat = val.length := by
  rw [UInt8.toNat_ofNat']
  omega

/-- One turn of the loop reads one element. -/
theorem reads_readElement {element : UInt8 × Octets} (hfits : ElementFits element) :
    View.Reads readElement (encodeElement element) element := by
  intro rest
  rcases element with ⟨tag, val⟩
  rcases hfits with ⟨hlength, hfits⟩
  have htext : encodeElement (tag, val) ++ rest =
      tag :: UInt8.ofNat val.length :: (val ++ rest) := rfl
  rw [htext, run_readElement, toNat_ofNat_length hlength, if_neg (by simp), if_pos hfits]
  simp

/-- The format of the element loop. -/
def elementFormat : RecordFormat Fault UInt8 (UInt8 × Octets) where
  headerLength := headerLength
  read := readElement
  encode := encodeElement
  Valid := ElementFits
  Rejected := BadElement
  Failure e := ∃ what, e = .lengthError what
  header_pos := by decide
  header_le element := by simp
  reads _ hfits := reads_readElement hfits
  rejects := by
    rintro view ⟨tag, valLength, rest, rfl, hbad⟩
    rw [run_readElement]
    by_cases hlong : rest.length < valLength.toNat
    · exact ⟨_, ⟨_, rfl⟩, if_pos hlong⟩
    · have hfits := hbad.resolve_left hlong
      exact ⟨_, ⟨_, rfl⟩, by rw [if_neg hlong, if_neg hfits]⟩
  complete := by
    intro view hheader
    match view, hheader with
    | tag :: valLength :: rest, _ =>
        by_cases hbad : rest.length < valLength.toNat ∨ ¬LengthFits tag valLength.toNat
        · exact Or.inr ⟨tag, valLength, rest, rfl, hbad⟩
        · rw [not_or, Classical.not_not, Nat.not_lt] at hbad
          have hlength : (rest.take valLength.toNat).length = valLength.toNat :=
            List.length_take_of_le hbad.1
          have hbound := valLength.toNat_lt
          refine Or.inl ⟨(tag, rest.take valLength.toNat), rest.drop valLength.toNat, ?_, ?_⟩
          · show (rest.take valLength.toNat).length ≤ 255 ∧
              LengthFits tag (rest.take valLength.toNat).length
            rw [hlength]
            exact ⟨by omega, hbad.2⟩
          · simp [encodeElement, hlength]

end UserDataHeader

/-! ## The class -/

theorem UserDataHeader.elementFits_of_mem_nil :
    ∀ element ∈ ([] : List (UInt8 × Octets)), ElementFits element :=
  List.forall_mem_nil ElementFits

/-- {lit}`class user_data_header`, with what holds of its elements. -/
structure UserDataHeader where
  headers : List (UInt8 × Octets) := []
  fits : ∀ element ∈ headers, UserDataHeader.ElementFits element := by
    exact UserDataHeader.elementFits_of_mem_nil

namespace UserDataHeader

theorem ext {a b : UserDataHeader} (heq : a.headers = b.headers) : a = b := by
  cases a
  cases b
  simpa using heq

instance : DecidableEq UserDataHeader := fun a b =>
  decidable_of_iff (a.headers = b.headers) ⟨ext, fun heq => heq ▸ rfl⟩

/-- {lit}`user_data_header(std::string_view)`. -/
def ofView (buf : Octets) : Except Fault UserDataHeader :=
  match hread : elementFormat.readAll buf with
  | .ok (headers, _) => .ok { headers, fits := (RecordFormat.eq_of_readAll hread).1 }
  | .error e => .error e

/-- {lit}`user_data_header::serialize`. -/
def serialize (h : UserDataHeader) : Octets :=
  h.headers.flatMap encodeElement

/-- The value of {lit}`headers_` behind {lit}`emplace_back`. -/
def emplaceBack (h : UserDataHeader) (element : UInt8 × Octets) (hfits : ElementFits element) :
    UserDataHeader where
  headers := h.headers ++ [element]
  fits := by
    intro e hmem
    rcases List.mem_append.mp hmem with hmem | hmem
    · exact h.fits e hmem
    · exact List.mem_singleton.mp hmem ▸ hfits

/-- The element that {lit}`set_multi_part_data` appends. -/
def multiPartElement (mpd : MultiPartData) : UInt8 × Octets :=
  if mpd.concatSmRefNum > 0xFF then
    (concatenatedSm16bitRef,
      [((mpd.concatSmRefNum >>> 8) &&& 0xFF).toUInt8,
        ((mpd.concatSmRefNum >>> 0) &&& 0xFF).toUInt8,
        mpd.numberOfParts, mpd.sequenceNumber])
  else
    (concatenatedSm8bitRef,
      [mpd.concatSmRefNum.toUInt8, mpd.numberOfParts, mpd.sequenceNumber])

theorem elementFits_multiPartElement (mpd : MultiPartData) :
    ElementFits (multiPartElement mpd) := by
  unfold multiPartElement
  split
  · exact ⟨by simp, by simp [LengthFits, concatenatedSm8bitRef, concatenatedSm16bitRef]⟩
  · exact ⟨by simp, by simp [LengthFits, concatenatedSm8bitRef, concatenatedSm16bitRef]⟩

/-- {lit}`user_data_header::set_multi_part_data`. -/
def setMultiPartData (h : UserDataHeader) (mpd : MultiPartData) : UserDataHeader :=
  h.emplaceBack (multiPartElement mpd) (elementFits_multiPartElement mpd)

/-- {lit}`user_data_header(const multi_part_data&)`. -/
def ofMultiPartData (mpd : MultiPartData) : UserDataHeader :=
  setMultiPartData {} mpd

/-- {lit}`std::string::operator[]` in front of the terminator. -/
def charAt (s : Octets) (i : Nat) : Except Fault UInt8 :=
  match s[i]? with
  | some c => .ok c
  | none => .error .outOfRange

/-- {lit}`static_cast<uint16_t>` of a {lit}`char`, which is signed. -/
def charToU16 (c : UInt8) : UInt16 :=
  c.toInt8.toInt16.toUInt16

/-- Two characters joined in {lit}`int` and cast back to {lit}`uint16_t`. -/
def joinU16 (c₀ c₁ : UInt8) : UInt16 :=
  ((charToU16 c₀).toUInt32 <<< 8 ||| (charToU16 c₁).toUInt32).toUInt16

/-- {lit}`std::find_if` on the tag. -/
def findTag (h : UserDataHeader) (tag : UInt8) : Option (UInt8 × Octets) :=
  h.headers.find? fun element => element.1 == tag

/-- {lit}`user_data_header::get_multi_part_data`. -/
def getMultiPartData (h : UserDataHeader) : Except Fault MultiPartData :=
  match h.findTag concatenatedSm8bitRef with
  | some (_, val) => do
      return { concatSmRefNum := charToU16 (← charAt val 0)
               numberOfParts := ← charAt val 1
               sequenceNumber := ← charAt val 2 }
  | none =>
      match h.findTag concatenatedSm16bitRef with
      | some (_, val) => do
          return { concatSmRefNum := joinU16 (← charAt val 0) (← charAt val 1)
                   numberOfParts := ← charAt val 2
                   sequenceNumber := ← charAt val 3 }
      | none => return { concatSmRefNum := 0, numberOfParts := 1, sequenceNumber := 1 }

/-! ## Reading a header back -/

/-- The text that a string of octets is a header for. -/
theorem ofView_eq_ok_iff {buf : Octets} {h : UserDataHeader} :
    ofView buf = .ok h ↔ ∃ tail, elementFormat.readAll buf = .ok (h.headers, tail) := by
  unfold ofView
  split
  · rename_i headers tail hread
    constructor
    · intro hok
      cases hok
      exact ⟨tail, hread⟩
    · rintro ⟨tail', hread'⟩
      rw [hread] at hread'
      cases hread'
      rfl
  · rename_i e hread
    constructor
    · intro hok
      cases hok
    · rintro ⟨tail', hread'⟩
      rw [hread] at hread'
      cases hread'

/-- The constructor reads every element of a header and ignores one octet behind them. -/
theorem ofView_serialize_append (h : UserDataHeader) {tail : Octets} (htail : tail.length ≤ 1) :
    ofView (h.serialize ++ tail) = .ok h :=
  ofView_eq_ok_iff.mpr ⟨tail, RecordFormat.readAll_encodeAll h.fits (Nat.lt_succ_of_le htail)⟩

theorem ofView_serialize (h : UserDataHeader) : ofView h.serialize = .ok h := by
  have hread : ofView (h.serialize ++ []) = .ok h := ofView_serialize_append h (by simp)
  rwa [List.append_nil] at hread

/-- What the constructor accepts is a header with at most one octet behind it. -/
theorem eq_of_ofView {buf : Octets} {h : UserDataHeader} (hread : ofView buf = .ok h) :
    ∃ tail : Octets, tail.length ≤ 1 ∧ buf = h.serialize ++ tail := by
  rcases ofView_eq_ok_iff.mp hread with ⟨tail, hread⟩
  rcases RecordFormat.eq_of_readAll hread with ⟨_, htail, hbuf⟩
  exact ⟨tail, Nat.le_of_lt_succ htail, hbuf⟩

theorem ofView_of_malformed {buf : Octets} (hmalformed : elementFormat.Malformed buf) :
    ∃ what, ofView buf = .error (.lengthError what) := by
  rcases RecordFormat.readAll_of_malformed hmalformed with ⟨_, ⟨what, rfl⟩, herror⟩
  refine ⟨what, ?_⟩
  unfold ofView
  split
  · rename_i hread
    rw [herror] at hread
    cases hread
  · rename_i hread
    rw [herror] at hread
    cases hread
    rfl

/-- Every string is a header with at most one octet behind it, or it is malformed. -/
theorem ofView_cases (buf : Octets) :
    (∃ h, ofView buf = .ok h) ∨ elementFormat.Malformed buf := by
  rcases elementFormat.readAll_cases buf with ⟨headers, tail, hfits, htail, hbuf⟩ | hmalformed
  · refine Or.inl ⟨⟨headers, hfits⟩, ofView_eq_ok_iff.mpr ⟨tail, ?_⟩⟩
    rw [hbuf]
    exact RecordFormat.readAll_encodeAll hfits htail
  · exact Or.inr hmalformed

theorem not_malformed_of_ofView {buf : Octets} {h : UserDataHeader} (hread : ofView buf = .ok h) :
    ¬elementFormat.Malformed buf := by
  intro hmalformed
  rcases ofView_of_malformed hmalformed with ⟨what, herror⟩
  rw [hread] at herror
  cases herror

/-! ## Concatenation elements -/

/-- Elements that {lit}`get_multi_part_data` looks for. -/
def isConcatenation (element : UInt8 × Octets) : Bool :=
  element.1 == concatenatedSm8bitRef || element.1 == concatenatedSm16bitRef

/-- The concatenation elements of a header. -/
def concatenations (h : UserDataHeader) : List (UInt8 × Octets) :=
  h.headers.filter isConcatenation

/-- What the lookup makes of the reference number in an element written for it. -/
def refReadBack (ref : UInt16) : UInt16 :=
  if ref > 0xFF then joinU16 ((ref >>> 8) &&& 0xFF).toUInt8 ((ref >>> 0) &&& 0xFF).toUInt8
  else charToU16 ref.toUInt8

theorem isConcatenation_multiPartElement (mpd : MultiPartData) :
    isConcatenation (multiPartElement mpd) = true := by
  unfold multiPartElement isConcatenation
  split <;> simp

@[simp]
theorem headers_setMultiPartData (h : UserDataHeader) (mpd : MultiPartData) :
    (h.setMultiPartData mpd).headers = h.headers ++ [multiPartElement mpd] :=
  rfl

theorem concatenations_setMultiPartData (h : UserDataHeader) (mpd : MultiPartData) :
    (h.setMultiPartData mpd).concatenations = h.concatenations ++ [multiPartElement mpd] := by
  simp [concatenations, isConcatenation_multiPartElement]

/-- The lookup is in the list of concatenation elements. -/
theorem findTag_eq (h : UserDataHeader) {tag : UInt8}
    (htag : tag = concatenatedSm8bitRef ∨ tag = concatenatedSm16bitRef) :
    h.findTag tag = h.concatenations.find? fun element => element.1 == tag := by
  rw [findTag, concatenations, List.find?_filter]
  congr 1
  funext element
  by_cases heq : element.1 = tag
  · rcases htag with rfl | rfl <;> simp [isConcatenation, heq]
  · simp [heq]

/-- The lookup never leaves a stored value. -/
theorem getMultiPartData_eq_ok (h : UserDataHeader) : ∃ mpd, h.getMultiPartData = .ok mpd := by
  unfold getMultiPartData
  split
  · rename_i tag val hfind
    have hfits := (h.fits _ (List.mem_of_find?_eq_some hfind)).2.1
    have htag : tag = concatenatedSm8bitRef := by simpa using List.find?_some hfind
    match val, hfits htag with
    | [c₀, c₁, c₂], _ => exact ⟨_, rfl⟩
  · split
    · rename_i tag val hfind
      have hfits := (h.fits _ (List.mem_of_find?_eq_some hfind)).2.2
      have htag : tag = concatenatedSm16bitRef := by simpa using List.find?_some hfind
      match val, hfits htag with
      | [c₀, c₁, c₂, c₃], _ => exact ⟨_, rfl⟩
    · exact ⟨_, rfl⟩

/-! ## What is read back of a reference number -/

/-- A property of all octets, from the numbers below 256. -/
theorem forall_octet {P : UInt8 → Prop} (hall : ∀ n : Fin 256, P (UInt8.ofNat n)) (c : UInt8) :
    P c := by
  have hc := hall ⟨c.toNat, c.toNat_lt⟩
  rwa [UInt8.ofNat_toNat] at hc

/-- A character below 128 is its own code. -/
theorem charToU16_of_lt {c : UInt8} (hlt : c.toNat < 128) : charToU16 c = c.toUInt16 :=
  forall_octet (P := fun c => c.toNat < 128 → charToU16 c = c.toUInt16) (by decide +kernel) c hlt

/-- The sign of a character from 128 on fills the upper octet. -/
theorem charToU16_of_le {c : UInt8} (hle : 128 ≤ c.toNat) :
    charToU16 c = (0xFF : UInt8).toUInt16 <<< 8 ||| c.toUInt16 :=
  forall_octet
    (P := fun c => 128 ≤ c.toNat → charToU16 c = (0xFF : UInt8).toUInt16 <<< 8 ||| c.toUInt16)
    (by decide +kernel) c hle

/-- The upper octet of a joined number is the first character, or'ed with the sign of the
second one. -/
theorem joinU16_eq (c₀ c₁ : UInt8) : joinU16 c₀ c₁ = c₀.toUInt16 <<< 8 ||| charToU16 c₁ := by
  have hshift : ((charToU16 c₀).toUInt32 <<< 8).toUInt16 = c₀.toUInt16 <<< 8 :=
    forall_octet (P := fun c => ((charToU16 c).toUInt32 <<< 8).toUInt16 = c.toUInt16 <<< 8)
      (by decide +kernel) c₀
  rw [joinU16, UInt32.toUInt16_or, hshift, UInt16.toUInt16_toUInt32]

theorem value_pair (c₀ c₁ : UInt8) :
    BigEndian.value [c₀, c₁] = c₀.toNat * 256 + c₁.toNat := by
  simp [BigEndian.value]

theorem toNat_charToU16 (c : UInt8) :
    (charToU16 c).toNat = if c.toNat < 128 then c.toNat else 0xFF00 + c.toNat := by
  by_cases hlt : c.toNat < 128
  · rw [if_pos hlt, charToU16_of_lt hlt, UInt8.toNat_toUInt16]
  · rw [if_neg hlt, charToU16_of_le (Nat.not_lt.mp hlt), BigEndian.toNat_joinU16, value_pair]
    rfl

theorem toNat_joinU16 (c₀ c₁ : UInt8) :
    (joinU16 c₀ c₁).toNat =
      if c₁.toNat < 128 then c₀.toNat * 256 + c₁.toNat else 0xFF00 + c₁.toNat := by
  by_cases hlt : c₁.toNat < 128
  · rw [if_pos hlt, joinU16_eq, charToU16_of_lt hlt, BigEndian.toNat_joinU16, value_pair]
  · have hsign : c₀.toUInt16 <<< 8 ||| (0xFF : UInt8).toUInt16 <<< 8 =
        (0xFF : UInt8).toUInt16 <<< 8 :=
      forall_octet (P := fun c => c.toUInt16 <<< 8 ||| (0xFF : UInt8).toUInt16 <<< 8 =
        (0xFF : UInt8).toUInt16 <<< 8) (by decide +kernel) c₀
    rw [if_neg hlt, joinU16_eq, charToU16_of_le (Nat.not_lt.mp hlt), ← UInt16.or_assoc, hsign,
      BigEndian.toNat_joinU16, value_pair]
    rfl

/-- A reference number is read back exactly if its lower octet has no sign bit or its upper
octet consists of ones. -/
theorem refReadBack_eq_iff (ref : UInt16) :
    refReadBack ref = ref ↔ ref.toNat % 256 < 128 ∨ 0xFF00 ≤ ref.toNat := by
  have hbound := ref.toNat_lt
  rw [← UInt16.toNat_inj, refReadBack]
  by_cases hlong : ref > 0xFF
  · have hhigh : ((ref >>> 8) &&& 0xFF).toUInt8.toNat = ref.toNat / 256 := by
      have hand : ref.toNat / 256 &&& 255 = ref.toNat / 256 % 256 := Nat.and_two_pow_sub_one_eq_mod _ 8
      simp [Nat.shiftRight_eq_div_pow]
      omega
    have hlow : ((ref >>> 0) &&& 0xFF).toUInt8.toNat = ref.toNat % 256 := by
      simp
    rw [if_pos hlong, toNat_joinU16, hhigh, hlow]
    split <;> omega
  · have hshort : ref.toNat ≤ 0xFF := by
      have := UInt16.not_lt.mp hlong
      exact UInt16.le_iff_toNat_le.mp this
    have hsame : ref.toUInt8.toNat = ref.toNat := by
      simp
      omega
    rw [if_neg hlong, toNat_charToU16, hsame]
    split <;> omega

/-! ## What is read back of a header -/

/-- What the lookup makes of an element written for a part. -/
def readBack (mpd : MultiPartData) : MultiPartData :=
  { mpd with concatSmRefNum := refReadBack mpd.concatSmRefNum }

theorem readBack_eq_iff (mpd : MultiPartData) :
    readBack mpd = mpd ↔
      mpd.concatSmRefNum.toNat % 256 < 128 ∨ 0xFF00 ≤ mpd.concatSmRefNum.toNat := by
  rw [← refReadBack_eq_iff]
  constructor
  · intro heq
    exact congrArg MultiPartData.concatSmRefNum heq
  · intro heq
    rw [readBack, heq]

/-- A single concatenation element is the one that is found. -/
theorem getMultiPartData_setMultiPartData {h : UserDataHeader} (mpd : MultiPartData)
    (hnone : h.concatenations = []) :
    (h.setMultiPartData mpd).getMultiPartData = .ok (readBack mpd) := by
  unfold getMultiPartData
  rw [findTag_eq _ (Or.inl rfl), findTag_eq _ (Or.inr rfl), concatenations_setMultiPartData, hnone]
  by_cases hlong : mpd.concatSmRefNum > 0xFF
  · simp [multiPartElement, readBack, refReadBack, hlong, charAt]
    rfl
  · simp [multiPartElement, readBack, refReadBack, hlong, charAt]
    rfl

/-- Of two concatenation elements the first is found, unless only the second one has an
8-bit reference number. -/
theorem getMultiPartData_setMultiPartData_twice {h : UserDataHeader} (a b : MultiPartData)
    (hnone : h.concatenations = []) :
    ((h.setMultiPartData a).setMultiPartData b).getMultiPartData =
      .ok (if a.concatSmRefNum > 0xFF ∧ ¬b.concatSmRefNum > 0xFF then readBack b
        else readBack a) := by
  unfold getMultiPartData
  rw [findTag_eq _ (Or.inl rfl), findTag_eq _ (Or.inr rfl), concatenations_setMultiPartData,
    concatenations_setMultiPartData, hnone]
  by_cases ha : a.concatSmRefNum > 0xFF
  · by_cases hb : b.concatSmRefNum > 0xFF
    · simp [multiPartElement, readBack, refReadBack, ha, hb, charAt]
      rfl
    · simp [multiPartElement, readBack, refReadBack, ha, hb, charAt]
      rfl
  · by_cases hb : b.concatSmRefNum > 0xFF
    · simp [multiPartElement, readBack, refReadBack, ha, hb, charAt]
      rfl
    · simp [multiPartElement, readBack, refReadBack, ha, hb, charAt]
      rfl

end UserDataHeader

end Smpp
