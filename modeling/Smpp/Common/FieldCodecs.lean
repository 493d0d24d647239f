import Smpp.Common.Octets
import Smpp.Param.Enumerations
import Smpp.Param.Flags
import Mathlib.Data.List.Basic

/-!
# Field codecs

The structs of {lit}`smpp::detail` that read and write one mandatory field:
{lit}`enum_u8`, {lit}`enum_flag`, {lit}`u8`, {lit}`c_octet_str<MAXLEN>` and
{lit}`u8_octet_str<MAXLEN>`.  The optional parameters have their own codec in
{lit}`Smpp.Common.Serialization`.

{lit}`Codec.Encodes` states the wire format of a field without mentioning the
decoder; the two results below say that the decoder implements it.

Main results:

- Theorem {lit}`Codec.reads_deserialize`: every encoding of a value is read exactly
  and gives the value back.
- Theorem {lit}`Codec.deserialize_cases`: a decoder that does not find an encoding
  at the front of the view throws a length error and leaves the view alone.
- Theorem {lit}`Codec.run_serializeTo`: the encoder appends {lit}`Codec.encode` when
  its length check passes and throws otherwise.
- Theorem {lit}`Codec.encodes_encode_iff`: what the encoder writes for a value is an
  encoding of that value exactly when no NUL is lost and no flag bit is masked.
-/

namespace Smpp

variable {T : Type}

/-! ## One octet: enum_u8, enum_flag and u8 -/

/-- The common body of the three one-octet decoders, with the conversion of the
octet as a parameter. -/
def deserializeOctet (convert : UInt8 → T) (name : String) : Reader T := do
  let buf ← get
  if buf.isEmpty then
    throw (.lengthError ("buf size should be at least 1, field_name:" ++ name))
  else
    let val := convert (← View.front)
    View.last (← View.sizeSub buf.length 1)
    return val

/-- {lit}`enum_u8::deserialize`. -/
def EnumU8.deserialize [EnumU8 T] (name : String) : Reader T :=
  deserializeOctet EnumU8.ofU8 name

/-- {lit}`enum_u8::serialize_to`. -/
def EnumU8.serializeTo [EnumU8 T] (val : T) : Writer Unit :=
  append [EnumU8.toU8 val]

/-- {lit}`enum_flag::deserialize`. -/
def EnumFlag.deserialize [EnumFlag T] (name : String) : Reader T :=
  deserializeOctet EnumFlag.fromU8 name

/-- {lit}`enum_flag::serialize_to`. -/
def EnumFlag.serializeTo [EnumFlag T] (val : T) : Writer Unit :=
  append [EnumFlag.toU8 val]

/-- {lit}`u8::deserialize`. -/
def U8.deserialize (name : String) : Reader UInt8 :=
  deserializeOctet id name

/-- {lit}`u8::serialize_to`. -/
def U8.serializeTo (val : UInt8) : Writer Unit :=
  append [val]

theorem reads_deserializeOctet (convert : UInt8 → T) (name : String) (b : UInt8) :
    View.Reads (deserializeOctet convert name) [b] (convert b) := by
  intro rest
  have hsub : 1 ≤ (b :: rest).length := by simp
  have hrest : (b :: rest).length - 1 = rest.length := by simp
  have hlast := View.run_last_append (ε := Fault) [b] rest
  rw [List.singleton_append] at hlast ⊢
  unfold deserializeOctet
  simp only [EStateM.run_bind, EStateM.run_get, List.isEmpty_cons, Bool.false_eq_true,
    if_false, View.run_front_cons, View.run_sizeSub hsub, hrest, hlast, EStateM.run_pure]

theorem run_deserializeOctet_nil (convert : UInt8 → T) (name : String) :
    (deserializeOctet convert name).run [] =
      .error (.lengthError ("buf size should be at least 1, field_name:" ++ name)) [] :=
  rfl

/-- Only the empty view makes the decoder of an octet throw. -/
theorem deserializeOctet_cases (convert : UInt8 → T) (name : String) (buf : Octets) :
    (∃ b rest, buf = [b] ++ rest) ∨
      ∃ what, (deserializeOctet convert name).run buf = .error (.lengthError what) buf := by
  cases buf with
  | nil => exact Or.inr ⟨_, run_deserializeOctet_nil convert name⟩
  | cons b rest => exact Or.inl ⟨b, rest, rfl⟩

/-! ## c_octet_str -/

/-- {lit}`c_octet_str<MAXLEN>::deserialize`. -/
def COctetStr.deserialize (maxlen : Nat) (name : String) : Reader Octets := do
  let buf ← get
  -- std::find returns the end of the view when there is no NUL
  let nullPos := buf.idxOf 0
  if nullPos = buf.length then
    throw (.lengthError ("c_octet_str can't find null character, field_name:" ++ name))
  else
    let str ← View.subspan 0 nullPos
    if str.length ≥ maxlen then
      throw (.lengthError ("c_octet_str exceed its limit, field_name:" ++ name))
    else
      View.last (← View.sizeSub (← View.sizeSub buf.length str.length) 1)
      return str

/-- {lit}`c_octet_str<MAXLEN>::serialize_to`. -/
def COctetStr.serializeTo (maxlen : Nat) (val : Octets) (name : String) : Writer Unit :=
  if val.length ≥ maxlen then
    throw (.lengthError ("c_octet_str exceed its limit, field_name:" ++ name))
  else
    append (val ++ [0])

/-- The decoder on a view whose first NUL follows {lit}`str`. -/
theorem COctetStr.run_deserialize (maxlen : Nat) (name : String) {str : Octets}
    (hnull : 0 ∉ str) (rest : Octets) :
    (COctetStr.deserialize maxlen name).run (str ++ 0 :: rest) =
      if maxlen ≤ str.length then
        .error (.lengthError ("c_octet_str exceed its limit, field_name:" ++ name))
          (str ++ 0 :: rest)
      else .ok str rest := by
  have hpos : (str ++ 0 :: rest).idxOf 0 = str.length := by
    rw [List.idxOf_append_of_notMem hnull]
    simp
  have hfound : ¬ str.length = (str ++ 0 :: rest).length := by simp
  have hsub : str.length ≤ (str ++ 0 :: rest).length := by simp
  have hone : 1 ≤ (str ++ 0 :: rest).length - str.length := by simp
  have hstr : 0 + str.length ≤ (str ++ 0 :: rest).length := by simp
  have htake : ((str ++ 0 :: rest).drop 0).take str.length = str := by simp
  have hrest : (str ++ 0 :: rest).length - str.length - 1 = rest.length := by simp
  have hlast := View.run_last_append (ε := Fault) (str ++ [0]) rest
  rw [List.append_assoc, List.singleton_append] at hlast
  unfold COctetStr.deserialize
  simp only [EStateM.run_bind, EStateM.run_get, hpos, if_neg hfound,
    View.run_subspan hstr, htake]
  by_cases hlong : maxlen ≤ str.length
  · rw [if_pos hlong, if_pos hlong, View.run_throw]
  · rw [if_neg hlong, if_neg hlong]
    simp only [EStateM.run_bind, View.run_sizeSub hsub, View.run_sizeSub hone, hrest, hlast,
      EStateM.run_pure]

/-- Without a NUL in the view the decoder throws. -/
theorem COctetStr.run_deserialize_of_notMem (maxlen : Nat) (name : String) {buf : Octets}
    (hnull : 0 ∉ buf) :
    (COctetStr.deserialize maxlen name).run buf =
      .error (.lengthError ("c_octet_str can't find null character, field_name:" ++ name))
        buf := by
  have hpos : buf.idxOf 0 = buf.length := List.idxOf_eq_length hnull
  unfold COctetStr.deserialize
  simp only [EStateM.run_bind, EStateM.run_get, hpos, if_pos, View.run_throw]

theorem COctetStr.reads_deserialize {maxlen : Nat} {str : Octets} (hlt : str.length < maxlen)
    (hnull : 0 ∉ str) (name : String) :
    View.Reads (COctetStr.deserialize maxlen name) (str ++ [0]) str := by
  intro rest
  have hrun := COctetStr.run_deserialize maxlen name hnull rest
  rw [if_neg (Nat.not_le.mpr hlt)] at hrun
  rwa [List.append_assoc, List.singleton_append]

/-- A view without a NUL, or with too much in front of it, makes the decoder throw. -/
theorem COctetStr.deserialize_cases (maxlen : Nat) (name : String) (buf : Octets) :
    (∃ str rest, str.length < maxlen ∧ 0 ∉ str ∧ buf = str ++ [0] ++ rest) ∨
      ∃ what, (COctetStr.deserialize maxlen name).run buf = .error (.lengthError what) buf := by
  by_cases hmem : (0 : UInt8) ∈ buf
  · rcases List.eq_append_cons_of_mem hmem with ⟨str, rest, rfl, hnull⟩
    by_cases hlong : maxlen ≤ str.length
    · have hrun := COctetStr.run_deserialize maxlen name hnull rest
      rw [if_pos hlong] at hrun
      exact Or.inr ⟨_, hrun⟩
    · exact Or.inl ⟨str, rest, Nat.not_le.mp hlong, hnull, by simp⟩
  · exact Or.inr ⟨_, COctetStr.run_deserialize_of_notMem maxlen name hmem⟩

/-! ## u8_octet_str -/

/-- {lit}`u8_octet_str<MAXLEN>::deserialize`. -/
def U8OctetStr.deserialize (maxlen : Nat) (name : String) : Reader Octets := do
  let buf ← get
  if buf.isEmpty then
    throw (.lengthError ("buf size should be at least 1, field_name:" ++ name))
  else
    let length ← View.front
    if buf.length ≤ length.toNat then
      throw (.lengthError
        ("octet_str buf is smaller than its length field, field_name:" ++ name))
    else
      let str ← View.subspan 1 length.toNat
      if str.length > maxlen then
        throw (.lengthError ("octet_str exceed its limit, field_name:" ++ name))
      else
        View.last (← View.sizeSub (← View.sizeSub buf.length str.length) 1)
        return str

/-- {lit}`u8_octet_str<MAXLEN>::serialize_to`. -/
def U8OctetStr.serializeTo (maxlen : Nat) (val : Octets) (name : String) : Writer Unit :=
  if val.length > maxlen then
    throw (.lengthError ("octet_str exceed its limit, field_name:" ++ name))
  else do
    append [UInt8.ofNat val.length]
    append val

/-- The decoder on a view that holds a length octet and that many octets. -/
theorem U8OctetStr.run_deserialize (maxlen : Nat) (name : String) {length : UInt8}
    {str : Octets} (hlength : length.toNat = str.length) (rest : Octets) :
    (U8OctetStr.deserialize maxlen name).run (length :: (str ++ rest)) =
      if maxlen < str.length then
        .error (.lengthError ("octet_str exceed its limit, field_name:" ++ name))
          (length :: (str ++ rest))
      else .ok str rest := by
  have hfits : ¬ (length :: (str ++ rest)).length ≤ length.toNat := by simp; omega
  have hstr : 1 + length.toNat ≤ (length :: (str ++ rest)).length := by simp; omega
  have htake : ((length :: (str ++ rest)).drop 1).take length.toNat = str := by
    simp [hlength]
  have hsub : str.length ≤ (length :: (str ++ rest)).length := by simp; omega
  have hone : 1 ≤ (length :: (str ++ rest)).length - str.length := by simp; omega
  have hrest : (length :: (str ++ rest)).length - str.length - 1 = rest.length := by
    simp
    omega
  have hlast := View.run_last_append (ε := Fault) (length :: str) rest
  rw [List.cons_append] at hlast
  unfold U8OctetStr.deserialize
  simp only [EStateM.run_bind, EStateM.run_get, List.isEmpty_cons, Bool.false_eq_true,
    if_false, View.run_front_cons, if_neg hfits, View.run_subspan hstr, htake]
  by_cases hlong : maxlen < str.length
  · rw [if_pos hlong, if_pos hlong, View.run_throw]
  · rw [if_neg hlong, if_neg hlong]
    simp only [EStateM.run_bind, View.run_sizeSub hsub, View.run_sizeSub hone, hrest, hlast,
      EStateM.run_pure]

/-- A view that is too short for its length octet makes the decoder throw. -/
theorem U8OctetStr.run_deserialize_of_short (maxlen : Nat) (name : String) {length : UInt8}
    {buf : Octets} (hshort : buf.length < length.toNat) :
    (U8OctetStr.deserialize maxlen name).run (length :: buf) =
      .error (.lengthError
        ("octet_str buf is smaller than its length field, field_name:" ++ name))
        (length :: buf) := by
  have hfits : (length :: buf).length ≤ length.toNat := by simp; omega
  unfold U8OctetStr.deserialize
  simp only [EStateM.run_bind, EStateM.run_get, List.isEmpty_cons, Bool.false_eq_true,
    if_false, View.run_front_cons, if_pos hfits, View.run_throw]

theorem U8OctetStr.reads_deserialize {maxlen : Nat} {length : UInt8} {str : Octets}
    (hle : str.length ≤ maxlen) (hlength : length.toNat = str.length) (name : String) :
    View.Reads (U8OctetStr.deserialize maxlen name) (length :: str) str := by
  intro rest
  have hrun := U8OctetStr.run_deserialize maxlen name hlength rest
  rwa [if_neg (Nat.not_lt.mpr hle)] at hrun

/-- An empty view, one that is too short for its length octet, and one whose length octet is
beyond the limit make the decoder throw. -/
theorem U8OctetStr.deserialize_cases (maxlen : Nat) (name : String) (buf : Octets) :
    (∃ (length : UInt8) (str rest : Octets), str.length ≤ maxlen ∧
        length.toNat = str.length ∧ buf = length :: str ++ rest) ∨
      ∃ what, (U8OctetStr.deserialize maxlen name).run buf = .error (.lengthError what) buf := by
  cases buf with
  | nil => exact Or.inr ⟨_, rfl⟩
  | cons length buf =>
      by_cases hshort : buf.length < length.toNat
      · exact Or.inr ⟨_, U8OctetStr.run_deserialize_of_short maxlen name hshort⟩
      · have hlength : length.toNat = (buf.take length.toNat).length := by
          rw [List.length_take]
          omega
        have hcut : buf.take length.toNat ++ buf.drop length.toNat = buf :=
          List.take_append_drop _ _
        by_cases hlong : maxlen < (buf.take length.toNat).length
        · have hrun := U8OctetStr.run_deserialize maxlen name hlength (buf.drop length.toNat)
          rw [if_pos hlong, hcut] at hrun
          exact Or.inr ⟨_, hrun⟩
        · refine Or.inl ⟨length, buf.take length.toNat, buf.drop length.toNat,
            Nat.not_lt.mp hlong, hlength, ?_⟩
          rw [List.cons_append, hcut]

/-! ## The codecs as data -/

/-- The codec argument {lit}`R` of {lit}`mem<R>(&pdu::member, name)`, indexed by the
type of the member. -/
inductive Codec : Type → Type 1
  | enumU8 {T : Type} [EnumU8 T] : Codec T
  | enumFlag {T : Type} [EnumFlag T] : Codec T
  | u8 : Codec UInt8
  | cOctetStr (maxlen : Nat) : Codec Octets
  | u8OctetStr (maxlen : Nat) : Codec Octets

namespace Codec

/-- {lit}`R::deserialize<T>(buf, name)`. -/
def deserialize {T : Type} (codec : Codec T) (name : String) : Reader T :=
  match codec with
  | enumU8 => EnumU8.deserialize name
  | enumFlag => EnumFlag.deserialize name
  | u8 => U8.deserialize name
  | cOctetStr maxlen => COctetStr.deserialize maxlen name
  | u8OctetStr maxlen => U8OctetStr.deserialize maxlen name

/-- {lit}`R::serialize_to<T>(vec, val, name)`. -/
def serializeTo {T : Type} (codec : Codec T) (val : T) (name : String) : Writer Unit :=
  match codec, val with
  | enumU8, val => EnumU8.serializeTo val
  | enumFlag, val => EnumFlag.serializeTo val
  | u8, val => U8.serializeTo val
  | cOctetStr maxlen, val => COctetStr.serializeTo maxlen val name
  | u8OctetStr maxlen, val => U8OctetStr.serializeTo maxlen val name

/-! ## The wire format of a field -/

/-- {lit}`codec.Encodes val e`: the octets {lit}`e` are an encoding of {lit}`val`. -/
def Encodes {T : Type} (codec : Codec T) (val : T) (e : Octets) : Prop :=
  match codec, val with
  | enumU8, val => ∃ b, e = [b] ∧ val = EnumU8.ofU8 b
  | enumFlag, val => ∃ b, e = [b] ∧ val = EnumFlag.fromU8 b
  | u8, val => e = [val]
  | cOctetStr maxlen, val => val.length < maxlen ∧ 0 ∉ val ∧ e = val ++ [0]
  | u8OctetStr maxlen, val =>
      val.length ≤ maxlen ∧ ∃ length : UInt8, length.toNat = val.length ∧ e = length :: val

/-- The strings a field admits, whatever their values: one octet, a NUL-terminated
string below the limit, or a length octet within the limit and that many octets. -/
def Grammar {T : Type} (codec : Codec T) (e : Octets) : Prop :=
  match codec with
  | enumU8 | enumFlag | u8 => ∃ b, e = [b]
  | cOctetStr maxlen => ∃ str, str.length < maxlen ∧ 0 ∉ str ∧ e = str ++ [0]
  | u8OctetStr maxlen =>
      ∃ (length : UInt8) (str : Octets), length.toNat ≤ maxlen ∧ str.length = length.toNat ∧
        e = length :: str

/-- The grammar of a field consists of the encodings of its values. -/
theorem grammar_iff {T : Type} (codec : Codec T) (e : Octets) :
    codec.Grammar e ↔ ∃ val, codec.Encodes val e := by
  cases codec with
  | enumU8 | enumFlag => exact ⟨fun ⟨b, he⟩ => ⟨_, b, he, rfl⟩, fun ⟨_, b, he, _⟩ => ⟨b, he⟩⟩
  | u8 => exact Iff.rfl
  | cOctetStr maxlen => exact Iff.rfl
  | u8OctetStr maxlen =>
      constructor
      · rintro ⟨length, str, hle, hlength, rfl⟩
        exact ⟨str, by omega, length, hlength.symm, rfl⟩
      · rintro ⟨str, hle, length, hlength, rfl⟩
        exact ⟨length, str, by omega, hlength.symm, rfl⟩

/-- Every encoding of a value is read exactly and gives the value back. -/
theorem reads_deserialize {T : Type} (codec : Codec T) (name : String) {val : T} {e : Octets}
    (hencodes : codec.Encodes val e) : View.Reads (codec.deserialize name) e val := by
  cases codec with
  | enumU8 | enumFlag =>
      rcases hencodes with ⟨b, rfl, rfl⟩
      exact reads_deserializeOctet _ name b
  | u8 =>
      cases hencodes
      exact reads_deserializeOctet _ name val
  | cOctetStr maxlen =>
      rcases hencodes with ⟨hlt, hnull, rfl⟩
      exact COctetStr.reads_deserialize hlt hnull name
  | u8OctetStr maxlen =>
      rcases hencodes with ⟨hle, length, hlength, rfl⟩
      exact U8OctetStr.reads_deserialize hle hlength name

/-- Either an encoding is at the front of the view, or the decoder throws a length
error without touching the view. -/
theorem deserialize_cases {T : Type} (codec : Codec T) (name : String) (buf : Octets) :
    (∃ val e rest, codec.Encodes val e ∧ buf = e ++ rest) ∨
      ∃ what, (codec.deserialize name).run buf = .error (.lengthError what) buf := by
  cases codec with
  | enumU8 =>
      rcases deserializeOctet_cases (EnumU8.ofU8 : UInt8 → T) name buf with
        ⟨b, rest, hbuf⟩ | hfault
      · exact Or.inl ⟨_, [b], rest, ⟨b, rfl, rfl⟩, hbuf⟩
      · exact Or.inr hfault
  | enumFlag =>
      rcases deserializeOctet_cases (EnumFlag.fromU8 : UInt8 → T) name buf with
        ⟨b, rest, hbuf⟩ | hfault
      · exact Or.inl ⟨_, [b], rest, ⟨b, rfl, rfl⟩, hbuf⟩
      · exact Or.inr hfault
  | u8 =>
      rcases deserializeOctet_cases id name buf with ⟨b, rest, hbuf⟩ | hfault
      · exact Or.inl ⟨b, [b], rest, rfl, hbuf⟩
      · exact Or.inr hfault
  | cOctetStr maxlen =>
      rcases COctetStr.deserialize_cases maxlen name buf with
        ⟨str, rest, hlt, hnull, hbuf⟩ | hfault
      · exact Or.inl ⟨str, str ++ [0], rest, ⟨hlt, hnull, rfl⟩, hbuf⟩
      · exact Or.inr hfault
  | u8OctetStr maxlen =>
      rcases U8OctetStr.deserialize_cases maxlen name buf with
        ⟨length, str, rest, hle, hlength, hbuf⟩ | hfault
      · exact Or.inl ⟨str, length :: str, rest, ⟨hle, length, hlength, rfl⟩, hbuf⟩
      · exact Or.inr hfault

/-! ## What the encoders write -/

/-- The octets the encoder appends for a value. -/
def encode {T : Type} (codec : Codec T) (val : T) : Octets :=
  match codec, val with
  | enumU8, val => [EnumU8.toU8 val]
  | enumFlag, val => [EnumFlag.toU8 val]
  | u8, val => [val]
  | cOctetStr _, val => val ++ [0]
  | u8OctetStr _, val => UInt8.ofNat val.length :: val

/-- The number of octets the encoder appends. -/
def size {T : Type} (codec : Codec T) (val : T) : Nat :=
  match codec, val with
  | enumU8, _ | enumFlag, _ | u8, _ => 1
  | cOctetStr _, val | u8OctetStr _, val => val.length + 1

@[simp]
theorem length_encode {T : Type} (codec : Codec T) (val : T) :
    (codec.encode val).length = codec.size val := by
  cases codec <;> simp [encode, size]

/-- An encoding takes as many octets as its value. -/
theorem length_of_encodes {T : Type} (codec : Codec T) {val : T} {e : Octets}
    (hencodes : codec.Encodes val e) : e.length = codec.size val := by
  cases codec with
  | enumU8 | enumFlag =>
      rcases hencodes with ⟨b, rfl, _⟩
      rfl
  | u8 =>
      cases hencodes
      rfl
  | cOctetStr maxlen =>
      rcases hencodes with ⟨_, _, rfl⟩
      simp [size]
  | u8OctetStr maxlen =>
      rcases hencodes with ⟨_, length, _, rfl⟩
      rfl

theorem encode_ne_nil {T : Type} (codec : Codec T) (val : T) : codec.encode val ≠ [] := by
  cases codec <;> simp [encode]

/-- The length check of the encoder. -/
def Fits {T : Type} (codec : Codec T) (val : T) : Prop :=
  match codec, val with
  | enumU8, _ | enumFlag, _ | u8, _ => True
  | cOctetStr maxlen, val => val.length < maxlen
  | u8OctetStr maxlen, val => val.length ≤ maxlen

/-- The value holds no NUL that would end a C string early. -/
def NulFree {T : Type} (codec : Codec T) (val : T) : Prop :=
  match codec, val with
  | enumU8, _ | enumFlag, _ | u8, _ | u8OctetStr _, _ => True
  | cOctetStr _, val => 0 ∉ val

/-- A flag record survives packing and unpacking. -/
def FlagsKept {T : Type} (codec : Codec T) (val : T) : Prop :=
  match codec, val with
  | enumU8, _ | u8, _ | cOctetStr _, _ | u8OctetStr _, _ => True
  | enumFlag, val => EnumFlag.fromU8 (EnumFlag.toU8 val) = val

/-- A flag record holds declared enumerators only. -/
def Declared {T : Type} (codec : Codec T) (val : T) : Prop :=
  match codec, val with
  | enumU8, _ | u8, _ | cOctetStr _, _ | u8OctetStr _, _ => True
  | enumFlag, val => EnumFlag.Declared val

/-- The limit of a counted string fits its length octet. -/
def LimitFits {T : Type} : Codec T → Prop
  | enumU8 | enumFlag | u8 | cOctetStr _ => True
  | u8OctetStr maxlen => maxlen ≤ 255

instance {T : Type} (codec : Codec T) (val : T) : Decidable (codec.Fits val) :=
  match codec, val with
  | enumU8, _ | enumFlag, _ | u8, _ => inferInstanceAs (Decidable True)
  | cOctetStr maxlen, val => inferInstanceAs (Decidable (val.length < maxlen))
  | u8OctetStr maxlen, val => inferInstanceAs (Decidable (val.length ≤ maxlen))

instance {T : Type} (codec : Codec T) (val : T) : Decidable (codec.NulFree val) :=
  match codec, val with
  | enumU8, _ | enumFlag, _ | u8, _ | u8OctetStr _, _ => inferInstanceAs (Decidable True)
  | cOctetStr _, val => inferInstanceAs (Decidable (0 ∉ val))

/-- The encoder appends the encoding of a value that fits and throws on others. -/
theorem run_serializeTo {T : Type} (codec : Codec T) (val : T) (name : String)
    (vec : Octets) :
    (codec.Fits val ∧
        (codec.serializeTo val name).run vec = .ok () (vec ++ codec.encode val)) ∨
      (¬ codec.Fits val ∧
        ∃ what, (codec.serializeTo val name).run vec = .error (.lengthError what) vec) := by
  cases codec with
  | enumU8 | enumFlag | u8 => exact Or.inl ⟨trivial, rfl⟩
  | cOctetStr maxlen =>
      by_cases hlong : val.length ≥ maxlen
      · refine Or.inr ⟨Nat.not_lt.mpr hlong,
          "c_octet_str exceed its limit, field_name:" ++ name, ?_⟩
        simp only [serializeTo, COctetStr.serializeTo, if_pos hlong]
        rfl
      · refine Or.inl ⟨Nat.not_le.mp hlong, ?_⟩
        simp only [serializeTo, COctetStr.serializeTo, if_neg hlong, run_append, encode]
  | u8OctetStr maxlen =>
      by_cases hlong : val.length > maxlen
      · refine Or.inr ⟨Nat.not_le.mpr hlong,
          "octet_str exceed its limit, field_name:" ++ name, ?_⟩
        simp only [serializeTo, U8OctetStr.serializeTo, if_pos hlong]
        rfl
      · refine Or.inl ⟨Nat.not_lt.mp hlong, ?_⟩
        simp only [serializeTo, U8OctetStr.serializeTo, if_neg hlong, EStateM.run_bind,
          run_append, encode, List.append_assoc, List.singleton_append]

/-- The encoder writes an encoding of the value exactly when the value fits, no NUL
ends it early and no flag bit is masked. -/
theorem encodes_encode_iff {T : Type} (codec : Codec T) (hlimit : codec.LimitFits)
    (val : T) :
    codec.Encodes val (codec.encode val) ↔
      codec.Fits val ∧ codec.NulFree val ∧ codec.FlagsKept val := by
  cases codec with
  | enumU8 =>
      simp only [Fits, NulFree, FlagsKept, and_self, iff_true]
      exact ⟨_, rfl, (EnumU8.ofU8_toU8 val).symm⟩
  | enumFlag => simp [Encodes, encode, Fits, NulFree, FlagsKept, eq_comm]
  | u8 => simp [Encodes, encode, Fits, NulFree, FlagsKept]
  | cOctetStr maxlen => simp [Encodes, encode, Fits, NulFree, FlagsKept]
  | u8OctetStr maxlen =>
      simp only [Encodes, encode, Fits, NulFree, FlagsKept, and_true]
      refine and_iff_left_of_imp fun hle => ⟨_, ?_, rfl⟩
      have hlimit' : maxlen ≤ 255 := hlimit
      rw [UInt8.toNat_ofNat']
      omega

/-- What the encoder writes for a value that fits and holds no NUL is a string of the field. -/
theorem grammar_encode {T : Type} (codec : Codec T) (hlimit : codec.LimitFits) {val : T}
    (hfits : codec.Fits val) (hnul : codec.NulFree val) : codec.Grammar (codec.encode val) := by
  cases codec with
  | enumU8 | enumFlag | u8 => exact ⟨_, rfl⟩
  | cOctetStr maxlen => exact ⟨val, hfits, hnul, rfl⟩
  | u8OctetStr maxlen =>
      have hlimit' : maxlen ≤ 255 := hlimit
      have hle : val.length ≤ maxlen := hfits
      have hlength : (UInt8.ofNat val.length).toNat = val.length := by
        rw [UInt8.toNat_ofNat']
        omega
      exact ⟨_, val, by omega, hlength.symm, rfl⟩

/-- A value that was decoded passes every check of its encoder. -/
theorem fits_of_encodes {T : Type} (codec : Codec T) {val : T} {e : Octets}
    (hencodes : codec.Encodes val e) :
    codec.Fits val ∧ codec.NulFree val ∧ codec.FlagsKept val := by
  cases codec with
  | enumU8 | u8 => exact ⟨trivial, trivial, trivial⟩
  | enumFlag =>
      rcases hencodes with ⟨b, rfl, rfl⟩
      exact ⟨trivial, trivial, EnumFlag.fromU8_toU8_fromU8 b⟩
  | cOctetStr maxlen => exact ⟨hencodes.1, hencodes.2.1, trivial⟩
  | u8OctetStr maxlen => exact ⟨hencodes.1, trivial, trivial⟩

/-- Declared enumerators survive packing and unpacking. -/
theorem flagsKept_of_declared {T : Type} (codec : Codec T) {val : T}
    (hdeclared : codec.Declared val) : codec.FlagsKept val := by
  cases codec with
  | enumU8 | u8 | cOctetStr _ | u8OctetStr _ => trivial
  | enumFlag => exact EnumFlag.fromU8_toU8 val hdeclared

/-- A NUL in a C string makes the decoder return a shorter string or throw, whatever
follows. -/
theorem nulFree_of_run_encode {T : Type} (codec : Codec T) (name : String) {val : T}
    {tail rest : Octets}
    (hrun : (codec.deserialize name).run (codec.encode val ++ tail) = .ok val rest) :
    codec.NulFree val := by
  cases codec with
  | enumU8 | enumFlag | u8 | u8OctetStr _ => trivial
  | cOctetStr maxlen =>
      intro hmem
      rcases List.eq_append_cons_of_mem hmem with ⟨str, suffix, rfl, hnull⟩
      have hcut : (cOctetStr maxlen).encode (str ++ 0 :: suffix) ++ tail =
          str ++ 0 :: (suffix ++ (0 :: tail)) := by
        simp [encode]
      have hdecoded := COctetStr.run_deserialize maxlen name hnull (suffix ++ (0 :: tail))
      rw [hcut] at hrun
      change (COctetStr.deserialize maxlen name).run _ = _ at hrun
      rw [hdecoded] at hrun
      split at hrun
      · cases hrun
      · injection hrun with hval
        have hlength := congrArg List.length hval
        simp at hlength

end Codec

end Smpp
