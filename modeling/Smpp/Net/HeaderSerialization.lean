import Smpp.Common.CommandId
import Smpp.Common.Octets
import Smpp.Library.BigEndian
import Smpp.Library.Framing

/-!
# Frame headers

{lit}`detail::serialize_header` and {lit}`detail::deserialize_header`: four 32-bit
numbers in the first sixteen octets of a frame.

Main results:

- Theorem {lit}`deserializeHeader_serializeHeader`: a written header reads back, and
  the octets behind it are untouched.
- Definition {lit}`commandFraming`: frames announce their length in the first four
  octets of their header.
-/

namespace Smpp

/-- {lit}`session::header_length`. -/
def headerLength : Nat := 16

/-- The tuple that {lit}`deserialize_header` returns. -/
structure Header where
  commandLength : UInt32 := 0
  commandId : CommandId := ⟨0⟩
  commandStatus : CommandStatus := ⟨0⟩
  sequenceNumber : UInt32 := 0
deriving DecidableEq, Repr

/-! ## 32-bit numbers on the wire -/

/-- The lambda {lit}`deserialize_u32`, on a view of exactly four octets. -/
def deserializeU32 : Octets → UInt32
  | [b₀, b₁, b₂, b₃] =>
      b₀.toUInt32 <<< 24 ||| b₁.toUInt32 <<< 16 ||| b₂.toUInt32 <<< 8 ||| b₃.toUInt32
  | _ => 0

/-- The lambda {lit}`serialize_u32`, as the four octets it stores. -/
def serializeU32 (val : UInt32) : Octets :=
  [((val >>> 24) &&& 0xFF).toUInt8, ((val >>> 16) &&& 0xFF).toUInt8,
    ((val >>> 8) &&& 0xFF).toUInt8, ((val >>> 0) &&& 0xFF).toUInt8]

@[simp]
theorem length_serializeU32 (val : UInt32) : (serializeU32 val).length = 4 :=
  rfl

theorem serializeU32_eq (val : UInt32) :
    serializeU32 val = BigEndian.octets 4 val.toNat := by
  have h₃ : (val >>> 24).toUInt8 = UInt8.ofNat (val.toNat / 256 / 256 / 256) := by
    apply UInt8.toNat_inj.mp
    simp [Nat.shiftRight_eq_div_pow, Nat.div_div_eq_div_mul]
  have h₂ : (val >>> 16).toUInt8 = UInt8.ofNat (val.toNat / 256 / 256) := by
    apply UInt8.toNat_inj.mp
    simp [Nat.shiftRight_eq_div_pow, Nat.div_div_eq_div_mul]
  have h₁ : (val >>> 8).toUInt8 = UInt8.ofNat (val.toNat / 256) := by
    apply UInt8.toNat_inj.mp
    simp [Nat.shiftRight_eq_div_pow]
  simp [serializeU32, h₃, h₂, h₁, BigEndian.octets]

theorem toNat_deserializeU32 {bs : Octets} (hlength : bs.length = 4) :
    (deserializeU32 bs).toNat = BigEndian.value bs := by
  match bs, hlength with
  | [b₀, b₁, b₂, b₃], _ => exact BigEndian.toNat_joinU32 b₀ b₁ b₂ b₃

/-- A written number reads back. -/
@[simp]
theorem deserializeU32_serializeU32 (val : UInt32) :
    deserializeU32 (serializeU32 val) = val := by
  apply UInt32.toNat_inj.mp
  rw [toNat_deserializeU32 (length_serializeU32 val), serializeU32_eq, BigEndian.value_octets]
  exact Nat.mod_eq_of_lt val.toNat_lt

/-! ## The header -/

/-- {lit}`detail::deserialize_header`; the span it is given starts at the first octet
of the buffer and ends sixteen octets later. -/
def deserializeHeader (headerBuf : Octets) : Header where
  commandLength := deserializeU32 ((headerBuf.drop 0).take 4)
  commandId := ⟨deserializeU32 ((headerBuf.drop 4).take 4)⟩
  commandStatus := ⟨deserializeU32 ((headerBuf.drop 8).take 4)⟩
  sequenceNumber := deserializeU32 ((headerBuf.drop 12).take 4)

/-- The sixteen octets that {lit}`detail::serialize_header` stores. -/
def encodeHeader (header : Header) : Octets :=
  serializeU32 header.commandLength ++ serializeU32 header.commandId.toU32 ++
    serializeU32 header.commandStatus.toU32 ++ serializeU32 header.sequenceNumber

/-- {lit}`detail::serialize_header` on the first sixteen octets of a buffer. -/
def serializeHeader (buf : Octets) (commandLength : UInt32) (commandId : CommandId)
    (sequenceNumber : UInt32) (commandStatus : CommandStatus := .rok) : Octets :=
  encodeHeader ⟨commandLength, commandId, commandStatus, sequenceNumber⟩ ++
    buf.drop headerLength

@[simp]
theorem length_encodeHeader (header : Header) : (encodeHeader header).length = 16 :=
  rfl

/-- A header depends on the first sixteen octets only. -/
theorem deserializeHeader_append {headerBuf : Octets} (more : Octets)
    (hlength : headerLength ≤ headerBuf.length) :
    deserializeHeader (headerBuf ++ more) = deserializeHeader headerBuf := by
  have hfield : ∀ i, i + 4 ≤ headerLength →
      ((headerBuf ++ more).drop i).take 4 = (headerBuf.drop i).take 4 := by
    intro i hi
    rw [List.drop_append_of_le_length (by omega), List.take_append_of_le_length]
    rw [List.length_drop]
    omega
  simp only [deserializeHeader, hfield 0 (by decide), hfield 4 (by decide),
    hfield 8 (by decide), hfield 12 (by decide)]

@[simp]
theorem deserializeHeader_encodeHeader (header : Header) (more : Octets) :
    deserializeHeader (encodeHeader header ++ more) = header := by
  have hfields : deserializeHeader (encodeHeader header) =
      ⟨deserializeU32 (serializeU32 header.commandLength),
        ⟨deserializeU32 (serializeU32 header.commandId.toU32)⟩,
        ⟨deserializeU32 (serializeU32 header.commandStatus.toU32)⟩,
        deserializeU32 (serializeU32 header.sequenceNumber)⟩ :=
    rfl
  rw [deserializeHeader_append more (by simp [headerLength]), hfields]
  simp only [deserializeU32_serializeU32]

/-- A written header reads back, and the octets behind it are untouched. -/
theorem deserializeHeader_serializeHeader (buf : Octets) (commandLength : UInt32)
    (commandId : CommandId) (sequenceNumber : UInt32) (commandStatus : CommandStatus) :
    deserializeHeader
        (serializeHeader buf commandLength commandId sequenceNumber commandStatus) =
      ⟨commandLength, commandId, commandStatus, sequenceNumber⟩ ∧
    (serializeHeader buf commandLength commandId sequenceNumber commandStatus).drop
        headerLength = buf.drop headerLength := by
  refine ⟨deserializeHeader_encodeHeader _ _, ?_⟩
  rw [serializeHeader, List.drop_left' (by simp [headerLength])]

/-- A written header leaves the length of a buffer alone. -/
theorem length_serializeHeader {buf : Octets} (hlength : headerLength ≤ buf.length)
    (commandLength : UInt32) (commandId : CommandId) (sequenceNumber : UInt32)
    (commandStatus : CommandStatus) :
    (serializeHeader buf commandLength commandId sequenceNumber commandStatus).length =
      buf.length := by
  simp only [serializeHeader, List.length_append, length_encodeHeader, List.length_drop]
  simp only [headerLength] at hlength ⊢
  omega

/-! ## Frames on the wire -/

/-- Frames announce their length in their header. -/
def commandFraming : Framing UInt8 where
  headerLength := headerLength
  announce := fun buf => (deserializeHeader buf).commandLength.toNat
  announce_append := fun _ more hlength => by rw [deserializeHeader_append more hlength]

end Smpp
