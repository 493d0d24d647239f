import Smpp.Param.Enumerations

/-!
# The alphabet behind a data_coding

{lit}`extract_unicode` sorts the 256 data codings into four alphabets by the bits of the
coding group and, in most groups, by the bits of the alphabet.

Main results:

- Theorem {lit}`extractUnicode_eq_ascii8Bit_iff`: the data codings that are eight-bit text.
-/

namespace Smpp

/-- {lit}`enum class data_coding_unicode`. -/
inductive DataCodingUnicode where
  | ascii7Bit
  | ascii8Bit
  | binary
  | ucs2
deriving DecidableEq, Repr

/-- {lit}`extract_unicode`. -/
def extractUnicode (dataCoding : DataCoding) : DataCodingUnicode :=
  let codingGroupBitsMask : UInt8 := 0xF0
  let alphabetMask : UInt8 := 0x0C
  let dataCodingMask : UInt8 := 0x0F
  match dataCoding.toU8 &&& codingGroupBitsMask with
  -- general_data_coding_indication_0
  | 0x00 =>
      match dataCoding.toU8 &&& dataCodingMask with
      | 0x00 | 0x01 | 0x03 | 0x05 | 0x06 | 0x07 | 0x0D | 0x0E => .ascii8Bit
      | 0x0B | 0x0C | 0x0F => .ascii8Bit
      | 0x02 | 0x04 | 0x09 | 0x0A => .binary
      | 0x08 => .ucs2
      | _ => .ascii7Bit
  -- general_data_coding_indication_1 to _3, automatic_deletion_group_0 to _3
  | 0x10 | 0x20 | 0x30 | 0x40 | 0x50 | 0x60 | 0x70 =>
      match dataCoding.toU8 &&& alphabetMask with
      | 0x04 => .binary
      | 0x08 => .ucs2
      | _ => .ascii7Bit
  -- reserved_group_0 to _3, mwi_group_discard_message, mwi_group_store_message_1
  | 0x80 | 0x90 | 0xA0 | 0xB0 | 0xC0 | 0xD0 => .ascii7Bit
  -- mwi_group_store_message_2
  | 0xE0 => .ucs2
  -- data_coding_message_class
  | 0xF0 => if dataCoding.toU8 &&& 0x04 ≠ 0 then .binary else .ascii7Bit
  | _ => .ascii7Bit

/-- Eight-bit text are the codings of group 0 that are neither binary nor ucs2. -/
theorem extractUnicode_eq_ascii8Bit_iff (dataCoding : DataCoding) :
    extractUnicode dataCoding = .ascii8Bit ↔
      dataCoding.toU8 < 0x10 ∧ dataCoding.toU8 ∉ [0x02, 0x04, 0x08, 0x09, 0x0A] := by
  rcases dataCoding with ⟨value⟩
  have hall : ∀ n : Fin 256, extractUnicode ⟨UInt8.ofNat n⟩ = .ascii8Bit ↔
      UInt8.ofNat n < 0x10 ∧ UInt8.ofNat n ∉ [0x02, 0x04, 0x08, 0x09, 0x0A] := by
    decide +kernel
  have hvalue := hall ⟨value.toNat, value.toNat_lt⟩
  rwa [UInt8.ofNat_toNat] at hvalue

end Smpp
