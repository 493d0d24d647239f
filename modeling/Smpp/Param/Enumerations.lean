import Mathlib.Tactic.Common

/-!
# One-octet enumerations

The {lit}`enum class T : uint8_t` parameters of a PDU.  A C++ enumeration with a
fixed underlying type can hold every octet, and {lit}`static_cast` from the wire
makes use of that, so each one wraps its octet.  Named enumerators are those that
appear as default member initializers.
-/

namespace Smpp

/-- A type whose values are octets under another name. -/
class EnumU8 (T : Type) where
  ofU8 : UInt8 → T
  toU8 : T → UInt8
  ofU8_toU8 : ∀ v, ofU8 (toU8 v) = v
  toU8_ofU8 : ∀ b, toU8 (ofU8 b) = b

/-- Type of number. -/
structure Ton where
  toU8 : UInt8
deriving DecidableEq, Repr

/-- Numbering plan indicator. -/
structure Npi where
  toU8 : UInt8
deriving DecidableEq, Repr

/-- Version of the protocol a bind request asks for. -/
structure InterfaceVersion where
  toU8 : UInt8
deriving DecidableEq, Repr

/-- Encoding of the short message. -/
structure DataCoding where
  toU8 : UInt8
deriving DecidableEq, Repr

/-- Final state of a queried message. -/
structure MessageState where
  toU8 : UInt8
deriving DecidableEq, Repr

/-- Priority level of a message. -/
structure PriorityFlag where
  toU8 : UInt8
deriving DecidableEq, Repr

/-- Whether a submitted message replaces a pending one. -/
structure ReplaceIfPresentFlag where
  toU8 : UInt8
deriving DecidableEq, Repr

def Ton.unknown : Ton := ⟨0x00⟩
def Npi.unknown : Npi := ⟨0x00⟩
def InterfaceVersion.smpp34 : InterfaceVersion := ⟨0x34⟩
def DataCoding.defaults : DataCoding := ⟨0x00⟩
def MessageState.unknown : MessageState := ⟨0x07⟩
def PriorityFlag.gsmNonPriority : PriorityFlag := ⟨0x00⟩
def ReplaceIfPresentFlag.no : ReplaceIfPresentFlag := ⟨0x00⟩

instance : EnumU8 Ton := ⟨Ton.mk, Ton.toU8, fun _ => rfl, fun _ => rfl⟩
instance : EnumU8 Npi := ⟨Npi.mk, Npi.toU8, fun _ => rfl, fun _ => rfl⟩
instance : EnumU8 InterfaceVersion :=
  ⟨InterfaceVersion.mk, InterfaceVersion.toU8, fun _ => rfl, fun _ => rfl⟩
instance : EnumU8 DataCoding := ⟨DataCoding.mk, DataCoding.toU8, fun _ => rfl, fun _ => rfl⟩
instance : EnumU8 MessageState :=
  ⟨MessageState.mk, MessageState.toU8, fun _ => rfl, fun _ => rfl⟩
instance : EnumU8 PriorityFlag :=
  ⟨PriorityFlag.mk, PriorityFlag.toU8, fun _ => rfl, fun _ => rfl⟩
instance : EnumU8 ReplaceIfPresentFlag :=
  ⟨ReplaceIfPresentFlag.mk, ReplaceIfPresentFlag.toU8, fun _ => rfl, fun _ => rfl⟩

end Smpp
