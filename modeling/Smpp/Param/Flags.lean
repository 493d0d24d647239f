import Mathlib.Tactic.Common

/-!
# Packed flags: esm_class and registered_delivery

Each is a record of enumerations that occupy disjoint bits of one octet.
{lit}`from_u8` masks the octet into its members, the conversion operator joins the
members with a bitwise or.

Main results:

- Theorems {lit}`EsmClass.toU8_fromU8` and {lit}`RegisteredDelivery.toU8_fromU8`: what
  survives unpacking and packing an octet.
- The {lit}`EnumFlag` instances: packing is undone by unpacking on declared
  enumerators, and unpacking is idempotent.
-/

namespace Smpp

/-- Masking by a union of masks is joining the masked parts. -/
theorem and_or_distrib_left (a b c : UInt8) :
    a &&& (b ||| c) = (a &&& b) ||| (a &&& c) := by
  apply UInt8.toBitVec_inj.mp
  simp only [UInt8.toBitVec_and, UInt8.toBitVec_or, BitVec.and_or_distrib_left]

/-- A flag record packed into one octet. -/
class EnumFlag (T : Type) where
  fromU8 : UInt8 → T
  toU8 : T → UInt8
  /-- Every member is one of the enumerators its type declares. -/
  Declared : T → Prop
  fromU8_toU8 : ∀ v, Declared v → fromU8 (toU8 v) = v
  fromU8_toU8_fromU8 : ∀ b, fromU8 (toU8 (fromU8 b)) = fromU8 b

/-! ## esm_class -/

structure MessagingMode where
  toU8 : UInt8
deriving DecidableEq, Repr

namespace MessagingMode

def defaults : MessagingMode := ⟨0x00⟩
def datagram : MessagingMode := ⟨0x01⟩
def forward : MessagingMode := ⟨0x02⟩
def storeAndForward : MessagingMode := ⟨0x03⟩

/-- The declared enumerators. -/
def declared : List MessagingMode := [defaults, datagram, forward, storeAndForward]

end MessagingMode

structure MessageType where
  toU8 : UInt8
deriving DecidableEq, Repr

namespace MessageType

def defaults : MessageType := ⟨0x00⟩
def deliveryReceipt : MessageType := ⟨0x04⟩
def deliveryAck : MessageType := ⟨0x08⟩
def userAck : MessageType := ⟨0x10⟩
def convAbort : MessageType := ⟨0x18⟩
def intDeliveryNotif : MessageType := ⟨0x20⟩

/-- The declared enumerators. -/
def declared : List MessageType :=
  [defaults, deliveryReceipt, deliveryAck, userAck, convAbort, intDeliveryNotif]

end MessageType

structure GsmNetworkFeatures where
  toU8 : UInt8
deriving DecidableEq, Repr

namespace GsmNetworkFeatures

def no : GsmNetworkFeatures := ⟨0x00⟩
def uhdi : GsmNetworkFeatures := ⟨0x40⟩
def replyPath : GsmNetworkFeatures := ⟨0x80⟩
def both : GsmNetworkFeatures := ⟨0xC0⟩

/-- The declared enumerators. -/
def declared : List GsmNetworkFeatures := [no, uhdi, replyPath, both]

end GsmNetworkFeatures

/-- {lit}`struct esm_class`. -/
structure EsmClass where
  messagingMode : MessagingMode := .defaults
  messageType : MessageType := .defaults
  gsmNetworkFeatures : GsmNetworkFeatures := .no
deriving DecidableEq, Repr

namespace EsmClass

/-- {lit}`esm_class::from_u8`. -/
def fromU8 (value : UInt8) : EsmClass :=
  { messagingMode := ⟨value &&& 0x03⟩
    messageType := ⟨value &&& 0x3C⟩
    gsmNetworkFeatures := ⟨value &&& 0xC0⟩ }

/-- {lit}`esm_class::operator uint8_t`. -/
def toU8 (e : EsmClass) : UInt8 :=
  e.messagingMode.toU8 ||| e.messageType.toU8 ||| e.gsmNetworkFeatures.toU8

/-- Every member is a declared enumerator. -/
def Declared (e : EsmClass) : Prop :=
  e.messagingMode ∈ MessagingMode.declared ∧ e.messageType ∈ MessageType.declared ∧
    e.gsmNetworkFeatures ∈ GsmNetworkFeatures.declared

/-- The three masks cover the octet, so unpacking loses nothing. -/
theorem toU8_fromU8 (value : UInt8) : (fromU8 value).toU8 = value := by
  simp only [toU8, fromU8, ← and_or_distrib_left]
  exact UInt8.and_neg_one

/-- Declared enumerators stay within their own bits. -/
theorem fromU8_toU8 (e : EsmClass) (hdeclared : e.Declared) : fromU8 e.toU8 = e := by
  have hall : ∀ mode ∈ MessagingMode.declared, ∀ type ∈ MessageType.declared,
      ∀ features ∈ GsmNetworkFeatures.declared,
        fromU8 (toU8 ⟨mode, type, features⟩) = ⟨mode, type, features⟩ := by
    decide
  exact hall _ hdeclared.1 _ hdeclared.2.1 _ hdeclared.2.2

instance : EnumFlag EsmClass where
  fromU8 := fromU8
  toU8 := toU8
  Declared := Declared
  fromU8_toU8 := fromU8_toU8
  fromU8_toU8_fromU8 := fun b => congrArg fromU8 (toU8_fromU8 b)

end EsmClass

/-! ## registered_delivery -/

structure SmscDeliveryReceipt where
  toU8 : UInt8
deriving DecidableEq, Repr

namespace SmscDeliveryReceipt

def no : SmscDeliveryReceipt := ⟨0x00⟩
def both : SmscDeliveryReceipt := ⟨0x01⟩
def failed : SmscDeliveryReceipt := ⟨0x02⟩

/-- The declared enumerators. -/
def declared : List SmscDeliveryReceipt := [no, both, failed]

end SmscDeliveryReceipt

structure SmeOriginatedAck where
  toU8 : UInt8
deriving DecidableEq, Repr

namespace SmeOriginatedAck

def no : SmeOriginatedAck := ⟨0x00⟩
def deliveryAck : SmeOriginatedAck := ⟨0x04⟩
def userAck : SmeOriginatedAck := ⟨0x08⟩
def both : SmeOriginatedAck := ⟨0x0C⟩

/-- The declared enumerators. -/
def declared : List SmeOriginatedAck := [no, deliveryAck, userAck, both]

end SmeOriginatedAck

structure IntermediateNotification where
  toU8 : UInt8
deriving DecidableEq, Repr

namespace IntermediateNotification

def no : IntermediateNotification := ⟨0x00⟩
def requested : IntermediateNotification := ⟨0x10⟩

/-- The declared enumerators. -/
def declared : List IntermediateNotification := [no, requested]

end IntermediateNotification

/-- {lit}`struct registered_delivery`. -/
structure RegisteredDelivery where
  smscDeliveryReceipt : SmscDeliveryReceipt := .no
  smeOriginatedAck : SmeOriginatedAck := .no
  intermediateNotification : IntermediateNotification := .no
deriving DecidableEq, Repr

namespace RegisteredDelivery

/-- {lit}`registered_delivery::from_u8`. -/
def fromU8 (value : UInt8) : RegisteredDelivery :=
  { smscDeliveryReceipt := ⟨value &&& 0x03⟩
    smeOriginatedAck := ⟨value &&& 0x0C⟩
    intermediateNotification := ⟨value &&& 0x10⟩ }

/-- {lit}`registered_delivery::operator uint8_t`. -/
def toU8 (r : RegisteredDelivery) : UInt8 :=
  r.smscDeliveryReceipt.toU8 ||| r.smeOriginatedAck.toU8 |||
    r.intermediateNotification.toU8

/-- Every member is a declared enumerator. -/
def Declared (r : RegisteredDelivery) : Prop :=
  r.smscDeliveryReceipt ∈ SmscDeliveryReceipt.declared ∧
    r.smeOriginatedAck ∈ SmeOriginatedAck.declared ∧
    r.intermediateNotification ∈ IntermediateNotification.declared

/-- The three reserved bits of the octet are dropped. -/
theorem toU8_fromU8 (value : UInt8) : (fromU8 value).toU8 = value &&& 0x1F := by
  simp only [toU8, fromU8, ← and_or_distrib_left]
  rfl

/-- Declared enumerators stay within their own bits. -/
theorem fromU8_toU8 (r : RegisteredDelivery) (hdeclared : r.Declared) :
    fromU8 r.toU8 = r := by
  have hall : ∀ receipt ∈ SmscDeliveryReceipt.declared, ∀ ack ∈ SmeOriginatedAck.declared,
      ∀ notification ∈ IntermediateNotification.declared,
        fromU8 (toU8 ⟨receipt, ack, notification⟩) = ⟨receipt, ack, notification⟩ := by
    decide
  exact hall _ hdeclared.1 _ hdeclared.2.1 _ hdeclared.2.2

/-- Unpacking ignores the reserved bits. -/
theorem fromU8_and (value : UInt8) : fromU8 (value &&& 0x1F) = fromU8 value := by
  simp only [fromU8, UInt8.and_assoc]
  rfl

instance : EnumFlag RegisteredDelivery where
  fromU8 := fromU8
  toU8 := toU8
  Declared := Declared
  fromU8_toU8 := fromU8_toU8
  fromU8_toU8_fromU8 := fun b => (congrArg fromU8 (toU8_fromU8 b)).trans (fromU8_and b)

end RegisteredDelivery

end Smpp
