import Mathlib.Tactic.Common

/-!
# Command identifiers and statuses

Both are C++ enumerations over {lit}`uint32_t`: {lit}`deserialize_header` casts any
32-bit number to them, so a value need not be a declared enumerator.  The
enumerators named here are the ones some modelled function mentions.
-/

namespace Smpp

/-- {lit}`enum class command_id : uint32_t`. -/
structure CommandId where
  toU32 : UInt32
deriving DecidableEq, Repr

namespace CommandId

def genericNack : CommandId := ⟨0x80000000⟩
def bindReceiver : CommandId := ⟨0x00000001⟩
def bindReceiverResp : CommandId := ⟨0x80000001⟩
def bindTransmitter : CommandId := ⟨0x00000002⟩
def bindTransmitterResp : CommandId := ⟨0x80000002⟩
def querySm : CommandId := ⟨0x00000003⟩
def querySmResp : CommandId := ⟨0x80000003⟩
def submitSm : CommandId := ⟨0x00000004⟩
def submitSmResp : CommandId := ⟨0x80000004⟩
def deliverSm : CommandId := ⟨0x00000005⟩
def deliverSmResp : CommandId := ⟨0x80000005⟩
def unbind : CommandId := ⟨0x00000006⟩
def unbindResp : CommandId := ⟨0x80000006⟩
def replaceSm : CommandId := ⟨0x00000007⟩
def replaceSmResp : CommandId := ⟨0x80000007⟩
def cancelSm : CommandId := ⟨0x00000008⟩
def cancelSmResp : CommandId := ⟨0x80000008⟩
def bindTransceiver : CommandId := ⟨0x00000009⟩
def bindTransceiverResp : CommandId := ⟨0x80000009⟩
def outbind : CommandId := ⟨0x0000000b⟩
def enquireLink : CommandId := ⟨0x00000015⟩
def enquireLinkResp : CommandId := ⟨0x80000015⟩
def alertNotification : CommandId := ⟨0x00000102⟩
def dataSm : CommandId := ⟨0x00000103⟩
def dataSmResp : CommandId := ⟨0x80000103⟩

end CommandId

/-- {lit}`is_response`: the top bit of the command identifier. -/
def isResponse (commandId : CommandId) : Bool :=
  commandId.toU32 &&& 0x80000000 != 0

/-- {lit}`enum class command_status : uint32_t`. -/
structure CommandStatus where
  toU32 : UInt32
deriving DecidableEq, Repr

/-- No error. -/
def CommandStatus.rok : CommandStatus := ⟨0x00000000⟩

end Smpp
