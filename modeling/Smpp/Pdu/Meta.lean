import Smpp.Common.CommandId
import Smpp.Pdu.Types
import Mathlib.Logic.Equiv.Defs

/-!
# Field lists of the PDU types

{lit}`pdu_meta<PDU>()` for every type of {lit}`pdu_variant`.  The order of
{lit}`PduType.all` is the order of the alternatives of the variant.

Main results:

- Definition {lit}`PduMeta`: the field list of an aggregate together with the facts
  that hold of it by construction (it lists the members, counted strings fit their
  length octet, the default value passes every check).
- Theorem {lit}`PduType.owner_commandId`: no two types share a command identifier.
-/

namespace Smpp

/-- {lit}`pdu_meta<PDU>()`: the members of the aggregate as a tuple and their codecs. -/
structure PduMeta (S : Type) where
  {Members : Type}
  members : S ≃ Members
  fields : FieldList Members
  default : S
  anchored : fields.Anchored := by exact trivial
  limits : fields.LimitsFit := by simp [FieldList.LimitsFit, Codec.LimitFits]
  default_fits : fields.Fits (members default) := by
    simp [FieldList.Fits, FieldList.All, Codec.Fits]
  default_nulFree : fields.NulFree (members default) := by
    simp [FieldList.NulFree, FieldList.All, Codec.NulFree]
  default_flagsKept : fields.FlagsKept (members default) := by
    simp [FieldList.FlagsKept, FieldList.All, Codec.FlagsKept] <;> decide

/-- {lit}`pdu_meta<alert_notification>`. -/
def AlertNotification.meta : PduMeta AlertNotification where
  members :=
    { toFun := fun p => (p.sourceAddrTon, p.sourceAddrNpi, p.sourceAddr, p.esmeAddrTon,
        p.esmeAddrNpi, p.esmeAddr, p.oparam)
      invFun := fun (sourceAddrTon, sourceAddrNpi, sourceAddr, esmeAddrTon, esmeAddrNpi, esmeAddr,
        oparam) =>
        ⟨sourceAddrTon, sourceAddrNpi, sourceAddr, esmeAddrTon, esmeAddrNpi, esmeAddr, oparam⟩
      left_inv := fun _ => rfl
      right_inv := fun _ => rfl }
  fields :=
    .mem .enumU8 "source_addr_ton" <|
    .mem .enumU8 "source_addr_npi" <|
    .mem (.cOctetStr 65) "source_addr" <|
    .mem .enumU8 "esme_addr_ton" <|
    .mem .enumU8 "esme_addr_npi" <|
    .mem (.cOctetStr 65) "esme_addr" <|
    .smart "oparam"
  default := {}

/-- {lit}`pdu_meta<bind_receiver>`. -/
def BindReceiver.meta : PduMeta BindReceiver where
  members :=
    { toFun := fun p => (p.systemId, p.password, p.systemType, p.interfaceVersion, p.addrTon,
        p.addrNpi, p.addressRange, ())
      invFun := fun (systemId, password, systemType, interfaceVersion, addrTon, addrNpi,
        addressRange, _) =>
        ⟨systemId, password, systemType, interfaceVersion, addrTon, addrNpi, addressRange⟩
      left_inv := fun _ => rfl
      right_inv := fun _ => rfl }
  fields :=
    .mem (.cOctetStr 16) "system_id" <|
    .mem (.cOctetStr 9) "password" <|
    .mem (.cOctetStr 13) "system_type" <|
    .mem .enumU8 "interface_version" <|
    .mem .enumU8 "addr_ton" <|
    .mem .enumU8 "addr_npi" <|
    .mem (.cOctetStr 41) "address_range" <| .nil
  default := {}

/-- {lit}`pdu_meta<bind_receiver_resp>`. -/
def BindReceiverResp.meta : PduMeta BindReceiverResp where
  members :=
    { toFun := fun p => (p.systemId, p.oparam)
      invFun := fun (systemId, oparam) =>
        ⟨systemId, oparam⟩
      left_inv := fun _ => rfl
      right_inv := fun _ => rfl }
  fields :=
    .mem (.cOctetStr 16) "system_id" <|
    .smart "oparam"
  default := {}

/-- {lit}`pdu_meta<bind_transceiver>`. -/
def BindTransceiver.meta : PduMeta BindTransceiver where
  members :=
    { toFun := fun p => (p.systemId, p.password, p.systemType, p.interfaceVersion, p.addrTon,
        p.addrNpi, p.addressRange, ())
      invFun := fun (systemId, password, systemType, interfaceVersion, addrTon, addrNpi,
        addressRange, _) =>
        ⟨systemId, password, systemType, interfaceVersion, addrTon, addrNpi, addressRange⟩
      left_inv := fun _ => rfl
      right_inv := fun _ => rfl }
  fields :=
    .mem (.cOctetStr 16) "system_id" <|
    .mem (.cOctetStr 9) "password" <|
    .mem (.cOctetStr 13) "system_type" <|
    .mem .enumU8 "interface_version" <|
    .mem .enumU8 "addr_ton" <|
    .mem .enumU8 "addr_npi" <|
    .mem (.cOctetStr 41) "address_range" <| .nil
  default := {}

/-- {lit}`pdu_meta<bind_transceiver_resp>`. -/
def BindTransceiverResp.meta : PduMeta BindTransceiverResp where
  members :=
    { toFun := fun p => (p.systemId, p.oparam)
      invFun := fun (systemId, oparam) =>
        ⟨systemId, oparam⟩
      left_inv := fun _ => rfl
      right_inv := fun _ => rfl }
  fields :=
    .mem (.cOctetStr 16) "system_id" <|
    .smart "oparam"
  default := {}

/-- {lit}`pdu_meta<bind_transmitter>`. -/
def BindTransmitter.meta : PduMeta BindTransmitter where
  members :=
    { toFun := fun p => (p.systemId, p.password, p.systemType, p.interfaceVersion, p.addrTon,
        p.addrNpi, p.addressRange, ())
      invFun := fun (systemId, password, systemType, interfaceVersion, addrTon, addrNpi,
        addressRange, _) =>
        ⟨systemId, password, systemType, interfaceVersion, addrTon, addrNpi, addressRange⟩
      left_inv := fun _ => rfl
      right_inv := fun _ => rfl }
  fields :=
    .mem (.cOctetStr 16) "system_id" <|
    .mem (.cOctetStr 9) "password" <|
    .mem (.cOctetStr 13) "system_type" <|
    .mem .enumU8 "interface_version" <|
    .mem .enumU8 "addr_ton" <|
    .mem .enumU8 "addr_npi" <|
    .mem (.cOctetStr 41) "address_range" <| .nil
  default := {}

/-- {lit}`pdu_meta<bind_transmitter_resp>`. -/
def BindTransmitterResp.meta : PduMeta BindTransmitterResp where
  members :=
    { toFun := fun p => (p.systemId, p.oparam)
      invFun := fun (systemId, oparam) =>
        ⟨systemId, oparam⟩
      left_inv := fun _ => rfl
      right_inv := fun _ => rfl }
  fields :=
    .mem (.cOctetStr 16) "system_id" <|
    .smart "oparam"
  default := {}

/-- {lit}`pdu_meta<cancel_sm>`. -/
def CancelSm.meta : PduMeta CancelSm where
  members :=
    { toFun := fun p => (p.serviceType, p.messageId, p.sourceAddrTon, p.sourceAddrNpi, p.sourceAddr,
        p.destAddrTon, p.destAddrNpi, p.destAddr, ())
      invFun := fun (serviceType, messageId, sourceAddrTon, sourceAddrNpi, sourceAddr, destAddrTon,
        destAddrNpi, destAddr, _) =>
        ⟨serviceType, messageId, sourceAddrTon, sourceAddrNpi, sourceAddr, destAddrTon, destAddrNpi,
          destAddr⟩
      left_inv := fun _ => rfl
      right_inv := fun _ => rfl }
  fields :=
    .mem (.cOctetStr 6) "service_type" <|
    .mem (.cOctetStr 65) "message_id" <|
    .mem .enumU8 "source_addr_ton" <|
    .mem .enumU8 "source_addr_npi" <|
    .mem (.cOctetStr 21) "source_addr" <|
    .mem .enumU8 "dest_addr_ton" <|
    .mem .enumU8 "dest_addr_npi" <|
    .mem (.cOctetStr 21) "dest_addr" <| .nil
  default := {}

/-- {lit}`pdu_meta<cancel_sm_resp>`. -/
def CancelSmResp.meta : PduMeta CancelSmResp where
  members := ⟨fun _ => (), fun _ => {}, fun _ => rfl, fun _ => rfl⟩
  fields :=
    .nil
  default := {}

/-- {lit}`pdu_meta<data_sm>`. -/
def DataSm.meta : PduMeta DataSm where
  members :=
    { toFun := fun p => (p.serviceType, p.sourceAddrTon, p.sourceAddrNpi, p.sourceAddr,
        p.destAddrTon, p.destAddrNpi, p.destAddr, p.esmClass, p.registeredDelivery,
        p.dataCoding, p.oparam)
      invFun := fun (serviceType, sourceAddrTon, sourceAddrNpi, sourceAddr, destAddrTon,
        destAddrNpi, destAddr, esmClass, registeredDelivery, dataCoding, oparam) =>
        ⟨serviceType, sourceAddrTon, sourceAddrNpi, sourceAddr, destAddrTon, destAddrNpi, destAddr,
          esmClass, registeredDelivery, dataCoding, oparam⟩
      left_inv := fun _ => rfl
      right_inv := fun _ => rfl }
  fields :=
    .mem (.cOctetStr 6) "service_type" <|
    .mem .enumU8 "source_addr_ton" <|
    .mem .enumU8 "source_addr_npi" <|
    .mem (.cOctetStr 65) "source_addr" <|
    .mem .enumU8 "dest_addr_ton" <|
    .mem .enumU8 "dest_addr_npi" <|
    .mem (.cOctetStr 65) "dest_addr" <|
    .mem .enumFlag "esm_class" <|
    .mem .enumFlag "registered_delivery" <|
    .mem .enumU8 "data_coding" <|
    .smart "oparam"
  default := {}

/-- {lit}`pdu_meta<data_sm_resp>`. -/
def DataSmResp.meta : PduMeta DataSmResp where
  members :=
    { toFun := fun p => (p.messageId, p.oparam)
      invFun := fun (messageId, oparam) =>
        ⟨messageId, oparam⟩
      left_inv := fun _ => rfl
      right_inv := fun _ => rfl }
  fields :=
    .mem (.cOctetStr 65) "message_id" <|
    .smart "oparam"
  default := {}

/-- {lit}`pdu_meta<deliver_sm>`. -/
def DeliverSm.meta : PduMeta DeliverSm where
  members :=
    { toFun := fun p => (p.serviceType, p.sourceAddrTon, p.sourceAddrNpi, p.sourceAddr,
        p.destAddrTon, p.destAddrNpi, p.destAddr, p.esmClass, p.protocolId, p.priorityFlag,
        p.scheduleDeliveryTime, p.validityPeriod, p.registeredDelivery,
        p.replaceIfPresentFlag, p.dataCoding, p.smDefaultMsgId, p.shortMessage, p.oparam)
      invFun := fun (serviceType, sourceAddrTon, sourceAddrNpi, sourceAddr, destAddrTon,
        destAddrNpi, destAddr, esmClass, protocolId, priorityFlag, scheduleDeliveryTime,
        validityPeriod, registeredDelivery, replaceIfPresentFlag, dataCoding, smDefaultMsgId,
        shortMessage, oparam) =>
        ⟨serviceType, sourceAddrTon, sourceAddrNpi, sourceAddr, destAddrTon, destAddrNpi, destAddr,
          esmClass, protocolId, priorityFlag, scheduleDeliveryTime, validityPeriod,
          registeredDelivery, replaceIfPresentFlag, dataCoding, smDefaultMsgId, shortMessage,
          oparam⟩
      left_inv := fun _ => rfl
      right_inv := fun _ => rfl }
  fields :=
    .mem (.cOctetStr 6) "service_type" <|
    .mem .enumU8 "source_addr_ton" <|
    .mem .enumU8 "source_addr_npi" <|
    .mem (.cOctetStr 21) "source_addr" <|
    .mem .enumU8 "dest_addr_ton" <|
    .mem .enumU8 "dest_addr_npi" <|
    .mem (.cOctetStr 21) "dest_addr" <|
    .mem .enumFlag "esm_class" <|
    .mem .u8 "protocol_id" <|
    .mem .enumU8 "priority_flag" <|
    .mem (.cOctetStr 1) "schedule_delivery_time" <|
    .mem (.cOctetStr 1) "validity_period" <|
    .mem .enumFlag "registered_delivery" <|
    .mem .enumU8 "replace_if_present_flag" <|
    .mem .enumU8 "data_coding" <|
    .mem .u8 "sm_default_msg_id" <|
    .mem (.u8OctetStr 254) "short_message" <|
    .smart "oparam"
  default := {}

/-- {lit}`pdu_meta<deliver_sm_resp>`. -/
def DeliverSmResp.meta : PduMeta DeliverSmResp where
  members :=
    { toFun := fun p => (p.messageId, ())
      invFun := fun (messageId, _) =>
        ⟨messageId⟩
      left_inv := fun _ => rfl
      right_inv := fun _ => rfl }
  fields :=
    .mem (.cOctetStr 1) "message_id" <| .nil
  default := {}

/-- {lit}`pdu_meta<generic_nack>`. -/
def GenericNack.meta : PduMeta GenericNack where
  members := ⟨fun _ => (), fun _ => {}, fun _ => rfl, fun _ => rfl⟩
  fields :=
    .nil
  default := {}

/-- {lit}`pdu_meta<outbind>`. -/
def Outbind.meta : PduMeta Outbind where
  members :=
    { toFun := fun p => (p.systemId, p.password, ())
      invFun := fun (systemId, password, _) =>
        ⟨systemId, password⟩
      left_inv := fun _ => rfl
      right_inv := fun _ => rfl }
  fields :=
    .mem (.cOctetStr 16) "system_id" <|
    .mem (.cOctetStr 9) "password" <| .nil
  default := {}

/-- {lit}`pdu_meta<query_sm>`. -/
def QuerySm.meta : PduMeta QuerySm where
  members :=
    { toFun := fun p => (p.messageId, p.sourceAddrTon, p.sourceAddrNpi, p.sourceAddr, ())
      invFun := fun (messageId, sourceAddrTon, sourceAddrNpi, sourceAddr, _) =>
        ⟨messageId, sourceAddrTon, sourceAddrNpi, sourceAddr⟩
      left_inv := fun _ => rfl
      right_inv := fun _ => rfl }
  fields :=
    .mem (.cOctetStr 65) "message_id" <|
    .mem .enumU8 "source_addr_ton" <|
    .mem .enumU8 "source_addr_npi" <|
    .mem (.cOctetStr 21) "source_addr" <| .nil
  default := {}

/-- {lit}`pdu_meta<query_sm_resp>`. -/
def QuerySmResp.meta : PduMeta QuerySmResp where
  members :=
    { toFun := fun p => (p.messageId, p.finalDate, p.messageState, p.errorCode, ())
      invFun := fun (messageId, finalDate, messageState, errorCode, _) =>
        ⟨messageId, finalDate, messageState, errorCode⟩
      left_inv := fun _ => rfl
      right_inv := fun _ => rfl }
  fields :=
    .mem (.cOctetStr 65) "message_id" <|
    .mem (.cOctetStr 17) "final_date" <|
    .mem .enumU8 "message_state" <|
    .mem .u8 "error_code" <| .nil
  default := {}

/-- {lit}`pdu_meta<replace_sm>`. -/
def ReplaceSm.meta : PduMeta ReplaceSm where
  members :=
    { toFun := fun p => (p.messageId, p.sourceAddrTon, p.sourceAddrNpi, p.sourceAddr,
        p.scheduleDeliveryTime, p.validityPeriod, p.registeredDelivery, p.smDefaultMsgId,
        p.shortMessage, ())
      invFun := fun (messageId, sourceAddrTon, sourceAddrNpi, sourceAddr, scheduleDeliveryTime,
        validityPeriod, registeredDelivery, smDefaultMsgId, shortMessage, _) =>
        ⟨messageId, sourceAddrTon, sourceAddrNpi, sourceAddr, scheduleDeliveryTime, validityPeriod,
          registeredDelivery, smDefaultMsgId, shortMessage⟩
      left_inv := fun _ => rfl
      right_inv := fun _ => rfl }
  fields :=
    .mem (.cOctetStr 65) "message_id" <|
    .mem .enumU8 "source_addr_ton" <|
    .mem .enumU8 "source_addr_npi" <|
    .mem (.cOctetStr 21) "source_addr" <|
    .mem (.cOctetStr 17) "schedule_delivery_time" <|
    .mem (.cOctetStr 17) "validity_period" <|
    .mem .enumFlag "registered_delivery" <|
    .mem .u8 "sm_default_msg_id" <|
    .mem (.u8OctetStr 254) "short_message" <| .nil
  default := {}

/-- {lit}`pdu_meta<replace_sm_resp>`. -/
def ReplaceSmResp.meta : PduMeta ReplaceSmResp where
  members := ⟨fun _ => (), fun _ => {}, fun _ => rfl, fun _ => rfl⟩
  fields :=
    .nil
  default := {}

/-- {lit}`pdu_meta<submit_sm>`. -/
def SubmitSm.meta : PduMeta SubmitSm where
  members :=
    { toFun := fun p => (p.serviceType, p.sourceAddrTon, p.sourceAddrNpi, p.sourceAddr,
        p.destAddrTon, p.destAddrNpi, p.destAddr, p.esmClass, p.protocolId, p.priorityFlag,
        p.scheduleDeliveryTime, p.validityPeriod, p.registeredDelivery,
        p.replaceIfPresentFlag, p.dataCoding, p.smDefaultMsgId, p.shortMessage, p.oparam)
      invFun := fun (serviceType, sourceAddrTon, sourceAddrNpi, sourceAddr, destAddrTon,
        destAddrNpi, destAddr, esmClass, protocolId, priorityFlag, scheduleDeliveryTime,
        validityPeriod, registeredDelivery, replaceIfPresentFlag, dataCoding, smDefaultMsgId,
        shortMessage, oparam) =>
        ⟨serviceType, sourceAddrTon, sourceAddrNpi, sourceAddr, destAddrTon, destAddrNpi, destAddr,
          esmClass, protocolId, priorityFlag, scheduleDeliveryTime, validityPeriod,
          registeredDelivery, replaceIfPresentFlag, dataCoding, smDefaultMsgId, shortMessage,
          oparam⟩
      left_inv := fun _ => rfl
      right_inv := fun _ => rfl }
  fields :=
    .mem (.cOctetStr 6) "service_type" <|
    .mem .enumU8 "source_addr_ton" <|
    .mem .enumU8 "source_addr_npi" <|
    .mem (.cOctetStr 21) "source_addr" <|
    .mem .enumU8 "dest_addr_ton" <|
    .mem .enumU8 "dest_addr_npi" <|
    .mem (.cOctetStr 21) "dest_addr" <|
    .mem .enumFlag "esm_class" <|
    .mem .u8 "protocol_id" <|
    .mem .enumU8 "priority_flag" <|
    .mem (.cOctetStr 17) "schedule_delivery_time" <|
    .mem (.cOctetStr 17) "validity_period" <|
    .mem .enumFlag "registered_delivery" <|
    .mem .enumU8 "replace_if_present_flag" <|
    .mem .enumU8 "data_coding" <|
    .mem .u8 "sm_default_msg_id" <|
    .mem (.u8OctetStr 254) "short_message" <|
    .smart "oparam"
  default := {}

/-- {lit}`pdu_meta<submit_sm_resp>`. -/
def SubmitSmResp.meta : PduMeta SubmitSmResp where
  members :=
    { toFun := fun p => (p.messageId, ())
      invFun := fun (messageId, _) =>
        ⟨messageId⟩
      left_inv := fun _ => rfl
      right_inv := fun _ => rfl }
  fields :=
    .mem (.cOctetStr 65) "message_id" <| .nil
  default := {}

/-- The alternatives of {lit}`pdu_variant` other than {lit}`invalid_pdu`. -/
inductive PduType where
  | alertNotification
  | bindReceiver
  | bindReceiverResp
  | bindTransceiver
  | bindTransceiverResp
  | bindTransmitter
  | bindTransmitterResp
  | cancelSm
  | cancelSmResp
  | dataSm
  | dataSmResp
  | deliverSm
  | deliverSmResp
  | genericNack
  | outbind
  | querySm
  | querySmResp
  | replaceSm
  | replaceSmResp
  | submitSm
  | submitSmResp
deriving DecidableEq, Repr

namespace PduType

/-- The alternatives in the order of the variant. -/
def all : List PduType :=
  [.alertNotification, .bindReceiver, .bindReceiverResp, .bindTransceiver,
    .bindTransceiverResp, .bindTransmitter, .bindTransmitterResp, .cancelSm,
    .cancelSmResp, .dataSm, .dataSmResp, .deliverSm, .deliverSmResp, .genericNack,
    .outbind, .querySm, .querySmResp, .replaceSm, .replaceSmResp, .submitSm,
    .submitSmResp]

/-- The aggregate behind an alternative. -/
abbrev Struct : PduType → Type
  | .alertNotification => AlertNotification
  | .bindReceiver => BindReceiver
  | .bindReceiverResp => BindReceiverResp
  | .bindTransceiver => BindTransceiver
  | .bindTransceiverResp => BindTransceiverResp
  | .bindTransmitter => BindTransmitter
  | .bindTransmitterResp => BindTransmitterResp
  | .cancelSm => CancelSm
  | .cancelSmResp => CancelSmResp
  | .dataSm => DataSm
  | .dataSmResp => DataSmResp
  | .deliverSm => DeliverSm
  | .deliverSmResp => DeliverSmResp
  | .genericNack => GenericNack
  | .outbind => Outbind
  | .querySm => QuerySm
  | .querySmResp => QuerySmResp
  | .replaceSm => ReplaceSm
  | .replaceSmResp => ReplaceSmResp
  | .submitSm => SubmitSm
  | .submitSmResp => SubmitSmResp

/-- {lit}`PDU::command_id`. -/
def commandId : PduType → CommandId
  | .alertNotification => .alertNotification
  | .bindReceiver => .bindReceiver
  | .bindReceiverResp => .bindReceiverResp
  | .bindTransceiver => .bindTransceiver
  | .bindTransceiverResp => .bindTransceiverResp
  | .bindTransmitter => .bindTransmitter
  | .bindTransmitterResp => .bindTransmitterResp
  | .cancelSm => .cancelSm
  | .cancelSmResp => .cancelSmResp
  | .dataSm => .dataSm
  | .dataSmResp => .dataSmResp
  | .deliverSm => .deliverSm
  | .deliverSmResp => .deliverSmResp
  | .genericNack => .genericNack
  | .outbind => .outbind
  | .querySm => .querySm
  | .querySmResp => .querySmResp
  | .replaceSm => .replaceSm
  | .replaceSmResp => .replaceSmResp
  | .submitSm => .submitSm
  | .submitSmResp => .submitSmResp

/-- {lit}`detail::meta_holder<PDU>`. -/
def pduMeta : (t : PduType) → PduMeta t.Struct
  | .alertNotification => AlertNotification.meta
  | .bindReceiver => BindReceiver.meta
  | .bindReceiverResp => BindReceiverResp.meta
  | .bindTransceiver => BindTransceiver.meta
  | .bindTransceiverResp => BindTransceiverResp.meta
  | .bindTransmitter => BindTransmitter.meta
  | .bindTransmitterResp => BindTransmitterResp.meta
  | .cancelSm => CancelSm.meta
  | .cancelSmResp => CancelSmResp.meta
  | .dataSm => DataSm.meta
  | .dataSmResp => DataSmResp.meta
  | .deliverSm => DeliverSm.meta
  | .deliverSmResp => DeliverSmResp.meta
  | .genericNack => GenericNack.meta
  | .outbind => Outbind.meta
  | .querySm => QuerySm.meta
  | .querySmResp => QuerySmResp.meta
  | .replaceSm => ReplaceSm.meta
  | .replaceSmResp => ReplaceSmResp.meta
  | .submitSm => SubmitSm.meta
  | .submitSmResp => SubmitSmResp.meta

instance : (t : PduType) → DecidableEq t.Struct
  | .alertNotification => inferInstanceAs (DecidableEq AlertNotification)
  | .bindReceiver => inferInstanceAs (DecidableEq BindReceiver)
  | .bindReceiverResp => inferInstanceAs (DecidableEq BindReceiverResp)
  | .bindTransceiver => inferInstanceAs (DecidableEq BindTransceiver)
  | .bindTransceiverResp => inferInstanceAs (DecidableEq BindTransceiverResp)
  | .bindTransmitter => inferInstanceAs (DecidableEq BindTransmitter)
  | .bindTransmitterResp => inferInstanceAs (DecidableEq BindTransmitterResp)
  | .cancelSm => inferInstanceAs (DecidableEq CancelSm)
  | .cancelSmResp => inferInstanceAs (DecidableEq CancelSmResp)
  | .dataSm => inferInstanceAs (DecidableEq DataSm)
  | .dataSmResp => inferInstanceAs (DecidableEq DataSmResp)
  | .deliverSm => inferInstanceAs (DecidableEq DeliverSm)
  | .deliverSmResp => inferInstanceAs (DecidableEq DeliverSmResp)
  | .genericNack => inferInstanceAs (DecidableEq GenericNack)
  | .outbind => inferInstanceAs (DecidableEq Outbind)
  | .querySm => inferInstanceAs (DecidableEq QuerySm)
  | .querySmResp => inferInstanceAs (DecidableEq QuerySmResp)
  | .replaceSm => inferInstanceAs (DecidableEq ReplaceSm)
  | .replaceSmResp => inferInstanceAs (DecidableEq ReplaceSmResp)
  | .submitSm => inferInstanceAs (DecidableEq SubmitSm)
  | .submitSmResp => inferInstanceAs (DecidableEq SubmitSmResp)

/-- The type owning a command identifier. -/
def owner (id : CommandId) : Option PduType :=
  all.find? fun t => decide (id = t.commandId)

/-- No two types share a command identifier. -/
theorem owner_commandId (t : PduType) : owner t.commandId = some t := by
  cases t <;> rfl

end PduType

end Smpp
