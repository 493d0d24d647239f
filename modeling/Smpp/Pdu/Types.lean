import Smpp.Common.Serialization

/-!
# The PDU types

The 21 aggregates of {lit}`smpp/pdu`, with their default member initializers.  A
default-initialized value {lit}`PDU{}` is written {lit}`({} : PDU)`.
-/

namespace Smpp

/-- {lit}`struct alert_notification`. -/
structure AlertNotification where
  sourceAddrTon : Ton := .unknown
  sourceAddrNpi : Npi := .unknown
  sourceAddr : Octets := []
  esmeAddrTon : Ton := .unknown
  esmeAddrNpi : Npi := .unknown
  esmeAddr : Octets := []
  oparam : Oparam := .empty
deriving DecidableEq

/-- {lit}`struct bind_receiver`. -/
structure BindReceiver where
  systemId : Octets := []
  password : Octets := []
  systemType : Octets := []
  interfaceVersion : InterfaceVersion := .smpp34
  addrTon : Ton := .unknown
  addrNpi : Npi := .unknown
  addressRange : Octets := []
deriving DecidableEq

/-- {lit}`struct bind_receiver_resp`. -/
structure BindReceiverResp where
  systemId : Octets := []
  oparam : Oparam := .empty
deriving DecidableEq

/-- {lit}`struct bind_transceiver`. -/
structure BindTransceiver where
  systemId : Octets := []
  password : Octets := []
  systemType : Octets := []
  interfaceVersion : InterfaceVersion := .smpp34
  addrTon : Ton := .unknown
  addrNpi : Npi := .unknown
  addressRange : Octets := []
deriving DecidableEq

/-- {lit}`struct bind_transceiver_resp`. -/
structure BindTransceiverResp where
  systemId : Octets := []
  oparam : Oparam := .empty
deriving DecidableEq

/-- {lit}`struct bind_transmitter`. -/
structure BindTransmitter where
  systemId : Octets := []
  password : Octets := []
  systemType : Octets := []
  interfaceVersion : InterfaceVersion := .smpp34
  addrTon : Ton := .unknown
  addrNpi : Npi := .unknown
  addressRange : Octets := []
deriving DecidableEq

/-- {lit}`struct bind_transmitter_resp`. -/
structure BindTransmitterResp where
  systemId : Octets := []
  oparam : Oparam := .empty
deriving DecidableEq

/-- {lit}`struct cancel_sm`. -/
structure CancelSm where
  serviceType : Octets := []
  messageId : Octets := []
  sourceAddrTon : Ton := .unknown
  sourceAddrNpi : Npi := .unknown
  sourceAddr : Octets := []
  destAddrTon : Ton := .unknown
  destAddrNpi : Npi := .unknown
  destAddr : Octets := []
deriving DecidableEq

/-- {lit}`struct cancel_sm_resp`. -/
structure CancelSmResp where
deriving DecidableEq

/-- {lit}`struct data_sm`. -/
structure DataSm where
  serviceType : Octets := []
  sourceAddrTon : Ton := .unknown
  sourceAddrNpi : Npi := .unknown
  sourceAddr : Octets := []
  destAddrTon : Ton := .unknown
  destAddrNpi : Npi := .unknown
  destAddr : Octets := []
  esmClass : EsmClass := {}
  registeredDelivery : RegisteredDelivery := {}
  dataCoding : DataCoding := .defaults
  oparam : Oparam := .empty
deriving DecidableEq

/-- {lit}`struct data_sm_resp`. -/
structure DataSmResp where
  messageId : Octets := []
  oparam : Oparam := .empty
deriving DecidableEq

/-- {lit}`struct deliver_sm`. -/
structure DeliverSm where
  serviceType : Octets := []
  sourceAddrTon : Ton := .unknown
  sourceAddrNpi : Npi := .unknown
  sourceAddr : Octets := []
  destAddrTon : Ton := .unknown
  destAddrNpi : Npi := .unknown
  destAddr : Octets := []
  esmClass : EsmClass := {}
  protocolId : UInt8 := 0
  priorityFlag : PriorityFlag := .gsmNonPriority
  scheduleDeliveryTime : Octets := []
  validityPeriod : Octets := []
  registeredDelivery : RegisteredDelivery := {}
  replaceIfPresentFlag : ReplaceIfPresentFlag := .no
  dataCoding : DataCoding := .defaults
  smDefaultMsgId : UInt8 := 0
  shortMessage : Octets := []
  oparam : Oparam := .empty
deriving DecidableEq

/-- {lit}`struct deliver_sm_resp`. -/
structure DeliverSmResp where
  messageId : Octets := []
deriving DecidableEq

/-- {lit}`struct generic_nack`. -/
structure GenericNack where
deriving DecidableEq

/-- {lit}`struct outbind`. -/
structure Outbind where
  systemId : Octets := []
  password : Octets := []
deriving DecidableEq

/-- {lit}`struct query_sm`. -/
structure QuerySm where
  messageId : Octets := []
  sourceAddrTon : Ton := .unknown
  sourceAddrNpi : Npi := .unknown
  sourceAddr : Octets := []
deriving DecidableEq

/-- {lit}`struct query_sm_resp`. -/
structure QuerySmResp where
  messageId : Octets := []
  finalDate : Octets := []
  messageState : MessageState := .unknown
  errorCode : UInt8 := 0
deriving DecidableEq

/-- {lit}`struct replace_sm`. -/
structure ReplaceSm where
  messageId : Octets := []
  sourceAddrTon : Ton := .unknown
  sourceAddrNpi : Npi := .unknown
  sourceAddr : Octets := []
  scheduleDeliveryTime : Octets := []
  validityPeriod : Octets := []
  registeredDelivery : RegisteredDelivery := {}
  smDefaultMsgId : UInt8 := 0
  shortMessage : Octets := []
deriving DecidableEq

/-- {lit}`struct replace_sm_resp`. -/
structure ReplaceSmResp where
deriving DecidableEq

/-- {lit}`struct submit_sm`. -/
structure SubmitSm where
  serviceType : Octets := []
  sourceAddrTon : Ton := .unknown
  sourceAddrNpi : Npi := .unknown
  sourceAddr : Octets := []
  destAddrTon : Ton := .unknown
  destAddrNpi : Npi := .unknown
  destAddr : Octets := []
  esmClass : EsmClass := {}
  protocolId : UInt8 := 0
  priorityFlag : PriorityFlag := .gsmNonPriority
  scheduleDeliveryTime : Octets := []
  validityPeriod : Octets := []
  registeredDelivery : RegisteredDelivery := {}
  replaceIfPresentFlag : ReplaceIfPresentFlag := .no
  dataCoding : DataCoding := .defaults
  smDefaultMsgId : UInt8 := 0
  shortMessage : Octets := []
  oparam : Oparam := .empty
deriving DecidableEq

/-- {lit}`struct submit_sm_resp`. -/
structure SubmitSmResp where
  messageId : Octets := []
deriving DecidableEq

end Smpp
