import Smpp.Common.CommandId
import Smpp.Common.FieldCodecs
import Smpp.Common.FieldViews
import Smpp.Common.Octets
import Smpp.Common.Serialization
import Smpp.Example.ClientServer
import Smpp.Library.BigEndian
import Smpp.Library.EmplaceMap
import Smpp.Library.EscapeCode
import Smpp.Library.EventMachine
import Smpp.Library.Fifo
import Smpp.Library.Framing
import Smpp.Library.History
import Smpp.Library.LastWrite
import Smpp.Library.Memory
import Smpp.Library.Records
import Smpp.Library.Transducer
import Smpp.Library.View
import Smpp.Net.Connection
import Smpp.Net.ConnectionSafety
import Smpp.Net.ConnectionWire
import Smpp.Net.Conversation
import Smpp.Net.Coroutine
import Smpp.Net.Correlation
import Smpp.Net.EndToEnd
import Smpp.Net.EnquireLink
import Smpp.Net.Error
import Smpp.Net.FlatBufferMemory
import Smpp.Net.FlatBufferQueue
import Smpp.Net.GracefulUnbind
import Smpp.Net.HeaderSerialization
import Smpp.Net.LinkExchange
import Smpp.Net.PduVariant
import Smpp.Net.PeerReceive
import Smpp.Net.Quiescence
import Smpp.Net.ReceiveCancel
import Smpp.Net.ReceiveInvariant
import Smpp.Net.ReceiveOp
import Smpp.Net.ReceivePacing
import Smpp.Net.ReceivePassed
import Smpp.Net.ReceiveProgress
import Smpp.Net.ReceiveRemoved
import Smpp.Net.ReceiveSafety
import Smpp.Net.ReceiveStream
import Smpp.Net.Relay
import Smpp.Net.SendExclusion
import Smpp.Net.SendFrame
import Smpp.Net.SendOp
import Smpp.Net.SendOrder
import Smpp.Net.SendWakeup
import Smpp.Net.SendWrites
import Smpp.Net.SequenceNumbers
import Smpp.Net.Session
import Smpp.Net.StaticFlatBuffer
import Smpp.Net.Teardown
import Smpp.Net.TextDelivery
import Smpp.Param.Enumerations
import Smpp.Param.Flags
import Smpp.Param.Oparam
import Smpp.Param.OparamStore
import Smpp.Pdu.Codec
import Smpp.Pdu.Meta
import Smpp.Pdu.Truncation
import Smpp.Pdu.Types
import Smpp.Utility.DataCodingUnicode
import Smpp.Utility.ShortMessage
import Smpp.Utility.UnicodeConverter
import Smpp.Utility.UserDataHeader
