import PacketLayer.MessageType

/-!
# Delivered packets

A delivered packet is a payload that passed every check, together with the
sequence number under which it was checked.
-/

namespace PacketLayer

/-- A verified inbound message without its header, padding and tag. -/
structure Packet where
  payload : Bytes
  sequence : UInt32
  deriving DecidableEq, Repr

namespace Packet

/-- The message-type octet, unless the payload is empty. -/
def typeByte? (packet : Packet) : Option UInt8 :=
  packet.payload.head?

/-- The message type, if its octet has a name. -/
def messageType? (packet : Packet) : Option MessageType :=
  packet.typeByte?.bind MessageType.ofCode?

/-- The label of the packet in the journal. -/
def describe (packet : Packet) : String :=
  MessageType.describePayload packet.payload

end Packet

end PacketLayer
