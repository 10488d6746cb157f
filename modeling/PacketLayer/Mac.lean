import PacketLayer.Bytes
import PacketLayer.Fault

/-!
# Message authentication

A tag engine computes the tag of a packet from its sequence number and its
plain frame.
-/

namespace PacketLayer

/-- A keyed tag engine. -/
structure Mac where
  /-- How many octets a tag has. -/
  outputSize : Nat
  /-- The tag of the packet with the given sequence number and frame. -/
  tag : UInt32 → Bytes → Except Fault Bytes

end PacketLayer
