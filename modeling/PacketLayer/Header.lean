import PacketLayer.Frame

/-!
# Packet headers

The first block of an inbound packet, once deciphered, declares the length of
the packet and of its padding. A header is accepted only if both fit the packet
format, so that the lengths derived from it are exact.
-/

namespace PacketLayer

/-- The two lengths declared by the first block of a packet. -/
structure Header where
  packetLength : Nat
  paddingLength : Nat
  deriving DecidableEq, Repr

namespace Header

/-- The number of payload octets. -/
def payloadLength (header : Header) : Nat :=
  header.packetLength - header.paddingLength - 1

/-- The number of octets of the whole frame, without the tag. -/
def frameLength (header : Header) : Nat :=
  4 + header.packetLength

/-- Reads the two length fields without judging them. -/
def ofBlock (block : Bytes) : Header :=
  ⟨Bytes.toNat (block.take 4), (block.getD 4 0).toNat⟩

/-- Accepts a deciphered first block, or states the first rule that it breaks. -/
def parse (block : Bytes) (blockSize : Nat) : Except Fault Header :=
  let header := ofBlock block
  if blockSize < plaintextBlockSize ∨ block.length < blockSize then
    .error (.shortFirstBlock block.length blockSize)
  else if maxPacketLength < header.packetLength then
    .error (.packetTooLong header.packetLength maxPacketLength)
  else if (header.packetLength + 4) % blockSize ≠ 0 then
    .error (.misaligned header.packetLength blockSize)
  else if maxInboundPadding < header.paddingLength then
    .error (.excessPadding header.paddingLength maxInboundPadding)
  else if header.packetLength < header.paddingLength + 1 then
    .error (.paddingOverrun header.paddingLength header.packetLength)
  else .ok header

end Header

end PacketLayer
