import PacketLayer.ByteSource
import PacketLayer.Fault

/-!
# Framing

A frame is a length, a padding length, the payload and the padding. The padding
makes the whole frame a multiple of the block size; the tag that follows the
frame on the wire is not part of it.
-/

namespace PacketLayer

/-- The largest packet length that either side accepts. -/
def maxPacketLength : Nat := 35000

/-- The least padding ever written. -/
def minPadding : Nat := 4

/-- The most padding accepted from the peer. -/
def maxInboundPadding : Nat := 32

/-- The block size while no protection is installed. -/
def plaintextBlockSize : Nat := 8

/-- The octets of the packet length and of the padding length. -/
def headerLength : Nat := 5

/-- The padding that completes a payload of the given length: what is missing to
the next block border after the payload, and one block more if that is less
than the least padding. -/
def paddingLength (payloadLength blockSize : Nat) : Nat :=
  let padding := blockSize - (headerLength + payloadLength) % blockSize
  if padding < minPadding then padding + blockSize else padding

/-- The padding length, which is undefined for blocks of no octets. -/
def paddingLength? (payloadLength blockSize : Nat) : Option Nat :=
  if blockSize = 0 then none else some (paddingLength payloadLength blockSize)

/-- The packet length written into the frame of a payload. -/
def framedLength (payloadLength blockSize : Nat) : Nat :=
  1 + payloadLength + paddingLength payloadLength blockSize

/-- Lays out length, padding length, payload and padding. A message that is too
long is refused before any padding is drawn. -/
def frame (payload : Bytes) (blockSize : Nat) (padding : ByteSource) :
    Except Fault Bytes × ByteSource :=
  let packetLength := framedLength payload.length blockSize
  if maxPacketLength < packetLength then
    (.error (.messageTooLong packetLength maxPacketLength), padding)
  else
    let count := paddingLength payload.length blockSize
    let (filler, padding) := padding.take count
    (.ok (Bytes.bigEndian 4 packetLength ++ UInt8.ofNat count :: payload ++ filler), padding)

/-- Framing for any block size at all. It is undefined for blocks of no octets,
and where the padding would not fit the octet that declares it. -/
def frame? (payload : Bytes) (blockSize : Nat) (padding : ByteSource) :
    Option (Except Fault Bytes × ByteSource) :=
  if blockSize = 0 then none
  else if framedLength payload.length blockSize ≤ maxPacketLength ∧
      255 < paddingLength payload.length blockSize then none
  else some (frame payload blockSize padding)

end PacketLayer
