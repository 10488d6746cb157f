import PacketLayer.Frame
import PacketLayer.Protection
import PacketLayer.SequenceNumber

/-!
# Lanes

A lane is one direction of a connection: its protection, if any, and its next
sequence number. Without a protection octets pass unchanged and carry no tag.
Installing a protection does not touch the sequence number.
-/

namespace PacketLayer

/-- One direction of a connection. -/
structure Lane (C : Type) where
  protection : Option (Protection C) := none
  sequence : SequenceNumber := {}

namespace Lane

variable {C : Type}

/-- Whether a protection is installed. -/
def isProtected (lane : Lane C) : Bool :=
  lane.protection.isSome

/-- The block size for framing. -/
def blockSize (lane : Lane C) : Nat :=
  match lane.protection with
  | none => plaintextBlockSize
  | some protection => protection.blockSize

/-- The tag octets after each frame. -/
def tagSize (lane : Lane C) : Nat :=
  match lane.protection with
  | none => 0
  | some protection => protection.tagSize

/-- Enciphers or deciphers the next octets of the lane. -/
def apply [BlockCipher C] (data : Bytes) (lane : Lane C) : Except Fault Bytes × Lane C :=
  match lane.protection with
  | none => (.ok data, lane)
  | some protection =>
      let (output, protection) := protection.apply data
      (output, { lane with protection := some protection })

/-- The tag of the next packet, for its plain frame. -/
def sign (packet : Bytes) (lane : Lane C) : Except Fault Bytes :=
  match lane.protection with
  | none => .ok []
  | some protection => protection.sign lane.sequence.value packet

/-- Consumes the current sequence number. -/
def advance (lane : Lane C) : Lane C :=
  { lane with sequence := lane.sequence.next }

/-- Replaces the protection for the packets to come. -/
def install (protection : Protection C) (lane : Lane C) : Lane C :=
  { lane with protection := some protection }

/-- Blocks of a lane have at least eight octets. -/
theorem plaintextBlockSize_le (lane : Lane C) : plaintextBlockSize ≤ lane.blockSize := by
  cases lane with
  | mk protection sequence =>
      cases protection with
      | none => exact Nat.le_refl _
      | some protection => exact protection.minBlockSize_le

end Lane

end PacketLayer
