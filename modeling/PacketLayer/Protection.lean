import PacketLayer.Cipher
import PacketLayer.Mac

/-!
# Protections

A protection is what key exchange installs for one direction: a cipher with its
block size and a tag engine with the number of tag octets sent. Both sizes are
within the bounds that framing relies on.
-/

namespace PacketLayer

/-- The smallest block size of a protection. -/
def minBlockSize : Nat := 8

/-- The largest block size of a protection; padding of such blocks stays within
what a peer accepts. -/
def maxBlockSize : Nat := 16

/-- A cipher and a tag engine for one direction. -/
structure Protection (C : Type) where
  cipher : C
  blockSize : Nat
  mac : Mac
  /-- How many octets of each tag are sent. -/
  tagSize : Nat
  minBlockSize_le : minBlockSize ≤ blockSize
  blockSize_le : blockSize ≤ maxBlockSize
  tagSize_le : tagSize ≤ mac.outputSize

namespace Protection

variable {C : Type}

/-- Bundles a cipher and a tag engine, or states which size is out of bounds. -/
def make (cipher : C) (blockSize : Nat) (mac : Mac) (tagSize : Nat) :
    Except Fault (Protection C) :=
  if hblock : minBlockSize ≤ blockSize ∧ blockSize ≤ maxBlockSize then
    if htag : tagSize ≤ mac.outputSize then
      .ok ⟨cipher, blockSize, mac, tagSize, hblock.1, hblock.2, htag⟩
    else .error (.tagSizeRange tagSize mac.outputSize)
  else .error (.blockSizeRange blockSize minBlockSize maxBlockSize)

/-- Transforms a string with the cipher. -/
def apply [BlockCipher C] (data : Bytes) (protection : Protection C) :
    Except Fault Bytes × Protection C :=
  let (output, cipher) := BlockCipher.apply protection.cipher data
  (output, { protection with cipher })

/-- The tag octets sent with a packet; an engine that yields too few is at fault. -/
def sign (sequence : UInt32) (packet : Bytes) (protection : Protection C) : Except Fault Bytes :=
  match protection.mac.tag sequence packet with
  | .error fault => .error fault
  | .ok tag =>
      if tag.length < protection.tagSize then
        .error (.shortTag tag.length protection.tagSize)
      else .ok (tag.take protection.tagSize)

/-- A description that shows neither the cipher nor the tag engine. -/
def inspect (protection : Protection C) : String :=
  "CipherSlot \x7b cipher: \"<redacted>\", block_size: " ++ toString protection.blockSize ++
    ", mac: \"<redacted>\", mac_size: " ++ toString protection.tagSize ++ " \x7d"

end Protection

end PacketLayer
