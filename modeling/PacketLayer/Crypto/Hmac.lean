import PacketLayer.Crypto.Hash.Sha1
import PacketLayer.Crypto.Hash.Sha2

/-!
# Keyed hashes

A keyed hash covers a message together with a secret key: the message is hashed
behind one masked copy of the key, and the result behind another.
-/

namespace PacketLayer.Crypto

/-- A hash with its block size. -/
structure HashFunction where
  blockSize : Nat
  digest : Bytes → Bytes

namespace HashFunction

/-- The hash with digests of 20 octets. -/
def sha1 : HashFunction := ⟨64, Hash.Sha1.digest⟩

/-- The hash with digests of 32 octets. -/
def sha256 : HashFunction := ⟨64, Hash.Sha2.scheme256.digest⟩

/-- The hash with digests of 64 octets. -/
def sha512 : HashFunction := ⟨128, Hash.Sha2.scheme512.digest⟩

/-- A key as one block: shortened by hashing if it is longer, and filled with zeros. -/
def keyBlock (hash : HashFunction) (key : Bytes) : Bytes :=
  let short := if hash.blockSize < key.length then hash.digest key else key
  short ++ List.replicate (hash.blockSize - short.length) 0

/-- The keyed hash of a message. -/
def hmac (hash : HashFunction) (key message : Bytes) : Bytes :=
  let block := hash.keyBlock key
  let inner := hash.digest (block.map (· ^^^ 0x36) ++ message)
  hash.digest (block.map (· ^^^ 0x5c) ++ inner)

end HashFunction

end PacketLayer.Crypto
