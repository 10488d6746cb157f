import PacketLayer.Crypto.Hmac
import PacketLayer.Mac

/-!
# Tag algorithms

The tag of a packet is the keyed hash of its sequence number and its frame, of
which one algorithm sends only the first twelve octets.
-/

namespace PacketLayer.Crypto

/-- The negotiable tag algorithms. -/
inductive MacAlgorithm where
  | hmacSha1
  | hmacSha1_96
  | hmacSha256
  | hmacSha512
  deriving DecidableEq, Repr

namespace MacAlgorithm

/-- All negotiable tag algorithms. -/
def all : List MacAlgorithm :=
  [hmacSha1, hmacSha1_96, hmacSha256, hmacSha512]

/-- The name used in negotiation. -/
def name : MacAlgorithm → String
  | hmacSha1 => "hmac-sha1"
  | hmacSha1_96 => "hmac-sha1-96"
  | hmacSha256 => "hmac-sha2-256"
  | hmacSha512 => "hmac-sha2-512"

/-- The name used in descriptions. -/
def label : MacAlgorithm → String
  | hmacSha1 => "HmacSha1"
  | hmacSha1_96 => "HmacSha1_96"
  | hmacSha256 => "HmacSha256"
  | hmacSha512 => "HmacSha512"

/-- Finds a tag algorithm by its name. -/
def ofName? (name : String) : Option MacAlgorithm :=
  all.find? fun algorithm => algorithm.name == name

/-- The octets of a key. -/
def keySize : MacAlgorithm → Nat
  | hmacSha1 | hmacSha1_96 => 20
  | hmacSha256 => 32
  | hmacSha512 => 64

/-- The octets of a tag on the wire. -/
def tagSize : MacAlgorithm → Nat
  | hmacSha1 => 20
  | hmacSha1_96 => 12
  | hmacSha256 => 32
  | hmacSha512 => 64

/-- The hash underneath. -/
def hash : MacAlgorithm → HashFunction
  | hmacSha1 | hmacSha1_96 => .sha1
  | hmacSha256 => .sha256
  | hmacSha512 => .sha512

end MacAlgorithm

/-- A tag algorithm with a key of its size. -/
structure MacKey where
  algorithm : MacAlgorithm
  key : Bytes
  deriving DecidableEq, Repr

namespace MacKey

/-- Takes the key from the front of the key material. -/
def make (algorithm : MacAlgorithm) (material : Bytes) : Except Fault MacKey :=
  if material.length < algorithm.keySize then
    .error (.shortTagKey algorithm.keySize material.length)
  else .ok ⟨algorithm, material.take algorithm.keySize⟩

/-- The tag of the packet with the given sequence number and frame. -/
def tag (key : MacKey) (sequence : UInt32) (packet : Bytes) : Bytes :=
  let whole := key.algorithm.hash.hmac key.key (Bytes.bigEndian 4 sequence.toNat ++ packet)
  whole.take key.algorithm.tagSize

/-- The engine of a key, which never fails. -/
def mac (key : MacKey) : Mac :=
  ⟨key.algorithm.tagSize, fun sequence packet => .ok (key.tag sequence packet)⟩

/-- A description that does not show the key. -/
def inspect (key : MacKey) : String :=
  "MacKey \x7b algorithm: " ++ key.algorithm.label ++ ", key: \"<redacted>\" \x7d"

end MacKey

end PacketLayer.Crypto
