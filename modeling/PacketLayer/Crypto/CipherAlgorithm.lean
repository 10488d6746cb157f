import PacketLayer.Crypto.Chaining
import PacketLayer.Crypto.Counter

/-!
# Cipher algorithms

A negotiated algorithm, a direction and key material determine a cipher engine.
Surplus key material is ignored, and too little is a fault.
-/

namespace PacketLayer.Crypto

/-- The negotiable ciphers. -/
inductive CipherAlgorithm where
  | aes128Ctr
  | aes192Ctr
  | aes256Ctr
  | aes128Cbc
  | aes256Cbc
  deriving DecidableEq, Repr

/-- A running cipher. -/
inductive Engine where
  /-- Counter mode, which is its own inverse. -/
  | counter (state : Counter)
  /-- Block chaining in one direction. -/
  | chaining (direction : Direction) (state : Chaining)
  deriving DecidableEq, Repr

namespace Engine

/-- Transforms a string and moves on in the keystream or the chain. -/
def apply : Engine → Bytes → Except Fault Bytes × Engine
  | counter state, data =>
      let (output, state) := Counter.apply data state
      (.ok output, counter state)
  | chaining direction state, data =>
      let (output, state) := Chaining.apply direction data state
      (output, chaining direction state)

/-- Transforms strings in turn; one that is refused does not end the series. -/
def applyEach : List Bytes → Engine → List (Except Fault Bytes)
  | [], _ => []
  | data :: chunks, engine =>
      let (output, engine) := engine.apply data
      output :: applyEach chunks engine

end Engine

namespace CipherAlgorithm

/-- All negotiable ciphers. -/
def all : List CipherAlgorithm :=
  [aes128Ctr, aes192Ctr, aes256Ctr, aes128Cbc, aes256Cbc]

/-- The name used in negotiation. -/
def name : CipherAlgorithm → String
  | aes128Ctr => "aes128-ctr"
  | aes192Ctr => "aes192-ctr"
  | aes256Ctr => "aes256-ctr"
  | aes128Cbc => "aes128-cbc"
  | aes256Cbc => "aes256-cbc"

/-- Finds a cipher by its name. -/
def ofName? (name : String) : Option CipherAlgorithm :=
  all.find? fun algorithm => algorithm.name == name

/-- The octets of a key. -/
def keySize : CipherAlgorithm → Nat
  | aes128Ctr | aes128Cbc => 16
  | aes192Ctr => 24
  | aes256Ctr | aes256Cbc => 32

/-- The octets of an initial vector. -/
def ivSize (_ : CipherAlgorithm) : Nat := 16

/-- The octets of a block. -/
def blockSize (_ : CipherAlgorithm) : Nat := 16

/-- Starts the engine of a cipher whose key and initial vector have the right sizes. -/
def start (algorithm : CipherAlgorithm) (direction : Direction) (key iv : Bytes) : Engine :=
  match algorithm with
  | aes128Ctr | aes192Ctr | aes256Ctr => .counter (.start key iv)
  | aes128Cbc | aes256Cbc => .chaining direction (.start key iv)

/-- Makes the engine that enciphers outbound or deciphers inbound packets. -/
def engine (algorithm : CipherAlgorithm) (direction : Direction) (key iv : Bytes) :
    Except Fault Engine :=
  if key.length < algorithm.keySize then
    .error (.shortCipherKey algorithm.name algorithm.keySize key.length)
  else if iv.length < algorithm.ivSize then
    .error (.shortCipherIv algorithm.name algorithm.ivSize iv.length)
  else .ok (algorithm.start direction (key.take algorithm.keySize) (iv.take algorithm.ivSize))

end CipherAlgorithm

end PacketLayer.Crypto
