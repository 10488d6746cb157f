import PacketLayer.Crypto.Aes.Schedule

/-!
# Counter mode

The keystream is the encipherment of a counter that grows by one per block. An
octet is enciphered and deciphered by adding the next keystream octet, so the
octets of a string may be processed in any pieces.
-/

namespace PacketLayer.Crypto

open Aes

/-- The place reached in the keystream of a key and a first counter. -/
structure Counter where
  keys : Schedule
  /-- The counter of the next keystream block; the largest is followed by zero. -/
  counter : BitVec 128
  /-- What is left of the current keystream block. -/
  rest : Bytes := []
  deriving DecidableEq, Repr

namespace Counter

/-- Starts the keystream at the counter given by an initial vector. -/
def start (key iv : Bytes) : Counter :=
  { keys := .ofKey key, counter := BitVec.ofNat 128 (Bytes.toNat iv) }

/-- The keystream block of the current counter. -/
def block (state : Counter) : Block :=
  state.keys.encipher (.ofBytes (Bytes.bigEndian 16 state.counter.toNat))

/-- Takes the next keystream octet. -/
def next (state : Counter) : UInt8 × Counter :=
  match state.rest with
  | octet :: rest => (octet, { state with rest })
  | [] =>
      let block := state.block
      (block.c0.a, { state with counter := state.counter + 1, rest := block.toBytes.tail })

/-- Adds the next keystream octet to an octet. -/
def octet (data : UInt8) : StateM Counter UInt8 := fun state =>
  let (key, state) := state.next
  (data ^^^ key, state)

/-- Adds the keystream to a string. -/
def apply (data : Bytes) : StateM Counter Bytes :=
  data.mapM octet

end Counter

end PacketLayer.Crypto
