import PacketLayer.Cipher
import PacketLayer.Crypto.Aes.Schedule

/-!
# Block chaining mode

Each block is added to the enciphered block before it. Only whole blocks can be
processed; a string that ends within a block is refused as a whole and leaves
the chain as it was.
-/

namespace PacketLayer.Crypto

open Aes

/-- A key and the enciphered block that the next block is chained to. -/
structure Chaining where
  keys : Schedule
  previous : Block
  deriving DecidableEq, Repr

namespace Chaining

/-- Starts the chain at an initial vector. -/
def start (key iv : Bytes) : Chaining :=
  ⟨.ofKey key, .ofBytes iv⟩

/-- Enciphers the next block. -/
def encipher (block : Block) : StateM Chaining Block := fun state =>
  let enciphered := state.keys.encipher (block.xor state.previous)
  (enciphered, { state with previous := enciphered })

/-- Deciphers the next block. -/
def decipher (block : Block) : StateM Chaining Block := fun state =>
  ((state.keys.decipher block).xor state.previous, { state with previous := block })

/-- Processes blocks in order: enciphers outbound, deciphers inbound. -/
def process : Direction → Block → StateM Chaining Block
  | .outbound => encipher
  | .inbound => decipher

/-- The whole blocks of a string. -/
def blocks (data : Bytes) : List Block :=
  (Bytes.pieces 16 (data.length / 16) data).map Block.ofBytes

/-- Processes a string of whole blocks. -/
def apply (direction : Direction) (data : Bytes) (state : Chaining) :
    Except Fault Bytes × Chaining :=
  if data.length % 16 = 0 then
    let result := (blocks data).mapM (process direction) state
    (.ok (result.1.flatMap Block.toBytes), result.2)
  else (.error (.partialBlock direction data.length 16), state)

end Chaining

end PacketLayer.Crypto
