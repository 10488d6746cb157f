import PacketLayer.Bytes

/-!
# Message padding

A message is hashed in blocks. It is followed by a one bit, by as many zeros as
it takes, and by its length in bits, so that whole blocks result.
-/

namespace PacketLayer.Crypto.Hash

/-- How many zero octets stand between the closing one bit and the length. -/
def zeroCount (blockSize lengthSize messageLength : Nat) : Nat :=
  (blockSize - (messageLength + 1 + lengthSize) % blockSize) % blockSize

/-- Completes a message to whole blocks. -/
def pad (blockSize lengthSize : Nat) (message : Bytes) : Bytes :=
  message ++ 0x80 ::
    (List.replicate (zeroCount blockSize lengthSize message.length) 0 ++
      Bytes.bigEndian lengthSize (8 * message.length))

/-- The blocks of a completed message. -/
def blocks (blockSize lengthSize : Nat) (message : Bytes) : List Bytes :=
  let padded := pad blockSize lengthSize message
  Bytes.pieces blockSize (padded.length / blockSize) padded

/-- Appends words to a message schedule, each computed from the words before it. -/
def extend {W : Type} (next : Array W → W) : Nat → Array W → Array W
  | 0, words => words
  | count + 1, words => extend next count (words.push (next words))

end PacketLayer.Crypto.Hash
