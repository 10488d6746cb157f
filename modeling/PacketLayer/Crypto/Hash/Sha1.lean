import PacketLayer.Crypto.Hash.Padding

/-!
# The 160-bit hash

Five 32-bit registers absorb a message in blocks of 64 octets. The digest is the
registers after the last block, twenty octets in all.
-/

namespace PacketLayer.Crypto.Hash.Sha1

/-- The state of the hash between blocks and within one. -/
structure Registers where
  a : UInt32
  b : UInt32
  c : UInt32
  d : UInt32
  e : UInt32
  deriving DecidableEq, Repr

namespace Registers

/-- The state before the first block. -/
def initial : Registers :=
  ⟨0x67452301, 0xefcdab89, 0x98badcfe, 0x10325476, 0xc3d2e1f0⟩

/-- Adds two states register by register. -/
def add (r s : Registers) : Registers :=
  ⟨r.a + s.a, r.b + s.b, r.c + s.c, r.d + s.d, r.e + s.e⟩

/-- The octets of the registers in order. -/
def toBytes (r : Registers) : Bytes :=
  [r.a, r.b, r.c, r.d, r.e].flatMap fun word => Bytes.bigEndian 4 word.toNat

@[simp] theorem length_toBytes (r : Registers) : r.toBytes.length = 20 := by
  rw [toBytes]
  rfl

end Registers

/-- Rotates a word to the left by `1 ≤ count ≤ 31` places. -/
def rotateLeft (word count : UInt32) : UInt32 :=
  (word <<< count) ||| (word >>> (32 - count))

/-- The word that follows a prefix of the message schedule. -/
def nextWord (words : Array UInt32) : UInt32 :=
  let back := fun distance => words.getD (words.size - distance) 0
  rotateLeft (back 3 ^^^ back 8 ^^^ back 14 ^^^ back 16) 1

/-- The eighty words of the message schedule of a block. -/
def schedule (block : Bytes) : Array UInt32 :=
  let words := (Bytes.pieces 4 16 block).map fun word => UInt32.ofNat (Bytes.toNat word)
  extend nextWord 64 words.toArray

/-- The bitwise function and the constant of a step. -/
def stepRule (step : Nat) (r : Registers) : UInt32 × UInt32 :=
  if step < 20 then ((r.b &&& r.c) ||| (~~~r.b &&& r.d), 0x5a827999)
  else if step < 40 then (r.b ^^^ r.c ^^^ r.d, 0x6ed9eba1)
  else if step < 60 then ((r.b &&& r.c) ||| (r.b &&& r.d) ||| (r.c &&& r.d), 0x8f1bbcdc)
  else (r.b ^^^ r.c ^^^ r.d, 0xca62c1d6)

/-- One step, with the word of the schedule and the number of the step. -/
def step (r : Registers) (input : UInt32 × Nat) : Registers :=
  let (mixed, constant) := stepRule input.2 r
  ⟨rotateLeft r.a 5 + mixed + r.e + constant + input.1, r.a, rotateLeft r.b 30, r.c, r.d⟩

/-- Absorbs one block. -/
def absorb (r : Registers) (block : Bytes) : Registers :=
  r.add ((schedule block).toList.zipIdx.foldl step r)

/-- The digest of a message. -/
def digest (message : Bytes) : Bytes :=
  ((blocks 64 8 message).foldl absorb .initial).toBytes

@[simp] theorem length_digest (message : Bytes) : (digest message).length = 20 :=
  Registers.length_toBytes _

end PacketLayer.Crypto.Hash.Sha1
