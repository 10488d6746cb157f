import PacketLayer.Crypto.Hash.Padding
import PacketLayer.Crypto.Hash.Roots

/-!
# The 256-bit and 512-bit hashes

Eight registers absorb a message in blocks of sixteen words. The two hashes
follow one scheme and differ in the width of a word, in the number of steps and
in the four functions that mix the bits of a word.
-/

namespace PacketLayer.Crypto.Hash.Sha2

/-- The state of the hash between blocks and within one. -/
structure Registers (W : Type) where
  a : W
  b : W
  c : W
  d : W
  e : W
  f : W
  g : W
  h : W
  deriving DecidableEq, Repr

/-- The registers in order. -/
def Registers.toList {W : Type} (r : Registers W) : List W :=
  [r.a, r.b, r.c, r.d, r.e, r.f, r.g, r.h]

/-- The registers filled from a list; missing words are filled with `default`. -/
def Registers.ofList {W : Type} [Inhabited W] (words : List W) : Registers W :=
  let word := fun place => words.getD place default
  ⟨word 0, word 1, word 2, word 3, word 4, word 5, word 6, word 7⟩

/-- What sets one hash of the family apart. -/
structure Scheme (W : Type) where
  /-- Octets per word. -/
  wordSize : Nat
  ofNat : Nat → W
  toNat : W → Nat
  /-- The mixing functions of the message schedule. -/
  scheduleMix0 : W → W
  scheduleMix1 : W → W
  /-- The mixing functions of a step. -/
  stepMix0 : W → W
  stepMix1 : W → W
  /-- One constant per step. -/
  constants : List W
  initial : Registers W

namespace Scheme

variable {W : Type} [Inhabited W] [Add W] [XorOp W] [AndOp W] [Complement W]
variable (scheme : Scheme W)

/-- The word that follows a prefix of the message schedule. -/
def nextWord (words : Array W) : W :=
  let back := fun distance => words.getD (words.size - distance) default
  scheme.scheduleMix1 (back 2) + back 7 + scheme.scheduleMix0 (back 15) + back 16

/-- The message schedule of a block, one word per step. -/
def schedule (block : Bytes) : Array W :=
  let words := (Bytes.pieces scheme.wordSize 16 block).map fun word =>
    scheme.ofNat (Bytes.toNat word)
  extend scheme.nextWord (scheme.constants.length - 16) words.toArray

/-- One step, with its constant and its word of the schedule. -/
def step (r : Registers W) (input : W × W) : Registers W :=
  let choice := (r.e &&& r.f) ^^^ (~~~r.e &&& r.g)
  let majority := (r.a &&& r.b) ^^^ (r.a &&& r.c) ^^^ (r.b &&& r.c)
  let first := r.h + scheme.stepMix1 r.e + choice + input.1 + input.2
  let second := scheme.stepMix0 r.a + majority
  ⟨first + second, r.a, r.b, r.c, r.d + first, r.e, r.f, r.g⟩

/-- Absorbs one block. -/
def absorb (r : Registers W) (block : Bytes) : Registers W :=
  let s := (scheme.constants.zip (scheme.schedule block).toList).foldl scheme.step r
  ⟨r.a + s.a, r.b + s.b, r.c + s.c, r.d + s.d, r.e + s.e, r.f + s.f, r.g + s.g, r.h + s.h⟩

/-- The digest of a message. -/
def digest (message : Bytes) : Bytes :=
  let final := (blocks (16 * scheme.wordSize) (2 * scheme.wordSize) message).foldl
    scheme.absorb scheme.initial
  final.toList.flatMap fun word => Bytes.bigEndian scheme.wordSize (scheme.toNat word)

@[simp] theorem length_digest (message : Bytes) :
    (scheme.digest message).length = 8 * scheme.wordSize := by
  simp only [digest, Registers.toList, List.flatMap_cons, List.flatMap_nil, List.length_append,
    List.length_nil, Bytes.length_bigEndian]
  omega

end Scheme

/-- Rotates a 32-bit word to the right by `1 ≤ count ≤ 31` places. -/
def rotate32 (word count : UInt32) : UInt32 :=
  (word >>> count) ||| (word <<< (32 - count))

/-- Rotates a 64-bit word to the right by `1 ≤ count ≤ 63` places. -/
def rotate64 (word count : UInt64) : UInt64 :=
  (word >>> count) ||| (word <<< (64 - count))

/-- The upper half of a 64-bit word. -/
def upperHalf (word : UInt64) : UInt32 :=
  (word >>> 32).toUInt32

/-- The hash with 32-bit words, 64 steps and digests of 32 octets. -/
def scheme256 : Scheme UInt32 where
  wordSize := 4
  ofNat := UInt32.ofNat
  toNat := UInt32.toNat
  scheduleMix0 w := rotate32 w 7 ^^^ rotate32 w 18 ^^^ (w >>> 3)
  scheduleMix1 w := rotate32 w 17 ^^^ rotate32 w 19 ^^^ (w >>> 10)
  stepMix0 w := rotate32 w 2 ^^^ rotate32 w 13 ^^^ rotate32 w 22
  stepMix1 w := rotate32 w 6 ^^^ rotate32 w 11 ^^^ rotate32 w 25
  constants := (cubeRoots.take 64).map upperHalf
  initial := .ofList (squareRoots.map upperHalf)

/-- The hash with 64-bit words, 80 steps and digests of 64 octets. -/
def scheme512 : Scheme UInt64 where
  wordSize := 8
  ofNat := UInt64.ofNat
  toNat := UInt64.toNat
  scheduleMix0 w := rotate64 w 1 ^^^ rotate64 w 8 ^^^ (w >>> 7)
  scheduleMix1 w := rotate64 w 19 ^^^ rotate64 w 61 ^^^ (w >>> 6)
  stepMix0 w := rotate64 w 28 ^^^ rotate64 w 34 ^^^ rotate64 w 39
  stepMix1 w := rotate64 w 14 ^^^ rotate64 w 18 ^^^ rotate64 w 41
  constants := cubeRoots
  initial := .ofList squareRoots

end PacketLayer.Crypto.Hash.Sha2
