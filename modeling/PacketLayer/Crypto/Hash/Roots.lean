/-!
# Constants from roots of primes

The constants of the larger hashes are leading bits of the fractional parts of
square and cube roots of the first primes.
-/

namespace PacketLayer.Crypto.Hash

/-- Adds to `root` the powers of two below `2 ^ bits`, from the largest on, as
long as the given power of the sum does not exceed `n`. -/
def growRoot (degree n : Nat) : Nat → Nat → Nat
  | 0, root => root
  | bits + 1, root =>
      let larger := root + Nat.pow 2 bits
      growRoot degree n bits (if Nat.pow larger degree ≤ n then larger else root)

/-- The first 64 bits of the fractional part of a root of a number below `2 ^ 16`. -/
def rootFraction (degree n : Nat) : UInt64 :=
  UInt64.ofNat (growRoot degree (n * Nat.pow 2 (64 * degree)) 80 0)

/-- Whether a number has exactly the two divisors one and itself. -/
def isPrime (n : Nat) : Bool :=
  2 ≤ n && (List.range n).all fun d => d < 2 || n % d != 0

/-- The first eighty primes. -/
def primes : List Nat :=
  (List.range 410).filter isPrime

/-- The fractions of the cube roots of the first eighty primes. -/
def cubeRoots : List UInt64 :=
  primes.map (rootFraction 3)

/-- The fractions of the square roots of the first eight primes. -/
def squareRoots : List UInt64 :=
  (primes.take 8).map (rootFraction 2)

end PacketLayer.Crypto.Hash
