/-!
# Arithmetic on octets

Octets are the elements of the field with 256 elements. The substitution of the
block cipher inverts an octet in this field and then mixes its bits; the
inverse substitution undoes the two steps in the opposite order.
-/

namespace PacketLayer.Crypto.Aes

/-- The product with the field element `2`. -/
def double (a : UInt8) : UInt8 :=
  (a <<< 1) ^^^ (if a < 0x80 then 0 else 0x1b)

/-- The product with an element of which only the `bits` low bits are looked at. -/
def mulBits : Nat → UInt8 → UInt8 → UInt8
  | 0, _, _ => 0
  | bits + 1, a, b =>
      (if b &&& 1 = 1 then a else 0) ^^^ mulBits bits (double a) (b >>> 1)

/-- The product of two field elements. -/
def mul (a b : UInt8) : UInt8 :=
  mulBits 8 a b

/-- The field inverse, as the power with exponent `254`; zero is its own inverse. -/
def inverse (a : UInt8) : UInt8 :=
  let a2 := mul a a
  let a4 := mul a2 a2
  let a8 := mul a4 a4
  let a16 := mul a8 a8
  let a32 := mul a16 a16
  let a64 := mul a32 a32
  let a128 := mul a64 a64
  mul (mul (mul a2 a4) (mul a8 a16)) (mul (mul a32 a64) a128)

/-- Rotates the bits of an octet to the left by `1 ≤ count ≤ 7` places. -/
def rotateLeft (a count : UInt8) : UInt8 :=
  (a <<< count) ||| (a >>> (8 - count))

/-- The bit mixing of the substitution. -/
def mixBits (a : UInt8) : UInt8 :=
  a ^^^ rotateLeft a 1 ^^^ rotateLeft a 2 ^^^ rotateLeft a 3 ^^^ rotateLeft a 4 ^^^ 0x63

/-- The inverse of the bit mixing. -/
def unmixBits (a : UInt8) : UInt8 :=
  rotateLeft a 1 ^^^ rotateLeft a 3 ^^^ rotateLeft a 6 ^^^ 0x05

/-- The substitution of every octet. -/
def substitutionTable : Vector UInt8 256 :=
  Vector.ofFn fun index => mixBits (inverse (UInt8.ofNat index))

/-- The inverse substitution of every octet. -/
def inverseSubstitutionTable : Vector UInt8 256 :=
  Vector.ofFn fun index => inverse (unmixBits (UInt8.ofNat index))

/-- Replaces an octet by its substitution. -/
def substitute (a : UInt8) : UInt8 :=
  substitutionTable.get ⟨a.toNat, a.toNat_lt⟩

/-- Replaces an octet by its inverse substitution. -/
def unsubstitute (a : UInt8) : UInt8 :=
  inverseSubstitutionTable.get ⟨a.toNat, a.toNat_lt⟩

end PacketLayer.Crypto.Aes
