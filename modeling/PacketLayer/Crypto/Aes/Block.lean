import PacketLayer.Bytes
import PacketLayer.Crypto.Aes.Field

/-!
# Cipher blocks

A block is four columns of four octets. The four layers of a cipher round act on
blocks, and each layer has an inverse.
-/

namespace PacketLayer.Crypto.Aes

/-- Four octets. -/
structure Column where
  a : UInt8
  b : UInt8
  c : UInt8
  d : UInt8
  deriving DecidableEq, Repr, Inhabited

namespace Column

/-- The column of the first four octets; missing ones are zero. -/
def ofBytes (bytes : Bytes) : Column :=
  ⟨bytes.getD 0 0, bytes.getD 1 0, bytes.getD 2 0, bytes.getD 3 0⟩

/-- The octets of a column. -/
def toBytes (w : Column) : Bytes :=
  [w.a, w.b, w.c, w.d]

/-- Applies a function to each octet. -/
def map (f : UInt8 → UInt8) (w : Column) : Column :=
  ⟨f w.a, f w.b, f w.c, f w.d⟩

/-- Adds two columns in the field. -/
def xor (v w : Column) : Column :=
  ⟨v.a ^^^ w.a, v.b ^^^ w.b, v.c ^^^ w.c, v.d ^^^ w.d⟩

/-- Moves the first octet to the end. -/
def rotate (w : Column) : Column :=
  ⟨w.b, w.c, w.d, w.a⟩

/-- Each octet becomes twice itself plus three times the next plus the other two. -/
def mix (w : Column) : Column :=
  let sum := w.a ^^^ w.b ^^^ w.c ^^^ w.d
  ⟨w.a ^^^ sum ^^^ double (w.a ^^^ w.b), w.b ^^^ sum ^^^ double (w.b ^^^ w.c),
    w.c ^^^ sum ^^^ double (w.c ^^^ w.d), w.d ^^^ sum ^^^ double (w.d ^^^ w.a)⟩

/-- The inverse of mixing is mixing once more, after four times the sum of each
octet and its opposite has been added to both. -/
def unmix (w : Column) : Column :=
  let even := double (double (w.a ^^^ w.c))
  let odd := double (double (w.b ^^^ w.d))
  mix ⟨w.a ^^^ even, w.b ^^^ odd, w.c ^^^ even, w.d ^^^ odd⟩

end Column

/-- Sixteen octets, column by column. -/
structure Block where
  c0 : Column
  c1 : Column
  c2 : Column
  c3 : Column
  deriving DecidableEq, Repr, Inhabited

namespace Block

/-- The block of the first sixteen octets; missing ones are zero. -/
def ofBytes (bytes : Bytes) : Block :=
  ⟨.ofBytes bytes, .ofBytes (bytes.drop 4), .ofBytes (bytes.drop 8), .ofBytes (bytes.drop 12)⟩

/-- The octets of a block. -/
def toBytes (s : Block) : Bytes :=
  s.c0.toBytes ++ s.c1.toBytes ++ s.c2.toBytes ++ s.c3.toBytes

@[simp] theorem length_toBytes (s : Block) : s.toBytes.length = 16 :=
  rfl

/-- Adds two blocks in the field. -/
def xor (s t : Block) : Block :=
  ⟨s.c0.xor t.c0, s.c1.xor t.c1, s.c2.xor t.c2, s.c3.xor t.c3⟩

/-- Applies a function to each column. -/
def map (f : Column → Column) (s : Block) : Block :=
  ⟨f s.c0, f s.c1, f s.c2, f s.c3⟩

/-- Rotates the second, third and fourth row by one, two and three columns. -/
def shiftRows (s : Block) : Block :=
  ⟨⟨s.c0.a, s.c1.b, s.c2.c, s.c3.d⟩, ⟨s.c1.a, s.c2.b, s.c3.c, s.c0.d⟩,
    ⟨s.c2.a, s.c3.b, s.c0.c, s.c1.d⟩, ⟨s.c3.a, s.c0.b, s.c1.c, s.c2.d⟩⟩

/-- Rotates the rows back. -/
def unshiftRows (s : Block) : Block :=
  ⟨⟨s.c0.a, s.c3.b, s.c2.c, s.c1.d⟩, ⟨s.c1.a, s.c0.b, s.c3.c, s.c2.d⟩,
    ⟨s.c2.a, s.c1.b, s.c0.c, s.c3.d⟩, ⟨s.c3.a, s.c2.b, s.c1.c, s.c0.d⟩⟩

/-- Substitutes every octet. -/
def substitute (s : Block) : Block :=
  s.map (·.map Aes.substitute)

/-- Undoes the substitution of every octet. -/
def unsubstitute (s : Block) : Block :=
  s.map (·.map Aes.unsubstitute)

end Block

end PacketLayer.Crypto.Aes
