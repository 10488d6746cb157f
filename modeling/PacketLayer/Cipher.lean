import PacketLayer.Bytes
import PacketLayer.Fault

/-!
# Ciphers

A cipher transforms octets in one direction and carries its counter or chaining
state from call to call. It may fail, and it never changes the length.
-/

namespace PacketLayer

/-- A stateful transformation of octet strings that keeps their length. -/
class BlockCipher (C : Type) where
  /-- Transforms a string; the state afterwards is returned in any case. -/
  apply : C → Bytes → Except Fault Bytes × C
  /-- What is returned is as long as what was given. -/
  length_eq : ∀ {cipher : C} {input output : Bytes},
    (apply cipher input).1 = .ok output → output.length = input.length

end PacketLayer
