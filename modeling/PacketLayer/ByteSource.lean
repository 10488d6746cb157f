import PacketLayer.Bytes

/-!
# Sources of octets

Padding and filler octets come from a source that is read once from front to
back. The position tells how many octets have been taken so far.
-/

namespace PacketLayer

/-- An endless string of octets together with the place reached in it. -/
structure ByteSource where
  /-- The octet at each place. -/
  byteAt : Nat → UInt8
  /-- How many octets have been taken. -/
  position : Nat := 0

namespace ByteSource

instance : Inhabited ByteSource := ⟨⟨fun _ => 0, 0⟩⟩

/-- The source of zeros. -/
def zeros : ByteSource := ⟨fun _ => 0, 0⟩

/-- Repeats a pool of octets for ever; an empty pool gives zeros. -/
def cycling (pool : Bytes) : ByteSource :=
  let octets := pool.toArray
  ⟨fun place => octets.getD (place % octets.size) 0, 0⟩

/-- Takes the next `count` octets. -/
def take (count : Nat) (source : ByteSource) : Bytes × ByteSource :=
  ((List.range count).map fun offset => source.byteAt (source.position + offset),
    { source with position := source.position + count })

@[simp] theorem length_take (count : Nat) (source : ByteSource) :
    (source.take count).1.length = count := by
  rw [take, List.length_map, List.length_range]

end ByteSource

end PacketLayer
