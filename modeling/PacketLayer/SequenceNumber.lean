/-!
# Sequence numbers

Each direction numbers its packets from zero, modulo `2 ^ 32`. The number is
never sent; it enters the tag of its packet and is never reset.
-/

namespace PacketLayer

/-- The number of the next packet in one direction. -/
structure SequenceNumber where
  value : UInt32 := 0
  deriving DecidableEq, Repr, Inhabited

namespace SequenceNumber

/-- The number after this one; the largest is followed by zero. -/
def next (number : SequenceNumber) : SequenceNumber :=
  ⟨number.value + 1⟩

/-- Consumes the current number: the number used, and the counter after it. -/
def advance (number : SequenceNumber) : UInt32 × SequenceNumber :=
  (number.value, number.next)

@[simp] theorem value_next (number : SequenceNumber) : number.next.value = number.value + 1 :=
  rfl

/-- Consumes `count` numbers in a row, each paired with the counter after it. -/
def advances : Nat → SequenceNumber → List (UInt32 × SequenceNumber)
  | 0, _ => []
  | count + 1, number => number.advance :: advances count number.next

end SequenceNumber

end PacketLayer
