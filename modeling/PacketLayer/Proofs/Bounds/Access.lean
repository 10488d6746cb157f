import PacketLayer.Proofs.Framing

/-! # Checked accesses

An access to a buffer gives nothing if it reaches outside, and neither does a difference
that would be negative or a remainder by zero. Where the lengths are right, an access does
what the operation on lists of octets does that is used instead of it.
-/

namespace PacketLayer

/-- A difference of lengths, if it is not negative. -/
def difference? (a b : Nat) : Option Nat :=
  if b ≤ a then some (a - b) else none

/-- A remainder, unless the modulus is zero. -/
def remainder? (a b : Nat) : Option Nat :=
  if b = 0 then none else some (a % b)

theorem difference?_of_le {a b : Nat} (hle : b ≤ a) : difference? a b = some (a - b) :=
  if_pos hle

theorem remainder?_of_pos {a b : Nat} (hpos : 0 < b) : remainder? a b = some (a % b) :=
  if_neg (Nat.ne_of_gt hpos)

/-- A check that gives a result if it fails, with the same result otherwise. -/
theorem ite_some_eq {α : Type} {c : Prop} [Decidable c] {a b : α} {otherwise : Option α}
    (h : ¬c → otherwise = some b) :
    (if c then some a else otherwise) = some (if c then a else b) := by
  by_cases hc : c
  · rw [if_pos hc, if_pos hc]
  · rw [if_neg hc, if_neg hc, h hc]

namespace Bytes

/-- The octets from one place up to another, if these are places of the buffer in order. -/
def slice? (start stop : Nat) (buffer : Bytes) : Option Bytes :=
  if start ≤ stop ∧ stop ≤ buffer.length then some ((buffer.take stop).drop start) else none

/-- Copies octets over those from one place up to another, if these are places of the
buffer in order and there are as many octets between them. -/
def overwrite? (start stop : Nat) (buffer octets : Bytes) : Option Bytes :=
  if start ≤ stop ∧ stop ≤ buffer.length ∧ octets.length = stop - start then
    some (buffer.take start ++ octets ++ buffer.drop stop)
  else none

/-- A new buffer, if its size is within a limit. -/
def allocate? (limit size : Nat) : Option Bytes :=
  if size ≤ limit then some (List.replicate size 0) else none

/-- The octets between what stands before and what stands behind them. -/
theorem slice?_append (before octets behind : Bytes) :
    slice? before.length (before.length + octets.length) (before ++ octets ++ behind) =
      some octets := by
  have hplaces : before.length ≤ before.length + octets.length ∧
      before.length + octets.length ≤ (before ++ octets ++ behind).length := by
    simp only [List.length_append]
    omega
  rw [slice?, if_pos hplaces, List.take_left' List.length_append, List.drop_left]

theorem slice?_from (before octets : Bytes) :
    slice? before.length (before ++ octets).length (before ++ octets) = some octets := by
  have hslice := slice?_append before octets []
  rwa [List.append_nil, ← List.length_append] at hslice

theorem slice?_zero {stop : Nat} {buffer : Bytes} (hstop : stop ≤ buffer.length) :
    slice? 0 stop buffer = some (buffer.take stop) :=
  if_pos ⟨Nat.zero_le stop, hstop⟩

theorem slice?_to_end {start : Nat} {buffer : Bytes} (hstart : start ≤ buffer.length) :
    slice? start buffer.length buffer = some (buffer.drop start) := by
  rw [slice?, if_pos ⟨hstart, Nat.le_refl _⟩, List.take_length]

/-- Octets are copied over as many others. -/
theorem overwrite?_append {octets others : Bytes} (hlength : octets.length = others.length)
    (before behind : Bytes) :
    overwrite? before.length (before.length + octets.length) (before ++ others ++ behind)
      octets = some (before ++ octets ++ behind) := by
  have hplaces : before.length ≤ before.length + octets.length ∧
      before.length + octets.length ≤ (before ++ others ++ behind).length ∧
        octets.length = before.length + octets.length - before.length := by
    simp only [List.length_append, hlength]
    omega
  have htake : (before ++ others ++ behind).take before.length = before := by
    rw [List.append_assoc, List.take_left]
  have hdrop : (before ++ others ++ behind).drop (before.length + octets.length) = behind :=
    List.drop_left' (by rw [List.length_append, hlength])
  rw [overwrite?, if_pos hplaces, htake, hdrop]

/-- Octets are copied to the front of those that nobody has filled yet. -/
theorem overwrite?_front (before octets spare : Bytes) (hfits : octets.length ≤ spare.length) :
    overwrite? before.length (before.length + octets.length) (before ++ spare) octets =
      some (before ++ octets ++ spare.drop octets.length) := by
  have hlength : octets.length = (spare.take octets.length).length :=
    (List.length_take_of_le hfits).symm
  have hcopied := overwrite?_append hlength before (spare.drop octets.length)
  rwa [List.append_assoc before (spare.take _), List.take_append_drop] at hcopied

theorem allocate?_of_le {limit size : Nat} (hsize : size ≤ limit) :
    allocate? limit size = some (List.replicate size 0) :=
  if_pos hsize

end Bytes

namespace Header

/-- The number of payload octets, by checked differences. -/
def payloadLength? (header : Header) : Option Nat := do
  let rest ← difference? header.packetLength header.paddingLength
  difference? rest 1

/-- Accepts a deciphered first block, or states the first rule that it breaks. Every octet
of the block is looked up by its place. -/
def parse? (block : Bytes) (blockSize : Nat) : Option (Except Fault Header) :=
  if blockSize < plaintextBlockSize ∨ block.length < blockSize then
    some (.error (.shortFirstBlock block.length blockSize))
  else do
    let packetLength := Bytes.toNat (← block.slice? 0 4)
    if maxPacketLength < packetLength then
      some (.error (.packetTooLong packetLength maxPacketLength))
    else do
      let remainder ← remainder? (packetLength + 4) blockSize
      if remainder ≠ 0 then some (.error (.misaligned packetLength blockSize))
      else do
        let paddingLength := (← block[4]?).toNat
        if maxInboundPadding < paddingLength then
          some (.error (.excessPadding paddingLength maxInboundPadding))
        else if packetLength < paddingLength + 1 then
          some (.error (.paddingOverrun paddingLength packetLength))
        else some (.ok ⟨packetLength, paddingLength⟩)

/-- Judging a first block looks up nothing outside of it, and divides by no zero. -/
theorem parse?_eq (block : Bytes) (blockSize : Nat) :
    parse? block blockSize = some (parse block blockSize) := by
  unfold parse? parse
  by_cases hshort : blockSize < plaintextBlockSize ∨ block.length < blockSize
  · simp only [hshort, if_true]
  obtain ⟨hsize, hlength⟩ := not_or.mp hshort
  simp only [plaintextBlockSize, Nat.not_lt] at hsize hlength
  have hslice : block.slice? 0 4 = some (block.take 4) := Bytes.slice?_zero (by omega)
  have hoctet : block[4]? = some (block.getD 4 0) := by
    rw [List.getD_eq_getElem?_getD, List.getElem?_eq_getElem (by omega), Option.getD_some]
  have hremainder (a : Nat) : remainder? a blockSize = some (a % blockSize) :=
    remainder?_of_pos (by omega)
  simp only [hshort, hslice, hoctet, hremainder, Option.bind_eq_bind, Option.bind_some, if_false]
  -- the same four rules are checked in the same order
  exact ite_some_eq fun _ => ite_some_eq fun _ => ite_some_eq fun _ => ite_some_eq fun _ => rfl

theorem WellFormed.payloadLength?_eq {header : Header} {blockSize : Nat}
    (hformed : header.WellFormed blockSize) :
    header.payloadLength? = some header.payloadLength := by
  have hfits := hformed.padding_fits
  rw [payloadLength?, difference?_of_le (by omega)]
  exact difference?_of_le (by omega)

end Header

end PacketLayer
