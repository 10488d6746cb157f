import Mathlib.Order.Bounds.Defs
import PacketLayer.Proofs.Framing

/-! # The layout of a frame

A frame is no longer than it has to be: its padding is the least that completes a block. A
payload is framed if and only if the packet limit admits that length, and what its reader finds
in the first block leads back to the payload.
-/

namespace PacketLayer

/-- Some padding completes the last block of a payload. -/
def Completes (payloadLength blockSize count : Nat) : Prop :=
  minPadding ≤ count ∧ blockSize ∣ headerLength + payloadLength + count

theorem frameLength_eq (payloadLength blockSize : Nat) :
    4 + framedLength payloadLength blockSize =
      headerLength + payloadLength + paddingLength payloadLength blockSize := by
  simp only [framedLength, headerLength]
  omega

/-- No padding that completes a block is shorter: two of them differ by whole blocks, and one
that is a block shorter would be too short. -/
theorem isLeast_paddingLength (payloadLength : Nat) {blockSize : Nat}
    (hblock : minPadding ≤ blockSize) :
    IsLeast {count | Completes payloadLength blockSize count}
      (paddingLength payloadLength blockSize) := by
  obtain ⟨hleast, hbelow⟩ := paddingLength_bounds payloadLength blockSize hblock
  have hwhole := dvd_framedLength payloadLength blockSize (Nat.lt_of_lt_of_le (by decide) hblock)
  rw [frameLength_eq] at hwhole
  refine ⟨⟨hleast, hwhole⟩, ?_⟩
  rintro count ⟨henough, hcompletes⟩
  by_contra hshorter
  have hdifference : blockSize ∣ paddingLength payloadLength blockSize - count := by
    have hboth := Nat.dvd_sub hwhole hcompletes
    rwa [Nat.add_sub_add_left] at hboth
  have hapart : blockSize ≤ paddingLength payloadLength blockSize - count :=
    Nat.le_of_dvd (by omega) hdifference
  omega

/-- No whole blocks that hold header, payload and the least padding are fewer. -/
theorem isLeast_frameLength (payloadLength : Nat) {blockSize : Nat}
    (hblock : minPadding ≤ blockSize) :
    IsLeast {length | blockSize ∣ length ∧ payloadLength + (headerLength + minPadding) ≤ length}
      (4 + framedLength payloadLength blockSize) := by
  obtain ⟨⟨hleast, hwhole⟩, hbelow⟩ := isLeast_paddingLength payloadLength hblock
  rw [frameLength_eq]
  refine ⟨⟨hwhole, by omega⟩, ?_⟩
  rintro length ⟨hblocks, hholds⟩
  have hcompletes :
      Completes payloadLength blockSize (length - (headerLength + payloadLength)) := by
    refine ⟨by omega, ?_⟩
    rwa [Nat.add_sub_cancel' (by omega)]
  have hshortest := hbelow hcompletes
  omega

/-- What framing makes of a payload if a frame of some length with some padding is the shortest
one. -/
structure Framed (payload : Bytes) (blockSize : Nat) (padding : ByteSource)
    (length count : Nat) : Prop where
  /-- Framing is defined for the block size. -/
  defined : frame? payload blockSize padding = some (frame payload blockSize padding)
  /-- The frame is the shortest that fills whole blocks. -/
  shortest : IsLeast
    {length | blockSize ∣ length ∧ payload.length + (headerLength + minPadding) ≤ length} length
  /-- The padding is the shortest that completes a block. -/
  padded : IsLeast {count | Completes payload.length blockSize count} count
  /-- So it fits its octet, and a reader admits it. -/
  paddedBelow : count < blockSize + minPadding ∧ count ≤ maxInboundPadding ∧ count < 256
  /-- There is a frame if and only if the packet limit admits its length. -/
  framed_iff : (∃ packet, (frame payload blockSize padding).1 = .ok packet) ↔
    length ≤ maxPacketLength + 4
  /-- A payload that is too long is refused, and no padding is drawn. -/
  refused : maxPacketLength + 4 < length → frame payload blockSize padding =
    (.error (.messageTooLong (length - 4) maxPacketLength), padding)
  /-- The frame has this length and ends with the octets drawn, which are no more than the
  padding. Its first block declares its lengths, and the payload stands where they say. -/
  laidOut : ∀ packet after, frame payload blockSize padding = (.ok packet, after) →
    packet.length = length ∧
      after = { padding with position := padding.position + count } ∧
      packet.drop (length - count) = (padding.take count).1 ∧
      ∃ header, Header.parse (packet.take blockSize) blockSize = .ok header ∧
        header.frameLength = length ∧ header.paddingLength = count ∧
        header.payloadLength = payload.length ∧
        (packet.drop headerLength).take header.payloadLength = payload

/-- What is drawn for a frame is its end. -/
theorem frame_eq_ok {payload packet : Bytes} {blockSize : Nat} {padding after : ByteSource}
    (hframe : frame payload blockSize padding = (.ok packet, after)) :
    framedLength payload.length blockSize ≤ maxPacketLength ∧
      IsFrame payload blockSize packet ∧
      after = (padding.take (paddingLength payload.length blockSize)).2 ∧
      packet.drop (headerLength + payload.length) =
        (padding.take (paddingLength payload.length blockSize)).1 := by
  unfold frame at hframe
  dsimp only at hframe
  split at hframe
  · cases hframe
  next hfits =>
    obtain ⟨hpacket, rfl⟩ := Prod.mk.inj hframe
    obtain rfl := Except.ok.inj hpacket
    have hfits := Nat.le_of_not_lt hfits
    refine ⟨hfits, .intro _ (ByteSource.length_take _ _) hfits, rfl, ?_⟩
    refine List.drop_left' ?_
    simp only [List.length_append, List.length_cons, Bytes.length_bigEndian, headerLength]
    omega

/-- A reader takes the lengths from the first block as they were put there. -/
theorem IsFrame.parse_take {payload packet : Bytes} {blockSize : Nat}
    (hlaid : IsFrame payload blockSize packet) (hmin : minBlockSize ≤ blockSize)
    (hmax : blockSize ≤ maxBlockSize) : Header.parse (packet.take blockSize) blockSize =
      .ok ⟨framedLength payload.length blockSize, paddingLength payload.length blockSize⟩ := by
  have hpositive : 0 < blockSize := Nat.lt_of_lt_of_le (by decide) hmin
  have hfirst : blockSize ≤ (packet.take blockSize).length :=
    Nat.le_of_eq (List.length_take_of_le (hlaid.blockSize_le hpositive)).symm
  have hheader := hlaid.ofBlock_take hmin hmax
  rw [Header.parse_eq_ok_iff hmin hfirst]
  exact ⟨hheader.symm, hheader ▸ hlaid.wellFormed_take hmin hmax⟩

/-- Framing is exact for every block size that a protection may have, and a reader undoes it. -/
theorem exists_framed {blockSize : Nat} (hmin : minBlockSize ≤ blockSize)
    (hmax : blockSize ≤ maxBlockSize) (payload : Bytes) (padding : ByteSource) :
    ∃ length count, Framed payload blockSize padding length count := by
  have hblock : minPadding ≤ blockSize := Nat.le_trans (by decide) hmin
  have hpositive : 0 < blockSize := Nat.lt_of_lt_of_le (by decide) hblock
  obtain ⟨hleast, hbelow⟩ := paddingLength_bounds payload.length blockSize hblock
  have hoctet : paddingLength payload.length blockSize ≤ maxInboundPadding := by
    simp only [maxBlockSize, minPadding, maxInboundPadding] at *
    omega
  have hfits_iff : 4 + framedLength payload.length blockSize ≤ maxPacketLength + 4 ↔
      framedLength payload.length blockSize ≤ maxPacketLength := by
    omega
  refine ⟨4 + framedLength payload.length blockSize, paddingLength payload.length blockSize,
    ?_, isLeast_frameLength _ hblock, isLeast_paddingLength _ hblock, ?_, ?_, ?_, ?_⟩
  · rw [frame?, if_neg (Nat.ne_of_gt hpositive), if_neg]
    rintro ⟨-, hwide⟩
    exact absurd (Nat.lt_of_lt_of_le hwide hoctet) (by decide)
  · exact ⟨by omega, hoctet, Nat.lt_of_le_of_lt hoctet (by decide)⟩
  · rw [hfits_iff]
    constructor
    · rintro ⟨packet, hpacket⟩
      exact (frame_eq_ok (Prod.ext hpacket rfl)).1
    · intro hfits
      obtain ⟨packet, -, hframe⟩ := frame_of_fits hfits padding
      exact ⟨packet, congrArg Prod.fst hframe⟩
  · intro hlong
    rw [frame, if_pos (by omega), Nat.add_sub_cancel_left]
  · intro packet after hframe
    obtain ⟨-, hlaid, rfl, hfiller⟩ := frame_eq_ok hframe
    have hparse := hlaid.parse_take hmin hmax
    have hpayload : framedLength payload.length blockSize -
        paddingLength payload.length blockSize - 1 = payload.length := by
      simp only [framedLength]
      omega
    refine ⟨hlaid.length_eq, rfl, ?_, _, hparse, rfl, rfl, hpayload, ?_⟩
    · rwa [frameLength_eq, Nat.add_sub_cancel]
    · rw [Header.payloadLength, hpayload]
      exact hlaid.payload_eq

/-- A payload of three octets in blocks of nine takes ten octets of padding, not one. -/
theorem exists_framed_nine :
    minBlockSize ≤ 9 ∧ 9 ≤ maxBlockSize ∧
      ∃ length count, Framed [1, 2, 3] 9 .zeros length count :=
  ⟨by decide, by decide, exists_framed (by decide) (by decide) [1, 2, 3] .zeros⟩

end PacketLayer
