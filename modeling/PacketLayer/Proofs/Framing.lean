import Mathlib.Algebra.Group.Nat.Defs
import Mathlib.Data.List.Basic
import PacketLayer.Header
import PacketLayer.Protection

/-! # Frames and their headers

A frame that is laid out for blocks of an admissible size fills whole blocks, and
its first block declares exactly the lengths it was laid out with.
-/

namespace PacketLayer

namespace Bytes

theorem toNat_append_singleton (bytes : Bytes) (byte : UInt8) :
    toNat (bytes ++ [byte]) = toNat bytes * 256 + byte.toNat := by
  simp [toNat]

theorem toNat_bigEndian (width n : Nat) (hfits : n < 256 ^ width) :
    toNat (bigEndian width n) = n := by
  induction width generalizing n with
  | zero =>
      have hzero : n = 0 := by simpa using hfits
      subst n
      rfl
  | succ width ih =>
      have hhigh : n / 256 < 256 ^ width := by
        rw [Nat.pow_succ] at hfits
        omega
      rw [bigEndian, toNat_append_singleton, ih _ hhigh, UInt8.toNat_ofNat']
      omega

end Bytes

/-- Padding reaches from the least admissible length to one block less than twice that. -/
theorem paddingLength_bounds (payloadLength blockSize : Nat) (hblock : minPadding ≤ blockSize) :
    minPadding ≤ paddingLength payloadLength blockSize ∧
      paddingLength payloadLength blockSize < minPadding + blockSize := by
  have hremainder : (headerLength + payloadLength) % blockSize < blockSize :=
    Nat.mod_lt _ (Nat.lt_of_lt_of_le (by decide) hblock)
  unfold paddingLength minPadding
  unfold minPadding at hblock
  dsimp only
  split <;> omega

theorem dvd_framedLength (payloadLength blockSize : Nat) (hpositive : 0 < blockSize) :
    blockSize ∣ 4 + framedLength payloadLength blockSize := by
  have hremainder := Nat.mod_lt (headerLength + payloadLength) hpositive
  have hdivision := Nat.div_add_mod (headerLength + payloadLength) blockSize
  have hcompleted : blockSize ∣ headerLength + payloadLength +
      (blockSize - (headerLength + payloadLength) % blockSize) := by
    refine ⟨(headerLength + payloadLength) / blockSize + 1, ?_⟩
    rw [Nat.mul_add]
    omega
  simp only [framedLength, paddingLength]
  split
  · convert Nat.dvd_add hcompleted (Nat.dvd_refl blockSize) using 1
    simp only [headerLength]
    omega
  · convert hcompleted using 1
    simp only [headerLength]
    omega

namespace Header

/-- The lengths in a header fit the packet format for a block size. -/
structure WellFormed (header : Header) (blockSize : Nat) : Prop where
  packetLength_le : header.packetLength ≤ maxPacketLength
  dvd_frameLength : blockSize ∣ header.frameLength
  paddingLength_le : header.paddingLength ≤ maxInboundPadding
  padding_fits : header.paddingLength + 1 ≤ header.packetLength

theorem WellFormed.blockSize_le {header : Header} {blockSize : Nat}
    (hformed : header.WellFormed blockSize) : blockSize ≤ header.frameLength :=
  Nat.le_of_dvd (by unfold frameLength; omega) hformed.dvd_frameLength

/-- A first block is accepted if and only if the lengths in it fit the packet format. -/
theorem parse_eq_ok_iff {block : Bytes} {blockSize : Nat} {header : Header}
    (hmin : minBlockSize ≤ blockSize) (hblock : blockSize ≤ block.length) :
    parse block blockSize = .ok header ↔
      header = ofBlock block ∧ header.WellFormed blockSize := by
  have hlarge : ¬(blockSize < plaintextBlockSize ∨ block.length < blockSize) := by
    simp only [plaintextBlockSize, minBlockSize] at *
    omega
  have haligned (declared : Header) : (declared.packetLength + 4) % blockSize = 0 ↔
      blockSize ∣ declared.frameLength := by
    rw [frameLength, Nat.add_comm, Nat.dvd_iff_mod_eq_zero]
  simp only [parse, if_neg hlarge]
  constructor
  · intro hparse
    split at hparse
    · cases hparse
    split at hparse
    · cases hparse
    split at hparse
    · cases hparse
    split at hparse
    · cases hparse
    next hlength hblocks hpadding hroom =>
      obtain rfl := Except.ok.inj hparse
      exact ⟨rfl, Nat.not_lt.mp hlength, (haligned _).mp (not_not.mp hblocks),
        Nat.not_lt.mp hpadding, Nat.not_lt.mp hroom⟩
  · rintro ⟨rfl, hformed⟩
    rw [if_neg (Nat.not_lt.mpr hformed.packetLength_le),
      if_neg (not_not.mpr ((haligned _).mpr hformed.dvd_frameLength)),
      if_neg (Nat.not_lt.mpr hformed.paddingLength_le),
      if_neg (Nat.not_lt.mpr hformed.padding_fits)]

theorem wellFormed_of_parse {block : Bytes} {blockSize : Nat} {header : Header}
    (hparse : parse block blockSize = .ok header) : header.WellFormed blockSize := by
  by_cases hshort : blockSize < plaintextBlockSize ∨ block.length < blockSize
  · simp only [parse, if_pos hshort] at hparse
    cases hparse
  · obtain ⟨hmin, hblock⟩ := not_or.mp hshort
    exact ((parse_eq_ok_iff (Nat.le_of_not_lt hmin) (Nat.le_of_not_lt hblock)).mp hparse).2

theorem category_of_parse {block : Bytes} {blockSize : Nat} {fault : Fault}
    (hparse : parse block blockSize = .error fault) : fault.category = .framing := by
  simp only [parse] at hparse
  repeat' split at hparse
  all_goals cases hparse
  all_goals rfl

end Header

/-- A packet in plain form: the frame of a payload, padded for a block size. -/
inductive IsFrame (payload : Bytes) (blockSize : Nat) : Bytes → Prop where
  | intro (filler : Bytes) (hfiller : filler.length = paddingLength payload.length blockSize)
      (hfits : framedLength payload.length blockSize ≤ maxPacketLength) :
      IsFrame payload blockSize
        (Bytes.bigEndian 4 (framedLength payload.length blockSize) ++
          UInt8.ofNat (paddingLength payload.length blockSize) :: payload ++ filler)

/-- A payload is framed if and only if the packet limit admits it. -/
theorem frame_of_fits {payload : Bytes} {blockSize : Nat}
    (hfits : framedLength payload.length blockSize ≤ maxPacketLength) (padding : ByteSource) :
    ∃ packet, IsFrame payload blockSize packet ∧ frame payload blockSize padding =
      (.ok packet, (padding.take (paddingLength payload.length blockSize)).2) := by
  refine ⟨_, .intro (padding.take (paddingLength payload.length blockSize)).1
    (ByteSource.length_take _ _) hfits, ?_⟩
  simp [frame, Nat.not_lt.mpr hfits]

/-- What is made of a payload is a frame for it. -/
theorem isFrame_of_frame {payload packet : Bytes} {blockSize : Nat} {padding : ByteSource}
    (hmade : (frame payload blockSize padding).1 = .ok packet) :
    IsFrame payload blockSize packet := by
  by_cases hfits : framedLength payload.length blockSize ≤ maxPacketLength
  · obtain ⟨other, hframe, hframed⟩ := frame_of_fits hfits padding
    rw [hframed] at hmade
    obtain rfl := Except.ok.inj hmade
    exact hframe
  · simp [frame, Nat.not_le.mp hfits] at hmade

namespace IsFrame

variable {payload packet : Bytes} {blockSize : Nat}

theorem length_eq (hframe : IsFrame payload blockSize packet) :
    packet.length = 4 + framedLength payload.length blockSize := by
  obtain ⟨filler, hfiller, -⟩ := hframe
  simp only [List.length_append, Bytes.length_bigEndian, List.length_cons, hfiller, framedLength]
  omega

theorem dvd_length (hframe : IsFrame payload blockSize packet) (hpositive : 0 < blockSize) :
    blockSize ∣ packet.length := by
  rw [hframe.length_eq]
  exact dvd_framedLength _ _ hpositive

theorem blockSize_le (hframe : IsFrame payload blockSize packet) (hpositive : 0 < blockSize) :
    blockSize ≤ packet.length := by
  refine Nat.le_of_dvd ?_ (hframe.dvd_length hpositive)
  rw [hframe.length_eq]
  omega

/-- The payload stands right behind the header of its frame. -/
theorem payload_eq (hframe : IsFrame payload blockSize packet) :
    (packet.drop headerLength).take payload.length = payload := by
  obtain ⟨filler, -, -⟩ := hframe
  have hheader : headerLength = (Bytes.bigEndian 4 (framedLength payload.length blockSize) ++
      [UInt8.ofNat (paddingLength payload.length blockSize)]).length := by
    simp [headerLength]
  rw [List.append_cons, List.append_assoc _ payload, hheader, List.drop_left, List.take_left]

/-- The first block of a frame declares the lengths that the frame was laid out with. -/
theorem ofBlock_take (hframe : IsFrame payload blockSize packet)
    (hmin : minBlockSize ≤ blockSize) (hmax : blockSize ≤ maxBlockSize) :
    Header.ofBlock (packet.take blockSize) =
      ⟨framedLength payload.length blockSize, paddingLength payload.length blockSize⟩ := by
  have hpadding := paddingLength_bounds payload.length blockSize (Nat.le_trans (by decide) hmin)
  obtain ⟨filler, -, hfits⟩ := hframe
  simp only [minBlockSize, maxBlockSize, minPadding, maxPacketLength] at hmin hmax hpadding hfits
  generalize framedLength payload.length blockSize = framed at *
  generalize paddingLength payload.length blockSize = padded at *
  generalize hblock : (Bytes.bigEndian 4 framed ++ UInt8.ofNat padded :: payload ++ filler).take
    blockSize = block
  have hnumber : Bytes.toNat (block.take 4) = framed := by
    rw [← hblock, List.take_take, Nat.min_eq_left (by omega), List.append_assoc,
      List.take_left' (Bytes.length_bigEndian 4 framed)]
    exact Bytes.toNat_bigEndian 4 framed (by omega)
  have hoctet : block.getD 4 0 = UInt8.ofNat padded := by
    rw [← hblock, List.getD_eq_getElem?_getD, List.getElem?_take_of_lt (by omega),
      List.append_assoc, List.getElem?_append_right (by simp)]
    simp
  rw [Header.ofBlock, hnumber, hoctet, UInt8.toNat_ofNat', Nat.mod_eq_of_lt (by omega)]

/-- A frame is well formed in the eyes of its reader. -/
theorem wellFormed_take (hframe : IsFrame payload blockSize packet)
    (hmin : minBlockSize ≤ blockSize) (hmax : blockSize ≤ maxBlockSize) :
    (Header.ofBlock (packet.take blockSize)).WellFormed blockSize := by
  have hpositive : 0 < blockSize := Nat.lt_of_lt_of_le (by decide) hmin
  have hpadding := paddingLength_bounds payload.length blockSize (Nat.le_trans (by decide) hmin)
  rw [hframe.ofBlock_take hmin hmax]
  obtain ⟨filler, -, hfits⟩ := hframe
  refine ⟨hfits, dvd_framedLength _ _ hpositive, ?_, ?_⟩
  · simp only [maxBlockSize, minPadding, maxInboundPadding] at *
    omega
  · simp only [framedLength]
    omega

end IsFrame

end PacketLayer
