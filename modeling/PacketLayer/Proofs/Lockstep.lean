import PacketLayer.Proofs.Lanes

/-! # Lanes in step

The two ends of one direction stay in step as long as each packet that one of them
seals is taken by the other. What the sending end puts on the wire is then genuine
at the receiving end, whatever follows it.
-/

namespace PacketLayer

variable {C : Type} [BlockCipher C]

/-- Deciphering a packet as a first block and a rest undoes enciphering it as a whole, now
and after every packet that follows. -/
def Undoes (blockSize : Nat) (encipherer decipherer : C) : Prop :=
  ∃ paired : C → C → Prop, paired encipherer decipherer ∧
    ∀ outbound inbound, paired outbound inbound → ∀ packet : Bytes,
      blockSize ∣ packet.length → packet ≠ [] →
      ∃ enciphered outbound' middle inbound',
        BlockCipher.apply outbound packet = (.ok enciphered, outbound') ∧
        BlockCipher.apply inbound (enciphered.take blockSize) =
          (.ok (packet.take blockSize), middle) ∧
        BlockCipher.apply middle (enciphered.drop blockSize) =
          (.ok (packet.drop blockSize), inbound') ∧
        paired outbound' inbound'

/-- The protections that key exchange installs at the two ends of one direction. -/
structure Protection.Matched (outbound inbound : Protection C) : Prop where
  blockSize : inbound.blockSize = outbound.blockSize
  tagSize : inbound.tagSize = outbound.tagSize
  tag : inbound.mac.tag = outbound.mac.tag
  signs : ∀ sequence packet, ∃ tag,
    outbound.mac.tag sequence packet = .ok tag ∧ outbound.tagSize ≤ tag.length
  undoes : Undoes outbound.blockSize outbound.cipher inbound.cipher

namespace Lane

/-- Both ends of one direction expect the same packet next. -/
inductive InStep : Lane C → Lane C → Prop where
  | plain (sequence : SequenceNumber) : InStep ⟨none, sequence⟩ ⟨none, sequence⟩
  | guarded {outbound inbound : Protection C} (sequence : SequenceNumber)
      (hmatched : outbound.Matched inbound) :
      InStep ⟨some outbound, sequence⟩ ⟨some inbound, sequence⟩

namespace InStep

variable {outbound inbound : Lane C}

theorem blockSize_eq (hstep : InStep outbound inbound) :
    inbound.blockSize = outbound.blockSize := by
  cases hstep with
  | plain sequence => rfl
  | guarded sequence hmatched => exact hmatched.blockSize

theorem tagSize_eq (hstep : InStep outbound inbound) : inbound.tagSize = outbound.tagSize := by
  cases hstep with
  | plain sequence => rfl
  | guarded sequence hmatched => exact hmatched.tagSize

theorem sequence_eq (hstep : InStep outbound inbound) : inbound.sequence = outbound.sequence := by
  cases hstep <;> rfl

theorem sign_eq (hstep : InStep outbound inbound) (packet : Bytes) :
    inbound.sign packet = outbound.sign packet := by
  cases hstep with
  | plain sequence => rfl
  | guarded sequence hmatched =>
      simp only [sign, Protection.sign, hmatched.tag, hmatched.tagSize]

theorem advance (hstep : InStep outbound inbound) : InStep outbound.advance inbound.advance := by
  cases hstep with
  | plain sequence => exact .plain _
  | guarded sequence hmatched => exact .guarded _ hmatched

/-- New keys bring lanes into step that agree on the number of the next packet. -/
theorem of_install {next peer : Protection C} (hmatched : next.Matched peer)
    (hsequence : inbound.sequence = outbound.sequence) :
    InStep (outbound.install next) (inbound.install peer) := by
  have hguarded := guarded inbound.sequence hmatched
  unfold Lane.install
  rw [← hsequence]
  exact hguarded

theorem exists_tag (hstep : InStep outbound inbound) (packet : Bytes) :
    ∃ tag, outbound.sign packet = .ok tag ∧ tag.length = outbound.tagSize := by
  cases hstep with
  | plain sequence => exact ⟨[], rfl, rfl⟩
  | @guarded outbound inbound sequence hmatched =>
      obtain ⟨tag, htag, hlength⟩ := hmatched.signs sequence.value packet
      refine ⟨tag.take outbound.tagSize, ?_, List.length_take_of_le hlength⟩
      simp [sign, Protection.sign, htag, Nat.not_lt.mpr hlength]

/-- The receiving end deciphers in two pieces what the sending end enciphers as a whole. -/
theorem exists_enciphered (hstep : InStep outbound inbound) {packet : Bytes}
    (hblocks : outbound.blockSize ∣ packet.length) (hpacket : packet ≠ []) :
    ∃ enciphered outbound' middle inbound',
      outbound.apply packet = (.ok enciphered, outbound') ∧
      inbound.apply (enciphered.take outbound.blockSize) =
        (.ok (packet.take outbound.blockSize), middle) ∧
      middle.apply (enciphered.drop outbound.blockSize) =
        (.ok (packet.drop outbound.blockSize), inbound') ∧
      InStep outbound' inbound' := by
  cases hstep with
  | plain sequence => exact ⟨packet, _, _, _, rfl, rfl, rfl, .plain sequence⟩
  | @guarded outbound inbound sequence hmatched =>
      obtain ⟨paired, hpaired, hstays⟩ := hmatched.undoes
      obtain ⟨enciphered, outbound', middle, inbound', hencipher, hfirst, hrest, hafter⟩ :=
        hstays _ _ hpaired packet hblocks hpacket
      refine ⟨enciphered, ⟨some { outbound with cipher := outbound' }, sequence⟩,
        ⟨some { inbound with cipher := middle }, sequence⟩,
        ⟨some { inbound with cipher := inbound' }, sequence⟩, ?_, ?_, ?_, .guarded _ ?_⟩
      · simp [apply, Protection.apply, hencipher]
      · simp only [apply, Protection.apply, blockSize, hfirst]
      · simp only [apply, Protection.apply, blockSize, hrest]
      · exact ⟨hmatched.blockSize, hmatched.tagSize, hmatched.tag, hmatched.signs,
          ⟨paired, hafter, hstays⟩⟩

end InStep

/-- What the sending end makes of a plain frame: the octets for the wire, and the lane for
the next packet. -/
inductive Seals (lane : Lane C) (packet : Bytes) : Bytes → Lane C → Prop where
  | intro {tag enciphered : Bytes} {next : Lane C} (hsign : lane.sign packet = .ok tag)
      (hencipher : lane.apply packet = (.ok enciphered, next)) :
      Seals lane packet (enciphered ++ tag) next.advance

theorem Seals.blockSize_eq {lane next : Lane C} {packet wire : Bytes}
    (hseals : lane.Seals packet wire next) : next.blockSize = lane.blockSize := by
  obtain ⟨-, hencipher⟩ := hseals
  exact (apply_eq hencipher).1

theorem Seals.sequence_eq {lane next : Lane C} {packet wire : Bytes}
    (hseals : lane.Seals packet wire next) : next.sequence = lane.sequence.next := by
  obtain ⟨-, hencipher⟩ := hseals
  exact congrArg SequenceNumber.next (apply_eq hencipher).2.2.1

/-- A packet that one end seals is genuine at the other, and leaves both ends in step. -/
theorem InStep.genuine_of_frame {outbound inbound : Lane C} (hstep : InStep outbound inbound)
    {payload packet : Bytes} (hframe : IsFrame payload outbound.blockSize packet) :
    ∃ header wire next last, Seals outbound packet wire next ∧
      (∀ more, inbound.Genuine (wire ++ more) header packet last) ∧
      wire.length = header.frameLength + inbound.tagSize ∧
      (packet.drop headerLength).take header.payloadLength = payload ∧
      InStep next last.advance := by
  have hmin : minBlockSize ≤ outbound.blockSize := outbound.plaintextBlockSize_le
  have hmax := outbound.blockSize_le_max
  have hpositive : 0 < outbound.blockSize := Nat.lt_of_lt_of_le (by decide) hmin
  have hwhole := hframe.blockSize_le hpositive
  have hpacket : packet ≠ [] := by
    rintro rfl
    exact absurd hwhole (Nat.not_le.mpr hpositive)
  obtain ⟨tag, hsign, htag⟩ := hstep.exists_tag packet
  obtain ⟨enciphered, outbound', middle, inbound', hencipher, hfirst, hrest, hafter⟩ :=
    hstep.exists_enciphered (hframe.dvd_length hpositive) hpacket
  have hlength : enciphered.length = packet.length := (apply_eq hencipher).2.2.2.2 _ rfl
  have hheader := hframe.ofBlock_take hmin hmax
  have hformed := hframe.wellFormed_take hmin hmax
  have hframeLength : (Header.ofBlock (packet.take outbound.blockSize)).frameLength =
      enciphered.length := by
    rw [hheader, hlength, hframe.length_eq]
    rfl
  -- the header declares the frame that was sealed, so the reader cuts where the writer did
  refine ⟨Header.ofBlock (packet.take outbound.blockSize), enciphered ++ tag,
    outbound'.advance, inbound', .intro hsign hencipher, ?_, ?_, ?_, hafter.advance⟩
  · intro more
    have hopens : inbound.Opens (enciphered ++ tag ++ more) (packet.take outbound.blockSize)
        middle := by
      rw [List.append_assoc]
      refine ⟨?_, ?_, hstep.blockSize_eq ▸ hformed⟩
      · rw [hstep.blockSize_eq, List.length_append, hlength]
        omega
      · rw [hstep.blockSize_eq, List.take_append_of_le_length (hlength ▸ hwhole), hfirst]
    have hunfolds : inbound.Unfolds (enciphered ++ tag ++ more)
        (Header.ofBlock (packet.take outbound.blockSize))
        (packet.take outbound.blockSize ++ packet.drop outbound.blockSize) inbound' := by
      refine .intro hopens ?_ ?_
      · simp only [hframeLength, List.length_append]
        omega
      · rw [hframeLength, hstep.blockSize_eq, List.append_assoc, List.take_left, hrest]
    rw [List.take_append_drop] at hunfolds
    refine ⟨hunfolds, ?_, ?_⟩
    · simp only [hframeLength, hstep.tagSize_eq, ← htag, List.length_append]
      omega
    · rw [hstep.sign_eq, hsign, hframeLength, List.append_assoc, List.drop_left, hstep.tagSize_eq,
        ← htag, List.take_left]
  · rw [List.length_append, htag, hframeLength, hstep.tagSize_eq]
  · have hpayload : (Header.ofBlock (packet.take outbound.blockSize)).payloadLength =
        payload.length := by
      rw [hheader]
      simp only [Header.payloadLength, framedLength]
      omega
    rw [hpayload, hframe.payload_eq]

end Lane

end PacketLayer
