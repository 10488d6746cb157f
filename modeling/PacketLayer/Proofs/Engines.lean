import PacketLayer.Proofs.Dependable
import PacketLayer.Proofs.Engines.Streams
import PacketLayer.Proofs.Lockstep

/-! # Negotiated protections match

The two ends of a direction negotiate the same algorithms and derive the same keys. What they
make of them keeps their lanes in step: the engines are partners, and the tags agree.
-/

namespace PacketLayer.Crypto

/-- The engines for the two directions start at the same place. -/
theorem partners_of_engine {cipher : CipherAlgorithm} {key iv : Bytes}
    {encipherer decipherer : Engine}
    (hencipherer : cipher.engine .outbound key iv = .ok encipherer)
    (hdecipherer : cipher.engine .inbound key iv = .ok decipherer) :
    encipherer.Partners decipherer := by
  unfold CipherAlgorithm.engine at hencipherer hdecipherer
  split at hencipherer
  · cases hencipherer
  · split at hencipherer
    · cases hencipherer
    · rename_i hkey hiv
      rw [if_neg hkey, if_neg hiv] at hdecipherer
      obtain rfl := Except.ok.inj hencipherer
      obtain rfl := Except.ok.inj hdecipherer
      cases cipher with
      | aes128Ctr | aes192Ctr | aes256Ctr => exact .counter _
      | aes128Cbc | aes256Cbc => exact .chaining _

variable {C : Type} [BlockCipher C] [Hosts C]

/-- Partners decipher packets as readers do, the first block before the rest. -/
theorem Engine.Partners.undoes {encipherer decipherer : Engine}
    (hpartners : encipherer.Partners decipherer) :
    Undoes 16 (Hosts.host encipherer : C) (Hosts.host decipherer) := by
  refine ⟨fun outbound inbound => ∃ encipherer decipherer : Engine,
    outbound = Hosts.host encipherer ∧ inbound = Hosts.host decipherer ∧
      encipherer.Partners decipherer, ⟨_, _, rfl, rfl, hpartners⟩, ?_⟩
  rintro _ _ ⟨encipherer, decipherer, rfl, rfl, hpartners⟩ packet hwhole hpacket
  obtain ⟨enciphered, encipherer', decipherer', hencipher, hdecipher, hafter⟩ :=
    hpartners.undo (.of_dvd encipherer hwhole)
  have hlength : enciphered.length = packet.length :=
    encipherer.length_apply (congrArg Prod.fst hencipher)
  have hblock : 16 ≤ enciphered.length :=
    hlength ▸ Nat.le_of_dvd (List.length_pos_iff.mpr hpacket) hwhole
  have hfirst : (enciphered.take 16).length = 16 :=
    List.length_take_of_le hblock
  have hrest : 16 ∣ (enciphered.drop 16).length := by
    rw [List.length_drop, hlength]
    exact Nat.dvd_sub hwhole (Nat.dvd_refl 16)
  obtain ⟨block, middle, rest, last, hopens, hgoesOn, hboth⟩ :=
    Engine.exists_apply_append (.of_dvd decipherer ⟨1, hfirst⟩)
      (.of_dvd decipherer hrest)
  rw [List.take_append_drop, hdecipher] at hboth
  obtain ⟨hpieces, rfl⟩ := Prod.mk.inj hboth
  obtain rfl := Except.ok.inj hpieces
  have hblockLength : block.length = 16 :=
    (decipherer.length_apply (congrArg Prod.fst hopens)).trans hfirst
  refine ⟨enciphered, Hosts.host encipherer', Hosts.host middle, Hosts.host decipherer', ?_, ?_,
    ?_, encipherer', decipherer', rfl, rfl, hafter⟩
  · rw [Hosts.apply_host, hencipher]
  · rw [Hosts.apply_host, hopens, List.take_left' hblockLength]
  · rw [Hosts.apply_host, hgoesOn, List.drop_left' hblockLength]

/-- What negotiation makes of the same algorithms and keys for the two directions is matched. -/
theorem matched_host {cipher : CipherAlgorithm} {key iv : Bytes} {mac : MacAlgorithm}
    {macKey : Bytes} {outbound inbound : Protection Engine}
    (houtbound : negotiated cipher .outbound key iv mac macKey = .ok outbound)
    (hinbound : negotiated cipher .inbound key iv mac macKey = .ok inbound) :
    (host outbound : Protection C).Matched (host inbound) := by
  obtain ⟨hblock, hencipherer, tagKey, htagKey, hmac, htagSize⟩ := negotiated_eq houtbound
  obtain ⟨hblock', hdecipherer, tagKey', htagKey', hmac', htagSize'⟩ := negotiated_eq hinbound
  obtain rfl : tagKey = tagKey' := Except.ok.inj (htagKey.symm.trans htagKey')
  refine ⟨hblock'.trans hblock.symm, htagSize'.trans htagSize.symm,
    congrArg Mac.tag (hmac'.trans hmac.symm), fun sequence packet => ?_, ?_⟩
  · refine ⟨tagKey.tag sequence packet, ?_, ?_⟩
    · change outbound.mac.tag sequence packet = _
      rw [hmac]
      rfl
    · exact Nat.le_of_eq (htagSize.trans (tagKey.length_tag sequence packet).symm)
  · change Undoes outbound.blockSize _ _
    rw [hblock]
    exact (partners_of_engine hencipherer hdecipherer).undoes

end PacketLayer.Crypto
