import PacketLayer.Crypto.Negotiated
import PacketLayer.Proofs.Succession
import PacketLayer.Rehearsal.StandIn

/-! # Dependable protections

A protection is dependable if it transforms whole blocks without fault, whatever it was used for
before, and has a tag for every packet. Negotiated protections are: their ciphers refuse nothing
but partial blocks, and their digests are at least as long as their tags.
-/

namespace PacketLayer

variable {C : Type} [BlockCipher C]

/-- A protection that fails for no string of whole blocks and for no packet. -/
structure Protection.Dependable (fresh : Protection C) : Prop where
  applies : ∀ worn, fresh.Used worn → ∀ data : Bytes, fresh.blockSize ∣ data.length →
    ∃ output, (worn.apply data).1 = .ok output
  signs : ∀ sequence packet, ∃ tag, fresh.sign sequence packet = .ok tag

/-- Use leaves alone everything but the cipher. -/
theorem Protection.Used.same {fresh worn : Protection C} (hused : fresh.Used worn) :
    worn.blockSize = fresh.blockSize ∧
      ∀ sequence packet, worn.sign sequence packet = fresh.sign sequence packet := by
  induction hused with
  | refl => exact ⟨rfl, fun _ _ => rfl⟩
  | step data _ ih => exact ih

/-- A lane runs under a dependable protection, or under none. -/
def Lane.Sound (lane : Lane C) : Prop :=
  ∃ installed, lane.Under installed ∧ ∀ fresh, installed = some fresh → fresh.Dependable

namespace Lane.Sound

variable {lane : Lane C}

theorem of_under {installed : Option (Protection C)} (hunder : lane.Under installed)
    (hdependable : ∀ fresh, installed = some fresh → fresh.Dependable) : lane.Sound :=
  ⟨installed, hunder, hdependable⟩

/-- A sound lane transforms whole blocks, and stays sound. -/
theorem apply (hsound : lane.Sound) {data : Bytes} (hwhole : lane.blockSize ∣ data.length) :
    ∃ output next, lane.apply data = (.ok output, next) ∧ next.Sound := by
  obtain ⟨installed, hunder, hdependable⟩ := hsound
  have hnext : (lane.apply data).2.Sound := .of_under (hunder.apply data) hdependable
  suffices houtput : ∃ output, (lane.apply data).1 = .ok output by
    obtain ⟨output, houtput⟩ := houtput
    exact ⟨output, _, Prod.ext houtput rfl, hnext⟩
  obtain ⟨protection, sequence⟩ := lane
  unfold Under at hunder
  cases hunder with
  | none => exact ⟨data, rfl⟩
  | some hused =>
      refine (hdependable _ rfl).applies _ hused data ?_
      rw [← hused.same.1]
      exact hwhole

/-- A sound lane signs every packet. -/
theorem sign (hsound : lane.Sound) (packet : Bytes) : ∃ tag, lane.sign packet = .ok tag := by
  obtain ⟨installed, hunder, hdependable⟩ := hsound
  obtain ⟨protection, sequence⟩ := lane
  unfold Under at hunder
  cases hunder with
  | none => exact ⟨[], rfl⟩
  | some hused =>
      obtain ⟨tag, htag⟩ := (hdependable _ rfl).signs sequence.value packet
      exact ⟨tag, (hused.same.2 _ packet).trans htag⟩

end Lane.Sound

namespace Crypto

/-- A kind of cipher that includes the negotiated engines. -/
class Hosts (C : Type) [BlockCipher C] where
  host : Engine → C
  apply_host : ∀ engine data, BlockCipher.apply (host engine) data =
    ((engine.apply data).1, host (engine.apply data).2)

instance : Hosts Engine := ⟨id, fun _ _ => rfl⟩

instance : Hosts Rehearsal.Cipher := ⟨.engine, fun _ _ => rfl⟩

/-- A protection of negotiated engines among protections with other ciphers. -/
def host [Hosts C] (protection : Protection Engine) : Protection C :=
  { protection with cipher := Hosts.host protection.cipher }

/-- Engines transform every string of whole blocks. -/
theorem Engine.apply_whole (engine : Engine) {data : Bytes} (hwhole : 16 ∣ data.length) :
    ∃ output, (engine.apply data).1 = .ok output := by
  cases engine with
  | counter state => exact ⟨_, rfl⟩
  | chaining direction state =>
      simp only [Engine.apply, Chaining.apply, if_pos (Nat.mod_eq_zero_of_dvd hwhole)]
      exact ⟨_, rfl⟩

theorem used_host [Hosts C] {protection : Protection Engine} {worn : Protection C}
    (hused : Protection.Used (host protection) worn) :
    ∃ engine, worn.cipher = Hosts.host engine := by
  induction hused with
  | refl => exact ⟨_, rfl⟩
  | step data _ ih =>
      obtain ⟨engine, hengine⟩ := ih
      refine ⟨(engine.apply data).2, ?_⟩
      simp only [Protection.apply, hengine, Hosts.apply_host]

/-- Digests are at least as long as the tags that are taken from them. -/
theorem MacAlgorithm.tagSize_le (algorithm : MacAlgorithm) (message : Bytes) :
    algorithm.tagSize ≤ (algorithm.hash.digest message).length := by
  cases algorithm with
  | hmacSha1 | hmacSha1_96 =>
      change _ ≤ (Hash.Sha1.digest message).length
      rw [Hash.Sha1.length_digest]
      decide
  | hmacSha256 =>
      change _ ≤ (Hash.Sha2.scheme256.digest message).length
      rw [Hash.Sha2.Scheme.length_digest]
      decide
  | hmacSha512 =>
      change _ ≤ (Hash.Sha2.scheme512.digest message).length
      rw [Hash.Sha2.Scheme.length_digest]
      decide

theorem MacKey.length_tag (key : MacKey) (sequence : UInt32) (packet : Bytes) :
    (key.tag sequence packet).length = key.algorithm.tagSize :=
  List.length_take_of_le (key.algorithm.tagSize_le _)

/-- What negotiation settles of a protection: its block size, its cipher, and its tags. -/
theorem negotiated_eq {cipher : CipherAlgorithm} {direction : Direction} {key iv : Bytes}
    {mac : MacAlgorithm} {macKey : Bytes} {protection : Protection Engine}
    (hnegotiated : negotiated cipher direction key iv mac macKey = .ok protection) :
    protection.blockSize = 16 ∧ cipher.engine direction key iv = .ok protection.cipher ∧
      ∃ tagKey, MacKey.make mac macKey = .ok tagKey ∧ protection.mac = tagKey.mac ∧
        protection.tagSize = tagKey.algorithm.tagSize := by
  unfold negotiated at hnegotiated
  cases hengine : cipher.engine direction key iv with
  | error fault =>
      rw [hengine] at hnegotiated
      cases hnegotiated
  | ok engine =>
      cases hkey : MacKey.make mac macKey with
      | error fault =>
          rw [hengine, hkey] at hnegotiated
          cases hnegotiated
      | ok tagKey =>
          have halgorithm : tagKey.algorithm = mac := by
            unfold MacKey.make at hkey
            split at hkey
            · cases hkey
            · obtain rfl := Except.ok.inj hkey
              rfl
          rw [hengine, hkey] at hnegotiated
          change Protection.make engine 16 tagKey.mac mac.tagSize = _ at hnegotiated
          unfold Protection.make at hnegotiated
          split at hnegotiated
          · split at hnegotiated
            · obtain rfl := Except.ok.inj hnegotiated
              exact ⟨rfl, rfl, tagKey, rfl, rfl, congrArg MacAlgorithm.tagSize halgorithm.symm⟩
            · cases hnegotiated
          · cases hnegotiated

/-- Negotiated protections are dependable, whichever direction they were made for. -/
theorem dependable_host [Hosts C] {cipher : CipherAlgorithm} {direction : Direction}
    {key iv : Bytes} {mac : MacAlgorithm} {macKey : Bytes} {protection : Protection Engine}
    (hnegotiated : negotiated cipher direction key iv mac macKey = .ok protection) :
    (host protection : Protection C).Dependable := by
  obtain ⟨hblock, -, tagKey, -, hmac, htagSize⟩ := negotiated_eq hnegotiated
  constructor
  · intro worn hused data hwhole
    obtain ⟨engine, hengine⟩ := used_host hused
    obtain ⟨output, houtput⟩ := engine.apply_whole (hblock ▸ hwhole : 16 ∣ data.length)
    refine ⟨output, ?_⟩
    simp only [Protection.apply, hengine, Hosts.apply_host, houtput]
  · intro sequence packet
    have henough : ¬(tagKey.tag sequence packet).length < protection.tagSize := by
      rw [htagSize, tagKey.length_tag]
      exact Nat.lt_irrefl _
    refine ⟨(tagKey.tag sequence packet).take protection.tagSize, ?_⟩
    change protection.sign sequence packet = _
    unfold Protection.sign
    rw [hmac]
    exact if_neg henough

end Crypto

end PacketLayer
