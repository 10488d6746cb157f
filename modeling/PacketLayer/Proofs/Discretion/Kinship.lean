import PacketLayer.Proofs.Dependable

/-! # Endpoints that differ in secrets only

Two endpoints are akin if they differ in nothing but octets that an observer does not see:
what their lanes have enciphered, what is on its way, what the stream has accepted and what is
to arrive. All lengths agree, and everything else is the same, the journal included.
-/

namespace PacketLayer

variable {P C : Type}

/-- Payloads of one length with the same first octet. -/
structure Bytes.Akin (payload other : Bytes) : Prop where
  length_eq : payload.length = other.length
  head_eq : payload.head? = other.head?

theorem Bytes.Akin.refl (payload : Bytes) : payload.Akin payload :=
  ⟨rfl, rfl⟩

/-- Payloads that are akin have one label. -/
theorem Bytes.Akin.describePayload_eq {payload other : Bytes} (hakin : payload.Akin other) :
    MessageType.describePayload payload = MessageType.describePayload other := by
  obtain ⟨-, hhead⟩ := hakin
  cases payload with
  | nil => cases other with
    | nil => rfl
    | cons => cases hhead
  | cons => cases other with
    | nil => cases hhead
    | cons =>
        cases hhead
        rfl

/-! ## Lanes -/

/-- Lanes with the same sizes and the same number. -/
structure Lane.Akin (lane other : Lane C) : Prop where
  isProtected_eq : lane.isProtected = other.isProtected
  blockSize_eq : lane.blockSize = other.blockSize
  tagSize_eq : lane.tagSize = other.tagSize
  sequence_eq : lane.sequence = other.sequence

namespace Lane

variable {lane other : Lane C}

theorem Akin.refl (lane : Lane C) : lane.Akin lane :=
  ⟨rfl, rfl, rfl, rfl⟩

theorem Akin.advance (hakin : lane.Akin other) : lane.advance.Akin other.advance :=
  ⟨hakin.isProtected_eq, hakin.blockSize_eq, hakin.tagSize_eq,
    congrArg SequenceNumber.next hakin.sequence_eq⟩

theorem Akin.install (hakin : lane.Akin other) (protection : Protection C) :
    (lane.install protection).Akin (other.install protection) :=
  ⟨rfl, rfl, rfl, hakin.sequence_eq⟩

/-- A tag has the length that the lane declares. -/
theorem length_of_sign {packet tag : Bytes} (hsign : lane.sign packet = .ok tag) :
    tag.length = lane.tagSize := by
  obtain ⟨_ | protection, sequence⟩ := lane
  · cases hsign
    rfl
  · simp only [sign, Protection.sign] at hsign
    split at hsign
    · cases hsign
    · split at hsign
      · cases hsign
      next hlong =>
        cases hsign
        exact List.length_take_of_le (Nat.le_of_not_lt hlong)

variable [BlockCipher C]

theorem Akin.apply (hakin : lane.Akin other) (data input : Bytes) :
    (lane.apply data).2.Akin (other.apply input).2 := by
  have happly {lane : Lane C} {data : Bytes} :
      lane.apply data = ((lane.apply data).1, (lane.apply data).2) := rfl
  obtain ⟨hblock, htag, hsequence, -⟩ := apply_eq (happly : lane.apply data = _)
  obtain ⟨hblock', htag', hsequence', -⟩ := apply_eq (happly : other.apply input = _)
  refine ⟨?_, ?_, ?_, ?_⟩
  · rw [isProtected_apply, isProtected_apply, hakin.isProtected_eq]
  · rw [hblock, hblock', hakin.blockSize_eq]
  · rw [htag, htag', hakin.tagSize_eq]
  · rw [hsequence, hsequence', hakin.sequence_eq]

theorem Sound.install {protection : Protection C} (hdependable : protection.Dependable)
    (lane : Lane C) : (lane.install protection).Sound :=
  .of_under (.install protection lane) (by rintro _ ⟨⟩; exact hdependable)

theorem Sound.advance (hsound : lane.Sound) : lane.advance.Sound := by
  obtain ⟨installed, hunder, hdependable⟩ := hsound
  exact .of_under hunder.advance hdependable

end Lane

/-! ## Streams -/

/-- The octets that an item delivers. -/
def ReadItem.octets : ReadItem P → Bytes
  | data bytes => bytes
  | eof | fail _ | pause _ | resumeAt _ | installOutbound _ | act _ => []

/-- The octets that a script delivers, whatever happens between them. -/
def ReadScript.octets (script : ReadScript P) : Bytes :=
  script.flatMap ReadItem.octets

/-- What happens is the same, but other octets may arrive in the same number. Protections that
are installed for the outbound lane are dependable. -/
inductive ReadItem.Akin [BlockCipher C] :
    ReadItem (Protection C) → ReadItem (Protection C) → Prop where
  | data {bytes other : Bytes} (hlength : bytes.length = other.length) :
      Akin (.data bytes) (.data other)
  | eof : Akin .eof .eof
  | fail (failure : StreamFailure) : Akin (.fail failure) (.fail failure)
  | pause (milliseconds : Nat) : Akin (.pause milliseconds) (.pause milliseconds)
  | resumeAt (time : Nat) : Akin (.resumeAt time) (.resumeAt time)
  | installOutbound {protection : Protection C} (hdependable : protection.Dependable) :
      Akin (.installOutbound protection) (.installOutbound protection)
  | act (action : Action (Protection C)) : Akin (.act action) (.act action)

/-- Octets of one length on their way, in the same attempt. -/
structure Shipment.Akin (shipment other : Shipment) : Prop where
  length_eq : shipment.rest.length = other.rest.length
  attempt_eq : shipment.attempt = other.attempt
  wake_eq : shipment.wake = other.wake

structure HeldMessage.Akin (message other : HeldMessage) : Prop where
  shipment : Shipment.Akin message.shipment other.shipment
  frameLength_eq : message.frameLength = other.frameLength

namespace Endpoint

/-- What an observer does not see of an endpoint. -/
structure Hidden (C : Type) where
  outbound : Lane C
  inbound : Lane C
  held : Option HeldMessage
  accepted : List Bytes
  reads : ReadScript (Protection C)

def hidden (e : Endpoint C) : Hidden C :=
  ⟨e.outbound, e.inbound, e.held, e.accepted, e.reads⟩

/-- The endpoint with something else behind the same outside. -/
def withHidden (hidden : Hidden C) (e : Endpoint C) : Endpoint C :=
  { e with
    outbound := hidden.outbound
    inbound := hidden.inbound
    held := hidden.held
    accepted := hidden.accepted
    reads := hidden.reads }

/-- A change goes on outside only: it neither looks at what is hidden nor touches it. -/
structure Outside (change : Endpoint C → Endpoint C) : Prop where
  commutes : ∀ hidden e, change (withHidden hidden e) = withHidden hidden (change e)
  config_eq : ∀ e, (change e).config = e.config

theorem Outside.hidden_eq {change : Endpoint C → Endpoint C} (hchange : Outside change)
    (e : Endpoint C) : (change e).hidden = e.hidden := by
  have hsame : change e = withHidden e.hidden (change e) := hchange.commutes e.hidden e
  rw [hsame]
  rfl

variable [BlockCipher C]

/-- What is hidden agrees in all lengths, and the given octets are to arrive. -/
structure Hidden.Akin (octets others : Bytes) (hidden other : Hidden C) : Prop where
  outbound : hidden.outbound.Akin other.outbound
  sound : hidden.outbound.Sound
  soundOther : other.outbound.Sound
  inbound : hidden.inbound.Akin other.inbound
  held : Option.Rel HeldMessage.Akin hidden.held other.held
  reads : List.Forall₂ ReadItem.Akin hidden.reads other.reads
  octets_eq : hidden.reads.octets = octets
  others_eq : other.reads.octets = others

/-- Endpoints between which an observer sees no difference, as long as packets are not dumped. -/
inductive Akin (octets others : Bytes) (e : Endpoint C) : Endpoint C → Prop where
  | intro (other : Hidden C) (hsilent : e.config.dumpPackets = false)
      (hhidden : e.hidden.Akin octets others other) : Akin octets others e (e.withHidden other)

end Endpoint

end PacketLayer
