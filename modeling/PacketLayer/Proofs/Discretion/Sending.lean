import PacketLayer.Proofs.Closing.Sparing
import PacketLayer.Proofs.Discretion.Kinship
import PacketLayer.Proofs.Framing

/-! # Discretion in sending

How far octets come on their way depends on how many they are, and not on what they are. So
endpoints that are akin stay akin while messages of one length and label are sealed and sent,
and while keep-alive messages are looked after.
-/

namespace PacketLayer.Endpoint

variable {C : Type} [BlockCipher C] {octets others : Bytes} {e other : Endpoint C}

omit [BlockCipher C] in
theorem dump_of_silent (hsilent : e.config.dumpPackets = false) (direction : Direction)
    (bytes : Bytes) : e.dump direction bytes = e := by
  rw [dump, if_neg (by simp [hsilent])]

omit [BlockCipher C] in
theorem outbound_dump (direction : Direction) (bytes : Bytes) (e : Endpoint C) :
    (e.dump direction bytes).outbound = e.outbound := by
  unfold dump
  split <;> rfl

namespace Akin

/-- Who does not look at what is hidden sees no difference. -/
theorem seen_eq {α : Type} (hakin : Akin octets others e other) (seen : Endpoint C → α)
    (hseen : ∀ hidden e, seen (withHidden hidden e) = seen e) : seen e = seen other := by
  obtain ⟨hidden, -, -⟩ := hakin
  exact (hseen hidden e).symm

theorem closed_eq (hakin : Akin octets others e other) : e.closed = other.closed :=
  hakin.seen_eq closed fun _ _ => rfl

theorem now_eq (hakin : Akin octets others e other) : e.now = other.now :=
  hakin.seen_eq now fun _ _ => rfl

theorem config_eq (hakin : Akin octets others e other) : e.config = other.config :=
  hakin.seen_eq config fun _ _ => rfl

theorem attempt_eq (hakin : Akin octets others e other) : e.attempt = other.attempt :=
  hakin.seen_eq attempt fun _ _ => rfl

theorem writes_eq (hakin : Akin octets others e other) : e.writes = other.writes :=
  hakin.seen_eq writes fun _ _ => rfl

theorem noise_eq (hakin : Akin octets others e other) : e.noise = other.noise :=
  hakin.seen_eq noise fun _ _ => rfl

theorem queued_eq (hakin : Akin octets others e other) : e.queued = other.queued :=
  hakin.seen_eq queued fun _ _ => rfl

theorem journal_eq (hakin : Akin octets others e other) : e.journal = other.journal :=
  hakin.seen_eq journal fun _ _ => rfl

theorem hidden (hakin : Akin octets others e other) : e.hidden.Akin octets others other.hidden := by
  obtain ⟨hidden, hsilent, hhidden⟩ := hakin
  exact hhidden

theorem outside (hakin : Akin octets others e other) (change : Endpoint C → Endpoint C)
    (hchange : Outside change) : Akin octets others (change e) (change other) := by
  obtain ⟨hidden, hsilent, hhidden⟩ := hakin
  rw [hchange.commutes]
  exact .intro hidden (hchange.config_eq e ▸ hsilent) (hchange.hidden_eq e ▸ hhidden)

theorem note (hakin : Akin octets others e other) (event : Event) :
    Akin octets others (e.note event) (other.note event) :=
  hakin.outside (Endpoint.note event) ⟨fun _ _ => rfl, fun _ => rfl⟩

theorem dump (hakin : Akin octets others e other) (direction : Direction) (bytes input : Bytes) :
    Akin octets others (e.dump direction bytes) (other.dump direction input) := by
  obtain ⟨hidden, hsilent, hhidden⟩ := hakin
  rw [dump_of_silent hsilent, dump_of_silent (show (e.withHidden hidden).config.dumpPackets = false
    from hsilent)]
  exact .intro hidden hsilent hhidden

theorem repad (hakin : Akin octets others e other) (padding : ByteSource) :
    Akin octets others { e with padding } { other with padding } :=
  hakin.outside (fun e => { e with padding }) ⟨fun _ _ => rfl, fun _ => rfl⟩

theorem renoise (hakin : Akin octets others e other) (noise : ByteSource) :
    Akin octets others { e with noise } { other with noise } :=
  hakin.outside (fun e => { e with noise }) ⟨fun _ _ => rfl, fun _ => rfl⟩

theorem queue (hakin : Akin octets others e other) (queued : Nat) (turn : Turn) :
    Akin octets others { e with queued, turn } { other with queued, turn } :=
  hakin.outside (fun e => { e with queued, turn }) ⟨fun _ _ => rfl, fun _ => rfl⟩

theorem act (hakin : Akin octets others e other) (reader : ReaderState)
    (action : Action (Protection C)) :
    Akin octets others (e.act reader action) (other.act reader action) := by
  obtain ⟨hidden, hsilent, hhidden⟩ := hakin
  cases action with
  | installInbound protection =>
      cases reader with
      | idle =>
          exact .intro { hidden with inbound := hidden.inbound.install protection } hsilent
            { hhidden with inbound := hhidden.inbound.install protection }
      | busy => exact .intro hidden hsilent hhidden
  | close | setKeepAlive => exact .intro hidden hsilent hhidden

theorem installOutbound (hakin : Akin octets others e other) {protection : Protection C}
    (hdependable : protection.Dependable) :
    Akin octets others (e.installOutbound protection) (other.installOutbound protection) := by
  obtain ⟨hidden, hsilent, hhidden⟩ := hakin
  exact .intro { hidden with outbound := hidden.outbound.install protection } hsilent
    { hhidden with
      outbound := hhidden.outbound.install protection
      sound := .install hdependable _
      soundOther := .install hdependable _ }

theorem accept (hakin : Akin octets others e other) (pieces piecesOther : List Bytes) :
    Akin octets others { e with accepted := pieces } { other with accepted := piecesOther } := by
  obtain ⟨hidden, hsilent, hhidden⟩ := hakin
  exact .intro { hidden with accepted := piecesOther } hsilent { hhidden with }

theorem rescript (hakin : Akin octets others e other) (writes : WriteScript (Protection C)) :
    Akin octets others { e with writes } { other with writes } :=
  hakin.outside (fun e => { e with writes }) ⟨fun _ _ => rfl, fun _ => rfl⟩

theorem advanceTo (hakin : Akin octets others e other) (time : Nat) :
    Akin octets others (e.advanceTo time) (other.advanceTo time) :=
  hakin.outside (Endpoint.advanceTo time) ⟨fun _ _ => rfl, fun _ => rfl⟩

theorem accountSent (hakin : Akin octets others e other) (bytes : Nat) :
    Akin octets others (e.accountSent bytes) (other.accountSent bytes) := by
  refine hakin.outside (Endpoint.accountSent bytes) ⟨fun hidden e => ?_, fun e => ?_⟩
  · unfold Endpoint.accountSent
    dsimp only [withHidden]
    split <;> rfl
  · unfold Endpoint.accountSent
    dsimp only
    split <;> rfl

end Akin

/-! ## Octets on their way -/

/-- Sending has come as far, with octets of one length left. -/
inductive Progress.Akin : Progress → Progress → Prop where
  | sent : Akin .sent .sent
  | failed (fault : Fault) : Akin (.failed fault) (.failed fault)
  | blocked {shipment shipmentOther : Shipment} (hshipment : shipment.Akin shipmentOther) :
      Akin (.blocked shipment) (.blocked shipmentOther)

theorem akin_await (hakin : Akin octets others e other) {rest restOther : Bytes}
    (hlength : rest.length = restOther.length) (attempt pause : Alarm) :
    (e.await rest attempt pause).Akin (other.await restOther attempt pause) := by
  unfold await
  rw [← hakin.now_eq, ← hakin.closed_eq, ← hakin.attempt_eq]
  split
  · exact .blocked ⟨hlength, rfl, rfl⟩
  · split
    · exact .failed _
    · exact .blocked ⟨hlength, rfl, rfl⟩

/-- The write script has been followed in the same way. -/
structure Transmitted (octets others : Bytes)
    (outcome outcomeOther : Progress × WriteScript (Protection C) × Endpoint C) : Prop where
  progress : outcome.1.Akin outcomeOther.1
  script_eq : outcome.2.1 = outcomeOther.2.1
  akin : Akin octets others outcome.2.2 outcomeOther.2.2

theorem transmitted (reader : ReaderState) (items : WriteScript (Protection C))
    {rest restOther : Bytes} (hlength : rest.length = restOther.length) (attempt : Alarm)
    (hakin : Akin octets others e other) :
    Transmitted octets others (transmit reader items rest attempt e)
      (transmit reader items restOther attempt other) := by
  induction items generalizing rest restOther attempt e other with
  | nil => exact ⟨.sent, rfl, hakin.accept _ _⟩
  | cons item items ih =>
      cases item with
      | accept count =>
          have haccepted := hakin.accept (rest.take count :: e.accepted)
            (restOther.take count :: other.accepted)
          have hclosed := hakin.closed_eq
          by_cases hzero : count = 0
          · simp only [transmit, hzero, if_true]
            exact ⟨.failed _, rfl, hakin.accept _ _⟩
          by_cases hall : rest.length ≤ count
          · simp only [transmit, hzero, ← hlength, hall, if_true, if_false]
            exact ⟨.sent, rfl, haccepted⟩
          simp only [transmit, hzero, ← hlength, hall, if_false]
          by_cases hstate : e.closed = true
          · rw [if_pos hstate, if_pos (hclosed ▸ hstate)]
            exact ⟨.failed _, rfl, haccepted⟩
          · rw [if_neg hstate, if_neg (hclosed ▸ hstate), ← haccepted.attempt_eq]
            exact ih (by rw [List.length_drop, List.length_drop, hlength]) _ haccepted
      | fail failure =>
          simp only [transmit, ← hakin.closed_eq, ← hakin.attempt_eq]
          split
          · exact ⟨.failed _, rfl, hakin⟩
          split
          · exact ⟨.failed _, rfl, hakin⟩
          · exact ih hlength _ hakin
      | pause milliseconds =>
          have hmoment : e.moment = other.moment := hakin.seen_eq moment fun _ _ => rfl
          simp only [transmit, ← hakin.now_eq, ← hmoment]
          split
          · exact ih hlength _ hakin
          · exact ⟨akin_await hakin hlength _ _, rfl, hakin⟩
      | resumeAt pause =>
          simp only [transmit, ← hakin.now_eq]
          split
          · exact ih hlength _ hakin
          · exact ⟨akin_await hakin hlength _ _, rfl, hakin⟩
      | act action => exact ih hlength attempt (hakin.act reader action)

/-- Octets have come as far on endpoints that are akin. -/
inductive Proceeded (octets others : Bytes) : Progress × Endpoint C → Progress × Endpoint C → Prop
    where
  | sent {e other : Endpoint C} (hakin : Akin octets others e other) :
      Proceeded octets others (.sent, e) (.sent, other)
  | failed {e other : Endpoint C} (fault : Fault) (hakin : Akin octets others e other) :
      Proceeded octets others (.failed fault, e) (.failed fault, other)
  | blocked {shipment shipmentOther : Shipment} {e other : Endpoint C}
      (hshipment : shipment.Akin shipmentOther) (hakin : Akin octets others e other) :
      Proceeded octets others (.blocked shipment, e) (.blocked shipmentOther, other)

theorem Progress.Akin.proceeded {progress progressOther : Progress}
    (hprogress : progress.Akin progressOther) (hakin : Endpoint.Akin octets others e other) :
    Proceeded octets others (progress, e) (progressOther, other) := by
  cases hprogress with
  | sent => exact .sent hakin
  | failed fault => exact .failed fault hakin
  | blocked hshipment => exact .blocked hshipment hakin

theorem proceeded (reader : ReaderState) {rest restOther : Bytes}
    (hlength : rest.length = restOther.length) (attempt : Alarm)
    (hakin : Akin octets others e other) :
    Proceeded octets others (proceed reader rest attempt e)
      (proceed reader restOther attempt other) := by
  have hempty : restOther.isEmpty = rest.isEmpty := by
    rw [Bool.eq_iff_iff, List.isEmpty_iff_length_eq_zero, List.isEmpty_iff_length_eq_zero, hlength]
  unfold proceed
  rw [hempty, ← hakin.writes_eq]
  split
  · exact .sent hakin
  · obtain ⟨hprogress, hwrites, hnext⟩ := transmitted reader e.writes hlength attempt hakin
    dsimp only
    rw [← hwrites]
    exact hprogress.proceeded (hnext.rescript _)

/-- Two outcomes are the same failure, or results that are related, on endpoints that are
akin. -/
inductive Agree (octets others : Bytes) {α : Type} (related : α → α → Prop) :
    Except Fault α × Endpoint C → Except Fault α × Endpoint C → Prop where
  | ok {a b : α} {e other : Endpoint C} (hrelated : related a b)
      (hakin : Akin octets others e other) : Agree octets others related (.ok a, e) (.ok b, other)
  | error {e other : Endpoint C} (fault : Fault) (hakin : Akin octets others e other) :
      Agree octets others related (.error fault, e) (.error fault, other)

namespace Agree

variable {α β : Type} {related : α → α → Prop} {next : β → β → Prop}
  {outcome outcomeOther : Except Fault α × Endpoint C}

theorem akin (hagree : Agree octets others related outcome outcomeOther) :
    Akin octets others outcome.2 outcomeOther.2 := by
  cases hagree with
  | ok hrelated hakin => exact hakin
  | error fault hakin => exact hakin

theorem bind {m n : Act C α} {f g : α → Act C β}
    (hm : Agree octets others related (m e) (n other))
    (hf : ∀ a b middle middleOther, related a b → Akin octets others middle middleOther →
      Agree octets others next (f a middle) (g b middleOther)) :
    Agree octets others next ((m >>= f) e) ((n >>= g) other) := by
  rcases hfirst : m e with ⟨result, middle⟩
  rcases hsecond : n other with ⟨resultOther, middleOther⟩
  rw [hfirst, hsecond] at hm
  cases hm with
  | ok hrelated hakin =>
      rw [Act.bind_of_ok hfirst, Act.bind_of_ok hsecond]
      exact hf _ _ _ _ hrelated hakin
  | error fault hakin =>
      rw [Act.bind_of_error hfirst, Act.bind_of_error hsecond]
      exact .error fault hakin

theorem noting {m n : Act C α} (hm : Agree octets others related (m e) (n other))
    (direction : Direction) :
    Agree octets others related (Act.noting direction m e) (Act.noting direction n other) := by
  unfold Act.noting
  generalize m e = outcome at hm
  generalize n other = outcomeOther at hm
  cases hm with
  | ok hrelated hakin => exact .ok hrelated hakin
  | error fault hakin => exact .error fault (hakin.note _)

end Agree

/-- What goes on outside comes to the same. -/
theorem agree_outside {α : Type} {m : Act C α} (hakin : Akin octets others e other)
    (hcommutes : ∀ hidden e, m (withHidden hidden e) = ((m e).1, withHidden hidden (m e).2))
    (hconfig : ∀ e, (m e).2.config = e.config) : Agree octets others Eq (m e) (m other) := by
  have hnext : Akin octets others (m e).2 (m other).2 := hakin.outside (fun e => (m e).2)
    ⟨fun hidden e => congrArg (fun outcome => outcome.2) (hcommutes hidden e), hconfig⟩
  have hsame : (m e).1 = (m other).1 := hakin.seen_eq (fun e => (m e).1) fun hidden e =>
    congrArg (fun outcome => outcome.1) (hcommutes hidden e)
  generalize m e = outcome at hnext hsame ⊢
  generalize m other = outcomeOther at hnext hsame ⊢
  obtain ⟨result, next⟩ := outcome
  obtain ⟨resultOther, nextOther⟩ := outcomeOther
  obtain rfl : result = resultOther := hsame
  cases result with
  | error fault => exact .error fault hnext
  | ok => exact .ok rfl hnext

theorem agree_flush (hakin : Akin octets others e other) :
    Agree octets others Eq (flush e) (flush other) := by
  refine agree_outside hakin (fun hidden e => ?_) fun e => ?_
  · unfold flush
    dsimp only [withHidden]
    split <;> rfl
  · unfold flush
    split <;> rfl

theorem agree_completePacket (frameLength : Nat) (hakin : Akin octets others e other) :
    Agree octets others Eq (completePacket frameLength e) (completePacket frameLength other) :=
  .bind (agree_flush hakin) fun _ _ _ _ _ hnext => .ok rfl (hnext.accountSent frameLength)

theorem agree_sendBefore (attempt : Alarm) {rest restOther : Bytes}
    (hlength : rest.length = restOther.length) (hakin : Akin octets others e other) :
    Agree octets others Eq (sendBefore attempt rest e) (sendBefore attempt restOther other) := by
  rcases hother : proceed .idle restOther attempt other with ⟨progress, nextOther⟩
  fun_induction sendBefore attempt rest e generalizing restOther other progress nextOther with
  | case1 attempt rest e next houtcome =>
      have hproceeded := proceeded .idle hlength attempt hakin
      rw [houtcome, hother] at hproceeded
      cases hproceeded with
      | sent hnext =>
          rw [sendBefore, hother]
          exact .ok rfl hnext
  | case2 attempt rest e cause next houtcome =>
      have hproceeded := proceeded .idle hlength attempt hakin
      rw [houtcome, hother] at hproceeded
      cases hproceeded with
      | failed fault hnext =>
          rw [sendBefore, hother]
          exact .error _ hnext
  | case3 attempt rest e shipment next houtcome ih =>
      have hproceeded := proceeded .idle hlength attempt hakin
      rw [houtcome, hother] at hproceeded
      cases hproceeded with
      | @blocked _ shipmentOther _ _ hshipment hnext =>
          obtain ⟨hleft, hattempt, hwake⟩ := hshipment
          have hsends : sendBefore attempt restOther other = sendBefore shipmentOther.attempt
              shipmentOther.rest (nextOther.advanceTo shipmentOther.wake.time) := by
            rw [sendBefore, hother]
          rw [hsends, ← hattempt, ← hwake]
          exact ih hleft (hnext.advanceTo _) _ _ rfl

theorem agree_sendAll {rest restOther : Bytes} (hlength : rest.length = restOther.length)
    (hakin : Akin octets others e other) :
    Agree octets others Eq (sendAll rest e) (sendAll restOther other) := by
  rw [sendAll, sendAll, ← hakin.attempt_eq]
  exact agree_sendBefore _ hlength hakin

/-! ## Sealing -/

/-- Sealed packets of one length. -/
structure SealedPacket.Akin (packet other : SealedPacket) : Prop where
  length_eq : packet.bytes.length = other.bytes.length
  frameLength_eq : packet.frameLength = other.frameLength

omit [BlockCipher C] in
theorem frameOutbound_of_fits {payload : Bytes}
    (hfits : framedLength payload.length e.outbound.blockSize ≤ maxPacketLength) :
    ∃ packet, IsFrame payload e.outbound.blockSize packet ∧ frameOutbound payload e =
      (.ok packet, { e with padding :=
        (e.padding.take (paddingLength payload.length e.outbound.blockSize)).2 }) := by
  obtain ⟨packet, hframe, hframed⟩ := frame_of_fits hfits e.padding
  exact ⟨packet, hframe, by simp [frameOutbound, hframed]⟩

omit [BlockCipher C] in
theorem frameOutbound_of_long {payload : Bytes}
    (hlong : maxPacketLength < framedLength payload.length e.outbound.blockSize) :
    frameOutbound payload e = (.error (.messageTooLong
      (framedLength payload.length e.outbound.blockSize) maxPacketLength), e) := by
  simp [frameOutbound, frame, hlong]

/-- Lanes that are sound encipher packets of one length alike. -/
theorem agree_encipher {packet packetOther : Bytes} (hlength : packet.length = packetOther.length)
    (hwhole : e.outbound.blockSize ∣ packet.length) (hakin : Akin octets others e other) :
    Agree octets others (fun data dataOther => data.length = dataOther.length)
      (encipher packet e) (encipher packetOther other) := by
  obtain ⟨hidden, hsilent, hhidden⟩ := hakin
  have hwholeOther : hidden.outbound.blockSize ∣ packetOther.length := by
    rw [← hlength]
    exact (hhidden.outbound.blockSize_eq : e.outbound.blockSize = _) ▸ hwhole
  obtain ⟨data, next, happly, hnext⟩ := hhidden.sound.apply hwhole
  obtain ⟨dataOther, nextOther, happlyOther, hnextOther⟩ := hhidden.soundOther.apply hwholeOther
  have hlanes := hhidden.outbound.apply packet packetOther
  rw [happly, happlyOther] at hlanes
  have hencipher : encipher packet e = (.ok data, { e with outbound := next }) := by
    rw [encipher, show e.outbound.apply packet = _ from happly]
  have hencipherOther : encipher packetOther (e.withHidden hidden) =
      (.ok dataOther, { e.withHidden hidden with outbound := nextOther }) := by
    rw [encipher, show (e.withHidden hidden).outbound.apply packetOther = _ from happlyOther]
  rw [hencipher, hencipherOther]
  refine .ok ?_ (.intro { hidden with outbound := nextOther } hsilent
    { hhidden with outbound := hlanes, sound := hnext, soundOther := hnextOther })
  rw [(Lane.apply_eq happly).2.2.2.2 data rfl, (Lane.apply_eq happlyOther).2.2.2.2 dataOther rfl,
    hlength]

theorem Akin.advanceOutbound (hakin : Akin octets others e other) :
    Akin octets others e.advanceOutbound other.advanceOutbound := by
  obtain ⟨hidden, hsilent, hhidden⟩ := hakin
  exact .intro { hidden with outbound := hidden.outbound.advance } hsilent
    { hhidden with
      outbound := hhidden.outbound.advance
      sound := hhidden.sound.advance
      soundOther := hhidden.soundOther.advance }

/-- Messages that are akin are sealed alike, and noted under one label. -/
theorem agree_sealPacket {payload payloadOther : Bytes} (hpayload : payload.Akin payloadOther)
    (hakin : Akin octets others e other) :
    Agree octets others SealedPacket.Akin (sealPacket payload e)
      (sealPacket payloadOther other) := by
  have hblock : e.outbound.blockSize = other.outbound.blockSize :=
    hakin.hidden.outbound.blockSize_eq
  have hpadding : e.padding = other.padding := hakin.seen_eq padding fun _ _ => rfl
  by_cases hfits : framedLength payload.length e.outbound.blockSize ≤ maxPacketLength
  · have hfitsOther : framedLength payloadOther.length other.outbound.blockSize ≤
        maxPacketLength := by
      rwa [← hpayload.length_eq, ← hblock]
    obtain ⟨packet, hframe, hframed⟩ := frameOutbound_of_fits hfits
    obtain ⟨packetOther, hframeOther, hframedOther⟩ := frameOutbound_of_fits hfitsOther
    have hlength : packet.length = packetOther.length := by
      rw [hframe.length_eq, hframeOther.length_eq, hpayload.length_eq, hblock]
    have hwhole : e.outbound.blockSize ∣ packet.length :=
      hframe.dvd_length (Nat.lt_of_lt_of_le (by decide) e.outbound.plaintextBlockSize_le)
    have hnoted := ((hakin.repad
      (e.padding.take (paddingLength payload.length e.outbound.blockSize)).2).note
      (.packet .outbound (MessageType.describePayload payload) packet.length)).dump .outbound
      packet packetOther
    rw [sealPacket, sealPacket, Act.bind_of_ok hframed, Act.bind_of_ok hframedOther]
    simp only [Act.update_bind, Act.ask_bind, id]
    rw [← hpayload.describePayload_eq, ← hlength, ← hpayload.length_eq, ← hblock, ← hpadding]
    generalize hnext : dump .outbound packet _ = next at hnoted ⊢
    generalize dump .outbound packetOther _ = nextOther at hnoted ⊢
    have hsame : next.outbound = e.outbound := by
      rw [← hnext, outbound_dump]
      rfl
    obtain ⟨tag, hsign⟩ := hnoted.hidden.sound.sign packet
    obtain ⟨tagOther, hsignOther⟩ := hnoted.hidden.soundOther.sign packetOther
    rw [show next.outbound.sign packet = _ from hsign,
      show nextOther.outbound.sign packetOther = _ from hsignOther, Act.ofExcept_ok_bind,
      Act.ofExcept_ok_bind]
    refine .bind (agree_encipher hlength (hsame ▸ hwhole) hnoted) fun data dataOther _ _
      hdata hlast => .ok ⟨?_, rfl⟩ hlast.advanceOutbound
    rw [List.length_append, List.length_append, hdata, Lane.length_of_sign hsign,
      Lane.length_of_sign hsignOther, hnoted.hidden.outbound.tagSize_eq]
  · have hlong := Nat.not_le.mp hfits
    have hlongOther : maxPacketLength <
        framedLength payloadOther.length other.outbound.blockSize := by
      rwa [← hpayload.length_eq, ← hblock]
    rw [sealPacket, sealPacket, Act.bind_of_error (frameOutbound_of_long hlong),
      Act.bind_of_error (frameOutbound_of_long hlongOther), ← hpayload.length_eq, ← hblock]
    exact .error _ hakin

/-! ## Keep-alive messages -/

theorem Agree.report {outcome outcomeOther : Except Fault Unit × Endpoint C}
    (hagree : Agree octets others Eq outcome outcomeOther) :
    Akin octets others (reportKeepAlive outcome) (reportKeepAlive outcomeOther) := by
  cases hagree with
  | ok hrelated hakin => exact hakin
  | error fault hakin => exact (hakin.note _).note _

theorem Akin.hold (hakin : Akin octets others e other) {message messageOther : HeldMessage}
    (hmessage : message.Akin messageOther) :
    Akin octets others { e with held := some message }
      { other with held := some messageOther } := by
  obtain ⟨hidden, hsilent, hhidden⟩ := hakin
  exact .intro { hidden with held := some messageOther } hsilent
    { hhidden with held := .some hmessage }

theorem Proceeded.settle {outcome outcomeOther : Progress × Endpoint C}
    (hproceeded : Proceeded octets others outcome outcomeOther) (frameLength : Nat) :
    Akin octets others (settleKeepAlive frameLength outcome)
      (settleKeepAlive frameLength outcomeOther) := by
  cases hproceeded with
  | sent hakin => exact (agree_completePacket frameLength hakin).report
  | failed fault hakin => exact (Agree.error fault hakin).report
  | blocked hshipment hakin => exact hakin.hold ⟨hshipment, rfl⟩

/-- The outbound lane is free at both endpoints, or occupied at both by messages of one
length. -/
theorem Akin.held_cases (hakin : Akin octets others e other) :
    (e.held = none ∧ other.held = none) ∨ ∃ message messageOther,
      e.held = some message ∧ other.held = some messageOther ∧
        HeldMessage.Akin message messageOther := by
  have hheld : Option.Rel HeldMessage.Akin e.held other.held := hakin.hidden.held
  generalize e.held = held at hheld ⊢
  generalize other.held = heldOther at hheld ⊢
  cases hheld with
  | none => exact .inl ⟨rfl, rfl⟩
  | some hmessage => exact .inr ⟨_, _, rfl, rfl, hmessage⟩

theorem Akin.free (hakin : Akin octets others e other) (turn : Turn) :
    Akin octets others { e with held := none, turn } { other with held := none, turn } := by
  obtain ⟨hidden, hsilent, hhidden⟩ := hakin
  exact .intro { hidden with held := none } hsilent { hhidden with held := .none }

theorem akin_resumeKeepAlive (reader : ReaderState) (hakin : Akin octets others e other) :
    Akin octets others (e.resumeKeepAlive reader) (other.resumeKeepAlive reader) := by
  unfold resumeKeepAlive
  rcases hakin.held_cases with ⟨hfree, hfreeOther⟩ |
    ⟨message, messageOther, hheld, hheldOther, ⟨hlength, hattempt, hwake⟩, hframeLength⟩
  · rw [hfree, hfreeOther]
    exact hakin
  · rw [hheld, hheldOther]
    dsimp only
    rw [← hframeLength, ← hattempt, ← hwake]
    exact (proceeded reader hlength _ (hakin.free _)).settle _

theorem akin_repeat_note (event : Event) (count : Nat) (hakin : Akin octets others e other) :
    Akin octets others (Nat.repeat (note event) count e) (Nat.repeat (note event) count other) := by
  induction count with
  | zero => exact hakin
  | succ count ih => exact ih.note event

theorem akin_admitKeepAlives (hakin : Akin octets others e other) :
    Akin octets others e.admitKeepAlives other.admitKeepAlives := by
  rw [admitKeepAlives, admitKeepAlives, ← hakin.closed_eq]
  obtain ⟨hidden, hsilent, hhidden⟩ := hakin
  split
  · refine akin_repeat_note _ e.owed ?_
    exact .intro hidden hsilent hhidden
  · exact .intro hidden hsilent hhidden

theorem akin_beginKeepAlive (reader : ReaderState) (hakin : Akin octets others e other) :
    Akin octets others (e.beginKeepAlive reader) (other.beginKeepAlive reader) := by
  have hsealed := agree_sealPacket (.refl (keepAliveMessage keepAliveDataLength e.noise).1)
    (hakin.renoise (keepAliveMessage keepAliveDataLength e.noise).2)
  unfold beginKeepAlive
  rw [← hakin.noise_eq]
  dsimp only
  generalize sealPacket (keepAliveMessage keepAliveDataLength e.noise).1
    { e with noise := _ } = outcome at hsealed ⊢
  generalize sealPacket (keepAliveMessage keepAliveDataLength e.noise).1
    { other with noise := _ } = outcomeOther at hsealed ⊢
  cases hsealed with
  | ok hpacket hnext =>
      obtain ⟨hlength, hframeLength⟩ := hpacket
      dsimp only
      rw [← hframeLength, ← hnext.attempt_eq]
      exact (proceeded reader hlength _ hnext).settle _
  | error fault hnext => exact (Agree.error fault hnext).report

theorem akin_beginKeepAlives (reader : ReaderState) (turn : Nat → Turn) (count : Nat)
    (hakin : Akin octets others e other) :
    Akin octets others (e.beginKeepAlives reader turn count)
      (other.beginKeepAlives reader turn count) := by
  induction count generalizing e other with
  | zero => exact hakin
  | succ count ih =>
      have hturned := hakin.queue count (turn count)
      rw [beginKeepAlives, beginKeepAlives]
      rcases hakin.held_cases with
        ⟨hfree, hfreeOther⟩ | ⟨message, messageOther, hheld, hheldOther, -⟩
      · rw [if_neg (by simp [hfree]), if_neg (by simp [hfreeOther])]
        exact ih (akin_beginKeepAlive reader hturned)
      · rw [if_pos (by simp [hheld]), if_pos (by simp [hheldOther])]
        exact hakin

/-- The turns of messages that queue are the same. -/
theorem Akin.turnOfQueued_eq (hakin : Akin octets others e other) (count : Nat) :
    e.turnOfQueued count = other.turnOfQueued count := by
  funext left
  unfold turnOfQueued
  rw [hakin.queued_eq]
  rcases hakin.held_cases with
    ⟨hfree, hfreeOther⟩ | ⟨message, messageOther, hheld, hheldOther, hmessage⟩
  · rw [hfree, hfreeOther]
  · rw [hheld, hheldOther]
    cases other.queued with
    | zero => rfl
    | succ queued => simp only [hmessage.shipment.wake_eq]

theorem akin_upkeep (reader : ReaderState) (hakin : Akin octets others e other) :
    Akin octets others (e.upkeep reader) (other.upkeep reader) := by
  have hnext := akin_admitKeepAlives (akin_resumeKeepAlive reader hakin)
  unfold upkeep
  dsimp only
  rw [← hnext.queued_eq, ← hakin.turnOfQueued_eq]
  exact akin_beginKeepAlives reader _ _ hnext

theorem akin_waitUntil (reader : ReaderState) (time : Nat) (hakin : Akin octets others e other) :
    Akin octets others (e.waitUntil reader time) (other.waitUntil reader time) := by
  fun_induction waitUntil reader time e generalizing other with
  | case1 e hpassed =>
      rw [waitUntil, dif_pos (hakin.now_eq ▸ hpassed)]
      exact hakin
  | case2 e hearly ready =>
      rename_i hfree
      have hready := akin_upkeep reader hakin
      have hwaits := waitUntil_of_upkeep (hakin.now_eq ▸ hearly)
        (rfl : other.upkeep reader = _)
      rcases hready.held_cases with ⟨-, hfreeOther⟩ | ⟨message, messageOther, hheld, -⟩
      · rw [hwaits, hfreeOther]
        exact hready.advanceTo time
      · cases hfree.symm.trans hheld
  | case3 e hearly ready message hheld =>
      rename_i hwake ih
      have hready := akin_upkeep reader hakin
      have hwaits := waitUntil_of_upkeep (hakin.now_eq ▸ hearly)
        (rfl : other.upkeep reader = _)
      rcases hready.held_cases with ⟨hfree, -⟩ | ⟨_, messageOther, hsame, hheldOther, hmessage⟩
      · cases hfree.symm.trans hheld
      · obtain rfl := Option.some.inj (hsame.symm.trans hheld)
        rw [hwaits, hheldOther]
        dsimp only
        rw [← hmessage.shipment.wake_eq, if_pos hwake]
        exact ih (hready.advanceTo _)
  | case4 e hearly ready message hheld =>
      rename_i hwake
      have hready := akin_upkeep reader hakin
      have hwaits := waitUntil_of_upkeep (hakin.now_eq ▸ hearly)
        (rfl : other.upkeep reader = _)
      rcases hready.held_cases with ⟨hfree, -⟩ | ⟨_, messageOther, hsame, hheldOther, hmessage⟩
      · cases hfree.symm.trans hheld
      · obtain rfl := Option.some.inj (hsame.symm.trans hheld)
        rw [hwaits, hheldOther]
        dsimp only
        rw [← hmessage.shipment.wake_eq, if_neg hwake]
        exact hready.advanceTo time

theorem Akin.retime (hakin : Akin octets others e other) (turn : Turn) :
    Akin octets others { e with turn } { other with turn } :=
  hakin.outside (fun e => { e with turn }) ⟨fun _ _ => rfl, fun _ => rfl⟩

theorem awaitOutbound_of_free {ready : Endpoint C} (hready : e.upkeep .idle = ready)
    (hfree : ready.held = none) : e.awaitOutbound = { ready with turn := .admitted } := by
  rw [awaitOutbound_of_upkeep hready]
  split
  next => rfl
  next message hheld => cases hfree.symm.trans hheld

theorem awaitOutbound_of_held {ready : Endpoint C} (hready : e.upkeep .idle = ready)
    {message : HeldMessage} (hheld : ready.held = some message) :
    e.awaitOutbound = (ready.advanceTo message.shipment.wake.time).awaitOutbound := by
  rw [awaitOutbound_of_upkeep hready, hheld]

theorem akin_awaitOutbound (hakin : Akin octets others e other) :
    Akin octets others e.awaitOutbound other.awaitOutbound := by
  fun_induction awaitOutbound e generalizing other with
  | case1 e ready =>
      rename_i hfree
      have hready := akin_upkeep .idle hakin
      rcases hready.held_cases with ⟨-, hfreeOther⟩ | ⟨message, messageOther, hheld, -⟩
      · rw [awaitOutbound_of_free rfl hfreeOther]
        exact hready.retime .admitted
      · cases hfree.symm.trans hheld
  | case2 e ready message =>
      rename_i hheld ih
      have hready := akin_upkeep .idle hakin
      rcases hready.held_cases with ⟨hfree, -⟩ | ⟨_, messageOther, hsame, hheldOther, hmessage⟩
      · cases hfree.symm.trans hheld
      · obtain rfl := Option.some.inj (hsame.symm.trans hheld)
        rw [awaitOutbound_of_held rfl hheldOther, ← hmessage.shipment.wake_eq]
        exact ih (hready.advanceTo _)

/-! ## Writing -/

theorem agree_sendPacket {payload payloadOther : Bytes} (hpayload : payload.Akin payloadOther)
    (hakin : Akin octets others e other) :
    Agree octets others Eq (sendPacket payload e) (sendPacket payloadOther other) := by
  refine .bind (agree_sealPacket hpayload hakin) fun packet packetOther _ _ hpacket hnext => ?_
  refine .bind (agree_sendAll hpacket.length_eq hnext) fun _ _ _ _ _ hlast => ?_
  rw [← hpacket.frameLength_eq]
  exact agree_completePacket _ hlast

theorem agree_write {payload payloadOther : Bytes} (hpayload : payload.Akin payloadOther)
    (hakin : Akin octets others e other) :
    Agree octets others Eq (write payload e) (write payloadOther other) := by
  rw [write, write, ← hakin.closed_eq]
  split
  · exact .error _ hakin
  · exact (agree_sendPacket hpayload (akin_awaitOutbound hakin)).noting .outbound

theorem agree_writeBanner (line : String) (hakin : Akin octets others e other) :
    Agree octets others Eq (writeBanner line e) (writeBanner line other) := by
  rw [writeBanner, writeBanner, ← hakin.closed_eq]
  split
  · exact .error _ hakin
  · exact .bind (agree_sendAll rfl (akin_awaitOutbound hakin)) fun _ _ _ _ _ hnext =>
      agree_flush hnext

theorem akin_replaceOutbound {protection : Protection C} (hdependable : protection.Dependable)
    (hakin : Akin octets others e other) :
    Akin octets others (replaceOutbound protection e) (replaceOutbound protection other) :=
  (akin_awaitOutbound hakin).installOutbound hdependable

end PacketLayer.Endpoint
