import PacketLayer.Proofs.Discretion.Exchanges

/-! # Discretion

Unless packets are dumped, what the two ends of a direction note tells nothing of a message but
its label and its length. The sending end keeps its silence whatever its stream does. The
receiving end keeps it as long as it reads packets as they were sent: each from its beginning,
under the keys that belong to it, and nothing more after a packet that broke off.
-/

namespace PacketLayer.Endpoint

variable {C : Type} [BlockCipher C] {e : Endpoint C}

/-- A new endpoint is akin to itself. -/
theorem akin_make {config : Config} {padding noise : ByteSource}
    (hmake : make config padding noise = .ok e) (hsilent : config.dumpPackets = false) :
    Akin [] [] e e := by
  unfold make at hmake
  split at hmake
  · cases hmake
  · have hconfig : e.config.dumpPackets = false := Except.ok.inj hmake ▸ hsilent
    have hhidden : e.hidden = ⟨{}, {}, none, [], []⟩ := Except.ok.inj hmake ▸ rfl
    have hsound : Lane.Sound ({} : Lane C) := .of_under (.refl {}) nofun
    have hakin : e.hidden.Akin [] [] e.hidden := by
      rw [hhidden]
      exact ⟨.refl _, hsound, hsound, .refl _, .none, .nil, rfl, rfl⟩
    exact .intro e.hidden hconfig hakin

/-- Without dumps, what a writer notes depends on the lengths and the labels of its messages
only, whatever happens to its stream, and so does what a reader notes who takes up packets as
they were sent. -/
theorem run_discreet {config config' : Config} {padding noise padding' noise' : ByteSource}
    {sender receiver : Endpoint C} (hsender : make config padding noise = .ok sender)
    (hreceiver : make config' padding' noise' = .ok receiver)
    (hsilent : config.dumpPackets = false) (hsilent' : config'.dumpPackets = false)
    {writes writesOther reads readsOther : List (Operation (Protection C))}
    (hdeaf : ∀ operation ∈ writes, operation.Deaf false)
    (hwrites : List.Forall₂ Operation.Akin writes writesOther)
    (hreads : List.Forall₂ Operation.Akin reads readsOther) :
    (run writes sender).2.entries = (run writesOther sender).2.entries ∧
      (Session writes sender reads receiver → Session writesOther sender readsOther receiver →
        (run reads receiver).2.entries = (run readsOther receiver).2.entries) := by
  have hakin := akin_make hsender hsilent
  have hopen (operation : Operation (Protection C)) (hmem : operation ∈ writes) :
      operation.Deaf sender.closed :=
    (hdeaf operation hmem).of_closed nofun
  constructor
  · obtain ⟨left, leftOther, hsent⟩ := hakin.run hwrites hopen
    rw [entries, entries, hsent.journal_eq]
  · rintro ⟨hwhole, hunmodified, hlistens⟩ ⟨hwholeOther, hunmodifiedOther, hlistensOther⟩
    obtain ⟨-, houtbound, -⟩ := make_eq hsender
    obtain ⟨hinbound, -⟩ := make_eq hreceiver
    have hstep : sender.outbound.InStep receiver.inbound := by
      rw [houtbound, hinbound]
      exact .plain {}
    have habreast : Abreast [] [] (portions writes sender) (portions writesOther sender) reads
        readsOther receiver receiver :=
      ⟨akin_make hreceiver hsilent', akin_portions hakin hwrites hopen, hreads,
        hunmodified.trans hwhole, hunmodifiedOther.trans hwholeOther⟩
    obtain ⟨left, leftOther, hreceived⟩ := hlistens.akin_run hlistensOther hstep hstep habreast
    rw [entries, entries, hreceived.journal_eq]

theorem dependable_maskedProtection (surplus : Nat) : (maskedProtection surplus).Dependable where
  applies := by
    intro worn hused data _
    have hmask : worn.cipher = .mask 32 := by
      induction hused with
      | refl => rfl
      | step data _ ih => simp [Protection.apply, ih, BlockCipher.apply, Rehearsal.Cipher.apply]
    refine ⟨data.map (· ^^^ 32), ?_⟩
    simp [Protection.apply, hmask, BlockCipher.apply, Rehearsal.Cipher.apply]
  signs := fun _ _ => ⟨[7, 8], rfl⟩

/-- An exchange of two messages whose content is a filler, under new keys from the second on. -/
def fillerExchanges (filler : UInt8) : List (Exchange Rehearsal.Cipher) :=
  [.message [94, filler], .rekey (maskedProtection 0) (maskedProtection 0),
    .message [94, filler, filler]]

/-- What a writer puts on its stream. -/
def written (operations : List (Operation (Protection Rehearsal.Cipher))) : Bytes :=
  (run operations newEndpoint).2.acceptedBytes

/-- What the receiving end does, to which everything comes in one piece. -/
def fillerReads (filler : UInt8) : List (Operation (Protection Rehearsal.Cipher)) :=
  .feed [.data (written ((fillerExchanges filler).map Exchange.sending))] ::
    (fillerExchanges filler).map Exchange.receiving

theorem session_fillerExchanges (filler : UInt8) :
    Session ((fillerExchanges filler).map Exchange.sending) newEndpoint (fillerReads filler)
      newEndpoint := by
  have hready : newEndpoint.Ready :=
    ⟨rfl, rfl, rfl, rfl, by rintro _ ⟨⟩, by rintro _ ⟨⟩⟩
  have hexpects : newEndpoint.Expects {} := ⟨rfl, rfl, by rintro _ ⟨⟩⟩
  have hfits : framedLength 2 8 ≤ maxPacketLength ∧ framedLength 3 8 ≤ maxPacketLength := by decide
  have hadmissible : Exchange.Admissible newEndpoint.outbound.blockSize
      (fillerExchanges filler) :=
    ⟨hfits.1, matched_maskedProtection 0, hfits.2, trivial⟩
  have hoctets (wire : Bytes) :
      ReadScript.octets (P := Protection Rehearsal.Cipher) [.data wire] = wire :=
    List.append_nil wire
  exact session_of_exchanges hready rfl hexpects (.plain {}) hadmissible rfl
    (ReadScript.delivers_data (written ((fillerExchanges filler).map Exchange.sending)))
    (hoctets (written ((fillerExchanges filler).map Exchange.sending)))

theorem run_discreet_masked :
    make {} .zeros .zeros = .ok newEndpoint ∧
      written ((fillerExchanges 1).map Exchange.sending) ≠
        written ((fillerExchanges 2).map Exchange.sending) ∧
      (run ((fillerExchanges 1).map Exchange.sending) newEndpoint).2.entries =
        (run ((fillerExchanges 2).map Exchange.sending) newEndpoint).2.entries ∧
      (run (fillerReads 1) newEndpoint).2.entries =
        (run (fillerReads 2) newEndpoint).2.entries := by
  have hmade : make {} .zeros .zeros = .ok newEndpoint := rfl
  have hkeys := dependable_maskedProtection 0
  have hdiffers : written ((fillerExchanges 1).map Exchange.sending) ≠
      written ((fillerExchanges 2).map Exchange.sending) := by
    decide +kernel
  have hlength : (written ((fillerExchanges 1).map Exchange.sending)).length =
      (written ((fillerExchanges 2).map Exchange.sending)).length := by
    decide +kernel
  have hwrites : List.Forall₂ Operation.Akin ((fillerExchanges 1).map Exchange.sending)
      ((fillerExchanges 2).map Exchange.sending) :=
    .cons (.write ⟨rfl, rfl⟩) (.cons (.installOutbound hkeys) (.cons (.write ⟨rfl, rfl⟩) .nil))
  have hreads : List.Forall₂ Operation.Akin (fillerReads 1) (fillerReads 2) :=
    .cons (.feed (.cons (.data hlength) .nil))
      (.cons .read (.cons (.installInbound _) (.cons .read .nil)))
  have hdeaf : ∀ operation ∈ (fillerExchanges 1).map Exchange.sending, operation.Deaf false := by
    simp [fillerExchanges, Exchange.sending, Operation.Deaf]
  obtain ⟨hsent, hreceived⟩ := run_discreet hmade hmade rfl rfl hdeaf hwrites hreads
  exact ⟨hmade, hdiffers, hsent, hreceived (session_fillerExchanges 1) (session_fillerExchanges 2)⟩

/-- A message whose frame is four plaintext blocks. -/
def longMessage (filler : UInt8) : Bytes :=
  94 :: List.replicate 15 filler

/-- The stream of a reader fails behind the first block of a message, and goes on. -/
def cutReads (wire : Bytes) : List (Operation (Protection Rehearsal.Cipher)) :=
  [.feed [.data (wire.take 8), .fail ⟨.connectionReset, "reset by peer"⟩, .data (wire.drop 8)],
    .read, .read]

/-- The stream of a writer fails before the last block of a message, and goes on. -/
def cutWrites (filler : UInt8) : List (Operation (Protection Rehearsal.Cipher)) :=
  [.scriptWrites [.accept 24, .fail ⟨.brokenPipe, "gone"⟩], .write (longMessage filler),
    .write (longMessage filler)]

theorem akin_cutReads {wire other : Bytes} (hlength : wire.length = other.length) :
    List.Forall₂ Operation.Akin (cutReads wire) (cutReads other) := by
  have hitems : List.Forall₂ (ReadItem.Akin (C := Rehearsal.Cipher))
      [.data (wire.take 8), .fail ⟨.connectionReset, "reset by peer"⟩, .data (wire.drop 8)]
      [.data (other.take 8), .fail ⟨.connectionReset, "reset by peer"⟩, .data (other.drop 8)] :=
    .cons (.data (by rw [List.length_take, List.length_take, hlength]))
      (.cons (.fail _) (.cons (.data (by rw [List.length_drop, List.length_drop, hlength])) .nil))
  exact .cons (.feed hitems) (.cons .read (.cons .read .nil))

/-- Who reads on after a failure within a packet, be it on the one or on the other side, takes
content for a header, and the note on that header tells of the content. -/
theorem cut_packet_tells :
    make {} .zeros .zeros = .ok newEndpoint ∧ newEndpoint.config.dumpPackets = false ∧
      (longMessage 1).Akin (longMessage 2) ∧
    (∀ wire, fedOctets (cutReads wire) = wire) ∧
      List.Forall₂ Operation.Akin (cutReads (written [.write (longMessage 1)]))
        (cutReads (written [.write (longMessage 2)])) ∧
      (run (cutReads (written [.write (longMessage 1)])) newEndpoint).2.entries ≠
        (run (cutReads (written [.write (longMessage 2)])) newEndpoint).2.entries ∧
    List.Forall₂ Operation.Akin (cutWrites 1) (cutWrites 2) ∧
      (run [.feed [.data (written (cutWrites 1))], .read, .read] newEndpoint).2.entries ≠
        (run [.feed [.data (written (cutWrites 2))], .read, .read] newEndpoint).2.entries := by
  have hakin : (longMessage 1).Akin (longMessage 2) := ⟨rfl, rfl⟩
  refine ⟨rfl, rfl, hakin, fun wire => ?_, akin_cutReads (by decide +kernel), by decide +kernel,
    ?_, by decide +kernel⟩
  · simp [cutReads, fedOctets, Operation.fed, ReadScript.octets, ReadItem.octets]
  · exact .cons (.scriptWrites _) (.cons (.write hakin) (.cons (.write hakin) .nil))

end PacketLayer.Endpoint
