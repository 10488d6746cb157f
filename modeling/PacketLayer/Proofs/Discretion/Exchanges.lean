import PacketLayer.Proofs.Discretion.Listening
import PacketLayer.Proofs.Numbering

/-! # Exchanges are sessions

Where one end writes messages and changes keys on a healthy stream, and the other reads once
for every message and changes keys at the same packet borders, the reader listens.
-/

namespace PacketLayer

variable {C : Type} [BlockCipher C]

namespace Lane.Border

variable {outbound inbound next peer : Lane C}

/-- Only the last new keys between two packets count. -/
theorem install (hborder : Border outbound inbound next peer) {fresh partner : Protection C}
    (hmatched : fresh.Matched partner) :
    Border outbound inbound (next.install fresh) (peer.install partner) := by
  cases hborder with
  | kept => exact .renewed hmatched
  | renewed => exact .renewed hmatched

end Lane.Border

namespace Endpoint

open ReadScript

variable {e : Endpoint C}

/-- Portions carry the messages of an exchange that begins on a lane. -/
inductive Carries : Lane C → List (Exchange C) → List (Portion C) → Prop where
  | done (lane : Lane C) : Carries lane [] []
  | message {parcel : Parcel C} {exchanges : List (Exchange C)} {portions : List (Portion C)}
      (hrest : Carries parcel.next exchanges portions) :
      Carries parcel.lane (.message parcel.payload :: exchanges) (.packet parcel :: portions)
  | rekey {lane : Lane C} {outbound inbound : Protection C} {exchanges : List (Exchange C)}
      {portions : List (Portion C)} (hmatched : outbound.Matched inbound)
      (hrest : Carries (lane.install outbound) exchanges portions) :
      Carries lane (.rekey outbound inbound :: exchanges) portions

/-! ## The sending end -/

theorem upkeepPortions_of_ready (hready : e.Ready) (reader : ReaderState) :
    upkeepPortions reader e = [] := by
  obtain ⟨hopen, hheld, howed, hqueued, -, -⟩ := hready
  cases e
  subst hopen hheld howed hqueued
  rfl

theorem awaitPortions_of_ready (hready : e.Ready) : awaitPortions e = [] := by
  rw [awaitPortions_of_free, upkeepPortions_of_ready hready]
  rw [upkeep_of_ready hready]
  exact hready.held

theorem sealedPortions_of_ok {payload : Bytes} {packet : SealedPacket} {next : Endpoint C}
    (hsealed : sealPacket payload e = (.ok packet, next)) :
    sealedPortions payload e = [.packet
      ⟨payload, e.outbound, packet.bytes, next.outbound, seals_of_sealPacket hsealed⟩] := by
  unfold sealedPortions
  split
  next hsame =>
    cases hsealed.symm.trans hsame
    rfl
  next hsame => cases hsealed.symm.trans hsame

/-- What a message puts on a healthy stream. -/
theorem portions_write {sender : Endpoint C} (hready : sender.Ready) {lane : Lane C}
    (hstep : sender.outbound.InStep lane) {payload : Bytes}
    (hfits : framedLength payload.length sender.outbound.blockSize ≤ maxPacketLength) :
    ∃ (parcel : Parcel C) (sent : Endpoint C) (next : Lane C), parcel.payload = payload ∧
      parcel.lane = sender.outbound ∧ sent.outbound = parcel.next ∧
      sent.outbound.blockSize = sender.outbound.blockSize ∧ sent.outbound.InStep next ∧
      sent.Ready ∧ sent.acceptedBytes = sender.acceptedBytes ++ parcel.wire ∧
      (perform (.write payload) sender).2 = sent ∧
      ∀ operations, portions (.write payload :: operations) sender =
        .packet parcel :: portions operations sent := by
  obtain ⟨packet, hframe, hframed⟩ := frame_of_fits hfits sender.padding
  obtain ⟨header, wire, outbound, last, hseals, -, -, -, hafter⟩ := hstep.genuine_of_frame hframe
  have hcounted : sender.countOperation.Ready := hready.of_desk rfl
  have hadmitted : Ready { sender.countOperation with turn := .admitted } := hready.of_desk rfl
  obtain ⟨packed, hsealed, -, rfl, -⟩ := sealPacket_of_seals hadmitted hframed hseals
  obtain ⟨sent, hwritten, haccepted, hlane, hsent⟩ := write_of_seals hcounted hframed hseals
  have hstart : start (.write payload) sender.countOperation = (.ok .done, sent) := by
    rw [start, Act.bind_of_ok hwritten]
    rfl
  have hperform : (perform (.write payload) sender).2 = sent := by
    rw [perform, hstart]
    exact upkeep_of_ready hsent .idle
  refine ⟨⟨payload, sender.outbound, wire, packed.outbound, packet, hframe, hseals⟩, sent,
    last.advance, rfl, rfl, hlane, hlane ▸ hseals.blockSize_eq, hlane ▸ hafter, hsent, haccepted,
    hperform, fun operations => ?_⟩
  rw [portions, startPortions, if_neg (by simp [hcounted.opened]), awaitPortions_of_ready hcounted,
    awaitOutbound_of_ready hcounted, sealedPortions_of_ok hsealed, hstart,
    upkeepPortions_of_ready hsent, hperform]
  rfl

/-- New keys put nothing on a healthy stream. -/
theorem portions_installOutbound {sender : Endpoint C} (hready : sender.Ready)
    (protection : Protection C) :
    ∃ installed, (perform (.installOutbound protection) sender).2 = installed ∧
      installed.acceptedBytes = sender.acceptedBytes ∧
      installed.outbound = sender.outbound.install protection ∧ installed.Ready ∧
      ∀ operations, portions (.installOutbound protection :: operations) sender =
        portions operations installed := by
  have hcounted : sender.countOperation.Ready := hready.of_desk rfl
  obtain ⟨installed, hperform, haccepted, houtbound, hinstalled⟩ :=
    perform_installOutbound hready protection
  have hstarted : (start (.installOutbound protection) sender.countOperation).2.Ready := by
    change (replaceOutbound protection sender.countOperation).Ready
    unfold replaceOutbound
    rw [awaitOutbound_of_ready hcounted]
    exact (hready.relane (sender.outbound.install protection)).of_desk rfl
  refine ⟨installed, congrArg Prod.snd hperform, haccepted, houtbound, hinstalled,
    fun operations => ?_⟩
  rw [portions, startPortions, awaitPortions_of_ready hcounted, upkeepPortions_of_ready hstarted,
    hperform]
  rfl

/-- A healthy stream accepts what an exchange puts on it. -/
theorem carries_run {sender : Endpoint C} (hready : sender.Ready) {lane : Lane C}
    (hstep : sender.outbound.InStep lane) {exchanges : List (Exchange C)}
    (hadmissible : Exchange.Admissible sender.outbound.blockSize exchanges) :
    Carries sender.outbound exchanges (portions (exchanges.map Exchange.sending) sender) ∧
      (run (exchanges.map Exchange.sending) sender).2.acceptedBytes = sender.acceptedBytes ++
        Portion.allOctets (portions (exchanges.map Exchange.sending) sender) := by
  induction exchanges generalizing sender lane with
  | nil => exact ⟨.done _, (List.append_nil _).symm⟩
  | cons exchange exchanges ih =>
      rw [List.map_cons, run_cons]
      cases exchange with
      | message payload =>
          obtain ⟨hfits, hrest⟩ := hadmissible
          obtain ⟨parcel, sent, next, rfl, hlane, houtbound, hblock, hnext, hsent, haccepted,
            hperform, hportions⟩ := portions_write hready hstep hfits
          obtain ⟨hcarries, hrun⟩ := ih hsent hnext (hblock ▸ hrest)
          rw [Exchange.sending, hportions, hperform, ← hlane]
          refine ⟨.message (houtbound ▸ hcarries), ?_⟩
          rw [hrun, haccepted, List.append_assoc]
          rfl
      | rekey outbound inbound =>
          obtain ⟨hmatched, hrest⟩ := hadmissible
          obtain ⟨installed, hperform, haccepted, houtbound, hinstalled, hportions⟩ :=
            portions_installOutbound hready outbound
          have hnext : installed.outbound.InStep (lane.install inbound) :=
            houtbound ▸ .of_install hmatched hstep.sequence_eq
          obtain ⟨hcarries, hrun⟩ := ih hinstalled hnext (houtbound ▸ hrest)
          rw [Exchange.sending, hportions, hperform]
          exact ⟨.rekey hmatched (houtbound ▸ hcarries), haccepted ▸ hrun⟩

/-! ## The receiving end -/

/-- A read that moves on to the next number has verified a packet. -/
theorem verified_of_next (hnext : (read e).2.inbound.sequence = e.inbound.sequence.next) :
    verification e ≠ none := by
  intro hnone
  obtain ⟨deeds, hcourse, htidings, -⟩ := leads_read e
  have hcounts := hcourse.counts
  have hverified : deeds.filterMap Deed.verified? = [] := by
    change deeds.filterMap (fun deed => deed.tiding.bind Tiding.verified?) = []
    rw [← List.filterMap_filterMap, htidings, verified_tidingsOfRead, hnone]
    rfl
  rw [hverified] at hcounts
  have hvalue : (read e).2.inbound.sequence.value = e.inbound.sequence.value + 0 := hcounts
  rw [hnext, SequenceNumber.value_next] at hvalue
  exact absurd (UInt32.add_right_inj _ |>.mp hvalue) (by decide)

theorem opened_of_verified (hverified : verification e ≠ none) : opened? e ≠ none := by
  unfold verification at hverified
  unfold opened?
  split
  next hclosed => exact absurd (if_pos hclosed) hverified
  next hopen =>
    rw [if_neg hopen, takeFrame] at hverified
    rcases hawaited : awaitFirstBlock [] e with ⟨fault | (_ | raw), next⟩
    · rw [Act.bind_of_error hawaited] at hverified
      exact absurd rfl hverified
    · rw [Act.bind_of_ok hawaited] at hverified
      exact absurd rfl hverified
    · exact nofun

/-- A reader to which octets flow opens packets on the lane that it has. -/
theorem lane_of_opened (hparked : e.parked = none) (hquiet : WriteScript.Quiet e.writes)
    {octets : Bytes} (hdelivers : Delivers e.reads octets) {lane : Lane C}
    (hopened : opened? e = some lane) : lane = e.inbound := by
  obtain ⟨tail, hflow, hend⟩ := hdelivers
  have hinbound : (awaitFirstBlock [] e).2.inbound = e.inbound := by
    rw [awaitFirstBlock_eq_fill hparked hquiet hflow (.inr hend)]
    exact inbound_fill _ _ e
  unfold opened? at hopened
  split at hopened
  · cases hopened
  · rcases hawaited : awaitFirstBlock [] e with ⟨fault | (_ | raw), ready⟩
    · rw [hawaited] at hopened
      cases hopened
    · rw [hawaited] at hopened
      cases hopened
    · rw [hawaited] at hopened hinbound
      rw [← Option.some.inj hopened]
      exact hinbound

omit [BlockCipher C] in
theorem deaf_receiving {closed : Bool} (hclosed : closed = true) (exchanges : List (Exchange C)) :
    ∀ operation ∈ exchanges.map Exchange.receiving, operation.Deaf closed := by
  intro operation hmem
  obtain ⟨exchange, -, rfl⟩ := List.mem_map.mp hmem
  cases exchange with
  | message => exact hclosed
  | rekey => trivial

/-- A read that takes what was sent leaves the reader at the next border. -/
theorem expects_of_takes {wire more frame : Bytes} {header : Header} {lane : Lane C}
    (htakes : Takes e.countOperation (wire ++ more) header frame lane (read e.countOperation))
    (hparked : e.parked = none) (hlength : wire.length = header.frameLength + e.inbound.tagSize) :
    (perform .read e).2.Expects lane.advance ∧ Delivers (perform .read e).2.reads more := by
  have hbeside := beside_upkeep htakes.quiet .idle
  have hconsumed : Delivers (read e.countOperation).2.reads ((wire ++ more).drop wire.length) :=
    hlength ▸ htakes.consumed
  rw [List.drop_left] at hconsumed
  rw [perform_read_eq]
  exact ⟨⟨hbeside.inbound.trans htakes.inbound, hbeside.parked.trans (htakes.parked.trans hparked),
    hbeside.quiet⟩, hbeside.reads ▸ hconsumed⟩

/-- A reader at a border listens to the next packet. -/
theorem listens_message {parcel : Parcel C} {portions : List (Portion C)}
    {operations : List (Operation (Protection C))} {outbound inbound : Lane C}
    (hstep : outbound.InStep inbound) (hborder : Lane.Border outbound inbound parcel.lane e.inbound)
    (hexpects : e.Expects e.inbound)
    (hdelivers : Delivers e.reads (parcel.wire ++ Portion.allOctets portions))
    (hclosing : (perform .read e).2.closed = true →
      ∀ operation ∈ operations, operation.Deaf (perform .read e).2.closed)
    (hrest : ∀ {next}, parcel.next.InStep next → (perform .read e).2.Expects next →
      Delivers (perform .read e).2.reads (Portion.allOctets portions) →
      Listens parcel.next next portions operations (perform .read e).2) :
    Listens outbound inbound (.packet parcel :: portions) (.read :: operations) e := by
  obtain ⟨frame, last, hgenuine, hlength, -, hnext⟩ := parcel.genuine (hstep.border hborder)
  obtain ⟨-, hparked, hquiet⟩ := hexpects
  have hidle : e.countOperation.activateParked = e.countOperation :=
    activateParked_of_none hparked
  have hopening {lane : Lane C} (hopened : opened? e.countOperation = some lane) :
      Lane.Border outbound inbound parcel.lane lane := by
    rwa [lane_of_opened (e := e.countOperation) hparked hquiet hdelivers hopened]
  have hoctets : e.countOperation.inbound.Genuine (parcel.wire ++ Portion.allOctets portions)
      parcel.header frame last := hgenuine _
  rcases read_outcome (e := e.countOperation) hquiet hdelivers with
    ⟨hclosed, hstill⟩ | ⟨header, frame', last', hgenuine', htakes⟩ | ⟨hrefuses, -⟩
  · have hdeaf := hclosing (by
      rw [perform_read_eq]
      exact (beside_upkeep hstill .idle).closed hclosed)
    rcases hlane : opened? e.countOperation with _ | lane
    · exact .nothing hlane (fun _ => .deaf hdeaf) fun _ => hdeaf
    · exact .packet hlane (hopening hlane) (fun _ => .deaf hdeaf) fun _ => hdeaf
  · rw [hidle] at hgenuine' htakes
    obtain ⟨rfl, rfl, rfl⟩ := hoctets.unfolds.unique hgenuine'.unfolds
    have hverified := verified_of_next (htakes.accepts hoctets).1
    obtain ⟨lane, hlane⟩ := Option.ne_none_iff_exists'.mp (opened_of_verified hverified)
    refine .packet hlane (hopening hlane) (fun _ => ?_) fun hnone => absurd hnone hverified
    rw [htakes.inbound]
    have htag : last.tagSize = e.inbound.tagSize := hoctets.unfolds.lane_eq.2.1
    obtain ⟨hexpects, hleft⟩ := expects_of_takes htakes hparked (htag ▸ hlength)
    exact hrest hnext hexpects hleft
  · rw [hidle] at hrefuses
    exact absurd hrefuses hoctets.not_refuses

omit [BlockCipher C] in
theorem fedOctets_receiving (exchanges : List (Exchange C)) :
    fedOctets (exchanges.map Exchange.receiving) = [] :=
  List.flatMap_eq_nil_iff.mpr fun operation hmem => by
    obtain ⟨exchange, -, rfl⟩ := List.mem_map.mp hmem
    cases exchange <;> rfl

/-- Who reads what an exchange has put on the stream listens. -/
theorem listens_run {lane : Lane C} {exchanges : List (Exchange C)} {portions : List (Portion C)}
    (hcarries : Carries lane exchanges portions) {outbound inbound peer : Lane C}
    (hstep : outbound.InStep inbound) (hborder : Lane.Border outbound inbound lane peer)
    (hexpects : e.Expects peer) (hdelivers : Delivers e.reads (Portion.allOctets portions)) :
    Listens outbound inbound portions (exchanges.map Exchange.receiving) e := by
  induction hcarries generalizing e outbound inbound peer with
  | done lane => exact .deaf nofun
  | @rekey lane fresh partner exchanges portions hmatched _ ih =>
      obtain ⟨installed, hperform, hinstalled, hreads, -⟩ := perform_installInbound hexpects partner
      have hnext : (perform (.installInbound partner) e).2 = installed := congrArg Prod.snd hperform
      exact .aside trivial (ih hstep (hborder.install hmatched) (hnext ▸ hinstalled)
        (hnext ▸ hreads ▸ hdelivers))
  | @message parcel exchanges portions _ ih =>
      obtain ⟨rfl, -⟩ := id hexpects
      exact listens_message hstep hborder hexpects hdelivers
        (fun hclosed => deaf_receiving hclosed exchanges) fun hnext => ih hnext .kept

/-- What two ends do in an exchange on a healthy stream is a session. -/
theorem session_of_exchanges {sender receiver : Endpoint C} (hready : sender.Ready)
    (hnothing : sender.acceptedBytes = []) {lane : Lane C} (hexpects : receiver.Expects lane)
    (hstep : sender.outbound.InStep lane) {exchanges : List (Exchange C)}
    (hadmissible : Exchange.Admissible sender.outbound.blockSize exchanges)
    {items : ReadScript (Protection C)} (hreads : receiver.reads = [])
    (hdelivers : Delivers items (run (exchanges.map Exchange.sending) sender).2.acceptedBytes)
    (hoctets : items.octets = (run (exchanges.map Exchange.sending) sender).2.acceptedBytes) :
    Session (exchanges.map Exchange.sending) sender
      (.feed items :: exchanges.map Exchange.receiving) receiver := by
  obtain ⟨hcarries, haccepted⟩ := carries_run hready hstep hadmissible
  rw [hnothing, List.nil_append] at haccepted
  refine ⟨haccepted ▸ List.prefix_rfl, ?_, .aside trivial ?_⟩
  · rw [← hoctets, fedOctets, List.flatMap_cons]
    change items.octets ++ fedOctets (exchanges.map Exchange.receiving) <+: items.octets
    rw [fedOctets_receiving, List.append_nil]
  · obtain ⟨rfl, hparked, hquiet⟩ := hexpects
    let fed : Endpoint C := { receiver.countOperation with reads := receiver.reads ++ items }
    have hbeside : Beside fed (fed.upkeep .idle) := beside_upkeep (e := fed) hquiet .idle
    have hfed : fed.reads = items := congrArg (· ++ items) hreads
    rw [haccepted, ← hfed, ← hbeside.reads] at hdelivers
    exact listens_run hcarries hstep .kept ⟨hbeside.inbound, hbeside.parked.trans hparked,
      hbeside.quiet⟩ hdelivers

end Endpoint

end PacketLayer
