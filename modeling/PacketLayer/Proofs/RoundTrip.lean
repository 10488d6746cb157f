import PacketLayer.Endpoint.Operation
import PacketLayer.Proofs.Acceptance
import PacketLayer.Proofs.Sending
import PacketLayer.Proofs.Verification

/-! # Whole exchanges

One end writes messages and changes keys; the other reads once for every message and
changes keys at the same packet borders. Both stay in step all the way, so that the
messages arrive complete, in order and with consecutive numbers.
-/

namespace PacketLayer.Endpoint

open ReadScript

variable {C : Type}

/-- A step of an exchange: a message, or new keys for both ends. -/
inductive Exchange (C : Type) where
  | message (payload : Bytes)
  | rekey (outbound inbound : Protection C)

namespace Exchange

/-- What the sending end does. -/
def sending : Exchange C → Operation (Protection C)
  | message payload => .write payload
  | rekey outbound _ => .installOutbound outbound

/-- What the receiving end does. -/
def receiving : Exchange C → Operation (Protection C)
  | message _ => .read
  | rekey _ inbound => .installInbound inbound

/-- What the receiving end obtains after so many messages. -/
def replies : Nat → List (Exchange C) → List (Except Fault Reply)
  | _, [] => []
  | count, message payload :: rest =>
      .ok (.packet (some ⟨payload, UInt32.ofNat count⟩)) :: replies (count + 1) rest
  | count, rekey _ _ :: rest => .ok .done :: replies count rest

/-- Messages fit the packet limit for the block size in use, and new protections match. -/
def Admissible [BlockCipher C] : Nat → List (Exchange C) → Prop
  | _, [] => True
  | blockSize, message payload :: rest =>
      framedLength payload.length blockSize ≤ maxPacketLength ∧ Admissible blockSize rest
  | _, rekey outbound inbound :: rest =>
      outbound.Matched inbound ∧ Admissible outbound.blockSize rest

end Exchange

variable [BlockCipher C]

/-- A receiving end at a packet border. -/
structure Expects (e : Endpoint C) (lane : Lane C) : Prop where
  inbound : e.inbound = lane
  parked : e.parked = none
  quiet : WriteScript.Quiet e.writes

theorem perform_write {e : Endpoint C} (hready : e.Ready) {payload packet wire : Bytes}
    {padding : ByteSource} {lane : Lane C}
    (hframe : frame payload e.outbound.blockSize e.padding = (.ok packet, padding))
    (hseals : e.outbound.Seals packet wire lane) :
    ∃ next, perform (.write payload) e = (.ok .done, next) ∧
      next.acceptedBytes = e.acceptedBytes ++ wire ∧ next.outbound = lane ∧ next.Ready := by
  have hcounted : e.countOperation.Ready := hready.of_desk rfl
  obtain ⟨next, hwrite, haccepted, hlane, hnext⟩ := write_of_seals hcounted hframe hseals
  refine ⟨next, ?_, haccepted, hlane, hnext⟩
  have hstart : start (.write payload) e.countOperation = (.ok .done, next) := by
    rw [start, Act.bind_of_ok hwrite]
    rfl
  rw [perform, hstart]
  dsimp only
  rw [upkeep_of_ready hnext]

theorem perform_installOutbound {e : Endpoint C} (hready : e.Ready) (protection : Protection C) :
    ∃ next, perform (.installOutbound protection) e = (.ok .done, next) ∧
      next.acceptedBytes = e.acceptedBytes ∧
      next.outbound = e.outbound.install protection ∧ next.Ready := by
  have hcounted : e.countOperation.Ready := hready.of_desk rfl
  have hreplaced : (replaceOutbound protection e.countOperation).Ready := by
    unfold replaceOutbound
    rw [awaitOutbound_of_ready hcounted]
    exact (hready.relane (e.outbound.install protection)).of_desk rfl
  refine ⟨replaceOutbound protection e.countOperation, ?_, ?_, ?_, hreplaced⟩
  · have hstart : start (.installOutbound protection) e.countOperation =
        (.ok .done, replaceOutbound protection e.countOperation) := rfl
    rw [perform, hstart]
    dsimp only
    rw [upkeep_of_ready hreplaced]
  · rw [replaceOutbound, awaitOutbound_of_ready hcounted]
    rfl
  · rw [replaceOutbound, awaitOutbound_of_ready hcounted]
    rfl

theorem perform_installInbound {e : Endpoint C} {lane : Lane C} (hexpects : e.Expects lane)
    (protection : Protection C) :
    ∃ next, perform (.installInbound protection) e = (.ok .done, next) ∧
      next.Expects (lane.install protection) ∧ next.reads = e.reads ∧
      (e.closed = true → next.closed = true) := by
  let installed := installInbound .idle protection e.countOperation
  have hbeside : Beside installed (installed.upkeep .idle) :=
    beside_upkeep (e := installed) hexpects.quiet .idle
  refine ⟨installed.upkeep .idle, rfl, ⟨?_, hbeside.parked, hbeside.quiet⟩, hbeside.reads,
    hbeside.closed⟩
  rw [hbeside.inbound, ← hexpects.inbound]
  rfl

theorem perform_read_eq (e : Endpoint C) : perform .read e =
    ((read e.countOperation).1.map .packet, (read e.countOperation).2.upkeep .idle) := by
  have hstart : start .read e.countOperation = _ := Act.bind_pure_eq read Reply.packet _
  rw [perform, hstart]

theorem perform_readBanner (milliseconds : Nat) (e : Endpoint C) :
    perform (.readBanner milliseconds) e =
      ((readBanner milliseconds e.countOperation).1.map .line,
        (readBanner milliseconds e.countOperation).2.upkeep .idle) := by
  have hstart : start (.readBanner milliseconds) e.countOperation = _ :=
    Act.bind_pure_eq (readBanner milliseconds) Reply.line _
  rw [perform, hstart]

/-- A read that is performed ends as the read does, apart from what goes on beside it. -/
theorem perform_read {e : Endpoint C}
    (hquiet : WriteScript.Quiet (read e.countOperation).2.writes) :
    ∃ next, perform .read e = ((read e.countOperation).1.map .packet, next) ∧
      Beside (read e.countOperation).2 next :=
  ⟨_, perform_read_eq e, beside_upkeep hquiet .idle⟩

/-- A read that takes a packet leaves the stream and the lane ready for the next one. -/
theorem perform_read_of_takes {receiver ready : Endpoint C} {wire more frame : Bytes}
    {header : Header} {lane : Lane C}
    (htakes : Takes ready (wire ++ more) header frame lane (read receiver.countOperation))
    (hparked : ready.parked = none)
    (hlength : wire.length = header.frameLength + ready.inbound.tagSize) :
    ∃ result received, perform .read receiver = (result, received) ∧
      WriteScript.Quiet received.writes ∧
      ((∃ count, result = .error (.rekeyIgnored count)) ∨
        result = .ok (.packet (some (ready.message header frame))) ∧
          Delivers received.reads more ∧ received.Expects lane.advance) := by
  obtain ⟨received, hread, hbeside⟩ := perform_read htakes.quiet
  refine ⟨_, received, hread, hbeside.quiet, ?_⟩
  rcases htakes.result with hresult | ⟨count, hresult⟩
  · have hconsumed : Delivers received.reads ((wire ++ more).drop wire.length) := by
      rw [hbeside.reads, hlength]
      exact htakes.consumed
    rw [List.drop_left] at hconsumed
    refine .inr ⟨?_, hconsumed, hbeside.inbound.trans htakes.inbound,
      hbeside.parked.trans (htakes.parked.trans hparked), hbeside.quiet⟩
    rw [hresult]
    rfl
  · exact .inl ⟨count, by rw [hresult]; rfl⟩

/-- One message passes from end to end, unless the receiving end is closed or gives up on
the rekeying of its peer. -/
theorem message_passes {sender : Endpoint C} {lane : Lane C} (hready : sender.Ready)
    (hstep : sender.outbound.InStep lane) {payload : Bytes}
    (hfits : framedLength payload.length sender.outbound.blockSize ≤ maxPacketLength) :
    ∃ wire sent next, perform (.write payload) sender = (.ok .done, sent) ∧
      sent.acceptedBytes = sender.acceptedBytes ++ wire ∧ sent.Ready ∧
      sent.outbound.blockSize = sender.outbound.blockSize ∧ sent.outbound.InStep next ∧
      next.sequence = lane.sequence.next ∧
      ∀ {receiver : Endpoint C} {more : Bytes}, receiver.Expects lane →
        Delivers receiver.reads (wire ++ more) →
        ∃ result received, perform .read receiver = (result, received) ∧
          WriteScript.Quiet received.writes ∧
          (received.closed = true ∨ (∃ count, result = .error (.rekeyIgnored count)) ∨
            result = .ok (.packet (some ⟨payload, lane.sequence.value⟩)) ∧
              Delivers received.reads more ∧ received.Expects next) := by
  obtain ⟨packet, hframe, hframed⟩ := frame_of_fits hfits sender.padding
  obtain ⟨header, wire, outbound, last, hseals, hgenuine, hlength, hpayload, hafter⟩ :=
    hstep.genuine_of_frame hframe
  obtain ⟨sent, hwrite, haccepted, rfl, hsent⟩ := perform_write hready hframed hseals
  have hnumber : last.advance.sequence = lane.sequence.next :=
    congrArg SequenceNumber.next (hgenuine []).unfolds.lane_eq.2.2.1
  refine ⟨wire, sent, last.advance, hwrite, haccepted, hsent, hseals.blockSize_eq, hafter,
    hnumber, ?_⟩
  rintro receiver more ⟨rfl, hparked, hquiet⟩ hdelivers
  have hidle : receiver.countOperation.activateParked = receiver.countOperation :=
    activateParked_of_none hparked
  rcases read_outcome (e := receiver.countOperation) hquiet hdelivers with
    ⟨hclosed, hstill⟩ | ⟨header', frame', last', hgenuine', htakes⟩ | ⟨hrefuses, -⟩
  · obtain ⟨received, hread, hbeside⟩ := perform_read hstill
    exact ⟨_, received, hread, hbeside.quiet, .inl (hbeside.closed hclosed)⟩
  · rw [hidle] at hgenuine' htakes
    obtain ⟨rfl, rfl, rfl⟩ := (hgenuine more).unfolds.unique hgenuine'.unfolds
    obtain ⟨result, received, hread, hstill, houtcome⟩ :=
      perform_read_of_takes htakes hparked hlength
    have hmessage : receiver.countOperation.message header packet =
        ⟨payload, receiver.inbound.sequence.value⟩ := by
      rw [← hpayload]
      rfl
    rw [hmessage] at houtcome
    exact ⟨result, received, hread, hstill, .inr houtcome⟩
  · rw [hidle] at hrefuses
    exact absurd hrefuses (hgenuine more).not_refuses

/-- An endpoint once closed stays closed. -/
theorem closed_run {e : Endpoint C} (hquiet : WriteScript.Quiet e.writes)
    (hclosed : e.closed = true) (exchanges : List (Exchange C)) :
    (run (exchanges.map Exchange.receiving) e).2.closed = true := by
  induction exchanges generalizing e with
  | nil => exact hclosed
  | cons exchange exchanges ih =>
      cases exchange with
      | message payload =>
          have hread : read e.countOperation = (.ok none, e.countOperation) := if_pos hclosed
          obtain ⟨next, hperform, hbeside⟩ := perform_read (e := e) (hread ▸ hquiet)
          rw [hread] at hbeside
          have hstep := ih hbeside.quiet (hbeside.closed hclosed)
          simpa only [List.map_cons, Exchange.receiving, run, hperform] using hstep
      | rekey outbound inbound =>
          have hbeside := beside_upkeep (e := installInbound .idle inbound e.countOperation)
            hquiet .idle
          exact ih hbeside.quiet (hbeside.closed hclosed)

/-- Ends that are in step stay in step through a whole exchange. -/
theorem run_in_step {sender : Endpoint C} {lane : Lane C} (hready : sender.Ready)
    (hstep : sender.outbound.InStep lane) {count : Nat}
    (hcount : lane.sequence.value = UInt32.ofNat count) {exchanges : List (Exchange C)}
    (hadmissible : Exchange.Admissible sender.outbound.blockSize exchanges) :
    ∃ wire sent, run (exchanges.map Exchange.sending) sender =
        (exchanges.map fun _ => .ok .done, sent) ∧
      sent.acceptedBytes = sender.acceptedBytes ++ wire ∧
      ∀ {receiver received : Endpoint C} {results : List (Except Fault Reply)},
        receiver.Expects lane → Delivers receiver.reads wire →
        run (exchanges.map Exchange.receiving) receiver = (results, received) →
        received.closed = false → (∀ ignored, .error (.rekeyIgnored ignored) ∉ results) →
        results = Exchange.replies count exchanges := by
  induction exchanges generalizing sender lane count with
  | nil =>
      refine ⟨[], sender, rfl, (List.append_nil _).symm, ?_⟩
      rintro receiver received results - - ⟨⟩ - -
      rfl
  | cons exchange exchanges ih =>
      cases exchange with
      | message payload =>
          obtain ⟨hfits, hrest⟩ := hadmissible
          obtain ⟨first, between, next, hwrite, haccepted, hbetween, hblocks, hnext, hnumber,
            hreceive⟩ := message_passes hready hstep hfits
          have hnext_count : next.sequence.value = UInt32.ofNat (count + 1) := by
            rw [hnumber, SequenceNumber.value_next, hcount, UInt32.ofNat_add]
            rfl
          obtain ⟨second, sent, hrun, hmore, hreplies⟩ :=
            ih hbetween hnext hnext_count (hblocks ▸ hrest)
          refine ⟨first ++ second, sent, ?_, ?_, ?_⟩
          · simp only [List.map_cons, Exchange.sending, run, hwrite, hrun]
          · rw [hmore, haccepted, List.append_assoc]
          · intro receiver received results hexpects hdelivers hreceived hopen hgrace
            obtain ⟨result, middle, hread, hquiet, houtcome⟩ := hreceive hexpects hdelivers
            cases hremaining : run (exchanges.map Exchange.receiving) middle with
            | mk others last =>
                simp only [List.map_cons, Exchange.receiving, run, hread, hremaining] at hreceived
                obtain ⟨rfl, rfl⟩ := Prod.mk.inj hreceived
                -- a receiver that closes here, or gives up, does so in the whole run
                rcases houtcome with hclosed | ⟨ignored, rfl⟩ | ⟨rfl, hleft, hmiddle⟩
                · have hstopped := closed_run hquiet hclosed exchanges
                  rw [hremaining, hopen] at hstopped
                  cases hstopped
                · exact absurd List.mem_cons_self (hgrace ignored)
                · have htail := hreplies hmiddle hleft hremaining hopen
                    fun ignored hmem => hgrace ignored (List.mem_cons_of_mem _ hmem)
                  rw [htail, hcount]
                  rfl
      | rekey outbound inbound =>
          obtain ⟨hmatched, hrest⟩ := hadmissible
          obtain ⟨between, hinstall, haccepted, houtbound, hbetween⟩ :=
            perform_installOutbound hready outbound
          have hnext : between.outbound.InStep (lane.install inbound) :=
            houtbound ▸ .of_install hmatched hstep.sequence_eq
          obtain ⟨wire, sent, hrun, hmore, hreplies⟩ :=
            ih hbetween hnext hcount (houtbound ▸ hrest)
          refine ⟨wire, sent, ?_, ?_, ?_⟩
          · simp only [List.map_cons, Exchange.sending, run, hinstall, hrun]
          · rw [hmore, haccepted]
          · intro receiver received results hexpects hdelivers hreceived hopen hgrace
            obtain ⟨middle, hperform, hmiddle, hreads, -⟩ :=
              perform_installInbound hexpects inbound
            cases hremaining : run (exchanges.map Exchange.receiving) middle with
            | mk others last =>
                simp only [List.map_cons, Exchange.receiving, run, hperform, hremaining]
                  at hreceived
                obtain ⟨rfl, rfl⟩ := Prod.mk.inj hreceived
                have htail := hreplies hmiddle (hreads ▸ hdelivers) hremaining hopen
                  fun ignored hmem => hgrace ignored (List.mem_cons_of_mem _ hmem)
                rw [htail]
                rfl

omit [BlockCipher C] in
/-- A new endpoint has plain lanes and has not begun anything. -/
theorem make_eq {config : Config} {padding noise : ByteSource} {e : Endpoint C}
    (hmake : make config padding noise = .ok e) :
    e.inbound = {} ∧ e.outbound = {} ∧ e.parked = none ∧ e.closed = false ∧ e.held = none ∧
      e.owed = 0 ∧ e.queued = 0 ∧ e.accepted = [] := by
  unfold make at hmake
  split at hmake
  · cases hmake
  · obtain rfl := Except.ok.inj hmake
    exact ⟨rfl, rfl, rfl, rfl, rfl, rfl, rfl, rfl⟩

/-- Whatever two new endpoints exchange arrives as it was written: every message, in order,
and each under the number of messages before it. -/
theorem exchanges_arrive {config config' : Config} {padding noise padding' noise' : ByteSource}
    {sender receiver : Endpoint C} (hsender : make config padding noise = .ok sender)
    (hreceiver : make config' padding' noise' = .ok receiver)
    {writes writes' : WriteScript (Protection C)}
    {flushes flushes' : List (FlushItem (Protection C))}
    (hwrites : WriteScript.Healthy writes) (hflushes : ∀ failure, FlushItem.fail failure ∉ flushes)
    (hquiet : WriteScript.Quiet writes') {exchanges : List (Exchange C)}
    (hadmissible : Exchange.Admissible plaintextBlockSize exchanges)
    {answers results : List (Except Fault Reply)} {sent received : Endpoint C}
    (hsent : run (exchanges.map Exchange.sending) { sender with writes, flushes } =
      (answers, sent))
    {reads : ReadScript (Protection C)} (hdelivers : Delivers reads sent.acceptedBytes)
    (hreceived : run (exchanges.map Exchange.receiving)
      { receiver with reads, writes := writes', flushes := flushes' } = (results, received))
    (hopen : received.closed = false)
    (hgrace : ∀ ignored, .error (.rekeyIgnored ignored) ∉ results) :
    answers = exchanges.map (fun _ => .ok .done) ∧ results = Exchange.replies 0 exchanges := by
  obtain ⟨-, houtbound, -, hbegun, hheld, howed, hqueued, haccepted⟩ := make_eq hsender
  obtain ⟨hinbound, -, hparked, -⟩ := make_eq hreceiver
  have hready : Ready { sender with writes, flushes } :=
    ⟨hbegun, hheld, howed, hqueued, hwrites, hflushes⟩
  have hstep : sender.outbound.InStep {} := by
    rw [houtbound]
    exact .plain {}
  have hblocks : sender.outbound.blockSize = plaintextBlockSize := by
    rw [houtbound]
    rfl
  rw [← hblocks] at hadmissible
  obtain ⟨wire, last, hrun, hwire, hreplies⟩ := run_in_step hready hstep rfl hadmissible
  rw [hsent] at hrun
  obtain ⟨rfl, rfl⟩ := Prod.mk.inj hrun
  have hnothing : acceptedBytes { sender with writes, flushes } = [] := by
    unfold acceptedBytes
    rw [haccepted]
    rfl
  rw [hnothing, List.nil_append] at hwire
  have hexpects : Expects { receiver with reads, writes := writes', flushes := flushes' } {} :=
    ⟨hinbound, hparked, hquiet⟩
  exact ⟨rfl, hreplies hexpects (hwire ▸ hdelivers) hreceived hopen hgrace⟩

theorem matched_maskedProtection (surplus : Nat) :
    (maskedProtection surplus).Matched (maskedProtection surplus) where
  blockSize := rfl
  tagSize := rfl
  tag := rfl
  signs := fun _ _ => ⟨[7, 8], rfl, Nat.le_refl _⟩
  undoes := by
    have hmask (byte : UInt8) : byte ^^^ 32 ^^^ 32 = byte := by
      rw [UInt8.xor_assoc, UInt8.xor_self, UInt8.xor_zero]
    have hunmask (data : Bytes) : (data.map (· ^^^ 32)).map (· ^^^ 32) = data := by
      rw [List.map_map]
      exact List.map_id'' hmask data
    refine ⟨fun outbound inbound => outbound = .mask 32 ∧ inbound = .mask 32, ⟨rfl, rfl⟩, ?_⟩
    rintro _ _ ⟨rfl, rfl⟩ packet - -
    refine ⟨packet.map (· ^^^ 32), .mask 32, .mask 32, .mask 32, rfl, ?_, ?_, rfl, rfl⟩
    · rw [← List.map_take]
      exact congrArg (fun data => (Except.ok data, Rehearsal.Cipher.mask 32)) (hunmask _)
    · rw [← List.map_drop]
      exact congrArg (fun data => (Except.ok data, Rehearsal.Cipher.mask 32)) (hunmask _)

def maskedExchanges : List (Exchange Rehearsal.Cipher) :=
  [.message [1], .rekey (maskedProtection 0) (maskedProtection 0), .message []]

/-- A receiving end to which everything that the sending end sends comes in one piece. -/
def maskedExchangeReader : Endpoint Rehearsal.Cipher :=
  { newEndpoint with
    reads := [.data (run (maskedExchanges.map Exchange.sending) newEndpoint).2.acceptedBytes] }

theorem exchanges_arrive_masked :
    (run (maskedExchanges.map Exchange.receiving) maskedExchangeReader).1 =
      Exchange.replies 0 maskedExchanges := by
  have hresults : (run (maskedExchanges.map Exchange.receiving) maskedExchangeReader).1 =
      [.ok (.packet (some ⟨[1], 0⟩)), .ok .done, .ok (.packet (some ⟨[], 1⟩))] := by
    decide +kernel
  have hmade : make {} .zeros .zeros = .ok newEndpoint := rfl
  have hwrites : WriteScript.Healthy newEndpoint.writes := by rintro _ ⟨⟩
  have hflushes : ∀ failure, FlushItem.fail failure ∉ newEndpoint.flushes := by rintro _ ⟨⟩
  have hquiet : WriteScript.Quiet newEndpoint.writes := by rintro _ ⟨⟩
  have hadmissible : Exchange.Admissible plaintextBlockSize maskedExchanges :=
    ⟨by decide, matched_maskedProtection 0, by decide, trivial⟩
  have hopen : (run (maskedExchanges.map Exchange.receiving) maskedExchangeReader).2.closed =
      false := by
    decide +kernel
  have hgrace : ∀ ignored, .error (.rekeyIgnored ignored) ∉
      (run (maskedExchanges.map Exchange.receiving) maskedExchangeReader).1 := by
    rw [hresults]
    simp
  exact (exchanges_arrive hmade hmade hwrites hflushes hquiet hadmissible rfl (delivers_data _)
    rfl hopen hgrace).2

end PacketLayer.Endpoint
