import PacketLayer.Proofs.RoundTrip

/-! # Change of keys under a waiting reader

A protection that is installed while a reader waits for a packet is parked, and the
reader takes it up on its next turn, with whatever octets it holds by then. The packet
is read as long as it is no shorter than those octets; a shorter one is refused,
although all of it and the beginning of the next packet are there.
-/

namespace PacketLayer.Endpoint

open ReadScript

variable {C : Type} [BlockCipher C]

/-- The octets that a waiting reader holds when it finds a parked protection. -/
def heldAtHandover (raw : Bytes) (e : Endpoint C) : Option Bytes :=
  if e.parked.isSome then some raw
  else if _hcomplete : e.inbound.blockSize ≤ raw.length then none
  else
    match _hattempt : e.receive (e.inbound.blockSize - raw.length) e.config.pollInterval with
    | (.finished, _) | (.failed _, _) => none
    | (.more bytes, next) =>
        if e.inbound.blockSize ≤ (raw ++ bytes).length then heldAtHandover (raw ++ bytes) next
        else if next.closed then none
        else heldAtHandover (raw ++ bytes) next.checkKeepAlive
  termination_by e.readCost
  decreasing_by
    · exact readCost_of_more (Nat.sub_ne_zero_of_lt (Nat.lt_of_not_le _hcomplete))
        e.valid.pollInterval _hattempt
    · rw [readCost_checkKeepAlive]
      exact readCost_of_more (Nat.sub_ne_zero_of_lt (Nat.lt_of_not_le _hcomplete))
        e.valid.pollInterval _hattempt

theorem heldAtHandover_of_parked {raw : Bytes} {e : Endpoint C} {protection : Protection C}
    (hparked : e.parked = some protection) : heldAtHandover raw e = some raw := by
  rw [heldAtHandover, hparked]
  rfl

/-- A reader on its turn, with a parked protection and octets still to come. -/
structure HandsOver (lane : Lane C) (protection : Protection C) (rest : Bytes)
    (waiting : Endpoint C) : Prop where
  inbound : waiting.inbound = lane
  parked : waiting.parked = some protection
  quiet : WriteScript.Quiet waiting.writes
  delivers : Delivers waiting.reads rest

/-- An attempt brings octets from before the installation, or parks the protection and
brings octets from behind it, or meets the end of the stream behind it. -/
theorem receive_at_handover {e : Endpoint C} {before after : Bytes} {protection : Protection C}
    {script : ReadScript (Protection C)} (hquiet : WriteScript.Quiet e.writes)
    (hflow : Flow e.reads before (.act (.installInbound protection) :: script))
    (hdelivers : Delivers script after) (want limit : Nat) :
    (∃ bytes more next, e.receive want limit = (.more bytes, next) ∧ before = bytes ++ more ∧
      Flow next.reads more (.act (.installInbound protection) :: script) ∧ Undisturbed e next) ∨
    (∃ bytes more next, e.receive want limit = (.more bytes, next) ∧
      before ++ after = bytes ++ more ∧ bytes.length ≤ want ∧
      HandsOver e.inbound protection more next) ∨
    (before ++ after = [] ∧ ∃ next, e.receive want limit = (.finished, next)) := by
  rcases receive_of_flow hquiet hflow want limit with
    ⟨bytes, more, next, hreceive, hbefore, -, hleft, hnext⟩ | ⟨rfl, middle, hmiddle, hreceive⟩
  · exact .inl ⟨bytes, more, next, hreceive, hbefore, hleft, hnext⟩
  · obtain ⟨tail, hscript, hend⟩ := hdelivers
    let parked := middle.act .busy (.installInbound protection)
    have harrives := arrive_of_flow (e := parked) hscript hmiddle.quiet want (e.now + limit)
    change e.receive want limit = leaving (arrive want (e.now + limit) script parked) at hreceive
    generalize arrive want (e.now + limit) script parked = result at harrives hreceive
    cases harrives with
    | brought hoctets hlength hleft hnext =>
        exact .inr (.inl ⟨_, _, _, hreceive, hoctets, hlength,
          hnext.inbound.trans hmiddle.inbound, hnext.parked, hnext.quiet, tail, hleft, hend⟩)
    | @passed next hnone hnext =>
        obtain ⟨left, hfinished⟩ := arrive_of_atEnd hend want (e.now + limit) next
        rw [hfinished] at hreceive
        exact .inr (.inr ⟨hnone, _, hreceive⟩)

/-- A waiting reader is closed, meets the end of the stream short of a block, or takes up
the parked protection with the octets that it holds. -/
theorem handover_of_flow {raw before after : Bytes} {protection : Protection C}
    {script : ReadScript (Protection C)} {e : Endpoint C} (hparked : e.parked = none)
    (hquiet : WriteScript.Quiet e.writes)
    (hflow : Flow e.reads before (.act (.installInbound protection) :: script))
    (hmissing : raw.length + before.length < e.inbound.blockSize)
    (hdelivers : Delivers script after) :
    (∃ next, awaitFirstBlock raw e = (.ok none, next) ∧ next.closed = true ∧
      WriteScript.Quiet next.writes) ∨
    (heldAtHandover raw e = none ∧
      (raw ++ (before ++ after)).length < e.inbound.blockSize ∧
      ∃ next, awaitFirstBlock raw e = (.ok none, next)) ∨
    (∃ held rest waiting, heldAtHandover raw e = some held ∧
      held.length ≤ e.inbound.blockSize ∧ held ++ rest = raw ++ (before ++ after) ∧
      awaitFirstBlock raw e = awaitFirstBlock held waiting ∧
      HandsOver e.inbound protection rest waiting) := by
  -- while no protection is parked, the reader turns as if it waited for octets alone
  fun_induction heldAtHandover raw e generalizing before with
  | case1 raw e hsome =>
      rw [hparked] at hsome
      cases hsome
  | case2 raw e _ hcomplete => omega
  | case3 raw e _ _ next hattempt =>
      have hawait := awaitFirstBlock_of_missing hparked (Nat.lt_of_not_le ‹¬_ ≤ raw.length›)
      have hattempts := receive_at_handover hquiet hflow hdelivers
        (e.inbound.blockSize - raw.length) e.config.pollInterval
      rw [hattempt] at hawait hattempts
      rcases hattempts with ⟨_, _, _, hmore, -⟩ | ⟨_, _, _, hmore, -⟩ | ⟨hnone, -⟩
      · cases hmore
      · cases hmore
      · refine .inr (.inl ⟨rfl, ?_, next, hawait⟩)
        rw [hnone, List.append_nil]
        omega
  | case4 raw e _ _ failure next hattempt =>
      have hattempts := receive_at_handover hquiet hflow hdelivers
        (e.inbound.blockSize - raw.length) e.config.pollInterval
      rw [hattempt] at hattempts
      rcases hattempts with ⟨_, _, _, hmore, -⟩ | ⟨_, _, _, hmore, -⟩ | ⟨-, _, hfinished⟩
      · cases hmore
      · cases hmore
      · cases hfinished
  | case5 raw e _ _ bytes next hattempt hcomplete _ =>
      have hawait := awaitFirstBlock_of_missing hparked (Nat.lt_of_not_le ‹¬_ ≤ raw.length›)
      have hattempts := receive_at_handover hquiet hflow hdelivers
        (e.inbound.blockSize - raw.length) e.config.pollInterval
      rw [hattempt] at hawait hattempts
      rcases hattempts with
        ⟨_, more, _, ⟨⟩, rfl, -⟩ | ⟨_, more, _, ⟨⟩, hoctets, hlength, hwaiting⟩ | ⟨-, _, hend⟩
      · rw [List.length_append] at hcomplete hmissing
        omega
      · refine .inr (.inr ⟨raw ++ bytes, more, next, heldAtHandover_of_parked hwaiting.parked, ?_,
          ?_, ?_, hwaiting⟩)
        · rw [List.length_append]
          omega
        · rw [List.append_assoc, hoctets]
        · rw [hawait]
          exact if_pos hcomplete
      · cases hend
  | case6 raw e _ _ bytes next hattempt hcomplete hclosed =>
      have hawait := awaitFirstBlock_of_missing hparked (Nat.lt_of_not_le ‹¬_ ≤ raw.length›)
      have hattempts := receive_at_handover hquiet hflow hdelivers
        (e.inbound.blockSize - raw.length) e.config.pollInterval
      rw [hattempt] at hawait hattempts
      have hstopped : awaitFirstBlock raw e = (.ok none, next) := by
        rw [hawait]
        simp only [hclosed, if_true]
        exact if_neg hcomplete
      rcases hattempts with
        ⟨_, _, _, ⟨⟩, -, -, hnext⟩ | ⟨_, _, _, ⟨⟩, -, -, hwaiting⟩ | ⟨-, _, hend⟩
      · exact .inl ⟨next, hstopped, hclosed, hnext.quiet⟩
      · exact .inl ⟨next, hstopped, hclosed, hwaiting.quiet⟩
      · cases hend
  | case7 raw e _ _ bytes next hattempt hcomplete hclosed ih =>
      have hawait := awaitFirstBlock_of_missing hparked (Nat.lt_of_not_le ‹¬_ ≤ raw.length›)
      have hattempts := receive_at_handover hquiet hflow hdelivers
        (e.inbound.blockSize - raw.length) e.config.pollInterval
      rw [hattempt] at hawait hattempts
      have hloop : awaitFirstBlock raw e = awaitFirstBlock (raw ++ bytes) next.checkKeepAlive := by
        rw [hawait]
        simp only [hclosed, if_false, Bool.false_eq_true]
        exact if_neg hcomplete
      rw [hloop]
      rcases hattempts with
        ⟨_, more, _, ⟨⟩, rfl, hleft, hnext⟩ | ⟨_, more, _, ⟨⟩, hoctets, hlength, hwaiting⟩ |
        ⟨-, _, hend⟩
      · have hbeside := beside_checkKeepAlive hnext.quiet
        have hchecked := hnext.trans hbeside.toUndisturbed
        have hinbound := hchecked.inbound
        rw [List.length_append] at hmissing
        have hlater := ih (hchecked.parked.trans hparked) hchecked.quiet (hbeside.reads ▸ hleft)
          (by rw [hinbound, List.length_append]; omega)
        rw [hinbound, List.append_assoc, ← List.append_assoc bytes] at hlater
        exact hlater
      · have hbeside := beside_checkKeepAlive hwaiting.quiet
        refine .inr (.inr ⟨raw ++ bytes, more, next.checkKeepAlive, ?_, ?_, ?_, rfl, ?_⟩)
        · exact heldAtHandover_of_parked (hbeside.parked.trans hwaiting.parked)
        · rw [List.length_append]
          omega
        · rw [List.append_assoc, hoctets]
        · exact ⟨hbeside.inbound.trans hwaiting.inbound, hbeside.parked.trans hwaiting.parked,
            hbeside.quiet, hbeside.reads ▸ hwaiting.delivers⟩
      · cases hend

omit [BlockCipher C] in
theorem HandsOver.inbound_activateParked {lane : Lane C} {protection : Protection C}
    {rest : Bytes} {waiting : Endpoint C} (hwaiting : HandsOver lane protection rest waiting) :
    waiting.activateParked.inbound = lane.install protection := by
  unfold activateParked
  rw [hwaiting.parked, ← hwaiting.inbound]
  rfl

/-- A packet is refused if more octets are at hand than it has. -/
theorem readFrom_of_overrun {e : Endpoint C} {raw first : Bytes} {lane : Lane C}
    (hopens : e.inbound.Opens raw first lane)
    (hlong : (Header.ofBlock first).frameLength < raw.length) :
    (readFrom raw e).1 =
      .error (.shorterThanFirstRead (Header.ofBlock first).frameLength) := by
  have hdecipher : decipher (raw.take e.inbound.blockSize) e =
      (.ok first, { e with inbound := lane }) := by
    simp [decipher, hopens.deciphers]
  have hparse : Header.parse first e.inbound.blockSize = .ok (.ofBlock first) :=
    (Header.parse_eq_ok_iff e.inbound.plaintextBlockSize_le
      (Nat.le_of_eq hopens.length_eq.symm)).mpr ⟨rfl, hopens.formed⟩
  unfold readFrom
  rw [Act.ask_bind, Act.bind_of_ok hdecipher, Act.update_bind, hparse, Act.ofExcept_ok_bind,
    if_pos hlong]
  rfl

/-- A read whose packet comes under a protection that is installed meanwhile finds the
endpoint closed, misses the change, holds more than the packet, or takes it. -/
theorem read_at_handover {e : Endpoint C} {before after frame : Bytes}
    {protection : Protection C} {script : ReadScript (Protection C)} {header : Header}
    {last : Lane C} (hparked : e.parked = none) (hquiet : WriteScript.Quiet e.writes)
    (hflow : Flow e.reads before (.act (.installInbound protection) :: script))
    (hmissing : before.length < e.inbound.blockSize) (hdelivers : Delivers script after)
    (hgenuine : (e.inbound.install protection).Genuine (before ++ after) header frame last) :
    ((read e).2.closed = true ∧ WriteScript.Quiet (read e).2.writes) ∨
    (heldAtHandover [] e = none ∧ (before ++ after).length < e.inbound.blockSize ∧
      (read e).1 = .ok none) ∨
    (∃ held, heldAtHandover [] e = some held ∧ header.frameLength < held.length ∧
      held.length ≤ e.inbound.blockSize ∧
      (read e).1 = .error (.shorterThanFirstRead header.frameLength)) ∨
    (∃ held ready, heldAtHandover [] e = some held ∧ held.length ≤ header.frameLength ∧
      ready.inbound = e.inbound.install protection ∧ ready.parked = none ∧
      Takes ready (before ++ after) header frame last (read e)) := by
  cases hopen : e.closed with
  | true =>
      have hread : read e = (.ok none, e) := if_pos hopen
      rw [hread]
      exact .inl ⟨hopen, hquiet⟩
  | false =>
      obtain ⟨hresult, hstake⟩ := read_of_open hopen
      have hnothing : ([] : Bytes).length + before.length < e.inbound.blockSize := by
        rwa [List.length_nil, Nat.zero_add]
      rcases handover_of_flow hparked hquiet hflow hnothing hdelivers with
        ⟨next, hawait, hclosed, hstill⟩ | ⟨hnever, hshort, next, hawait⟩ |
        ⟨held, rest, waiting, hheld, hblock, hoctets, hawait, hwaiting⟩
      · have hread : readPacket e = (.ok none, next) := Act.bind_of_ok hawait
        simp only [hread, stake, Prod.mk.injEq] at hstake
        obtain ⟨-, -, hsame, -, hwrites, -⟩ := hstake
        exact .inl ⟨hsame.trans hclosed, hwrites ▸ hstill⟩
      · have hread : readPacket e = (.ok none, next) := Act.bind_of_ok hawait
        rw [hread] at hresult
        exact .inr (.inl ⟨hnever, hshort, hresult⟩)
      have hinbound := hwaiting.inbound_activateParked
      rw [List.nil_append] at hoctets
      rw [← hoctets, ← hinbound] at hgenuine ⊢
      obtain ⟨first, middle, hopens, hheader⟩ := hgenuine.unfolds.opens
      by_cases hfits : held.length ≤ header.frameLength
      · have hreads := reads_of_held hawait hwaiting.quiet hwaiting.delivers
          fun first' middle' hopens' => by
            obtain ⟨rfl, -⟩ := hopens.unique hopens'
            exact hheader ▸ hfits
        generalize readPacket e = outcome at hreads hresult hstake
        cases hreads with
        | stopped hclosed hstill =>
            simp only [stake, Prod.mk.injEq] at hstake
            obtain ⟨-, -, hsame, -, hwrites, -⟩ := hstake
            exact .inl ⟨hsame.trans hclosed, hwrites ▸ hstill⟩
        | refused hrefused _ => exact absurd hrefused hgenuine.not_refuses
        | accepted hgenuine' hmiddle hrest =>
            obtain ⟨rfl, rfl, rfl⟩ := hgenuine.unfolds.unique hgenuine'.unfolds
            exact .inr (.inr (.inr ⟨held, waiting.activateParked, hheld, hfits, rfl,
              parked_activateParked waiting,
              (takes_deliver hgenuine hmiddle hrest).of_stake hresult hstake⟩))
      · -- a first block is there already, so nothing is read before its header is judged
        have hlong := Nat.lt_of_not_le hfits
        have hwhole := hopens.formed.blockSize_le
        rw [hheader] at hlong ⊢
        have hcomplete : awaitFirstBlock [] e = (.ok (some held), waiting.activateParked) := by
          rw [hawait, awaitFirstBlock, dif_pos (by omega)]
        have hread : readPacket e = readFrom held waiting.activateParked :=
          Act.bind_of_ok hcomplete
        have hat : waiting.activateParked.inbound.Opens held first middle := by
          refine ⟨by omega, ?_, hopens.formed⟩
          rw [← hopens.deciphers, List.take_append_of_le_length (by omega)]
        rw [hread, readFrom_of_overrun hat hlong] at hresult
        exact .inr (.inr (.inl ⟨held, hheld, hlong, hblock, hresult⟩))

omit [BlockCipher C] in
theorem Exchange.error_not_mem_replies (fault : Fault) (count : Nat)
    (exchanges : List (Exchange C)) : .error fault ∉ Exchange.replies count exchanges := by
  induction exchanges generalizing count with
  | nil => exact List.not_mem_nil
  | cons exchange exchanges ih =>
      cases exchange with
      | message payload => simpa [Exchange.replies] using ih (count + 1)
      | rekey outbound inbound => simpa [Exchange.replies] using ih count

/-- An exchange goes on after a change of keys under a waiting reader if the reader takes
the first packet, and fails at this packet otherwise. -/
theorem run_at_handover {receiver received : Endpoint C} {payload before after wire more : Bytes}
    {protection : Protection C} {script : ReadScript (Protection C)} {header : Header}
    {frame : Bytes} {last : Lane C} {count : Nat} {later : List (Exchange C)}
    {results : List (Except Fault Reply)} (hparked : receiver.parked = none)
    (hquiet : WriteScript.Quiet receiver.writes)
    (hflow : Flow receiver.reads before (.act (.installInbound protection) :: script))
    (hmissing : before.length < receiver.inbound.blockSize) (hdelivers : Delivers script after)
    (hwire : before ++ after = wire ++ more)
    (hgenuine : (receiver.inbound.install protection).Genuine (wire ++ more) header frame last)
    (hlength : wire.length = header.frameLength + (receiver.inbound.install protection).tagSize)
    (hpayload : (frame.drop headerLength).take header.payloadLength = payload)
    (hcount : receiver.inbound.sequence.value = UInt32.ofNat count)
    (hreceived : run (.read :: later.map Exchange.receiving) receiver = (results, received))
    (hopen : received.closed = false)
    (hreplies : ∀ {receiver : Endpoint C} {results : List (Except Fault Reply)},
      receiver.Expects last.advance → Delivers receiver.reads more →
      run (later.map Exchange.receiving) receiver = (results, received) →
      (∀ ignored, .error (.rekeyIgnored ignored) ∉ results) →
      results = Exchange.replies (count + 1) later) :
    (heldAtHandover [] receiver.countOperation = none ∧
      (before ++ after).length < receiver.inbound.blockSize ∧
      results.head? = some (.ok (.packet none))) ∨
    (∃ held, heldAtHandover [] receiver.countOperation = some held ∧
      header.frameLength < held.length ∧ held.length ≤ receiver.inbound.blockSize ∧
      results.head? = some (.error (.shorterThanFirstRead header.frameLength))) ∨
    (∃ held, heldAtHandover [] receiver.countOperation = some held ∧
      held.length ≤ header.frameLength ∧
      ((∃ ignored, .error (.rekeyIgnored ignored) ∈ results) ∨
        results = Exchange.replies count (.message payload :: later))) := by
  rcases hfirst : perform .read receiver with ⟨result, next⟩
  rcases hrest : run (later.map Exchange.receiving) next with ⟨others, last'⟩
  simp only [run, hfirst, hrest] at hreceived
  obtain ⟨rfl, rfl⟩ := Prod.mk.inj hreceived
  have hresult : result = (read receiver.countOperation).1.map .packet := by
    rw [perform_read_eq] at hfirst
    exact (congrArg Prod.fst hfirst).symm
  rcases read_at_handover (e := receiver.countOperation) hparked hquiet hflow hmissing
      hdelivers (hwire ▸ hgenuine) with
    ⟨hclosed, hstill⟩ | ⟨hnever, hshort, hread⟩ | ⟨held, hheld, hlong, hblock, hread⟩ |
    ⟨held, ready, hheld, hfits, hinbound, hidle, htakes⟩
  · obtain ⟨_, hperform, hbeside⟩ := perform_read hstill
    obtain ⟨-, rfl⟩ := Prod.mk.inj (hfirst.symm.trans hperform)
    have hstopped := closed_run hbeside.quiet (hbeside.closed hclosed) later
    rw [hrest, hopen] at hstopped
    cases hstopped
  · refine .inl ⟨hnever, hshort, ?_⟩
    rw [hresult, hread]
    rfl
  · refine .inr (.inl ⟨held, hheld, hlong, hblock, ?_⟩)
    rw [hresult, hread]
    rfl
  · refine .inr (.inr ⟨held, hheld, hfits, ?_⟩)
    rw [hwire] at htakes
    obtain ⟨_, _, hperform, -, houtcome⟩ :=
      perform_read_of_takes htakes hidle (hinbound ▸ hlength)
    obtain ⟨rfl, rfl⟩ := Prod.mk.inj (hfirst.symm.trans hperform)
    rcases houtcome with ⟨ignored, rfl⟩ | ⟨rfl, hleft, hexpects⟩
    · exact .inl ⟨ignored, List.mem_cons_self⟩
    by_cases hgrace : ∃ ignored, .error (.rekeyIgnored ignored) ∈ others
    · obtain ⟨ignored, hmem⟩ := hgrace
      exact .inl ⟨ignored, List.mem_cons_of_mem _ hmem⟩
    · have hmessage : ready.message header frame = ⟨payload, UInt32.ofNat count⟩ := by
        rw [message, hinbound, ← hcount, ← hpayload]
        rfl
      right
      rw [hreplies hexpects hleft hrest (not_exists.mp hgrace), hmessage]
      rfl

/-- What an end sends behind new keys begins with a packet that is genuine under them, and
goes on in step with whoever takes that packet. -/
theorem run_behind_install {sender : Endpoint C} (hready : sender.Ready) {lane : Lane C}
    (hsequence : lane.sequence = sender.outbound.sequence) {count : Nat}
    (hcount : lane.sequence.value = UInt32.ofNat count) {outbound inbound : Protection C}
    {payload : Bytes} {later : List (Exchange C)}
    (hadmissible : Exchange.Admissible sender.outbound.blockSize
      (.rekey outbound inbound :: .message payload :: later)) :
    ∃ header frame last wire more sent answers,
      run (.installOutbound outbound :: .write payload :: later.map Exchange.sending) sender =
        (answers, sent) ∧
      sent.acceptedBytes = sender.acceptedBytes ++ (wire ++ more) ∧
      (lane.install inbound).Genuine (wire ++ more) header frame last ∧
      header.frameLength = 4 + framedLength payload.length outbound.blockSize ∧
      wire.length = header.frameLength + (lane.install inbound).tagSize ∧
      (frame.drop headerLength).take header.payloadLength = payload ∧
      ∀ {receiver received : Endpoint C} {results : List (Except Fault Reply)},
        receiver.Expects last.advance → Delivers receiver.reads more →
        run (later.map Exchange.receiving) receiver = (results, received) →
        received.closed = false → (∀ ignored, .error (.rekeyIgnored ignored) ∉ results) →
        results = Exchange.replies (count + 1) later := by
  obtain ⟨hmatched, hfits, hlater⟩ := hadmissible
  obtain ⟨between, hinstall, haccepted, houtbound, hbetween⟩ :=
    perform_installOutbound hready outbound
  have hstep : between.outbound.InStep (lane.install inbound) :=
    houtbound ▸ .of_install hmatched hsequence
  have hblocks : between.outbound.blockSize = outbound.blockSize :=
    congrArg Lane.blockSize houtbound
  rw [← hblocks] at hfits hlater ⊢
  obtain ⟨packet, hframe, hframed⟩ := frame_of_fits hfits between.padding
  obtain ⟨header, wire, next, last, hseals, hgenuine, hlength, hpayload, hafter⟩ :=
    hstep.genuine_of_frame hframe
  obtain ⟨written, hwrite, hfirst, rfl, hwritten⟩ := perform_write hbetween hframed hseals
  have hnumber : last.advance.sequence.value = UInt32.ofNat (count + 1) := by
    have hsame : last.sequence = lane.sequence := (hgenuine []).unfolds.lane_eq.2.2.1
    have hnext : last.advance.sequence = last.sequence.next := rfl
    rw [hnext, SequenceNumber.value_next, hsame, hcount, UInt32.ofNat_add]
    rfl
  obtain ⟨more, sent, hrun, hrest, hreplies⟩ :=
    run_in_step hwritten hafter hnumber (hseals.blockSize_eq ▸ hlater)
  refine ⟨header, packet, last, wire, more, sent, .ok .done :: .ok .done :: later.map fun _ =>
    .ok .done, ?_, ?_, hgenuine more, ?_, hlength, hpayload, hreplies⟩
  · simp only [run, hinstall, hwrite, hrun]
  · rw [hrest, hfirst, haccepted, List.append_assoc]
  · rw [← (hgenuine []).unfolds.length_eq, hframe.length_eq]

/-- Let a protection be installed while a reader waits for the first packet under it. That
packet and all that follow arrive as they were written exactly if the reader finds the
protection in time and holds no more octets by then than the packet has. A packet no
shorter than a block of the protection before leaves no doubt of this. -/
theorem handover_seamless_iff {sender sent receiver received : Endpoint C}
    {outbound inbound : Protection C} {payload before after : Bytes}
    {later : List (Exchange C)} {script : ReadScript (Protection C)} {count : Nat}
    {answers results : List (Except Fault Reply)} (hready : sender.Ready)
    (hsequence : receiver.inbound.sequence = sender.outbound.sequence)
    (hcount : receiver.inbound.sequence.value = UInt32.ofNat count)
    (hadmissible : Exchange.Admissible sender.outbound.blockSize
      (.rekey outbound inbound :: .message payload :: later))
    (hsent : run (.installOutbound outbound :: .write payload :: later.map Exchange.sending)
      sender = (answers, sent))
    (hwire : sent.acceptedBytes = sender.acceptedBytes ++ (before ++ after))
    (hparked : receiver.parked = none) (hquiet : WriteScript.Quiet receiver.writes)
    (hflow : Flow receiver.reads before (.act (.installInbound inbound) :: script))
    (hmissing : before.length < receiver.inbound.blockSize) (hdelivers : Delivers script after)
    (hreceived : run (.read :: later.map Exchange.receiving) receiver = (results, received))
    (hopen : received.closed = false) :
    (results = Exchange.replies count (.message payload :: later) ↔
      (∃ held, heldAtHandover [] receiver.countOperation = some held ∧
        held.length ≤ 4 + framedLength payload.length outbound.blockSize) ∧
      ∀ ignored, .error (.rekeyIgnored ignored) ∉ results) ∧
    (receiver.inbound.blockSize ≤ 4 + framedLength payload.length outbound.blockSize →
      ∃ held, heldAtHandover [] receiver.countOperation = some held ∧
        held.length ≤ 4 + framedLength payload.length outbound.blockSize) ∧
    (∀ held, heldAtHandover [] receiver.countOperation = some held →
      4 + framedLength payload.length outbound.blockSize < held.length →
      results.head? = some (.error
        (.shorterThanFirstRead (4 + framedLength payload.length outbound.blockSize)))) := by
  obtain ⟨header, frame, last, wire, more, sent, answers, hrun, hoctets, hgenuine, hframe,
    hlength, hpayload, hreplies⟩ := run_behind_install hready hsequence hcount hadmissible
  obtain ⟨rfl, rfl⟩ := Prod.mk.inj (hsent.symm.trans hrun)
  have hcut : before ++ after = wire ++ more :=
    List.append_cancel_left (hwire.symm.trans hoctets)
  have hwhole : header.frameLength ≤ (before ++ after).length := by
    rw [hcut, List.length_append]
    omega
  have hnofault : results = Exchange.replies count (.message payload :: later) →
      ∀ fault, .error fault ∉ results := fun hresults fault =>
    hresults ▸ Exchange.error_not_mem_replies fault count _
  rw [← hframe]
  rcases run_at_handover hparked hquiet hflow hmissing hdelivers hcut hgenuine hlength hpayload
      hcount hreceived hopen fun hexpects hleft hlater => hreplies hexpects hleft hlater hopen with
    ⟨hnever, hshort, hhead⟩ | ⟨held, hheld, hlong, hblock, hhead⟩ |
    ⟨held, hheld, hfits, houtcome⟩
  · -- the stream would have had to end short of the packet
    simp only [hnever]
    refine ⟨⟨?_, ?_⟩, fun hblock => ?_, ?_⟩
    · rintro rfl
      cases hhead
    · rintro ⟨⟨_, ⟨⟩, -⟩, -⟩
    · omega
    · rintro held ⟨⟩
  · simp only [hheld, Option.some.injEq]
    refine ⟨⟨?_, ?_⟩, fun hblock => ?_, ?_⟩
    · rintro rfl
      cases hhead
    · rintro ⟨⟨_, rfl, hfits⟩, -⟩
      omega
    · omega
    · rintro _ rfl -
      exact hhead
  · have htaken : ∃ held, heldAtHandover [] receiver.countOperation = some held ∧
        held.length ≤ header.frameLength := ⟨held, hheld, hfits⟩
    refine ⟨⟨fun hresults => ⟨htaken, fun _ => hnofault hresults _⟩, ?_⟩, fun _ => htaken, ?_⟩
    · rintro ⟨-, hgrace⟩
      rcases houtcome with ⟨ignored, hmem⟩ | hresults
      · exact absurd hmem (hgrace ignored)
      · exact hresults
    · intro held' hheld' hlong
      obtain rfl := Option.some.inj (hheld.symm.trans hheld')
      omega

/-- What an end sends behind new keys whose first message is empty. -/
def maskedHandover (protection : Protection Rehearsal.Cipher) : Bytes :=
  (run [.installOutbound protection, .write []] newEndpoint).2.acceptedBytes

/-- A reader under keys with large blocks, to whom two octets come before the new keys. -/
def waitingReader (protection : Protection Rehearsal.Cipher) : Endpoint Rehearsal.Cipher :=
  { newEndpoint with
    inbound := ⟨some (maskedProtection 8), {}⟩
    reads := [.data ((maskedHandover protection).take 2), .act (.installInbound protection),
      .data ((maskedHandover protection).drop 2)] }

/-- The new keys have the block size of plain packets. -/
def evenReader : Endpoint Rehearsal.Cipher :=
  waitingReader (maskedProtection 0)

theorem handover_seamless_masked :
    (run [.read] evenReader).1 = Exchange.replies (C := Rehearsal.Cipher) 0 [.message []] := by
  let keys := maskedProtection 0
  have hready : newEndpoint.Ready :=
    ⟨rfl, rfl, rfl, rfl, by rintro _ ⟨⟩, by rintro _ ⟨⟩⟩
  have hadmissible : Exchange.Admissible newEndpoint.outbound.blockSize
      [.rekey keys keys, .message []] :=
    ⟨matched_maskedProtection _, by decide, trivial⟩
  have hwire : (run [.installOutbound keys, .write []] newEndpoint).2.acceptedBytes =
      newEndpoint.acceptedBytes ++ ((maskedHandover keys).take 2 ++ (maskedHandover keys).drop 2) :=
    (List.take_append_drop 2 _).symm
  have hflow : Flow evenReader.reads ((maskedHandover keys).take 2)
      [.act (.installInbound keys), .data ((maskedHandover keys).drop 2)] := by
    rw [← List.append_nil ((maskedHandover keys).take 2)]
    exact .data (by decide +kernel) (.done _)
  have hreceived : run (.read :: ([] : List (Exchange Rehearsal.Cipher)).map Exchange.receiving)
      evenReader = ((run [.read] evenReader).1, (run [.read] evenReader).2) := rfl
  have hresults : (run [.read] evenReader).1 = [.ok (.packet (some ⟨[], 0⟩))] := by
    decide +kernel
  have hseamless := handover_seamless_iff hready rfl rfl hadmissible rfl hwire rfl
    (by rintro _ ⟨⟩) hflow (by decide +kernel) (delivers_data _) hreceived (by decide +kernel)
  refine hseamless.1.mpr ⟨hseamless.2.1 (by decide), ?_⟩
  rw [hresults]
  simp

/-- The new keys have blocks of nine octets, and the first packet is one such block. -/
def unevenReader : Endpoint Rehearsal.Cipher :=
  waitingReader (maskedProtection 1)

theorem handover_refused_masked :
    (maskedProtection 1).Matched (maskedProtection 1) ∧
    (run [.read] unevenReader).2.closed = false ∧
    (run [.read] unevenReader).1 = [.error (.shorterThanFirstRead 9)] ∧
    (run [.read] unevenReader).1 ≠ Exchange.replies (C := Rehearsal.Cipher) 0 [.message []] := by
  have hresults : (run [.read] unevenReader).1 = [.error (.shorterThanFirstRead 9)] := by
    decide +kernel
  refine ⟨matched_maskedProtection _, by decide +kernel, hresults, ?_⟩
  rw [hresults]
  simp [Exchange.replies]

end PacketLayer.Endpoint
