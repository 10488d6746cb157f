import PacketLayer.Proofs.Failures
import PacketLayer.Proofs.Marks.Reading
import PacketLayer.Proofs.Waiting

/-! # Messages that are not sent

A message that is too long, or that an engine fails on, is not offered to the stream at all.
The endpoint is left as it would be if time had passed without the write, but for what framing
and enciphering have used up. After a message that is too long nothing shows that there was one.
-/

namespace PacketLayer.Endpoint

variable {C : Type}

/-- The endpoint once all that was noted is cleared. -/
def cleared (e : Endpoint C) : Endpoint C :=
  { e with journal := [] }

theorem cleared_dump (direction : Direction) (bytes : Bytes) (e : Endpoint C) :
    (e.dump direction bytes).cleared = e.cleared := by
  unfold dump
  split <;> rfl

theorem Twins.cleared {e other : Endpoint C} (htwins : Twins e other) :
    Twins e.cleared other.cleared := by
  obtain ⟨marks, ⟨hheld, hwrites, -⟩⟩ := htwins
  exact .intro { marks with journal := [] } ⟨hheld, hwrites, .nil⟩

variable [BlockCipher C] {payload : Bytes} {e : Endpoint C}

/-! ## Messages that are not sealed -/

/-- Why a message is not sent while the outbound lane is free, and what that leaves. A message
that is too long takes nothing with it. One that cannot be signed takes its padding, and one
that cannot be enciphered also wears the cipher. -/
inductive Unsent (payload : Bytes) (e : Endpoint C) : Fault → Endpoint C → Prop where
  | tooLong (hlong : maxPacketLength < framedLength payload.length e.outbound.blockSize) :
      Unsent payload e (.messageTooLong (framedLength payload.length e.outbound.blockSize)
        maxPacketLength) e
  | unsigned {packet : Bytes} {padding : ByteSource} {fault : Fault}
      (hframe : frame payload e.outbound.blockSize e.padding = (.ok packet, padding))
      (hsign : e.outbound.sign packet = .error fault) :
      Unsent payload e fault { e with padding }
  | unciphered {packet tag : Bytes} {padding : ByteSource} {fault : Fault} {lane : Lane C}
      (hframe : frame payload e.outbound.blockSize e.padding = (.ok packet, padding))
      (hsign : e.outbound.sign packet = .ok tag)
      (hencipher : e.outbound.apply packet = (.error fault, lane)) :
      Unsent payload e fault { e with padding, outbound := lane }

omit [BlockCipher C] in
theorem frameOutbound_of_tooLong
    (hlong : maxPacketLength < framedLength payload.length e.outbound.blockSize) :
    frameOutbound payload e = (.error (.messageTooLong
      (framedLength payload.length e.outbound.blockSize) maxPacketLength), e) := by
  simp [frameOutbound, frame, hlong]

/-- A message that is framed has been noted when it is signed and enciphered. -/
theorem sealPacket_of_framed {packet : Bytes} {padding : ByteSource}
    (hframe : frame payload e.outbound.blockSize e.padding = (.ok packet, padding)) :
    ∃ noted : Endpoint C, noted.cleared = { e with padding }.cleared ∧
      sealPacket payload e =
        match e.outbound.sign packet, e.outbound.apply packet with
        | .error fault, _ => (.error fault, noted)
        | .ok _, (.error fault, lane) => (.error fault, { noted with outbound := lane })
        | .ok tag, (.ok enciphered, lane) =>
            (.ok ⟨enciphered ++ tag, packet.length⟩, { noted with outbound := lane.advance }) := by
  have hframing : frameOutbound payload e = (.ok packet, { e with padding }) := by
    rw [frameOutbound, hframe]
  unfold sealPacket
  rw [Act.bind_of_ok hframing, Act.update_bind, Act.update_bind, Act.ask_bind, id]
  generalize hnoted : dump .outbound packet _ = noted
  have hcleared : noted.cleared = { e with padding }.cleared := by
    rw [← hnoted, cleared_dump]
    rfl
  have houtbound : noted.outbound = e.outbound := by
    have hsame := congrArg outbound hcleared
    exact hsame
  refine ⟨noted, hcleared, ?_⟩
  rw [houtbound]
  cases e.outbound.sign packet with
  | error fault => rfl
  | ok tag =>
      rw [Act.ofExcept_ok_bind]
      rcases hencipher : e.outbound.apply packet with ⟨fault | enciphered, lane⟩
      · have hfails : encipher packet noted = (.error fault, { noted with outbound := lane }) := by
          rw [encipher, houtbound, hencipher]
        rw [Act.bind_of_error hfails]
      · have hworks : encipher packet noted =
            (.ok enciphered, { noted with outbound := lane }) := by
          rw [encipher, houtbound, hencipher]
        rw [Act.bind_of_ok hworks]
        rfl

theorem Unsent.sealPacket_eq {fault : Fault} {next : Endpoint C}
    (hunsent : Unsent payload e fault next) :
    ∃ noted : Endpoint C, sealPacket payload e = (.error fault, noted) ∧
      noted.cleared = next.cleared := by
  cases hunsent with
  | tooLong hlong => exact ⟨e, Act.bind_of_error (frameOutbound_of_tooLong hlong), rfl⟩
  | unsigned hframe hsign =>
      obtain ⟨noted, hcleared, hseal⟩ := sealPacket_of_framed hframe
      rw [hsign] at hseal
      exact ⟨noted, hseal, hcleared⟩
  | @unciphered _ _ _ _ lane hframe hsign hencipher =>
      obtain ⟨noted, hcleared, hseal⟩ := sealPacket_of_framed hframe
      rw [hsign, hencipher] at hseal
      exact ⟨_, hseal, congrArg (fun e => { e with outbound := lane }) hcleared⟩

/-- There is no other reason why a message is not sealed. -/
theorem exists_unsent {fault : Fault} (hfault : (sealPacket payload e).1 = .error fault) :
    ∃ next, Unsent payload e fault next := by
  by_cases hlong : maxPacketLength < framedLength payload.length e.outbound.blockSize
  · have hseal : sealPacket payload e = _ := Act.bind_of_error (frameOutbound_of_tooLong hlong)
    rw [hseal] at hfault
    cases hfault
    exact ⟨_, .tooLong hlong⟩
  · obtain ⟨packet, -, hframe⟩ := frame_of_fits (Nat.le_of_not_lt hlong) e.padding
    obtain ⟨noted, -, hseal⟩ := sealPacket_of_framed hframe
    rw [hseal] at hfault
    cases hsign : e.outbound.sign packet with
    | error cause =>
        rw [hsign] at hfault
        cases hfault
        exact ⟨_, .unsigned hframe hsign⟩
    | ok tag =>
        rcases hencipher : e.outbound.apply packet with ⟨cause | enciphered, lane⟩
        all_goals
          rw [hsign, hencipher] at hfault
          cases hfault
        exact ⟨_, .unciphered hframe hsign hencipher⟩

/-- Nothing was offered to the stream, numbered or counted. -/
structure Untouched (e next : Endpoint C) : Prop where
  accepted_eq : next.accepted = e.accepted
  writes : next.writes.Twins e.writes
  flushes_eq : next.flushes = e.flushes
  sequence_eq : next.outbound.sequence = e.outbound.sequence
  rekey_eq : next.rekey = e.rekey
  signal_eq : next.signal = e.signal

theorem Unsent.untouched {fault : Fault} {next after : Endpoint C}
    (hunsent : Unsent payload e fault next) (htwins : Twins after.cleared next.cleared) :
    Untouched e after := by
  have haccepted := htwins.seen_eq accepted fun _ _ => rfl
  have hflushes := htwins.seen_eq flushes fun _ _ => rfl
  have hsequence := htwins.seen_eq (fun e => e.outbound.sequence) fun _ _ => rfl
  have hrekey := htwins.seen_eq rekey fun _ _ => rfl
  have hsignal := htwins.seen_eq signal fun _ _ => rfl
  have hwrites := htwins.marks.writes
  cases hunsent with
  | tooLong | unsigned => exact ⟨haccepted, hwrites, hflushes, hsequence, hrekey, hsignal⟩
  | unciphered _ _ hencipher =>
      exact ⟨haccepted, hwrites, hflushes, hsequence.trans (Lane.apply_eq hencipher).2.2.1, hrekey,
        hsignal⟩

/-! ## Writes that fail -/

/-- A write sends what it seals once the lane is free, in the same way at a twin. -/
theorem concurs_write (hopen : e.closed = false) (payload : Bytes) :
    Concurs (write payload e.countOperation)
      (Act.noting .outbound (sendPacket payload) e.waited) := by
  have hcounted : Twins e.countOperation.awaitOutbound e.awaitOutbound :=
    (Twins.refl e).countOperation_left.awaitOutbound
  rw [awaitOutbound_eq e] at hcounted
  have hwaited : Twins e.countOperation.awaitOutbound e.waited :=
    hcounted.turned e.countOperation.awaitOutbound.turn e.waited.turn
  have hstill : e.countOperation.closed = false := hopen
  unfold write
  rw [if_neg (by simp [hstill])]
  exact Act.Blind.noting (blind_sendPacket payload) .outbound _ _ hwaited

theorem perform_write_eq (payload : Bytes) (e : Endpoint C) :
    perform (.write payload) e =
      ((write payload e.countOperation).1.map fun _ => .done,
        (write payload e.countOperation).2.upkeep .idle) := by
  have hstart := Act.bind_pure_eq (write payload : Act C Unit) (fun _ => Reply.done)
    e.countOperation
  exact congrArg (fun outcome => (outcome.1, outcome.2.upkeep .idle)) hstart

/-- After a message that is not sent there is nothing to do for upkeep. -/
theorem Unsent.upkeep_eq {fault : Fault} {next noted : Endpoint C}
    (hunsent : Unsent payload e.waited fault next) (hnoted : noted.cleared = next.cleared) :
    ∃ turn, noted.upkeep .idle = { noted with turn } := by
  obtain ⟨hfree, howed, hqueued⟩ := still_waited e
  have hheld : noted.held = e.waited.held := by
    have hsame := congrArg held hnoted
    refine hsame.trans ?_
    cases hunsent <;> rfl
  have hdues : noted.dues = e.waited.dues := by
    have hsame := congrArg dues hnoted
    refine hsame.trans ?_
    cases hunsent <;> rfl
  obtain ⟨hasked, hleft⟩ := Prod.mk.inj hdues
  exact Still.upkeep_eq ⟨hheld.trans hfree, hasked.trans howed, hleft.trans hqueued⟩ .idle

/-- How an operation ends that fails, and what follows it: apart from what was noted up to its
end, the endpoint is a twin of another one, and answers every later operation like that one,
whether or not time passes before. -/
structure EndsLike (outcome : Except Fault Reply × Endpoint C) (fault : Fault)
    (next : Endpoint C) : Prop where
  fails : outcome.1 = .error fault
  twins : Twins outcome.2.cleared next.cleared
  later : ∀ operations, (run operations outcome.2.cleared).1 = (run operations next.cleared).1 ∧
    Twins (run operations outcome.2.cleared).2 (run operations next.cleared).2
  afterwards : ∀ time operations,
    (run operations (outcome.2.cleared.passTo time)).1 =
        (run operations (next.cleared.passTo time)).1 ∧
      Twins (run operations (outcome.2.cleared.passTo time)).2
        (run operations (next.cleared.passTo time)).2

/-- The message that a write is asked for can be the cause of its failure only before any octet
is offered to the stream. The endpoint then is what it would be if the same time had passed and
nothing had been written, save for what framing and enciphering have used up. -/
structure InSync (payload : Bytes) (e : Endpoint C) : Prop where
  reason : ∀ fault, (perform (.write payload) e).1 = .error fault →
    fault.Stops ∨ e.closed = false ∧ ∃ next, Unsent payload e.waited fault next
  ends : e.closed = false → ∀ fault next, Unsent payload e.waited fault next →
    EndsLike (perform (.write payload) e) fault next
  untouched : e.closed = false → ∀ fault next, Unsent payload e.waited fault next →
    Untouched e.waited (perform (.write payload) e).2
  prompt : e.held = none → e.owed = 0 → e.queued = 0 → ∃ turn, e.waited = { e with turn }

theorem Unsent.endsLike (hopen : e.closed = false) {fault : Fault} {next : Endpoint C}
    (hunsent : Unsent payload e.waited fault next) :
    EndsLike (perform (.write payload) e) fault next := by
  obtain ⟨noted, hseal, hnoted⟩ := hunsent.sealPacket_eq
  have hsend : sendPacket payload e.waited = (.error fault, noted) := Act.bind_of_error hseal
  have hconcurs := concurs_write hopen payload
  rw [Act.noting, hsend] at hconcurs
  have hfailed : (noted.note (.failure .outbound fault.message)).cleared = next.cleared :=
    hnoted
  obtain ⟨turn, hturned⟩ := hunsent.upkeep_eq hfailed
  have hupkept := hconcurs.twins.upkeep .idle
  have hresult := hconcurs.result_eq
  dsimp only at hupkept hresult
  rw [hturned] at hupkept
  have hcleared := hupkept.cleared.turned
    ((write payload e.countOperation).2.upkeep .idle).turn noted.turn
  have htwins : Twins (perform (.write payload) e).2.cleared next.cleared := by
    rw [perform_write_eq, ← hnoted]
    exact hcleared
  refine ⟨?_, htwins, htwins.run, fun time => (htwins.passTo time).run⟩
  rw [perform_write_eq, hresult]
  rfl

/-- A message that is sealed can only fail on the way into the stream. -/
theorem stops_or_unsent {fault : Fault} (hfault : (sendPacket payload e).1 = .error fault) :
    fault.Stops ∨ ∃ next, Unsent payload e fault next := by
  rcases hseal : sealPacket payload e with ⟨cause | packet, middle⟩
  · have hsend : sendPacket payload e = (.error cause, middle) := Act.bind_of_error hseal
    rw [hsend] at hfault
    cases hfault
    exact .inr (exists_unsent (congrArg Prod.fst hseal))
  left
  have hsend : sendPacket payload e =
      (sendAll packet.bytes >>= fun _ => completePacket packet.frameLength : Act C Unit) middle :=
    Act.bind_of_ok hseal
  rw [hsend] at hfault
  rcases hcarry : sendAll packet.bytes middle with ⟨cause | _, last⟩
  · rw [Act.bind_of_error hcarry] at hfault
    cases hfault
    exact stops_of_sendBefore (congrArg Prod.fst hcarry)
  · rw [Act.bind_of_ok hcarry] at hfault
    rcases flush_cases last with ⟨failure, flushes, -, hflush⟩ | ⟨flushes, hflush⟩
    · have hcomplete : completePacket packet.frameLength last =
          (.error (.stream failure), { last with flushes }) := Act.bind_of_error hflush
      rw [hcomplete] at hfault
      cases hfault
      exact .inr ⟨failure, rfl⟩
    · have hcomplete : completePacket packet.frameLength last = _ := Act.bind_of_ok hflush
      rw [hcomplete] at hfault
      cases hfault

theorem reason_write {fault : Fault} (hfault : (perform (.write payload) e).1 = .error fault) :
    fault.Stops ∨ e.closed = false ∧ ∃ next, Unsent payload e.waited fault next := by
  rw [perform_write_eq] at hfault
  dsimp only at hfault
  by_cases hclosed : e.closed = true
  · have hrefused : (write payload e.countOperation).1 = .error .closed := by
      unfold write
      rw [if_pos (show e.countOperation.closed = true from hclosed)]
    rw [hrefused] at hfault
    cases hfault
    exact .inl (.inl rfl)
  have hopen : e.closed = false := Bool.of_not_eq_true hclosed
  rw [(concurs_write hopen payload).result_eq] at hfault
  refine (stops_or_unsent ?_).imp_right fun hunsent => ⟨hopen, hunsent⟩
  unfold Act.noting at hfault
  rcases hsend : sendPacket payload e.waited with ⟨cause | _, next⟩
  all_goals
    rw [hsend] at hfault
    cases hfault
  rfl

/-- A write that fails before any octet is offered to the stream leaves the connection in
sync. -/
theorem inSync_write (payload : Bytes) (e : Endpoint C) : InSync payload e where
  reason _ := reason_write
  ends hopen _ _ := Unsent.endsLike hopen
  untouched hopen _ _ hunsent := hunsent.untouched (hunsent.endsLike hopen).twins
  prompt := waited_of_still

/-- A writer whose tag engine yields fewer octets than it is to send. -/
def shortTagged : Endpoint Rehearsal.Cipher :=
  { newEndpoint with
    outbound := ⟨some ⟨.mask 32, 8, ⟨3, fun _ _ => .ok [7]⟩, 3, by decide, by decide,
      Nat.le_refl 3⟩, {}⟩ }

theorem inSync_write_shortTagged :
    shortTagged.closed = false ∧
      (∃ next, EndsLike (perform (.write [1]) shortTagged) (.shortTag 1 3) next) ∧
      EndsLike (perform (.write (List.replicate 35000 0)) shortTagged)
        (.messageTooLong 35012 maxPacketLength) shortTagged.waited := by
  have hunsigned := inSync_write [1] shortTagged
  have htooLong := inSync_write (List.replicate 35000 0) shortTagged
  obtain ⟨turn, hwaited⟩ := hunsigned.prompt rfl rfl rfl
  have hlength : framedLength (List.replicate 35000 (0 : UInt8)).length
      shortTagged.waited.outbound.blockSize = 35012 := by
    rw [List.length_replicate, hwaited]
    change framedLength 35000 8 = 35012
    decide
  have hunsent : ∃ next, Unsent [1] shortTagged.waited (.shortTag 1 3) next := by
    rw [hwaited]
    exact ⟨_, .unsigned rfl rfl⟩
  obtain ⟨next, hnext⟩ := hunsent
  refine ⟨rfl, ⟨next, hunsigned.ends rfl _ _ hnext⟩, ?_⟩
  rw [← hlength]
  refine htooLong.ends rfl _ _ (.tooLong ?_)
  rw [hlength]
  decide

end PacketLayer.Endpoint
