import PacketLayer.Proofs.Course.Effects

/-! # The course of sending

Sealing a packet, handing its octets to the stream and waiting for the stream take an
endpoint along a course of deeds, and so does all that keep-alive messages and other parties
bring with them. No packet is read on the way.
-/

namespace PacketLayer

variable {C : Type}

namespace Stage

/-- The stage with another endpoint, which has octets on their way and follows its write
script. -/
def amid (writes : WriteScript (Protection C)) (sending : Option Dispatch) (e : Endpoint C)
    (s : Stage C) : Stage C :=
  { s with endpoint := e, writes, sending }

/-- The stage with another endpoint, between two steps of sending. -/
def around (e : Endpoint C) (s : Stage C) : Stage C :=
  s.amid e.writes e.occupying e

theorem around_of_free {e : Endpoint C} (hfree : e.held = none) (s : Stage C) :
    s.around e = s.amid e.writes none e := by
  rw [around, Endpoint.occupying, hfree]
  rfl

end Stage

variable [BlockCipher C] {s : Stage C}

/-- What the outside learns when sending ends: the answer to a request, if there was one. -/
def answers (request : Option Request) (result : Except Fault Unit) : List Tiding :=
  (request.map fun request => Tiding.answered ⟨request, false, result⟩).toList

theorem Passes.reads_eq {next : Stage C} {tidings : List Tiding}
    (hpasses : Passes Deed.Writes s tidings next) :
    next.endpoint.reads = s.endpoint.reads ∧ next.reads = s.reads :=
  hpasses.relates (R := fun s next => next.endpoint.reads = s.endpoint.reads ∧ next.reads = s.reads)
    (fun _ => ⟨rfl, rfl⟩) (fun hfirst hsecond =>
      ⟨hsecond.1.trans hfirst.1, hsecond.2.trans hfirst.2⟩) fun hwrites => Does.reads_eq hwrites

theorem Passes.dues_eq {next : Stage C} {tidings : List Tiding}
    (hpasses : Passes Deed.Sends s tidings next) : next.endpoint.dues = s.endpoint.dues :=
  hpasses.relates (R := fun s next => next.endpoint.dues = s.endpoint.dues) (fun _ => rfl)
    (fun hfirst hsecond => hsecond.trans hfirst) fun hsends => Does.dues_eq hsends

namespace Endpoint

/-! ## Handing octets to the stream -/

/-- How the sending of octets comes to a halt: all are accepted, the stream is not ready for the
rest, or it is over. -/
inductive Halts (s : Stage C) (request : Option Request) (frameLength : Option Nat)
    (start : Stage C) : Progress × WriteScript (Protection C) × Endpoint C → Prop where
  | sent {writes : WriteScript (Protection C)} {e : Endpoint C}
      (hpasses : Passes Deed.Sends start [] (s.amid writes (some ⟨request, [], frameLength⟩) e)) :
      Halts s request frameLength start (.sent, writes, e)
  | blocked {shipment : Shipment} {writes : WriteScript (Protection C)} {e : Endpoint C}
      (hpasses : Passes Deed.Sends start []
        (s.amid writes (some ⟨request, shipment.rest, frameLength⟩) e)) :
      Halts s request frameLength start (.blocked shipment, writes, e)
  | failed {fault : Fault} {writes : WriteScript (Protection C)} {e : Endpoint C}
      (hpasses : Passes Deed.Sends start (answers request (.error fault)) (s.amid writes none e)) :
      Halts s request frameLength start (.failed fault, writes, e)

theorem Halts.after {request : Option Request} {frameLength : Option Nat} {start middle : Stage C}
    {outcome : Progress × WriteScript (Protection C) × Endpoint C}
    (hhalts : Halts s request frameLength middle outcome)
    (hbefore : Passes Deed.Sends start [] middle) : Halts s request frameLength start outcome := by
  cases hhalts with
  | sent hpasses => exact .sent (hbefore.trans hpasses)
  | blocked hpasses => exact .blocked (hbefore.trans hpasses)
  | failed hpasses => exact .failed (hbefore.trans hpasses)

/-- A note or another turn makes no difference to how sending comes to a halt. -/
theorem Halts.aside {request : Option Request} {frameLength : Option Nat} {start : Stage C}
    {progress : Progress} {writes : WriteScript (Protection C)} {e next : Endpoint C}
    (hhalts : Halts s request frameLength start (progress, writes, e))
    (hsight : next.sight = e.sight) :
    Halts s request frameLength start (progress, writes, next) := by
  cases hhalts with
  | sent hpasses => exact .sent (hpasses.aside trivial hsight)
  | blocked hpasses => exact .blocked (hpasses.aside trivial hsight)
  | failed hpasses => exact .failed (hpasses.aside trivial hsight)

section

variable {request : Option Request} {frameLength : Option Nat} {e : Endpoint C}

theorem passes_carried {writes left : WriteScript (Protection C)} {octets piece rest : Bytes}
    (hpausing : s.Pausing e.now) (haccepts : writes.Accepts piece rest left)
    (hoctets : piece ++ rest = octets) :
    Passes Deed.Sends (s.amid writes (some ⟨request, octets, frameLength⟩) e) []
      (s.amid left (some ⟨request, rest, frameLength⟩)
        { e with accepted := piece :: e.accepted }) := by
  subst hoctets
  exact .of_does (.carried (s := s.amid writes (some ⟨request, piece ++ rest, frameLength⟩) e)
    hpausing rfl haccepts) trivial

theorem passes_skipped {writes left : WriteScript (Protection C)} {octets : Bytes}
    (hpausing : s.Pausing e.now) (hskips : writes.Skips e.now e.moment left) :
    Passes Deed.Sends (s.amid writes (some ⟨request, octets, frameLength⟩) e) []
      (s.amid left (some ⟨request, octets, frameLength⟩) e) :=
  .of_does (.passedWrite (s := s.amid writes (some ⟨request, octets, frameLength⟩) e)
    hpausing nofun hskips) trivial

/-- Sending is over when the endpoint is found closed. -/
theorem halts_closed (hpausing : s.Pausing e.now) (hclosed : e.closed = true)
    (writes : WriteScript (Protection C)) (octets : Bytes) :
    Halts s request frameLength (s.amid writes (some ⟨request, octets, frameLength⟩) e)
      (.failed .closed, writes, e) :=
  .failed (.of_does (.stopped (s := s.amid writes (some ⟨request, octets, frameLength⟩) e)
    hpausing rfl (.closed hclosed)) trivial)

theorem halts_await (hpausing : s.Pausing e.now) (rest : Bytes) (attempt pause : Alarm)
    (writes : WriteScript (Protection C)) :
    Halts s request frameLength (s.amid writes (some ⟨request, rest, frameLength⟩) e)
      (e.await rest attempt pause, writes, e) := by
  unfold await
  split
  · exact .blocked (.refl _)
  split
  next hclosed => exact halts_closed hpausing hclosed writes rest
  next => exact .blocked (.refl _)

end

/-- Following the write script hands over octets, and lets other parties act. -/
theorem halts_transmit {reader : ReaderState} (hreader : s.reader = reader)
    (request : Option Request) (frameLength : Option Nat) (items : WriteScript (Protection C))
    (octets : Bytes) (attempt : Alarm) {e : Endpoint C} (hpausing : s.Pausing e.now) :
    Halts s request frameLength (s.amid items (some ⟨request, octets, frameLength⟩) e)
      (transmit reader items octets attempt e) := by
  subst hreader
  induction items generalizing octets attempt e with
  | nil => exact .sent (passes_carried hpausing (.all octets) (List.append_nil octets))
  | cons item items ih =>
      cases item with
      | accept count =>
          unfold transmit
          dsimp only
          split
          next hzero =>
            subst hzero
            exact .failed (.of_does (.stopped
              (s := s.amid (.accept 0 :: items) (some ⟨request, octets, frameLength⟩) e)
              hpausing rfl (.refused rfl)) trivial)
          next hcount =>
            have hcarried : Passes Deed.Sends
                (s.amid (.accept count :: items) (some ⟨request, octets, frameLength⟩) e) []
                (s.amid items (some ⟨request, octets.drop count, frameLength⟩)
                  { e with accepted := octets.take count :: e.accepted }) :=
              passes_carried hpausing (.part hcount octets items) (List.take_append_drop _ _)
            split
            next hall =>
              rw [List.drop_of_length_le hall] at hcarried
              exact .sent hcarried
            split
            next hclosed =>
              exact (halts_closed (e := { e with accepted := octets.take count :: e.accepted })
                hpausing hclosed items _).after hcarried
            next =>
              exact (ih _ _ (e := { e with accepted := octets.take count :: e.accepted })
                hpausing).after hcarried
      | fail failure =>
          unfold transmit
          split
          next hfinal =>
            exact .failed (.of_does (.stopped
              (s := s.amid (.fail failure :: items) (some ⟨request, octets, frameLength⟩) e)
              hpausing rfl (.failed rfl hfinal)) trivial)
          next htransient =>
            have hskipped : Passes Deed.Sends
                (s.amid (.fail failure :: items) (some ⟨request, octets, frameLength⟩) e) []
                (s.amid items (some ⟨request, octets, frameLength⟩) e) :=
              passes_skipped hpausing (.fail (not_not.mp htransient) items)
            split
            next hclosed => exact (halts_closed hpausing hclosed items _).after hskipped
            next => exact (ih _ _ hpausing).after hskipped
      | pause milliseconds =>
          unfold transmit
          split
          next hzero =>
            subst hzero
            exact (ih _ _ hpausing).after (passes_skipped hpausing (.hollow items))
          next =>
            exact (halts_await hpausing _ _ _ _).after
              (passes_skipped hpausing (.pause milliseconds items))
      | resumeAt pause =>
          unfold transmit
          split
          next hpassed =>
            exact (ih _ _ hpausing).after (passes_skipped hpausing (.resumeAt hpassed items))
          next => exact halts_await hpausing _ _ _ _
      | act action =>
          have hacted : Passes Deed.Sends
              (s.amid (.act action :: items) (some ⟨request, octets, frameLength⟩) e) []
              (s.amid items (some ⟨request, octets, frameLength⟩) (e.act s.reader action)) :=
            .of_does (.acted (.writes (s := s.amid (.act action :: items)
              (some ⟨request, octets, frameLength⟩) e) hpausing (Option.some_ne_none _) rfl))
              trivial
          have hnow := now_act s.reader action e
          exact (ih _ _ (hnow ▸ hpausing)).after hacted

theorem halts_proceed {reader : ReaderState} (hreader : s.reader = reader)
    (request : Option Request) (frameLength : Option Nat) (octets : Bytes) (attempt : Alarm)
    {e : Endpoint C} (hpausing : s.Pausing e.now) :
    Halts s request frameLength (s.amid e.writes (some ⟨request, octets, frameLength⟩) e)
      ((proceed reader octets attempt e).1, (proceed reader octets attempt e).2.writes,
        (proceed reader octets attempt e).2) := by
  unfold proceed
  split
  next hempty =>
    obtain rfl := List.isEmpty_iff.mp hempty
    exact .sent (.refl _)
  next => exact (halts_transmit hreader request frameLength _ octets attempt hpausing).aside rfl

/-! ## Ending a packet -/

omit [BlockCipher C] in
theorem flush_cases (e : Endpoint C) :
    (∃ failure flushes, e.flushes = .fail failure :: flushes ∧
      flush e = (.error (.stream failure), { e with flushes })) ∨
      ∃ flushes, flush e = (.ok (), { e with flushes }) := by
  unfold flush
  split
  next failure flushes hflushes => exact .inl ⟨failure, flushes, hflushes, rfl⟩
  next => exact .inr ⟨_, rfl⟩

/-- Sending is over once the stream is flushed, or fails to be. -/
theorem passes_flush (request : Option Request) (frameLength : Option Nat)
    (writes : WriteScript (Protection C)) {e : Endpoint C} (hpausing : s.Pausing e.now) :
    (∃ failure flushes, flush e = (.error (.stream failure), { e with flushes }) ∧
      Passes Deed.Sends (s.amid writes (some ⟨request, [], frameLength⟩) e)
        (answers request (.error (.stream failure))) (s.amid writes none { e with flushes })) ∨
      ∃ flushes, flush e = (.ok (), { e with flushes }) ∧
        Passes Deed.Sends (s.amid writes (some ⟨request, [], frameLength⟩) e)
          (answers request (.ok ()))
          (s.amid writes none (countSent frameLength { e with flushes })) := by
  rcases flush_cases e with ⟨failure, flushes, hflushes, hflush⟩ | ⟨flushes, hflush⟩
  · exact .inl ⟨failure, flushes, hflush, .of_does (.stopped
      (s := s.amid writes (some ⟨request, [], frameLength⟩) e) hpausing rfl
      (.unflushed rfl hflushes)) trivial⟩
  · have hended : Passes Deed.Sends _ _ _ := .of_does
      (.completed (s := s.amid writes (some ⟨request, [], frameLength⟩) e) hpausing rfl
        (congrArg Prod.fst hflush)) trivial
    rw [show flush (s.amid writes (some ⟨request, [], frameLength⟩) e).endpoint = _ from hflush]
      at hended
    exact .inr ⟨flushes, hflush, hended⟩

theorem passes_completePacket (request : Option Request) (frameLength : Nat)
    (writes : WriteScript (Protection C)) {e : Endpoint C} (hpausing : s.Pausing e.now) :
    Passes Deed.Sends (s.amid writes (some ⟨request, [], some frameLength⟩) e)
      (answers request (completePacket frameLength e).1)
      (s.amid writes none (completePacket frameLength e).2) := by
  unfold completePacket
  rcases passes_flush request (some frameLength) writes hpausing with
    ⟨failure, flushes, hflush, hpasses⟩ | ⟨flushes, hflush, hpasses⟩
  · rw [Act.bind_of_error hflush]
    exact hpasses
  · rw [Act.bind_of_ok hflush]
    exact hpasses

/-! ## Sealing -/

/-- How the sealing of a payload ends: with a reason against it, or with a packet to send. It
touches the outbound lane and takes padding. -/
inductive Sealing (request : Option Request) (payload : Bytes) (start drafted : Stage C) :
    Except Fault SealedPacket × Endpoint C → Prop where
  | declined {fault : Fault} {next : Endpoint C} {lane : Lane C} {padding : ByteSource}
      (hsight : next.sight = sight { drafted.endpoint with outbound := lane, padding })
      (hcourse : Course start [.declined request payload fault, .aside]
        { drafted with endpoint := next }) :
      Sealing request payload start drafted (.error fault, next)
  | made {plain : Bytes} {made : SealedPacket} {next : Endpoint C} {lane : Lane C}
      {padding : ByteSource}
      (hsight : next.sight = sight { drafted.endpoint with outbound := lane, padding })
      (hcourse : Course start [.sealed request payload plain made.bytes, .aside]
        { drafted with
          endpoint := next
          sending := some ⟨request, made.bytes, some made.frameLength⟩ }) :
      Sealing request payload start drafted (.ok made, next)

theorem sealing_sealPacket {request : Option Request} {payload : Bytes} {drafted : Stage C}
    (hfree : s.sending = none) (hdrafts : s.Drafts request payload drafted) :
    Sealing request payload s drafted (sealPacket payload drafted.endpoint) := by
  -- what is drafted leaves alone all that sealing looks at
  obtain ⟨houtbound, hpadding⟩ : drafted.endpoint.outbound = s.endpoint.outbound ∧
      drafted.endpoint.padding = s.endpoint.padding := by
    cases hdrafts <;> exact ⟨rfl, rfl⟩
  have hdeclined {fault : Fault} {lane : Lane C} {next : Endpoint C}
      (hdeclines : s.endpoint.outbound.Declines payload fault lane)
      (hsight : next.sight = sight { drafted.endpoint with
        outbound := lane
        padding := (frame payload s.endpoint.outbound.blockSize s.endpoint.padding).2 }) :
      Sealing request payload s drafted (.error fault, next) :=
    .declined hsight (.step (.declined hfree hdrafts hdeclines) (.single (.aside hsight)))
  unfold sealPacket
  by_cases hfits : framedLength payload.length s.endpoint.outbound.blockSize ≤ maxPacketLength
  · obtain ⟨plain, hframe, hframed⟩ := frame_of_fits hfits s.endpoint.padding
    have hframing : frameOutbound payload drafted.endpoint = (.ok plain, { drafted.endpoint with
        padding := (frame payload s.endpoint.outbound.blockSize s.endpoint.padding).2 }) := by
      simp [frameOutbound, houtbound, hpadding, hframed]
    rw [Act.bind_of_ok hframing, Act.update_bind, Act.update_bind, Act.ask_bind, id]
    generalize hdumped : dump .outbound plain _ = dumped
    have hsight (lane : Lane C) : sight { dumped with outbound := lane } = sight
        { drafted.endpoint with
          outbound := lane
          padding := (frame payload s.endpoint.outbound.blockSize s.endpoint.padding).2 } := by
      have hsame := (sight_dump .outbound plain _).trans (sight_note
        (show (Event.packet .outbound (MessageType.describePayload payload) plain.length).tells =
          false from rfl)
        { drafted.endpoint with
          padding := (frame payload s.endpoint.outbound.blockSize s.endpoint.padding).2 })
      rw [hdumped] at hsame
      exact congrArg (fun e : Endpoint C => { e with outbound := lane }) hsame
    have hlane : dumped.outbound = s.endpoint.outbound := by
      have hsame := congrArg Endpoint.outbound (sight_dump .outbound plain (note
        (.packet .outbound (MessageType.describePayload payload) plain.length)
        { drafted.endpoint with
          padding := (frame payload s.endpoint.outbound.blockSize s.endpoint.padding).2 }))
      rw [hdumped] at hsame
      exact hsame.trans houtbound
    rw [hlane]
    cases hsign : s.endpoint.outbound.sign plain with
    | error fault =>
        rw [Act.ofExcept_error_bind]
        have hstill := hsight s.endpoint.outbound
        rw [show { dumped with outbound := s.endpoint.outbound } = dumped by rw [← hlane]]
          at hstill
        exact hdeclined (.unsigned hframe hsign) hstill
    | ok tag =>
        rw [Act.ofExcept_ok_bind]
        rcases happly : s.endpoint.outbound.apply plain with ⟨result, lane⟩
        have hencipher : encipher plain dumped = (result, { dumped with outbound := lane }) := by
          simp [encipher, hlane, happly]
        cases result with
        | error fault =>
            rw [Act.bind_of_error hencipher]
            exact hdeclined (.unciphered hframe hsign happly) (hsight lane)
        | ok enciphered =>
            rw [Act.bind_of_ok hencipher, Act.update_bind]
            exact .made (hsight lane.advance)
              (.step (.sealed hfree hdrafts (congrArg Prod.fst hframed) (.intro hsign happly))
                (.single (.aside (hsight lane.advance))))
  · have hlong := Nat.not_le.mp hfits
    have hframing : frameOutbound payload drafted.endpoint =
        (.error (.messageTooLong (framedLength payload.length drafted.endpoint.outbound.blockSize)
          maxPacketLength), drafted.endpoint) := by
      rw [← houtbound] at hlong
      simp [frameOutbound, frame, hlong]
    have hstill : (frame payload s.endpoint.outbound.blockSize s.endpoint.padding).2 =
        drafted.endpoint.padding := by
      simp [frame, hpadding, hlong]
    rw [Act.bind_of_error hframing, houtbound]
    refine hdeclined (.tooLong hlong) ?_
    rw [hstill, ← houtbound]

/-! ## Keep-alive messages -/

omit [BlockCipher C] in
theorem held_reportKeepAlive (outcome : Except Fault Unit × Endpoint C) :
    (reportKeepAlive outcome).held = outcome.2.held :=
  congrArg (·.2.2) (outlet_reportKeepAlive outcome)

omit [BlockCipher C] in
theorem writes_reportKeepAlive (outcome : Except Fault Unit × Endpoint C) :
    (reportKeepAlive outcome).writes = outcome.2.writes :=
  congrArg (·.2.1) (outlet_reportKeepAlive outcome)

/-- A keep-alive message that has come so far ends, or goes on occupying the lane. -/
theorem passes_settleKeepAlive {start : Stage C} {frameLength : Nat} {progress : Progress}
    {e : Endpoint C} (hpausing : s.Pausing e.now) (hfree : e.held = none)
    (hhalts : Halts s none (some frameLength) start (progress, e.writes, e))
    (hholds : ∀ shipment, progress = .blocked shipment → e.Holds shipment) :
    Passes Deed.Sends start [] (s.around (settleKeepAlive frameLength (progress, e))) := by
  cases hhalts with
  | @blocked shipment _ _ hpasses =>
      obtain ⟨hlater, pause, items, hwrites, hready⟩ := hholds shipment rfl
      exact hpasses.trans (.of_does (.heldBack
        (s := s.amid e.writes (some ⟨none, shipment.rest, some frameLength⟩) e)
        hpausing rfl hwrites hlater hready) trivial)
  | sent hpasses =>
      have houtlet := keeps_completePacket frameLength e
      have hheld : (settleKeepAlive frameLength (.sent, e)).held = none :=
        (held_reportKeepAlive _).trans ((congrArg (·.2.2) houtlet).trans hfree)
      have hwrites : (settleKeepAlive frameLength (.sent, e)).writes = e.writes :=
        (writes_reportKeepAlive _).trans (congrArg (·.2.1) houtlet)
      rw [Stage.around_of_free hheld, hwrites]
      exact (hpasses.trans (passes_completePacket none frameLength e.writes hpausing)).aside
        trivial (sight_reportKeepAlive _)
  | @failed fault _ _ hpasses =>
      have hheld : (settleKeepAlive frameLength (.failed fault, e)).held = none :=
        (held_reportKeepAlive (.error fault, e)).trans hfree
      rw [Stage.around_of_free hheld]
      exact hpasses.aside trivial (sight_reportKeepAlive (.error fault, e))

/-- Octets of a keep-alive message are sent as far as the stream is ready for them. -/
theorem passes_proceedKeepAlive {reader : ReaderState} (hreader : s.reader = reader)
    {e : Endpoint C} (hpausing : s.Pausing e.now) (hfree : e.held = none) (octets : Bytes)
    (attempt : Alarm) (frameLength : Nat) :
    Passes Deed.Sends (s.amid e.writes (some ⟨none, octets, some frameLength⟩) e) []
      (s.around (settleKeepAlive frameLength (proceed reader octets attempt e))) := by
  have hnow := now_proceed reader octets attempt e
  refine passes_settleKeepAlive (hnow ▸ hpausing)
    ((held_proceed reader octets attempt e).trans hfree)
    (halts_proceed hreader none (some frameLength) octets attempt hpausing) ?_
  exact fun shipment hblocked => holds_of_proceed (Prod.ext hblocked rfl)

theorem passes_resumeKeepAlive {reader : ReaderState} (hreader : s.reader = reader)
    {e : Endpoint C} (hpausing : s.Pausing e.now) :
    Passes Deed.Sends (s.around e) [] (s.around (e.resumeKeepAlive reader)) := by
  unfold resumeKeepAlive
  split
  next => exact .refl _
  next message hheld =>
    have hresumed : Passes Deed.Sends _ _ _ :=
      .of_does (.resumed (s := s.around e) hpausing hheld) trivial
    have htaken := hresumed.aside (e := { e with
      held := none
      turn := .called 0 message.shipment.wake }) trivial rfl
    rw [Stage.around, occupying, hheld] at htaken
    have hsent := passes_proceedKeepAlive hreader (e := { e with
      held := none
      turn := .called 0 message.shipment.wake }) hpausing rfl message.shipment.rest
      message.shipment.attempt message.frameLength
    rw [Stage.around, occupying, hheld]
    exact htaken.trans hsent

/-- Messages that are asked for queue for the outbound lane, unless the endpoint is closed. -/
theorem passes_admitKeepAlives {e : Endpoint C} (hpausing : s.Pausing e.now) :
    Passes Deed.Tends (s.around e) [] (s.around e.admitKeepAlives) := by
  have houtlet := outlet_admitKeepAlives e
  have hwrites : e.admitKeepAlives.writes = e.writes := congrArg (·.2.1) houtlet
  have hheld : e.admitKeepAlives.occupying = e.occupying := by
    rw [occupying, occupying, show e.admitKeepAlives.held = e.held from congrArg (·.2.2) houtlet]
  rw [Stage.around, Stage.around, hwrites, hheld]
  by_cases howed : e.owed = 0
  · refine .of_does (.aside (s := s.amid e.writes e.occupying e) (e := e.admitKeepAlives) ?_)
      trivial
    unfold admitKeepAlives
    split
    · rw [sight_repeat_note rfl, ← howed]
      rfl
    · rw [howed, Nat.add_zero, ← howed]
      rfl
  · exact .of_does (.admitted (s := s.amid e.writes e.occupying e) hpausing howed) trivial

/-- A keep-alive message that queues is sealed, and sent as far as the stream is ready for it. -/
theorem passes_beginKeepAlive {reader : ReaderState} (hreader : s.reader = reader) {count : Nat}
    {e : Endpoint C} (hpausing : s.Pausing e.now) (hfree : e.held = none)
    (hqueued : e.queued = count + 1) :
    Passes Deed.Tends (s.around e) []
        (s.around ({ e with queued := count }.beginKeepAlive reader)) ∧
      ({ e with queued := count }.beginKeepAlive reader).dues = (e.owed, count) := by
  have hsealing : Sealing none (keepAliveMessage keepAliveDataLength e.noise).1 (s.around e)
      (s.amid e.writes none
        { e with queued := count, noise := (keepAliveMessage keepAliveDataLength e.noise).2 })
      (sealPacket (keepAliveMessage keepAliveDataLength e.noise).1
        { e with queued := count, noise := (keepAliveMessage keepAliveDataLength e.noise).2 }) := by
    rw [Stage.around_of_free hfree]
    exact sealing_sealPacket (s := s.amid e.writes none e) rfl (.keepAlive hpausing hqueued)
  have houtlet := keeps_sealPacket (keepAliveMessage keepAliveDataLength e.noise).1
    { e with queued := count, noise := (keepAliveMessage keepAliveDataLength e.noise).2 }
  unfold beginKeepAlive
  dsimp only
  rcases houtcome : sealPacket (keepAliveMessage keepAliveDataLength e.noise).1
    { e with queued := count, noise := (keepAliveMessage keepAliveDataLength e.noise).2 } with
    ⟨result, next⟩
  rw [houtcome] at hsealing houtlet
  have hnow : next.now = e.now := congrArg Prod.fst houtlet
  have hwrites : next.writes = e.writes := congrArg (·.2.1) houtlet
  have hheld : next.held = none := (congrArg (·.2.2) houtlet : next.held = e.held).trans hfree
  cases hsealing with
  | @made plain made _ _ _ hsight hcourse =>
      have hdues : next.dues = (e.owed, count) := view_of_sight dues (fun _ => rfl) hsight
      have hsealed : Passes Deed.Tends (s.around e) []
          (s.amid next.writes (some ⟨none, made.bytes, some made.frameLength⟩) next) := by
        rw [hwrites]
        exact ⟨_, hcourse, rfl, by simp [Deed.Tends, Deed.Sends]⟩
      have hsent := passes_proceedKeepAlive hreader (hnow ▸ hpausing) hheld made.bytes
        next.attempt made.frameLength
      exact ⟨hsealed.trans (hsent.mono Deed.Sends.tends), hsent.dues_eq.trans hdues⟩
  | @declined fault _ _ _ hsight hcourse =>
      have hdues : next.dues = (e.owed, count) := view_of_sight dues (fun _ => rfl) hsight
      have hdeclined : Passes Deed.Tends (s.around e) [] (s.amid next.writes none next) := by
        rw [hwrites]
        exact ⟨_, hcourse, rfl, by simp [Deed.Tends, Deed.Sends]⟩
      refine ⟨?_, hdues⟩
      rw [Stage.around_of_free (e := reportKeepAlive (.error fault, next)) hheld]
      exact hdeclined.aside trivial (sight_reportKeepAlive (.error fault, next))

/-- While a queue is written, each message of it in turn takes the outbound lane. None is left
once the lane is free. -/
theorem passes_beginKeepAlives {reader : ReaderState} (hreader : s.reader = reader)
    (turn : Nat → Turn) (count : Nat) {e : Endpoint C} (hpausing : s.Pausing e.now)
    (howed : e.owed = 0) (hqueued : e.queued = count) :
    Passes Deed.Tends (s.around e) [] (s.around (e.beginKeepAlives reader turn count)) ∧
      (e.beginKeepAlives reader turn count).owed = 0 ∧
      ((e.beginKeepAlives reader turn count).held = none →
        (e.beginKeepAlives reader turn count).queued = 0) := by
  induction count generalizing e with
  | zero => exact ⟨.refl _, howed, fun _ => hqueued⟩
  | succ count ih =>
      unfold beginKeepAlives
      split
      next hoccupied =>
        refine ⟨.refl _, howed, fun hfree => ?_⟩
        rw [hfree] at hoccupied
        cases hoccupied
      next hoccupied =>
        have hfree : e.held = none := by simpa using hoccupied
        have hturned : Passes Deed.Tends (s.around e) [] (s.around { e with turn := turn count }) :=
          .of_does (.aside (s := s.around e) (e := { e with turn := turn count }) rfl) trivial
        obtain ⟨hbegun, hdues⟩ := passes_beginKeepAlive hreader
          (e := { e with turn := turn count }) hpausing hfree hqueued
        obtain ⟨hstill, hleft⟩ := Prod.mk.inj hdues
        have hnow := (tended_beginKeepAlive reader
          (e := { e with queued := count, turn := turn count }) hfree).now_eq
        obtain ⟨hrest, hsettled⟩ := ih (e := { e with queued := count, turn := turn count
          }.beginKeepAlive reader) (by rwa [hnow]) (hstill.trans howed) hleft
        exact ⟨hturned.trans (hbegun.trans hrest), hsettled⟩

/-- Once keep-alive messages have been looked after, none is asked for, and none queues for a
lane that is free. -/
theorem tends_upkeep {reader : ReaderState} (hreader : s.reader = reader) {e : Endpoint C}
    (hpausing : s.Pausing e.now) :
    Passes Deed.Tends (s.around e) [] (s.around (e.upkeep reader)) ∧
      (e.upkeep reader).owed = 0 ∧
      ((e.upkeep reader).held = none → (e.upkeep reader).queued = 0) := by
  have hresumed := passes_resumeKeepAlive hreader hpausing
  have hnow := (tended_resumeKeepAlive reader e).now_eq
  have hadmitted :=
    passes_admitKeepAlives (s := s) (e := e.resumeKeepAlive reader) (hnow ▸ hpausing)
  have hagain : (e.resumeKeepAlive reader).admitKeepAlives.now = e.now :=
    (congrArg Prod.fst (outlet_admitKeepAlives _)).trans hnow
  unfold upkeep
  obtain ⟨hbegun, hsettled⟩ := passes_beginKeepAlives hreader
    (e.turnOfQueued (e.resumeKeepAlive reader).admitKeepAlives.queued) _ (hagain ▸ hpausing)
    (owed_admitKeepAlives _) rfl
  exact ⟨(hresumed.mono Deed.Sends.tends).trans (hadmitted.trans hbegun), hsettled⟩

theorem passes_upkeep {reader : ReaderState} (hreader : s.reader = reader) {e : Endpoint C}
    (hpausing : s.Pausing e.now) : Passes Deed.Tends (s.around e) [] (s.around (e.upkeep reader)) :=
  (tends_upkeep hreader hpausing).1

/-- Upkeep comes first, and then time passes until the message that is set aside goes on. -/
theorem passes_wait {reader : ReaderState} (hreader : s.reader = reader) {time : Nat}
    {e : Endpoint C} (hpausing : s.Pausing e.now)
    (hwaits : ∀ message, (e.upkeep reader).held = some message →
      time ≤ message.shipment.wake.time) :
    Passes Deed.Tends (s.around e) [] (s.around ((e.upkeep reader).advanceTo time)) := by
  obtain ⟨hpasses, howed, hqueued⟩ := tends_upkeep hreader hpausing
  have htended := tended_upkeep reader e
  exact hpasses.trans (.of_does (.waited (s := s.around (e.upkeep reader))
    (htended.now_eq ▸ hpausing) ⟨howed, hqueued, fun message hheld =>
      ⟨(htended.steady message hheld).1, hwaits message hheld⟩⟩) trivial)

theorem passes_waitUntil {reader : ReaderState} (hreader : s.reader = reader) {time : Nat}
    (hpausing : ∀ now, now < time → s.Pausing now) (e : Endpoint C) :
    Passes Deed.Tends (s.around e) [] (s.around (e.waitUntil reader time)) := by
  fun_induction waitUntil reader time e with
  | case1 e _ => exact .refl _
  | case2 e hlater ready hfree =>
      refine passes_wait hreader (hpausing e.now (Nat.lt_of_not_le hlater)) fun message hheld => ?_
      rw [hfree] at hheld
      cases hheld
  | case3 e hlater ready message hheld hearly ih =>
      refine (passes_wait hreader (hpausing e.now (Nat.lt_of_not_le hlater))
        fun other hother => ?_).trans ih
      obtain rfl := Option.some.inj (hheld.symm.trans hother)
      exact Nat.le_refl _
  | case4 e hlater ready message hheld hlate =>
      refine passes_wait hreader (hpausing e.now (Nat.lt_of_not_le hlater)) fun other hother => ?_
      obtain rfl := Option.some.inj (hheld.symm.trans hother)
      exact Nat.le_of_not_lt hlate

/-- A stage at which an endpoint waits for a time, in the middle of an attempt to read or when
nothing else is left to do. -/
def waiting (reader : ReaderState) (time : Nat) (e : Endpoint C) : Stage C :=
  match reader with
  | .idle => e.during .free
  | .busy =>
      ⟨e, .reading ⟨.packet, some ⟨.packet, 0, .finished, []⟩, [], none⟩, [.resumeAt time],
        e.writes, e.occupying⟩

omit [BlockCipher C] in
theorem reader_waiting (reader : ReaderState) (time : Nat) (e : Endpoint C) :
    (e.waiting reader time).reader = reader := by
  cases reader <;> rfl

omit [BlockCipher C] in
theorem pausing_waiting (reader : ReaderState) {time now : Nat} (hlater : now < time)
    (e : Endpoint C) : (e.waiting reader time).Pausing now := by
  cases reader with
  | idle => trivial
  | busy => exact ⟨nofun, time, [], rfl, hlater⟩

omit [BlockCipher C] in
theorem around_waiting (reader : ReaderState) (time : Nat) (e : Endpoint C) :
    (e.waiting reader time).around e = e.waiting reader time := by
  cases reader <;> rfl

/-- Upkeep and waiting go their course wherever an endpoint waits. -/
theorem waits_upkeep (reader : ReaderState) (e : Endpoint C) :
    Passes Deed.Tends (e.waiting reader (e.now + 1)) []
      ((e.waiting reader (e.now + 1)).around (e.upkeep reader)) := by
  have hpasses := passes_upkeep (reader_waiting reader (e.now + 1) e)
    (pausing_waiting reader (Nat.lt_succ_self e.now) e)
  rwa [around_waiting] at hpasses

theorem waits_waitUntil (reader : ReaderState) (time : Nat) (e : Endpoint C) :
    Passes Deed.Tends (e.waiting reader time) []
      ((e.waiting reader time).around (e.waitUntil reader time)) := by
  have hpasses := passes_waitUntil (reader_waiting reader time e)
    (fun _ hlater => pausing_waiting reader hlater e) e
  rwa [around_waiting] at hpasses

/-- Waiting for the outbound lane leaves it free. -/
theorem passes_awaitOutbound (hreader : s.reader = .idle) (hpausing : ∀ now, s.Pausing now)
    (e : Endpoint C) :
    Passes Deed.Tends (s.around e) [] (s.around e.awaitOutbound) ∧ e.awaitOutbound.held = none := by
  fun_induction awaitOutbound e with
  | case1 e ready hfree =>
      have htended : Passes Deed.Tends (s.around e) [] (s.around ready) :=
        passes_upkeep hreader (hpausing _)
      exact ⟨htended.aside (e := { ready with turn := .admitted }) trivial rfl, hfree⟩
  | case2 e ready message hheld ih =>
      refine ⟨(passes_wait hreader (hpausing _) fun other hother => ?_).trans ih.1, ih.2⟩
      obtain rfl := Option.some.inj (hheld.symm.trans hother)
      exact Nat.le_refl _

/-! ## Writing -/

/-- How the sending of octets for a request ends while nothing else is done. -/
inductive Sending (s : Stage C) (request : Request) (frameLength : Option Nat) (start : Stage C) :
    Except Fault Unit × Endpoint C → Prop where
  | sent {next : Endpoint C}
      (hpasses : Passes Deed.Tends start []
        (s.amid next.writes (some ⟨some request, [], frameLength⟩) next)) :
      Sending s request frameLength start (.ok (), next)
  | stopped {fault : Fault} {next : Endpoint C}
      (hpasses : Passes Deed.Tends start (answers (some request) (.error fault))
        (s.amid next.writes none next)) :
      Sending s request frameLength start (.error fault, next)

theorem Sending.after {request : Request} {frameLength : Option Nat} {start middle : Stage C}
    {outcome : Except Fault Unit × Endpoint C}
    (hsending : Sending s request frameLength middle outcome)
    (hbefore : Passes Deed.Tends start [] middle) :
    Sending s request frameLength start outcome := by
  cases hsending with
  | sent hpasses => exact .sent (hbefore.trans hpasses)
  | stopped hpasses => exact .stopped (hbefore.trans hpasses)

theorem sending_sendBefore (hreader : s.reader = .idle) (hpausing : ∀ now, s.Pausing now)
    (request : Request) (frameLength : Option Nat) (attempt : Alarm) (octets : Bytes)
    (e : Endpoint C) :
    Sending s request frameLength
      (s.amid e.writes (some ⟨some request, octets, frameLength⟩) e)
      (sendBefore attempt octets e) := by
  fun_induction sendBefore attempt octets e with
  | case1 attempt octets e next houtcome =>
      have hhalts := halts_proceed hreader (some request) frameLength octets attempt
        (hpausing e.now)
      rw [houtcome] at hhalts
      obtain hpasses | - | - := hhalts
      exact .sent (hpasses.mono Deed.Sends.tends)
  | case2 attempt octets e fault next houtcome =>
      have hhalts := halts_proceed hreader (some request) frameLength octets attempt
        (hpausing e.now)
      rw [houtcome] at hhalts
      obtain - | - | hpasses := hhalts
      exact .stopped (hpasses.mono Deed.Sends.tends)
  | case3 attempt octets e shipment next houtcome ih =>
      have hhalts := halts_proceed hreader (some request) frameLength octets attempt
        (hpausing e.now)
      obtain ⟨-, pause, items, hwrites, hready⟩ := holds_of_proceed houtcome
      rw [houtcome] at hhalts
      obtain - | hpasses | - := hhalts
      have hblocked := hpasses.mono Deed.Sends.tends
      have hstalled : Passes Deed.Tends
          (s.amid next.writes (some ⟨some request, shipment.rest, frameLength⟩) next) []
          (s.amid next.writes (some ⟨some request, shipment.rest, frameLength⟩)
            (next.advanceTo shipment.wake.time)) :=
        .of_does (.stalled
          (s := s.amid next.writes (some ⟨some request, shipment.rest, frameLength⟩) next)
          rfl hwrites hready) trivial
      exact ih.after (hblocked.trans hstalled)

omit [BlockCipher C] in
theorem held_sendBefore (attempt : Alarm) (octets : Bytes) (e : Endpoint C) :
    (sendBefore attempt octets e).2.held = e.held := by
  fun_induction sendBefore attempt octets e with
  | case1 attempt octets e next houtcome
  | case2 attempt octets e fault next houtcome =>
      have hheld := held_proceed .idle octets attempt e
      rw [houtcome] at hheld
      exact hheld
  | case3 attempt octets e shipment next houtcome ih =>
      have hheld := held_proceed .idle octets attempt e
      rw [houtcome] at hheld
      exact ih.trans hheld

omit [BlockCipher C] in
theorem held_sendAll (octets : Bytes) (e : Endpoint C) : (sendAll octets e).2.held = e.held :=
  held_sendBefore e.attempt octets e

/-- An operation that reads nothing ends with the scripts all there. -/
theorem passes_through {phase : Phase C} {e next : Endpoint C} {tidings : List Tiding}
    (hpasses : Passes Deed.Writes (e.during phase) tidings ((e.during .free).around next)) :
    Passes Deed.Writes (e.during phase) tidings (next.during .free) := by
  have hreads : next.reads = e.reads := hpasses.reads_eq.1
  have hstage : next.during .free = (e.during .free).around next := by
    simp [during, Stage.around, Stage.amid, hreads]
  rwa [hstage]

/-- A closed endpoint turns every request away. -/
theorem passes_turnAway {operation : Operation (Protection C)} {request : Request}
    (hrequest : operation.request? = some request) {e : Endpoint C} (hclosed : e.closed = true) :
    Passes Deed.Writes (e.during (.ordered operation)) [.answered ⟨request, true, .error .closed⟩]
      (e.during .free) := by
  refine .of_does (.turnedAway rfl hrequest hclosed fun dispatch hdispatch => ?_) trivial
  obtain ⟨message, -, rfl⟩ := Option.map_eq_some_iff.mp hdispatch
  rfl

/-- A message that is sealed is sent, and the request for it is answered. -/
theorem passes_sendPacket {payload : Bytes} (hphase : s.phase = .ordered (.write payload))
    {e : Endpoint C} (hfree : e.held = none) :
    Passes Deed.Writes (s.around e)
        [.answered ⟨.message payload, false, (sendPacket payload e).1⟩]
        ({ s with phase := .free }.around (sendPacket payload e).2) ∧
      (sendPacket payload e).2.held = none := by
  have hsealing : Sealing (some (.message payload)) payload (s.around e)
      ({ s with phase := .free }.amid e.writes none e) (sealPacket payload e) := by
    rw [Stage.around_of_free hfree]
    exact sealing_sealPacket (s := s.amid e.writes none e) rfl (.own hphase)
  have houtlet := keeps_sealPacket payload e
  unfold sendPacket
  rcases hsealed : sealPacket payload e with ⟨result, between⟩
  rw [hsealed] at hsealing houtlet
  have hwrites : between.writes = e.writes := congrArg (·.2.1) houtlet
  have hheld : between.held = none := (congrArg (·.2.2) houtlet : between.held = e.held).trans hfree
  cases hsealing with
  | declined _ hcourse =>
      rw [Act.bind_of_error hsealed, Stage.around_of_free (e := between) hheld, hwrites]
      exact ⟨⟨_, hcourse, rfl, by simp [Deed.Writes, Deed.Tends, Deed.Sends]⟩, hheld⟩
  | @made _ made _ _ _ _ hcourse =>
      have hmade : Passes Deed.Writes (s.around e) [] ({ s with phase := .free }.amid
          between.writes (some ⟨some (.message payload), made.bytes, some made.frameLength⟩)
          between) := by
        rw [hwrites]
        exact ⟨_, hcourse, rfl, by simp [Deed.Writes, Deed.Tends, Deed.Sends]⟩
      have hsending := sending_sendBefore (s := { s with phase := .free }) rfl (fun _ => trivial)
        (.message payload) (some made.frameLength) between.attempt made.bytes between
      have hlast := (held_sendAll made.bytes between).trans hheld
      rw [Act.bind_of_ok hsealed]
      rcases hsent : sendAll made.bytes between with ⟨result, last⟩
      rw [show sendBefore between.attempt made.bytes between = _ from hsent] at hsending
      rw [hsent] at hlast
      cases hsending with
      | stopped hstopped =>
          rw [Act.bind_of_error hsent, Stage.around_of_free (e := last) hlast]
          exact ⟨hmade.append (hstopped.mono Deed.Tends.writes), hlast⟩
      | sent hall =>
          have houtlet := keeps_completePacket made.frameLength last
          have hdone : (completePacket made.frameLength last).2.held = none :=
            (congrArg (·.2.2) houtlet).trans hlast
          have hcompleted := passes_completePacket (s := { s with phase := .free })
            (some (.message payload)) made.frameLength last.writes (e := last) trivial
          rw [Act.bind_of_ok hsent, Stage.around_of_free hdone,
            show (completePacket made.frameLength last).2.writes = last.writes from
              congrArg (·.2.1) houtlet]
          exact ⟨hmade.append ((hall.mono Deed.Tends.writes).append
            (hcompleted.mono fun hsends => Deed.Tends.writes hsends.tends)), hdone⟩

/-- Every write is answered, and with its own result. -/
theorem passes_write (payload : Bytes) (e : Endpoint C) :
    Passes Deed.Writes (e.during (.ordered (.write payload)))
      [.answered ⟨.message payload, e.closed, (write payload e).1⟩]
      ((write payload e).2.during .free) := by
  unfold write
  split
  next hclosed =>
    rw [hclosed]
    exact passes_turnAway rfl hclosed
  next hopen =>
    obtain ⟨hadmitted, hfree⟩ := passes_awaitOutbound (s := e.during (.ordered (.write payload)))
      rfl (fun _ => trivial) e
    obtain ⟨hsent, hheld⟩ := passes_sendPacket
      (s := e.during (.ordered (.write payload))) rfl hfree
    have hwhole := (hadmitted.mono Deed.Tends.writes).append hsent
    rw [Bool.of_not_eq_true hopen]
    unfold Act.noting
    split
    next _ next hsend =>
      rw [hsend] at hwhole
      exact passes_through hwhole
    next fault next hsend =>
      rw [hsend] at hwhole
      exact passes_through (hwhole.aside (e := next.note (.failure .outbound fault.message))
        trivial (sight_note rfl next))

/-- Sending a line answers the request for it. -/
theorem passes_sendLine {text : String} (hphase : s.phase = .ordered (.writeBanner text))
    {e : Endpoint C} (hfree : e.held = none) :
    Passes Deed.Writes (s.around e) [.answered ⟨.line text, false, (sendLine text e).1⟩]
        ({ s with phase := .free }.around (sendLine text e).2) := by
  have hlined : Passes Deed.Writes (s.around e) [] ({ s with phase := .free }.amid e.writes
      (some ⟨some (.line text), Text.Utf8.encode text, none⟩) e) := by
    rw [Stage.around_of_free hfree]
    exact .of_does (.lined (s := s.amid e.writes none e) hphase rfl) trivial
  have hsending := sending_sendBefore (s := { s with phase := .free }) rfl (fun _ => trivial)
    (.line text) none e.attempt (Text.Utf8.encode text) e
  have hheld := (held_sendAll (Text.Utf8.encode text) e).trans hfree
  unfold sendLine
  rcases hsent : sendAll (Text.Utf8.encode text) e with ⟨result, next⟩
  rw [show sendBefore e.attempt (Text.Utf8.encode text) e = _ from hsent] at hsending
  rw [hsent] at hheld
  cases hsending with
  | stopped hstopped =>
      rw [Act.bind_of_error hsent, Stage.around_of_free (e := next) hheld]
      exact hlined.append (hstopped.mono Deed.Tends.writes)
  | sent hall =>
      have hsofar := hlined.append (hall.mono Deed.Tends.writes)
      rw [Act.bind_of_ok hsent]
      rcases passes_flush (s := { s with phase := .free }) (some (.line text)) none next.writes
        (e := next) trivial with ⟨failure, flushes, hflush, hpasses⟩ | ⟨flushes, hflush, hpasses⟩
      all_goals
        rw [hflush, Stage.around_of_free (e := { next with flushes }) hheld]
        exact hsofar.append (hpasses.mono fun hsends => Deed.Tends.writes hsends.tends)

theorem passes_writeBanner (text : String) (e : Endpoint C) :
    Passes Deed.Writes (e.during (.ordered (.writeBanner text)))
      [.answered ⟨.line text, e.closed, (writeBanner text e).1⟩]
      ((writeBanner text e).2.during .free) := by
  unfold writeBanner
  split
  next hclosed =>
    rw [hclosed]
    exact passes_turnAway rfl hclosed
  next hopen =>
    obtain ⟨hadmitted, hfree⟩ := passes_awaitOutbound (s := e.during (.ordered (.writeBanner text)))
      rfl (fun _ => trivial) e
    rw [Bool.of_not_eq_true hopen]
    exact passes_through ((hadmitted.mono Deed.Tends.writes).append
      (passes_sendLine (s := e.during (.ordered (.writeBanner text))) rfl hfree))

theorem passes_replaceOutbound (protection : Protection C) (e : Endpoint C) :
    Passes Deed.Writes (e.during (.ordered (.installOutbound protection))) []
      ((e.replaceOutbound protection).during .free) := by
  obtain ⟨hadmitted, hfree⟩ := passes_awaitOutbound
    (s := e.during (.ordered (.installOutbound protection))) rfl (fun _ => trivial) e
  rw [Stage.around_of_free hfree] at hadmitted
  have hreplaced : Passes Deed.Writes _ _ _ := .of_does (.replaced
    (s := (e.during (.ordered (.installOutbound protection))).amid
      e.awaitOutbound.writes none e.awaitOutbound) rfl rfl) trivial
  have hwhole := (hadmitted.mono Deed.Tends.writes).append hreplaced
  refine passes_through ?_
  rw [Stage.around_of_free (e := e.replaceOutbound protection) hfree]
  exact hwhole

end Endpoint

end PacketLayer
