import PacketLayer.Proofs.Closing.Sparing
import PacketLayer.Proofs.Marks.Twins

/-! # Marks in sending

Alarms decide by their times when sending goes on, and by their marks only what is noted
first. So twins seal, send and wait alike, and remain twins.
-/

namespace PacketLayer.Endpoint

variable {C : Type} {e other : Endpoint C}

/-! ## Octets on their way -/

/-- Sending has come as far. -/
inductive Progress.Twins : Progress → Progress → Prop where
  | sent : Twins .sent .sent
  | failed (fault : Fault) : Twins (.failed fault) (.failed fault)
  | blocked {shipment shipmentOther : Shipment} (hshipment : shipment.Twins shipmentOther) :
      Twins (.blocked shipment) (.blocked shipmentOther)

theorem Twins.attempt_eq (htwins : Twins e other) : e.attempt.time = other.attempt.time :=
  htwins.seen_eq (fun e => e.attempt.time) fun _ _ => rfl

theorem twins_await (htwins : Twins e other) (rest : Bytes) {attempt attemptOther : Alarm}
    (hattempt : attempt.time = attemptOther.time) {pause pauseOther : Alarm}
    (hpause : pause.time = pauseOther.time) :
    (e.await rest attempt pause).Twins (other.await rest attemptOther pauseOther) := by
  have hnext := htwins.attempt_eq
  unfold await
  rw [← htwins.now_eq, ← htwins.closed_eq, ← hattempt]
  split
  · exact .blocked ⟨rfl, hattempt, by simp [hattempt, hpause]⟩
  · split
    · exact .failed _
    · exact .blocked ⟨rfl, hnext, by simp [hnext, hpause]⟩

/-- The write script has been followed in the same way. -/
structure Follows (outcome outcomeOther : Progress × WriteScript (Protection C) × Endpoint C) :
    Prop where
  progress : outcome.1.Twins outcomeOther.1
  scripts : outcome.2.1.Twins outcomeOther.2.1
  twins : Twins outcome.2.2 outcomeOther.2.2

theorem follows_transmit (reader : ReaderState) {items itemsOther : WriteScript (Protection C)}
    (hscripts : items.Twins itemsOther) (rest : Bytes) {attempt attemptOther : Alarm}
    (hattempt : attempt.time = attemptOther.time) (htwins : Twins e other) :
    Follows (transmit reader items rest attempt e)
      (transmit reader itemsOther rest attemptOther other) := by
  induction hscripts generalizing rest attempt attemptOther e other with
  | nil =>
      exact ⟨.sent, .nil, htwins.change (fun e => { e with accepted := rest :: e.accepted })
        fun _ _ => rfl⟩
  | cons hitem hrest ih =>
      cases hitem with
      | accept count =>
          have haccepted := htwins.change
            (fun e => { e with accepted := rest.take count :: e.accepted }) fun _ _ => rfl
          simp only [transmit]
          split
          · exact ⟨.failed _, hrest, haccepted⟩
          split
          · exact ⟨.sent, hrest, haccepted⟩
          by_cases hclosed : e.closed = true
          · rw [if_pos hclosed, if_pos (htwins.closed_eq ▸ hclosed)]
            exact ⟨.failed _, hrest, haccepted⟩
          · rw [if_neg hclosed, if_neg (htwins.closed_eq ▸ hclosed)]
            exact ih _ haccepted.attempt_eq haccepted
      | fail failure =>
          simp only [transmit, ← htwins.closed_eq]
          split
          · exact ⟨.failed _, hrest, htwins⟩
          split
          · exact ⟨.failed _, hrest, htwins⟩
          · exact ih _ htwins.attempt_eq htwins
      | pause milliseconds =>
          have hpause : e.now + milliseconds = other.now + milliseconds := by rw [htwins.now_eq]
          simp only [transmit]
          split
          · exact ih _ hattempt htwins
          · exact ⟨twins_await htwins rest hattempt hpause, .cons (.resumeAt hpause) hrest, htwins⟩
      | resumeAt htime =>
          simp only [transmit, ← htwins.now_eq, ← htime]
          split
          · exact ih _ hattempt htwins
          · exact ⟨twins_await htwins rest hattempt htime, .cons (.resumeAt htime) hrest, htwins⟩
      | act action => exact ih _ hattempt (htwins.act reader action)

/-- Octets have come as far, at endpoints that differ in marks only. -/
inductive Advances : Progress × Endpoint C → Progress × Endpoint C → Prop where
  | sent {e other : Endpoint C} (htwins : Twins e other) : Advances (.sent, e) (.sent, other)
  | failed (fault : Fault) {e other : Endpoint C} (htwins : Twins e other) :
      Advances (.failed fault, e) (.failed fault, other)
  | blocked {shipment shipmentOther : Shipment} {e other : Endpoint C}
      (hshipment : shipment.Twins shipmentOther) (htwins : Twins e other) :
      Advances (.blocked shipment, e) (.blocked shipmentOther, other)

theorem Progress.Twins.advances {progress progressOther : Progress}
    (hprogress : progress.Twins progressOther) (htwins : Endpoint.Twins e other) :
    Advances (progress, e) (progressOther, other) := by
  cases hprogress with
  | sent => exact .sent htwins
  | failed fault => exact .failed fault htwins
  | blocked hshipment => exact .blocked hshipment htwins

theorem advances_proceed (reader : ReaderState) (rest : Bytes) {attempt attemptOther : Alarm}
    (hattempt : attempt.time = attemptOther.time) (htwins : Twins e other) :
    Advances (proceed reader rest attempt e) (proceed reader rest attemptOther other) := by
  unfold proceed
  split
  · exact .sent htwins
  · obtain ⟨hprogress, hscripts, hnext⟩ :=
      follows_transmit reader htwins.marks.writes rest hattempt htwins
    exact hprogress.advances (hnext.rescript hscripts)

/-- What the sending of octets comes to, by how far they come at once. -/
theorem sendBefore_eq (attempt : Alarm) (rest : Bytes) (e : Endpoint C) :
    sendBefore attempt rest e =
      match proceed .idle rest attempt e with
      | (.sent, next) => (.ok (), next)
      | (.failed fault, next) => (.error fault, next)
      | (.blocked shipment, next) =>
          sendBefore shipment.attempt shipment.rest (next.advanceTo shipment.wake.time) := by
  rw [sendBefore]
  split
  all_goals
    next houtcome => rw [houtcome]

theorem concurs_sendBefore {attempt attemptOther : Alarm} (rest : Bytes)
    (hattempt : attempt.time = attemptOther.time) (htwins : Twins e other) :
    Concurs (sendBefore attempt rest e) (sendBefore attemptOther rest other) := by
  have hadvances := advances_proceed .idle rest hattempt htwins
  rw [sendBefore_eq attemptOther]
  fun_induction sendBefore attempt rest e generalizing attemptOther other with
  | case1 attempt rest e next houtcome =>
      rw [houtcome] at hadvances
      generalize proceed .idle rest attemptOther other = outcome at hadvances ⊢
      cases hadvances with
      | sent hnext => exact .ok () hnext
  | case2 attempt rest e cause next houtcome =>
      rw [houtcome] at hadvances
      generalize proceed .idle rest attemptOther other = outcome at hadvances ⊢
      cases hadvances with
      | failed fault hnext => exact .error cause hnext
  | case3 attempt rest e shipment next houtcome ih =>
      rw [houtcome] at hadvances
      generalize proceed .idle rest attemptOther other = outcome at hadvances ⊢
      cases hadvances with
      | @blocked _ shipmentOther _ _ hshipment hnext =>
          obtain ⟨hrest, hagain, hwake⟩ := hshipment
          dsimp only
          rw [← hrest, ← hwake, sendBefore_eq shipmentOther.attempt]
          exact ih hagain (hnext.advanceTo _) (advances_proceed .idle _ hagain (hnext.advanceTo _))

theorem blind_sendAll (bytes : Bytes) : Act.Blind (sendAll bytes : Act C Unit) :=
  fun _ _ htwins => concurs_sendBefore bytes htwins.attempt_eq htwins

theorem blind_flush : (flush : Act C Unit).Blind := by
  refine .of_commutes fun marks e => ?_
  unfold flush
  dsimp only [withMarks]
  split <;> rfl

theorem blind_completePacket (frameLength : Nat) :
    (completePacket frameLength : Act C Unit).Blind :=
  .bind blind_flush fun _ => .update fun _ _ htwins => htwins.accountSent frameLength

variable [BlockCipher C]

theorem blind_sealPacket (payload : Bytes) : (sealPacket payload : Act C SealedPacket).Blind := by
  unfold sealPacket
  refine .bind (.of_commutes fun _ _ => rfl) fun packet => ?_
  refine .bind (.update fun _ _ htwins => htwins.note _) fun _ => ?_
  refine .bind (.update fun _ _ htwins => htwins.dump _ _) fun _ => ?_
  intro e other htwins
  have hsign := htwins.seen_eq (fun e => e.outbound.sign packet) fun _ _ => rfl
  rw [Act.ask_bind, Act.ask_bind, id, id, hsign]
  refine .bind (Act.Blind.ofExcept _ e other htwins) fun tag => ?_
  refine Act.Blind.bind (.of_commutes fun _ _ => rfl) fun enciphered => ?_
  exact .bind (.of_commutes fun _ _ => rfl) fun _ => .pure _

/-! ## Keep-alive messages -/

omit [BlockCipher C] in
theorem Concurs.report {outcome outcomeOther : Except Fault Unit × Endpoint C}
    (hconcurs : Concurs outcome outcomeOther) :
    Twins (reportKeepAlive outcome) (reportKeepAlive outcomeOther) := by
  cases hconcurs with
  | ok _ htwins => exact htwins
  | error fault htwins => exact (htwins.note _).note _

omit [BlockCipher C] in
theorem Advances.settle {outcome outcomeOther : Progress × Endpoint C}
    (hadvances : Advances outcome outcomeOther) (frameLength : Nat) :
    Twins (settleKeepAlive frameLength outcome) (settleKeepAlive frameLength outcomeOther) := by
  cases hadvances with
  | sent htwins => exact (blind_completePacket frameLength _ _ htwins).report
  | failed fault htwins => exact (Concurs.error fault htwins).report
  | blocked hshipment htwins => exact htwins.hold (.some ⟨hshipment, rfl⟩)

omit [BlockCipher C] in
theorem Twins.resumeKeepAlive (htwins : Twins e other) (reader : ReaderState) :
    Twins (e.resumeKeepAlive reader) (other.resumeKeepAlive reader) := by
  unfold Endpoint.resumeKeepAlive
  rcases htwins.held_cases with ⟨hfree, hfreeOther⟩ |
    ⟨message, messageOther, hheld, hheldOther, ⟨hrest, hattempt, hwake⟩, hframeLength⟩
  · rw [hfree, hfreeOther]
    exact htwins
  · rw [hheld, hheldOther]
    dsimp only
    rw [← hframeLength, ← hrest]
    exact (advances_proceed reader _ hattempt ((htwins.hold .none).turned _ _)).settle _

omit [BlockCipher C] in
theorem twins_repeat_note (htwins : Twins e other) (event : Event) (count : Nat) :
    Twins (Nat.repeat (note event) count e) (Nat.repeat (note event) count other) := by
  induction count with
  | zero => exact htwins
  | succ count ih => exact ih.note event

omit [BlockCipher C] in
theorem Twins.admitKeepAlives (htwins : Twins e other) :
    Twins e.admitKeepAlives other.admitKeepAlives := by
  have howed : e.owed = other.owed := htwins.seen_eq owed fun _ _ => rfl
  unfold Endpoint.admitKeepAlives
  by_cases hclosed : e.closed = true
  · have hasked : Twins { e with owed := 0, turn := .asked }
        { other with owed := 0, turn := .asked } :=
      (htwins.change (fun e => { e with owed := 0 }) fun _ _ => rfl).turned .asked .asked
    rw [if_pos hclosed, if_pos (htwins.closed_eq ▸ hclosed), ← howed]
    exact twins_repeat_note hasked _ e.owed
  · rw [if_neg hclosed, if_neg (htwins.closed_eq ▸ hclosed)]
    exact htwins.change (fun e => { e with owed := 0, queued := e.queued + e.owed })
      fun _ _ => rfl

theorem Twins.beginKeepAlive (htwins : Twins e other) (reader : ReaderState) :
    Twins (e.beginKeepAlive reader) (other.beginKeepAlive reader) := by
  have hnoise : e.noise = other.noise := htwins.seen_eq noise fun _ _ => rfl
  unfold Endpoint.beginKeepAlive
  rw [← hnoise]
  generalize keepAliveMessage keepAliveDataLength e.noise = made
  obtain ⟨message, noise⟩ := made
  have hsealed := blind_sealPacket message _ _
    (htwins.change (fun e => { e with noise }) fun _ _ => rfl)
  dsimp only at hsealed ⊢
  generalize sealPacket message { e with noise } = outcome at hsealed ⊢
  generalize sealPacket message { other with noise } = outcomeOther at hsealed ⊢
  cases hsealed with
  | ok packet hnext => exact (advances_proceed reader _ hnext.attempt_eq hnext).settle _
  | error fault hnext => exact (Concurs.error fault hnext).report

theorem Twins.beginKeepAlives (htwins : Twins e other) (reader : ReaderState)
    (turn turnOther : Nat → Turn) (count : Nat) :
    Twins (e.beginKeepAlives reader turn count) (other.beginKeepAlives reader turnOther count) := by
  induction count generalizing e other with
  | zero => exact htwins
  | succ count ih =>
      have hqueued := (htwins.change (fun e => { e with queued := count }) fun _ _ => rfl).turned
        (turn count) (turnOther count)
      rw [Endpoint.beginKeepAlives, Endpoint.beginKeepAlives]
      rcases htwins.held_cases with
        ⟨hfree, hfreeOther⟩ | ⟨message, messageOther, hheld, hheldOther, -⟩
      · rw [if_neg (by simp [hfree]), if_neg (by simp [hfreeOther])]
        exact ih (hqueued.beginKeepAlive reader)
      · rw [if_pos (by simp [hheld]), if_pos (by simp [hheldOther])]
        exact htwins

theorem Twins.upkeep (htwins : Twins e other) (reader : ReaderState) :
    Twins (e.upkeep reader) (other.upkeep reader) := by
  have hnext := (htwins.resumeKeepAlive reader).admitKeepAlives
  have hqueued : (e.resumeKeepAlive reader).admitKeepAlives.queued =
      (other.resumeKeepAlive reader).admitKeepAlives.queued :=
    hnext.seen_eq queued fun _ _ => rfl
  unfold Endpoint.upkeep
  dsimp only
  rw [hqueued]
  exact hnext.beginKeepAlives reader _ _ _

/-! ## Waiting -/

theorem Twins.waitUntil (htwins : Twins e other) (reader : ReaderState) (time : Nat) :
    Twins (e.waitUntil reader time) (other.waitUntil reader time) := by
  fun_induction Endpoint.waitUntil reader time e generalizing other with
  | case1 e hpassed =>
      rw [Endpoint.waitUntil, dif_pos (htwins.now_eq ▸ hpassed)]
      exact htwins
  | case2 e hlater ready =>
      rename_i hfree
      have hready := htwins.upkeep reader
      have hwaits := waitUntil_of_upkeep (htwins.now_eq ▸ hlater) (rfl : other.upkeep reader = _)
      rcases hready.held_cases with ⟨-, hfreeOther⟩ | ⟨message, -, hheld, -⟩
      · rw [hwaits, hfreeOther]
        exact hready.advanceTo time
      · cases hfree.symm.trans hheld
  | case3 e hlater ready message hheld =>
      rename_i hearly ih
      have hready := htwins.upkeep reader
      have hwaits := waitUntil_of_upkeep (htwins.now_eq ▸ hlater) (rfl : other.upkeep reader = _)
      rcases hready.held_cases with ⟨hfree, -⟩ | ⟨_, messageOther, hsame, hheldOther, hmessage⟩
      · cases hfree.symm.trans hheld
      · obtain rfl := Option.some.inj (hsame.symm.trans hheld)
        rw [hwaits, hheldOther]
        dsimp only
        rw [← hmessage.shipment.wake_eq, if_pos hearly]
        exact ih (hready.advanceTo _)
  | case4 e hlater ready message hheld =>
      rename_i hlate
      have hready := htwins.upkeep reader
      have hwaits := waitUntil_of_upkeep (htwins.now_eq ▸ hlater) (rfl : other.upkeep reader = _)
      rcases hready.held_cases with ⟨hfree, -⟩ | ⟨_, messageOther, hsame, hheldOther, hmessage⟩
      · cases hfree.symm.trans hheld
      · obtain rfl := Option.some.inj (hsame.symm.trans hheld)
        rw [hwaits, hheldOther]
        dsimp only
        rw [← hmessage.shipment.wake_eq, if_neg hlate]
        exact hready.advanceTo time

theorem Twins.awaitOutbound (htwins : Twins e other) :
    Twins e.awaitOutbound other.awaitOutbound := by
  fun_induction Endpoint.awaitOutbound e generalizing other with
  | case1 e ready =>
      rename_i hfree
      have hready := htwins.upkeep .idle
      rw [awaitOutbound_of_upkeep (rfl : other.upkeep .idle = _)]
      rcases hready.held_cases with ⟨-, hfreeOther⟩ | ⟨message, -, hheld, -⟩
      · split
        next => exact hready.turned .admitted .admitted
        next message hheld => cases hfreeOther.symm.trans hheld
      · cases hfree.symm.trans hheld
  | case2 e ready message =>
      rename_i hheld ih
      have hready := htwins.upkeep .idle
      rw [awaitOutbound_of_upkeep (rfl : other.upkeep .idle = _)]
      rcases hready.held_cases with ⟨hfree, -⟩ | ⟨_, messageOther, hsame, hheldOther, hmessage⟩
      · cases hfree.symm.trans hheld
      · obtain rfl := Option.some.inj (hsame.symm.trans hheld)
        rw [hheldOther]
        dsimp only
        rw [← hmessage.shipment.wake_eq]
        exact ih (hready.advanceTo _)

theorem Twins.passTo (htwins : Twins e other) (time : Nat) :
    Twins (e.passTo time) (other.passTo time) :=
  (htwins.waitUntil .idle time).upkeep .idle

/-! ## Writing -/

theorem blind_sendPacket (payload : Bytes) : (sendPacket payload : Act C Unit).Blind :=
  .bind (blind_sealPacket payload) fun packet =>
    .bind (blind_sendAll packet.bytes) fun _ => blind_completePacket packet.frameLength

theorem blind_write (payload : Bytes) : (write payload : Act C Unit).Blind := by
  intro e other htwins
  unfold write
  rw [← htwins.closed_eq]
  split
  · exact .error .closed htwins
  · exact (blind_sendPacket payload).noting .outbound _ _ htwins.awaitOutbound

theorem blind_writeBanner (line : String) : (writeBanner line : Act C Unit).Blind := by
  intro e other htwins
  unfold writeBanner
  rw [← htwins.closed_eq]
  split
  · exact .error .closed htwins
  · exact Act.Blind.bind (blind_sendAll _) (fun _ => blind_flush) _ _ htwins.awaitOutbound

end PacketLayer.Endpoint
