import PacketLayer.Proofs.Lasting

/-! # Sparing an endpoint

An endpoint is spared if all that would close it is taken away: actions of other parties,
keep-alive handlers, and a close in the past. For as long as an endpoint stays open, it does
the same, and comes to the same, as it does when it is spared.
-/

namespace PacketLayer

variable {P C : Type}

/-- A handler that counts, in the place of one that closes the endpoint as well. -/
def Handler.spare : Handler → Handler
  | .close => .count
  | .count => .count
  | .sendIgnore => .sendIgnore

/-- A pause of no time, in the place of a close. -/
def ReadItem.spare : ReadItem P → ReadItem P
  | .act .close => .pause 0
  | .act (.setKeepAlive interval handler) => .act (.setKeepAlive interval handler.spare)
  | item => item

/-- A pause of no time, in the place of a close. -/
def WriteItem.spare : WriteItem P → WriteItem P
  | .act .close => .pause 0
  | .act (.setKeepAlive interval handler) => .act (.setKeepAlive interval handler.spare)
  | item => item

def ReadScript.spare (script : ReadScript P) : ReadScript P := script.map ReadItem.spare

def WriteScript.spare (script : WriteScript P) : WriteScript P := script.map WriteItem.spare

def KeepAlive.spare (schedule : KeepAlive Handler) : KeepAlive Handler :=
  { schedule with handler := schedule.handler.map Handler.spare }

theorem KeepAlive.poll_spare (now : Nat) (cipherActive rekeyPending : Bool)
    (schedule : KeepAlive Handler) :
    schedule.spare.poll now cipherActive rekeyPending =
      ((schedule.poll now cipherActive rekeyPending).1.map Handler.spare,
        (schedule.poll now cipherActive rekeyPending).2.spare) := by
  have hdue : schedule.spare.due now cipherActive rekeyPending =
      schedule.due now cipherActive rekeyPending := by
    simp only [due, enabled, spare, Option.isSome_map]
    rfl
  unfold poll
  rw [hdue]
  split <;> rfl

/-- Nothing is fed, in the place of a close. -/
def Operation.spare : Operation P → Operation P
  | .close => .feed []
  | .feed items => .feed (ReadScript.spare items)
  | .scriptWrites items => .scriptWrites (WriteScript.spare items)
  | .setKeepAlive interval handler => .setKeepAlive interval handler.spare
  | operation => operation

namespace Endpoint

/-- The endpoint as it would be if nobody closed it. -/
def spare (e : Endpoint C) : Endpoint C :=
  { e with
    closed := false
    keepAlive := e.keepAlive.spare
    reads := ReadScript.spare e.reads
    writes := WriteScript.spare e.writes }

@[simp] theorem config_spare (e : Endpoint C) : e.spare.config = e.config := rfl

@[simp] theorem now_spare (e : Endpoint C) : e.spare.now = e.now := rfl

@[simp] theorem attempt_spare (e : Endpoint C) : e.spare.attempt = e.attempt := rfl

@[simp] theorem inbound_spare (e : Endpoint C) : e.spare.inbound = e.inbound := rfl

@[simp] theorem parked_spare (e : Endpoint C) : e.spare.parked = e.parked := rfl

@[simp] theorem held_spare (e : Endpoint C) : e.spare.held = e.held := rfl

@[simp] theorem rekey_spare (e : Endpoint C) : e.spare.rekey = e.rekey := rfl

@[simp] theorem flushes_spare (e : Endpoint C) : e.spare.flushes = e.flushes := rfl

@[simp] theorem closed_spare (e : Endpoint C) : e.spare.closed = false := rfl

/-- An endpoint that is open in the end has been open before. -/
theorem Lasts.opened {own : Nat} {e next : Endpoint C} (h : Lasts own e next)
    (hopen : next.closed = false) : e.closed = false :=
  eq_false_of_ne_true fun hclosed => by simp [h.closed hclosed] at hopen

/-- An operation that takes no notice of closing. -/
def Act.Heedless {α : Type} (m : Act C α) : Prop :=
  ∀ e, m e.spare = ((m e).1, (m e).2.spare)

/-- An operation that comes to the same on an endpoint that is spared, if it leaves the endpoint
open. -/
structure Act.Spares {α : Type} (m : Act C α) : Prop where
  closed : ∀ e, e.closed = true → (m e).2.closed = true
  same : ∀ e, (m e).2.closed = false → m e.spare = ((m e).1, (m e).2.spare)

namespace Act

variable {α β : Type}

theorem Heedless.bind {m : Act C α} {f : α → Act C β} (hm : m.Heedless)
    (hf : ∀ a, (f a).Heedless) : (m >>= f).Heedless := by
  intro e
  have hspared := hm e
  rcases houtcome : m e with ⟨fault | a, next⟩
  all_goals rw [houtcome] at hspared
  · rw [bind_of_error hspared, bind_of_error houtcome]
  · rw [bind_of_ok hspared, bind_of_ok houtcome]
    exact hf a next

theorem Heedless.ofExcept (result : Except Fault α) : (Act.ofExcept result : Act C α).Heedless :=
  fun _ => rfl

theorem Heedless.pure (a : α) : (pure a : Act C α).Heedless :=
  fun _ => rfl

theorem heedless_dump (direction : Direction) (bytes : Bytes) :
    (Act.update (dump direction bytes) : Act C Unit).Heedless := by
  intro e
  have hdump : e.spare.dump direction bytes = (e.dump direction bytes).spare := by
    unfold dump
    rw [config_spare]
    split <;> rfl
  exact congrArg (Except.ok (), ·) hdump

/-- Whoever asks for the state must not look at what is spared. -/
theorem Heedless.ask {next : Endpoint C → Act C α} (hsame : ∀ e : Endpoint C, next e.spare = next e)
    (hnext : ∀ e, (next e).Heedless) : (Act.ask id >>= next).Heedless := by
  intro e
  change next e.spare e.spare = _
  rw [hsame]
  exact hnext e e

theorem Heedless.spares {m : Act C α} (hm : m.Heedless) (hlasts : m.Lasting) : m.Spares :=
  ⟨fun e => (hlasts e).closed, fun e _ => hm e⟩

namespace Spares

theorem opened {m : Act C α} (hm : m.Spares) {e : Endpoint C} (hopen : (m e).2.closed = false) :
    e.closed = false :=
  eq_false_of_ne_true fun hclosed => by simp [hm.closed e hclosed] at hopen

theorem ask {next : Endpoint C → Act C α} (hsame : ∀ e : Endpoint C, next e.spare = next e)
    (hnext : ∀ e, (next e).Spares) : (Act.ask id >>= next).Spares where
  closed := fun e => (hnext e).closed e
  same := by
    intro e hopen
    change next e.spare e.spare = _
    rw [hsame]
    exact (hnext e).same e hopen

theorem bind {m : Act C α} {f : α → Act C β} (hm : m.Spares) (hf : ∀ a, (f a).Spares) :
    (m >>= f).Spares where
  closed := by
    intro e hclosed
    have hfirst := hm.closed e hclosed
    rcases houtcome : m e with ⟨fault | a, next⟩
    all_goals rw [houtcome] at hfirst
    · rw [bind_of_error houtcome]
      exact hfirst
    · rw [bind_of_ok houtcome]
      exact (hf a).closed next hfirst
  same := by
    intro e hopen
    have hspared := hm.same e
    rcases houtcome : m e with ⟨fault | a, next⟩
    all_goals rw [houtcome] at hspared
    · rw [bind_of_error houtcome] at hopen ⊢
      rw [bind_of_error (hspared hopen)]
    · rw [bind_of_ok houtcome] at hopen ⊢
      -- had the first part closed the endpoint, it would not be open in the end
      have hbetween : next.closed = false := (hf a).opened hopen
      rw [bind_of_ok (hspared hbetween)]
      exact (hf a).same next hopen

theorem noting (direction : Direction) {m : Act C α} (hm : m.Spares) :
    (Act.noting direction m).Spares where
  closed := by
    intro e hclosed
    have hfirst := hm.closed e hclosed
    unfold Act.noting
    split
    next houtcome => rwa [houtcome] at hfirst
    next houtcome => rwa [houtcome] at hfirst
  same := by
    intro e hopen
    have hspared := hm.same e
    rcases houtcome : m e with ⟨fault | a, next⟩
    all_goals
      rw [houtcome] at hspared
      simp only [Act.noting, houtcome] at hopen ⊢
    · rw [hspared hopen]
      rfl
    · rw [hspared hopen]

end Spares

end Act

/-! ## Sending -/

theorem spare_act (reader : ReaderState) {action : Action (Protection C)}
    (hopens : action ≠ .close) (e : Endpoint C) :
    ∃ spared, (ReadItem.act action).spare = .act spared ∧
      (WriteItem.act action).spare = .act spared ∧
      e.spare.act reader spared = (e.act reader action).spare := by
  cases action with
  | close => exact absurd rfl hopens
  | installInbound protection => exact ⟨_, rfl, rfl, by cases reader <;> rfl⟩
  | setKeepAlive interval handler => exact ⟨_, rfl, rfl, rfl⟩

theorem spare_await (rest : Bytes) (attempt pause : Alarm) (e : Endpoint C) :
    e.await rest attempt pause = .failed .closed ∧ e.closed = true ∨
      e.spare.await rest attempt pause = e.await rest attempt pause := by
  unfold await
  by_cases hearly : e.now < attempt.time
  · exact .inr (by simp [hearly])
  cases hclosed : e.closed with
  | true => exact .inl ⟨by simp [hearly], rfl⟩
  | false => exact .inr (by simp [hearly])

/-- Sending fails because the endpoint is closed, or goes on as if nobody had closed it. -/
theorem transmit_spare (reader : ReaderState) (items : WriteScript (Protection C)) (rest : Bytes)
    (attempt : Alarm) (e : Endpoint C) :
    (transmit reader items rest attempt e).1 = .failed .closed ∧
        (transmit reader items rest attempt e).2.2.closed = true ∨
      transmit reader (WriteScript.spare items) rest attempt e.spare =
        ((transmit reader items rest attempt e).1,
          WriteScript.spare (transmit reader items rest attempt e).2.1,
          (transmit reader items rest attempt e).2.2.spare) := by
  induction items generalizing rest attempt e with
  | nil => exact .inr rfl
  | cons item items ih =>
      change _ ∨ transmit reader (item.spare :: WriteScript.spare items) rest attempt e.spare = _
      cases item with
      | accept count =>
          simp only [WriteItem.spare, transmit]
          split
          · exact .inr rfl
          split
          · exact .inr rfl
          cases hclosed : e.closed with
          | true => exact .inl (by simp)
          | false =>
              simp only [closed_spare, Bool.false_eq_true, if_false]
              exact ih _ _ { e with accepted := rest.take count :: e.accepted, closed := false }
      | fail failure =>
          simp only [WriteItem.spare, transmit]
          split
          · exact .inr rfl
          cases hclosed : e.closed with
          | true => exact .inl (by simp [hclosed])
          | false =>
              simp only [closed_spare, Bool.false_eq_true, if_false]
              exact ih _ _ e
      | pause milliseconds =>
          simp only [WriteItem.spare, transmit]
          split
          · exact ih _ _ e
          · rcases spare_await rest attempt ⟨e.now + milliseconds, e.moment⟩ e with
              hfailed | hsame
            · exact .inl hfailed
            · exact .inr (congrArg (·, _, e.spare) hsame)
      | resumeAt pause =>
          simp only [WriteItem.spare, transmit, now_spare]
          by_cases hpassed : pause.time ≤ e.now
          · simp only [hpassed, if_true]
            exact ih _ _ e
          · simp only [hpassed, if_false]
            rcases spare_await rest attempt pause e with hfailed | hsame
            · exact .inl hfailed
            · exact .inr (congrArg (·, _, e.spare) hsame)
      | act action =>
          by_cases hcloses : action = .close
          · subst hcloses
            exact ih rest attempt e.close
          · obtain ⟨spared, -, hitem, hacted⟩ := spare_act reader hcloses e
            rw [hitem, transmit, transmit, hacted]
            exact ih rest attempt (e.act reader action)

theorem proceed_spare (reader : ReaderState) (rest : Bytes) (attempt : Alarm) (e : Endpoint C) :
    (proceed reader rest attempt e).1 = .failed .closed ∧
        (proceed reader rest attempt e).2.closed = true ∨
      proceed reader rest attempt e.spare =
        ((proceed reader rest attempt e).1, (proceed reader rest attempt e).2.spare) := by
  unfold proceed
  split
  · exact .inr rfl
  · refine (transmit_spare reader e.writes rest attempt e).imp_right fun hsame => ?_
    exact congrArg (fun outcome => (outcome.1, { outcome.2.2 with writes := outcome.2.1 })) hsame

/-- Sending until the stream has all octets fails because the endpoint is closed, or ends as if
nobody had closed it. -/
theorem sendBefore_spare (attempt : Alarm) (rest : Bytes) (e : Endpoint C) :
    (sendBefore attempt rest e).1 = .error .closed ∧
        (sendBefore attempt rest e).2.closed = true ∨
      sendBefore attempt rest e.spare =
        ((sendBefore attempt rest e).1, (sendBefore attempt rest e).2.spare) := by
  fun_induction sendBefore attempt rest e with
  | case1 attempt rest e next houtcome =>
      rcases proceed_spare .idle rest attempt e with ⟨hfailed, -⟩ | hsame
      · rw [houtcome] at hfailed
        cases hfailed
      · rw [houtcome] at hsame
        exact .inr (by rw [sendBefore, hsame])
  | case2 attempt rest e fault next houtcome =>
      rcases proceed_spare .idle rest attempt e with hfailed | hsame
      · rw [houtcome] at hfailed
        exact .inl ⟨congrArg Except.error (Progress.failed.inj hfailed.1), hfailed.2⟩
      · rw [houtcome] at hsame
        exact .inr (by rw [sendBefore, hsame])
  | case3 attempt rest e shipment next houtcome ih =>
      rcases proceed_spare .idle rest attempt e with ⟨hfailed, -⟩ | hsame
      · rw [houtcome] at hfailed
        cases hfailed
      · rw [houtcome] at hsame
        refine ih.imp_right fun hrest => ?_
        rw [sendBefore, hsame]
        exact hrest

theorem heedless_flush : (flush : Act C Unit).Heedless := by
  intro e
  unfold flush
  rw [flushes_spare]
  split <;> rfl

theorem spare_accountSent (bytes : Nat) (e : Endpoint C) :
    e.spare.accountSent bytes = (e.accountSent bytes).spare := by
  unfold accountSent
  rw [rekey_spare]
  dsimp only
  split <;> rfl

theorem heedless_completePacket (frameLength : Nat) :
    (completePacket frameLength : Act C Unit).Heedless :=
  .bind heedless_flush fun _ e => congrArg (Except.ok (), ·) (spare_accountSent frameLength e)

variable [BlockCipher C]

/-- A message is sealed without regard to closing. -/
theorem heedless_sealPacket (payload : Bytes) :
    (sealPacket payload : Act C SealedPacket).Heedless := by
  refine .bind (fun _ => rfl) fun packet => .bind (fun _ => rfl) fun _ => ?_
  refine .bind (Act.heedless_dump .outbound packet) fun _ => ?_
  refine .ask (fun _ => rfl) fun e => .bind (.ofExcept _) fun tag => ?_
  exact .bind (fun _ => rfl) fun enciphered => .bind (fun _ => rfl) fun _ => .pure _

/-! ## Keep-alive messages -/

omit [BlockCipher C] in
theorem spare_reportKeepAlive (result : Except Fault Unit) (e : Endpoint C) :
    reportKeepAlive (result, e.spare) = (reportKeepAlive (result, e)).spare := by
  cases result <;> rfl

omit [BlockCipher C] in
theorem spare_settleKeepAlive (frameLength : Nat) (progress : Progress) (e : Endpoint C) :
    settleKeepAlive frameLength (progress, e.spare) =
      (settleKeepAlive frameLength (progress, e)).spare := by
  cases progress with
  | sent =>
      simp only [settleKeepAlive]
      rw [heedless_completePacket, spare_reportKeepAlive]
  | failed fault => exact spare_reportKeepAlive (.error fault) e
  | blocked shipment => rfl

/-- A keep-alive message comes as far as it would if nobody closed the endpoint. -/
theorem spare_settle_proceed (reader : ReaderState) (rest : Bytes) (attempt : Alarm)
    (frameLength : Nat) {e : Endpoint C}
    (hopen : (settleKeepAlive frameLength (proceed reader rest attempt e)).closed = false) :
    settleKeepAlive frameLength (proceed reader rest attempt e.spare) =
      (settleKeepAlive frameLength (proceed reader rest attempt e)).spare := by
  have hbefore := (lasts_settleKeepAlive frameLength (proceed reader rest attempt e)).opened hopen
  rcases proceed_spare reader rest attempt e with ⟨-, hclosed⟩ | hsame
  · rw [hclosed] at hbefore
    cases hbefore
  · rw [hsame, spare_settleKeepAlive]

theorem spare_resumeKeepAlive (reader : ReaderState) {e : Endpoint C}
    (hopen : (e.resumeKeepAlive reader).closed = false) :
    e.spare.resumeKeepAlive reader = (e.resumeKeepAlive reader).spare := by
  unfold resumeKeepAlive at hopen ⊢
  rw [held_spare]
  split at hopen
  next => rfl
  next message _ => exact spare_settle_proceed reader _ _ _ hopen

theorem spare_admitKeepAlives {e : Endpoint C} (hopen : e.admitKeepAlives.closed = false) :
    e.spare.admitKeepAlives = e.admitKeepAlives.spare := by
  have hbefore := (lasts_admitKeepAlives e).opened hopen
  simp only [admitKeepAlives, hbefore, closed_spare, Bool.false_eq_true, if_false]
  rfl

theorem spare_beginKeepAlive (reader : ReaderState) {e : Endpoint C}
    (hopen : (e.beginKeepAlive reader).closed = false) :
    e.spare.beginKeepAlive reader = (e.beginKeepAlive reader).spare := by
  have hsealed := heedless_sealPacket (keepAliveMessage keepAliveDataLength e.noise).1
    { e with noise := (keepAliveMessage keepAliveDataLength e.noise).2 }
  unfold beginKeepAlive at hopen ⊢
  dsimp only [spare] at hsealed hopen ⊢
  rw [hsealed]
  split at hopen
  next packet next houtcome =>
    rw [houtcome]
    exact spare_settle_proceed reader _ _ _ hopen
  next fault next houtcome =>
    rw [houtcome]
    exact spare_reportKeepAlive (.error fault) next

/-- A message of the queue leaves the rest of the queue to the next one. -/
theorem dues_beginKeepAlive (reader : ReaderState) (turn : Turn) {count : Nat} {e : Endpoint C}
    (hfree : e.held = none) (hqueued : e.queued = count + 1) :
    ({ e with queued := count, turn }.beginKeepAlive reader).dues = (e.owed, count) :=
  (passes_beginKeepAlive (e := { e with turn }) (reader_waiting reader (e.now + 1) e)
    (pausing_waiting reader (Nat.lt_succ_self e.now) e) hfree hqueued).2

theorem spare_beginKeepAlives (reader : ReaderState) (turn : Nat → Turn) {count : Nat}
    {e : Endpoint C} (howed : e.owed = 0) (hqueued : e.queued = count)
    (hopen : (e.beginKeepAlives reader turn count).closed = false) :
    e.spare.beginKeepAlives reader turn count = (e.beginKeepAlives reader turn count).spare := by
  induction count generalizing e with
  | zero => rfl
  | succ count ih =>
      unfold beginKeepAlives at hopen ⊢
      rw [held_spare]
      split at hopen
      next hoccupied => rw [if_pos hoccupied, if_pos hoccupied]
      next hfree =>
        obtain ⟨hstill, hleft⟩ := Prod.mk.inj
          (dues_beginKeepAlive reader (turn count) (by simpa using hfree) hqueued)
        rw [if_neg hfree, if_neg hfree, ← ih (hstill.trans howed) hleft hopen]
        exact congrArg (beginKeepAlives reader turn count) (spare_beginKeepAlive reader
          (e := { e with queued := count, turn := turn count })
          ((lasts_beginKeepAlives reader turn (hstill.trans howed) hleft).opened hopen))

theorem spare_upkeep (reader : ReaderState) {e : Endpoint C}
    (hopen : (e.upkeep reader).closed = false) :
    e.spare.upkeep reader = (e.upkeep reader).spare := by
  unfold upkeep at hopen ⊢
  have hadmitted := (lasts_beginKeepAlives reader _ (owed_admitKeepAlives _) rfl).opened hopen
  have hresumed := (lasts_admitKeepAlives _).opened hadmitted
  rw [spare_resumeKeepAlive reader hresumed, spare_admitKeepAlives hadmitted]
  exact spare_beginKeepAlives reader _ (owed_admitKeepAlives _) rfl hopen

/-! ## Waiting -/

/-- What a wait comes to, by the state in which keep-alive messages leave the endpoint. -/
theorem waitUntil_of_upkeep {reader : ReaderState} {time : Nat} {e ready : Endpoint C}
    (hlater : ¬time ≤ e.now) (hready : e.upkeep reader = ready) :
    e.waitUntil reader time =
      match ready.held with
      | none => ready.advanceTo time
      | some message =>
          if message.shipment.wake.time < time then
            (ready.advanceTo message.shipment.wake.time).waitUntil reader time
          else ready.advanceTo time := by
  subst hready
  rw [waitUntil, dif_neg hlater]
  dsimp only
  split
  next hheld => rw [hheld]
  next message hheld =>
    rw [hheld]
    split
    next hearly => exact (if_pos hearly).symm
    next hlate => exact (if_neg hlate).symm

theorem spare_waitUntil (reader : ReaderState) (time : Nat) {e : Endpoint C}
    (hopen : (e.waitUntil reader time).closed = false) :
    e.spare.waitUntil reader time = (e.waitUntil reader time).spare := by
  fun_induction waitUntil reader time e with
  | case1 e hpassed => rw [waitUntil, dif_pos (now_spare e ▸ hpassed)]
  | case2 e hlater ready hfree =>
      rw [waitUntil_of_upkeep (now_spare e ▸ hlater) (spare_upkeep reader hopen), held_spare]
      change (match ready.held with | none => _ | some _ => _) = _
      rw [hfree]
      rfl
  | case3 e hlater ready message hheld hearly ih =>
      have hready := (lasts_waitUntil reader time _).opened hopen
      rw [waitUntil_of_upkeep (now_spare e ▸ hlater) (spare_upkeep reader hready), held_spare]
      change (match ready.held with | none => _ | some _ => _) = _
      rw [hheld]
      dsimp only
      rw [if_pos hearly]
      exact ih hopen
  | case4 e hlater ready message hheld hlate =>
      rw [waitUntil_of_upkeep (now_spare e ▸ hlater) (spare_upkeep reader hopen), held_spare]
      change (match ready.held with | none => _ | some _ => _) = _
      rw [hheld]
      dsimp only
      rw [if_neg hlate]
      rfl

/-- What a wait for the outbound lane comes to, by the state in which keep-alive messages leave
the endpoint. -/
theorem awaitOutbound_of_upkeep {e ready : Endpoint C} (hready : e.upkeep .idle = ready) :
    e.awaitOutbound =
      match ready.held with
      | none => { ready with turn := .admitted }
      | some message => (ready.advanceTo message.shipment.wake.time).awaitOutbound := by
  subst hready
  rw [awaitOutbound]
  split
  next hheld => rw [hheld]
  next message hheld => rw [hheld]

theorem spare_awaitOutbound {e : Endpoint C} (hopen : e.awaitOutbound.closed = false) :
    e.spare.awaitOutbound = e.awaitOutbound.spare := by
  fun_induction awaitOutbound e with
  | case1 e ready hfree =>
      rw [awaitOutbound_of_upkeep (spare_upkeep .idle hopen), held_spare]
      change (match ready.held with | none => _ | some _ => _) = _
      rw [hfree]
      rfl
  | case2 e ready message hheld ih =>
      have hready := (lasts_awaitOutbound _).opened hopen
      rw [awaitOutbound_of_upkeep (spare_upkeep .idle hready), held_spare]
      change (match ready.held with | none => _ | some _ => _) = _
      rw [hheld]
      exact ih hopen

end Endpoint

end PacketLayer
