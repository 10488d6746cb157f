import PacketLayer.Endpoint.Basic

/-!
# Sending octets

Octets are offered to the stream in attempts until the stream has accepted all
of them. Each attempt is limited by the poll interval; between attempts the
endpoint may turn out to be closed. What can be done at one moment is separated
from the passing of time, so that octets on their way can be set aside. Every
wait lowers the cost of the write script.
-/

namespace PacketLayer.Endpoint

variable {C : Type}

/-- How far octets have come at one moment. -/
inductive Progress where
  /-- The stream has accepted all of them. -/
  | sent
  | failed (fault : Fault)
  /-- The stream is not ready for the rest. -/
  | blocked (shipment : Shipment)
  deriving DecidableEq, Repr

/-- Moves the clock on to a time that has not passed yet; the operation under way
has the first turn then. -/
def advanceTo (time : Nat) (e : Endpoint C) : Endpoint C :=
  { e with now := max e.now time, turn := .first }

/-- The end of an attempt that begins now. -/
def attempt (e : Endpoint C) : Alarm :=
  ⟨e.now + e.config.pollInterval, e.moment⟩

/-- Leaves octets to a stream that pauses until the given alarm. The attempt under
way goes on until its end; past it another one begins, unless the endpoint is
closed. -/
def await (rest : Bytes) (attempt pause : Alarm) (e : Endpoint C) : Progress :=
  if e.now < attempt.time then .blocked ⟨rest, attempt, pause.earlier attempt⟩
  else if e.closed then .failed .closed
  else .blocked ⟨rest, e.attempt, pause.earlier e.attempt⟩

/-- Follows the write script as far as it goes at the current time, with octets to
send and the end of the attempt under way. -/
def transmit (reader : ReaderState) :
    WriteScript (Protection C) → Bytes → Alarm → Endpoint C →
      Progress × WriteScript (Protection C) × Endpoint C
  | [], rest, _, e => (.sent, [], { e with accepted := rest :: e.accepted })
  | .accept count :: items, rest, _, e =>
      let e := { e with accepted := rest.take count :: e.accepted }
      if count = 0 then
        (.failed (.stream ⟨.writeZero, "stream accepted no bytes"⟩), items, e)
      else if rest.length ≤ count then (.sent, items, e)
      else if e.closed then (.failed .closed, items, e)
      else transmit reader items (rest.drop count) e.attempt e
  | .fail failure :: items, rest, _, e =>
      if ¬failure.kind.isTransient then (.failed (.stream failure), items, e)
      else if e.closed then (.failed .closed, items, e)
      else transmit reader items rest e.attempt e
  | .pause milliseconds :: items, rest, attempt, e =>
      if milliseconds = 0 then transmit reader items rest attempt e
      else
        let pause : Alarm := ⟨e.now + milliseconds, e.moment⟩
        (e.await rest attempt pause, .resumeAt pause :: items, e)
  | .resumeAt pause :: items, rest, attempt, e =>
      if pause.time ≤ e.now then transmit reader items rest attempt e
      else (e.await rest attempt pause, .resumeAt pause :: items, e)
  | .act action :: items, rest, attempt, e =>
      transmit reader items rest attempt (e.act reader action)

/-- Sends as much as the stream is ready for, in an attempt with the given end. -/
def proceed (reader : ReaderState) (rest : Bytes) (attempt : Alarm) (e : Endpoint C) :
    Progress × Endpoint C :=
  if rest.isEmpty then (.sent, e)
  else
    match transmit reader e.writes rest attempt e with
    | (progress, writes, e) => (progress, { e with writes })

/-- A bound on the waits that the write script allows. -/
def writeCost (e : Endpoint C) : Nat :=
  e.writes.cost e.now

/-- The write script holds octets back until they are looked at again, or longer. -/
def Holds (shipment : Shipment) (e : Endpoint C) : Prop :=
  e.now < shipment.wake.time ∧
    ∃ pause items, e.writes = .resumeAt pause :: items ∧ shipment.wake.time ≤ pause.time

@[simp] theorem now_act (reader : ReaderState) (action : Action (Protection C))
    (e : Endpoint C) : (e.act reader action).now = e.now := by
  cases action with
  | close => rfl
  | installInbound protection => cases reader <;> rfl
  | setKeepAlive interval handler => rfl

theorem held_act (reader : ReaderState) (action : Action (Protection C)) (e : Endpoint C) :
    (e.act reader action).held = e.held := by
  cases action with
  | close => rfl
  | installInbound protection => cases reader <;> rfl
  | setKeepAlive interval handler => rfl

theorem now_advanceTo (time : Nat) (e : Endpoint C) : (e.advanceTo time).now = max e.now time :=
  rfl

/-- Octets that are left to the stream are looked at again later, and no later
than the stream is ready. -/
theorem wake_of_await {rest : Bytes} {attempt pause : Alarm} {e : Endpoint C}
    {shipment : Shipment} (hlater : e.now < pause.time)
    (hblocked : e.await rest attempt pause = .blocked shipment) :
    e.now < shipment.wake.time ∧ shipment.wake.time ≤ pause.time := by
  have hpositive := Nat.pos_of_ne_zero e.valid.pollInterval
  unfold await at hblocked
  split at hblocked
  · obtain rfl := Progress.blocked.inj hblocked
    rw [Alarm.time_earlier]
    omega
  · split at hblocked
    · cases hblocked
    · obtain rfl := Progress.blocked.inj hblocked
      rw [Alarm.time_earlier]
      dsimp only [Endpoint.attempt]
      omega

/-- Sending changes only what actions change, and what the stream has accepted. -/
theorem view_transmit {γ : Type} (view : Endpoint C → γ) {reader : ReaderState}
    (hacted : ∀ action e, view (e.act reader action) = view e)
    (haccepted : ∀ pieces e, view { e with accepted := pieces } = view e)
    (items : WriteScript (Protection C)) (rest : Bytes) (attempt : Alarm) (e : Endpoint C) :
    view (transmit reader items rest attempt e).2.2 = view e := by
  induction items generalizing rest attempt e with
  | nil => exact haccepted _ e
  | cons item items ih =>
      cases item with
      | accept count =>
          unfold transmit
          dsimp only
          split
          · exact haccepted _ e
          · split
            · exact haccepted _ e
            · split
              · exact haccepted _ e
              · exact (ih _ _ _).trans (haccepted _ e)
      | fail failure =>
          unfold transmit
          split
          · rfl
          · split
            · rfl
            · exact ih _ _ _
      | pause milliseconds =>
          unfold transmit
          split
          · exact ih _ _ _
          · rfl
      | resumeAt pause =>
          unfold transmit
          split
          · exact ih _ _ _
          · rfl
      | act action => exact (ih _ _ _).trans (hacted action e)

/-- Sending never raises the cost of the script. -/
theorem cost_transmit_le (reader : ReaderState) (items : WriteScript (Protection C))
    (rest : Bytes) (attempt : Alarm) (e : Endpoint C) :
    (transmit reader items rest attempt e).2.1.cost e.now ≤ items.cost e.now := by
  induction items generalizing rest attempt e with
  | nil => exact Nat.le_refl _
  | cons item items ih =>
      have htail : WriteScript.cost e.now items ≤ WriteScript.cost e.now (item :: items) :=
        Nat.le_add_left _ _
      cases item with
      | accept count =>
          unfold transmit
          dsimp only
          split
          · exact htail
          · split
            · exact htail
            · split
              · exact htail
              · exact Nat.le_trans
                  (ih _ _ { e with accepted := rest.take count :: e.accepted }) htail
      | fail failure =>
          unfold transmit
          split
          · exact htail
          · split
            · exact htail
            · exact Nat.le_trans (ih _ _ e) htail
      | pause milliseconds =>
          unfold transmit
          split
          · exact Nat.le_trans (ih _ _ e) htail
          · simp only [WriteScript.cost, WriteItem.cost]
            omega
      | resumeAt pause =>
          unfold transmit
          split
          · exact Nat.le_trans (ih _ _ e) htail
          · exact Nat.le_refl _
      | act action =>
          have hless := ih rest attempt (e.act reader action)
          rw [now_act] at hless
          exact Nat.le_trans hless htail

/-- Octets are left to the stream only at a pause of the script. -/
theorem pause_of_transmit {reader : ReaderState} {items : WriteScript (Protection C)}
    {rest : Bytes} {attempt : Alarm} {e : Endpoint C} {shipment : Shipment}
    (hblocked : (transmit reader items rest attempt e).1 = .blocked shipment) :
    e.now < shipment.wake.time ∧ ∃ pause later,
      (transmit reader items rest attempt e).2.1 = .resumeAt pause :: later ∧
        shipment.wake.time ≤ pause.time := by
  induction items generalizing rest attempt e with
  | nil => cases hblocked
  | cons item items ih =>
      cases item with
      | accept count =>
          unfold transmit at hblocked ⊢
          dsimp only at hblocked ⊢
          split at hblocked <;> rename_i hzero
          · cases hblocked
          · split at hblocked <;> rename_i hall
            · cases hblocked
            · split at hblocked <;> rename_i hclosed
              · cases hblocked
              · rw [if_neg hzero, if_neg hall, if_neg hclosed]
                exact ih hblocked
      | fail failure =>
          unfold transmit at hblocked ⊢
          split at hblocked <;> rename_i hfinal
          · cases hblocked
          · split at hblocked <;> rename_i hclosed
            · cases hblocked
            · rw [if_neg hfinal, if_neg hclosed]
              exact ih hblocked
      | pause milliseconds =>
          unfold transmit at hblocked ⊢
          split at hblocked <;> rename_i hzero
          · rw [if_pos hzero]
            exact ih hblocked
          · rw [if_neg hzero]
            obtain ⟨hlater, hready⟩ := wake_of_await (by dsimp only; omega) hblocked
            exact ⟨hlater, _, _, rfl, hready⟩
      | resumeAt pause =>
          unfold transmit at hblocked ⊢
          split at hblocked <;> rename_i hpassed
          · rw [if_pos hpassed]
            exact ih hblocked
          · rw [if_neg hpassed]
            obtain ⟨hlater, hready⟩ := wake_of_await (by omega) hblocked
            exact ⟨hlater, _, _, rfl, hready⟩
      | act action =>
          obtain ⟨hlater, hpause⟩ := ih (e := e.act reader action) hblocked
          rw [now_act] at hlater
          exact ⟨hlater, hpause⟩

/-- Sending takes no time. -/
theorem now_proceed (reader : ReaderState) (rest : Bytes) (attempt : Alarm) (e : Endpoint C) :
    (proceed reader rest attempt e).2.now = e.now := by
  unfold proceed
  split
  · rfl
  · exact view_transmit now (now_act reader) (fun _ _ => rfl) e.writes rest attempt e

/-- Sending leaves a message alone that was set aside before. -/
theorem held_proceed (reader : ReaderState) (rest : Bytes) (attempt : Alarm) (e : Endpoint C) :
    (proceed reader rest attempt e).2.held = e.held := by
  unfold proceed
  split
  · rfl
  · exact view_transmit held (held_act reader) (fun _ _ => rfl) e.writes rest attempt e

/-- Sending never raises the cost of the script. -/
theorem writeCost_proceed_le (reader : ReaderState) (rest : Bytes) (attempt : Alarm)
    (e : Endpoint C) : (proceed reader rest attempt e).2.writeCost ≤ e.writeCost := by
  have hstill := now_proceed reader rest attempt e
  have hless := cost_transmit_le reader e.writes rest attempt e
  unfold writeCost
  rw [hstill]
  unfold proceed
  split
  · exact Nat.le_refl _
  · exact hless

/-- Octets that are set aside wait for a pause of the write script. -/
theorem holds_of_proceed {reader : ReaderState} {rest : Bytes} {attempt : Alarm}
    {e next : Endpoint C} {shipment : Shipment}
    (hblocked : proceed reader rest attempt e = (.blocked shipment, next)) :
    next.Holds shipment := by
  have hstill := now_proceed reader rest attempt e
  rw [hblocked] at hstill
  unfold proceed at hblocked
  split at hblocked
  · cases hblocked
  · have houtcome := (Prod.mk.inj hblocked).1
    obtain ⟨hlater, hpause⟩ := pause_of_transmit houtcome
    obtain rfl := (Prod.mk.inj hblocked).2
    exact ⟨hstill ▸ hlater, hpause⟩

/-- Waiting until octets are looked at again lowers the cost of the script. -/
theorem Holds.writeCost_advanceTo_lt {shipment : Shipment} {e : Endpoint C}
    (hholds : e.Holds shipment) : (e.advanceTo shipment.wake.time).writeCost < e.writeCost := by
  obtain ⟨hlater, pause, items, hscript, hready⟩ := hholds
  have htail := WriteScript.cost_anti (Nat.le_max_left e.now shipment.wake.time) items
  show WriteScript.cost (max e.now shipment.wake.time) e.writes < WriteScript.cost e.now e.writes
  rw [hscript]
  simp only [WriteScript.cost, WriteItem.cost]
  omega

/-- Sends octets, in an attempt with the given end at first, and waits for the stream
as often as it has to. -/
def sendBefore (attempt : Alarm) (rest : Bytes) (e : Endpoint C) :
    Except Fault Unit × Endpoint C :=
  match _houtcome : proceed .idle rest attempt e with
  | (.sent, next) => (.ok (), next)
  | (.failed fault, next) => (.error fault, next)
  | (.blocked shipment, next) =>
      sendBefore shipment.attempt shipment.rest (next.advanceTo shipment.wake.time)
  termination_by e.writeCost
  decreasing_by
    have hless := writeCost_proceed_le .idle rest attempt e
    rw [_houtcome] at hless
    exact Nat.lt_of_lt_of_le (holds_of_proceed _houtcome).writeCost_advanceTo_lt hless

/-- Sends octets until all are accepted, the stream fails, or the endpoint is found
closed with octets left. -/
def sendAll (bytes : Bytes) (e : Endpoint C) : Except Fault Unit × Endpoint C :=
  sendBefore e.attempt bytes e

end PacketLayer.Endpoint
