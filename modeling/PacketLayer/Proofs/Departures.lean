import PacketLayer.Proofs.Marks.Sending

/-! # Attempts to write

Octets leave in attempts, each of which takes some of them to the stream, fails, or lasts until
its time has passed. To send octets is to make one attempt after another until none are left,
although the stream is only waited for where it holds octets back.
-/

namespace PacketLayer.Endpoint

variable {C : Type}

/-- How an attempt to write ends. -/
inductive Departure where
  /-- The stream has accepted so many octets. -/
  | taken (count : Nat)
  | failed (failure : StreamFailure)
  /-- The time has passed. -/
  | late
  deriving DecidableEq, Repr

/-- Lets time pass up to a given time, unless it has come. -/
def letPass (time : Nat) (e : Endpoint C) : Endpoint C :=
  if time ≤ e.now then e else e.advanceTo time

theorem now_letPass (time : Nat) (e : Endpoint C) : (e.letPass time).now = max e.now time := by
  unfold letPass
  split
  · omega
  · rfl

/-- Follows the write script through one attempt to write some octets. A pause that outlasts
the attempt ends it at its deadline and stays in the script. -/
def depart (rest : Bytes) (deadline : Nat) :
    WriteScript (Protection C) → Endpoint C → Departure × WriteScript (Protection C) × Endpoint C
  | [], e => (.taken rest.length, [], { e with accepted := rest :: e.accepted })
  | .accept count :: items, e =>
      (.taken (min count rest.length), items, { e with accepted := rest.take count :: e.accepted })
  | .fail failure :: items, e => (.failed failure, items, e)
  | .pause milliseconds :: items, e =>
      let pause : Alarm := ⟨e.now + milliseconds, e.moment⟩
      if pause.time ≤ max e.now deadline then depart rest deadline items (e.letPass pause.time)
      else (.late, .resumeAt pause :: items, e.letPass deadline)
  | .resumeAt pause :: items, e =>
      if pause.time ≤ max e.now deadline then depart rest deadline items (e.letPass pause.time)
      else (.late, .resumeAt pause :: items, e.letPass deadline)
  | .act action :: items, e => depart rest deadline items (e.act .idle action)

/-- Octets are all sent, or found on a closed endpoint, or another attempt is made. -/
def goOn (rest : Bytes) (e : Endpoint C) :
    (Except Fault Unit × Endpoint C) ⊕ (Bytes × Endpoint C) :=
  if rest.isEmpty then .inl (.ok (), e)
  else if e.closed then .inl (.error .closed, e)
  else .inr (rest, e)

/-- What follows an attempt to write some octets. -/
def afterDeparture (rest : Bytes) :
    Departure × WriteScript (Protection C) × Endpoint C →
      (Except Fault Unit × Endpoint C) ⊕ (Bytes × Endpoint C)
  | (.taken count, writes, e) =>
      if count = 0 then
        .inl (.error (.stream ⟨.writeZero, "stream accepted no bytes"⟩), { e with writes })
      else goOn (rest.drop count) { e with writes }
  | (.failed failure, writes, e) =>
      if failure.kind.isTransient then goOn rest { e with writes }
      else .inl (.error (.stream failure), { e with writes })
  | (.late, writes, e) => goOn rest { e with writes }

/-- One turn of a sender with octets to send. -/
def sendTurn : Bytes × Endpoint C → (Except Fault Unit × Endpoint C) ⊕ (Bytes × Endpoint C)
  | (rest, e) =>
      if rest.isEmpty then .inl (.ok (), e)
      else afterDeparture rest (depart rest (e.now + e.config.pollInterval) e.writes e)

/-! ## Sending attempt by attempt -/

theorem transmit_rescript (reader : ReaderState) (items writes : WriteScript (Protection C))
    (rest : Bytes) (attempt : Alarm) (e : Endpoint C) :
    transmit reader items rest attempt { e with writes } =
      ((transmit reader items rest attempt e).1, (transmit reader items rest attempt e).2.1,
        { (transmit reader items rest attempt e).2.2 with writes }) := by
  induction items generalizing rest attempt e with
  | nil => rfl
  | cons item items ih =>
      cases item with
      | accept count =>
          unfold transmit
          dsimp only
          split
          · rfl
          split
          · rfl
          split
          · rfl
          · exact ih (rest.drop count) _ { e with accepted := rest.take count :: e.accepted }
      | fail failure =>
          unfold transmit
          split
          · rfl
          split
          · rfl
          · exact ih rest _ e
      | pause milliseconds =>
          unfold transmit
          split
          · exact ih rest attempt e
          · rfl
      | resumeAt pause =>
          unfold transmit
          split
          · exact ih rest attempt e
          · rfl
      | act action =>
          have hact : ({ e with writes } : Endpoint C).act reader action =
              { e.act reader action with writes } := by
            cases action with
            | installInbound protection => cases reader <;> rfl
            | close | setKeepAlive => rfl
          unfold transmit
          rw [hact]
          exact ih rest attempt (e.act reader action)

section Sending

variable {rest : Bytes} {attempt : Alarm} {items : WriteScript (Protection C)} {e : Endpoint C}

theorem proceed_rescript (hrest : rest ≠ []) :
    proceed .idle rest attempt { e with writes := items } =
      ((transmit .idle items rest attempt e).1, { (transmit .idle items rest attempt e).2.2 with
        writes := (transmit .idle items rest attempt e).2.1 }) := by
  rw [proceed, if_neg (by simpa using hrest), transmit_rescript]

/-- Sending goes by how the script is followed, and not by what stands for it in the
endpoint. -/
theorem sendBefore_congr {more : Bytes} {again : Alarm} {others : WriteScript (Protection C)}
    {other : Endpoint C} (hrest : rest ≠ []) (hmore : more ≠ [])
    (hsame : transmit .idle items rest attempt e = transmit .idle others more again other) :
    sendBefore attempt rest { e with writes := items } =
      sendBefore again more { other with writes := others } := by
  rw [sendBefore_eq, sendBefore_eq again, proceed_rescript hrest, proceed_rescript hmore, hsame]

/-- A pause that is over is passed. -/
theorem sendBefore_of_passed {pause : Alarm} (hrest : rest ≠ []) (hpassed : pause.time ≤ e.now) :
    sendBefore attempt rest { e with writes := .resumeAt pause :: items } =
      sendBefore attempt rest { e with writes := items } :=
  sendBefore_congr hrest hrest (if_pos hpassed)

/-- Octets wait for the end of a pause or of the attempt, whichever is first. -/
theorem sendBefore_of_pending {pause : Alarm} (hrest : rest ≠ []) (hpending : e.now < pause.time)
    (hearly : e.now < attempt.time) :
    sendBefore attempt rest { e with writes := .resumeAt pause :: items } =
      sendBefore attempt rest { e.advanceTo (min pause.time attempt.time) with
        writes := .resumeAt pause :: items } := by
  have hproceed : proceed .idle rest attempt { e with writes := .resumeAt pause :: items } =
      (.blocked ⟨rest, attempt, pause.earlier attempt⟩,
        { e with writes := .resumeAt pause :: items }) := by
    rw [proceed_rescript hrest]
    simp only [transmit, if_neg (Nat.not_le_of_lt hpending), await, if_pos hearly]
  rw [sendBefore_eq, hproceed]
  dsimp only
  rw [Alarm.time_earlier]
  rfl

/-- Once the attempt is over another one begins, unless the endpoint is closed. -/
theorem sendBefore_of_late {pause : Alarm} (hrest : rest ≠ []) (hpending : e.now < pause.time)
    (hlate : attempt.time ≤ e.now) :
    sendBefore attempt rest { e with writes := .resumeAt pause :: items } =
      if e.closed then (.error .closed, { e with writes := .resumeAt pause :: items })
      else sendAll rest { e with writes := .resumeAt pause :: items } := by
  have hagain : e.now < e.attempt.time :=
    Nat.lt_add_of_pos_right (Nat.pos_of_ne_zero e.valid.pollInterval)
  have hproceed : proceed .idle rest attempt { e with writes := .resumeAt pause :: items } =
      (if e.closed then .failed .closed
        else .blocked ⟨rest, e.attempt, pause.earlier e.attempt⟩,
        { e with writes := .resumeAt pause :: items }) := by
    rw [proceed_rescript hrest]
    simp only [transmit, if_neg (Nat.not_le_of_lt hpending), await,
      if_neg (Nat.not_lt_of_le hlate)]
  rw [sendBefore_eq, hproceed]
  by_cases hclosed : e.closed = true
  · rw [if_pos hclosed, if_pos hclosed]
  · rw [if_neg hclosed, if_neg hclosed]
    dsimp only
    rw [Alarm.time_earlier]
    exact (sendBefore_of_pending hrest hpending hagain).symm

/-- Time passes until the end of a pause or of the attempt, whichever is first. -/
theorem sendBefore_letPass {pause : Alarm} (hrest : rest ≠ []) {time : Nat}
    (htime : time ≤ e.now ∨ time = min pause.time attempt.time) :
    sendBefore attempt rest { e with writes := .resumeAt pause :: items } =
      sendBefore attempt rest { e.letPass time with writes := .resumeAt pause :: items } := by
  unfold letPass
  split
  · rfl
  next hcoming =>
    obtain rfl := htime.resolve_left hcoming
    exact sendBefore_of_pending hrest (by omega) (by omega)

/-- What sending comes to, by what follows an attempt. -/
def sendOn (next : (Except Fault Unit × Endpoint C) ⊕ (Bytes × Endpoint C)) :
    Except Fault Unit × Endpoint C :=
  next.elim id fun state => sendAll state.1 state.2

theorem sendOn_goOn (hrest : rest ≠ []) :
    sendOn (goOn rest e) = if e.closed then (.error .closed, e) else sendAll rest e := by
  rw [goOn, if_neg (by simpa using hrest)]
  split <;> rfl

theorem sendBefore_resumeAt {pause : Alarm} (hrest : rest ≠ [])
    (hitems : ∀ later, sendBefore attempt rest { later with writes := items } =
      sendOn (afterDeparture rest (depart rest attempt.time items later))) :
    sendBefore attempt rest { e with writes := .resumeAt pause :: items } =
      sendOn (afterDeparture rest (depart rest attempt.time (.resumeAt pause :: items) e)) := by
  unfold depart
  split
  next hwithin =>
    have hpassed : pause.time ≤ (e.letPass pause.time).now := by
      rw [now_letPass]
      exact Nat.le_max_right _ _
    have htime : pause.time ≤ e.now ∨ pause.time = min pause.time attempt.time := by omega
    rw [sendBefore_letPass hrest htime, sendBefore_of_passed hrest hpassed, hitems]
  next hbeyond =>
    have hpending : (e.letPass attempt.time).now < pause.time := by
      rw [now_letPass]
      omega
    have hlate : attempt.time ≤ (e.letPass attempt.time).now := by
      rw [now_letPass]
      exact Nat.le_max_right _ _
    have htime : attempt.time ≤ e.now ∨ attempt.time = min pause.time attempt.time := by omega
    rw [sendBefore_letPass hrest htime, sendBefore_of_late hrest hpending hlate, afterDeparture,
      sendOn_goOn hrest]

theorem sendBefore_accept (hrest : rest ≠ []) (count : Nat) :
    sendBefore attempt rest { e with writes := .accept count :: items } =
      sendOn (afterDeparture rest (depart rest attempt.time (.accept count :: items) e)) := by
  have hlength : rest.length ≠ 0 := by simpa using hrest
  rw [depart, afterDeparture]
  by_cases hzero : count = 0
  · rw [sendBefore_eq, proceed_rescript hrest]
    simp [transmit, hzero, sendOn]
  rw [if_neg (by omega)]
  by_cases hall : rest.length ≤ count
  · rw [sendBefore_eq, proceed_rescript hrest]
    simp [transmit, hzero, hall, goOn, sendOn]
  have hmore : rest.drop count ≠ [] := by
    simp
    omega
  rw [Nat.min_eq_left (Nat.le_of_not_le hall), sendOn_goOn hmore]
  by_cases hclosed : e.closed = true
  · rw [sendBefore_eq, proceed_rescript hrest]
    simp [transmit, hzero, hall, hclosed]
  · rw [if_neg hclosed]
    refine sendBefore_congr hrest hmore ?_
    simp only [transmit, if_neg hzero, if_neg hall, if_neg hclosed]
    rfl

theorem sendBefore_fail (hrest : rest ≠ []) (failure : StreamFailure) :
    sendBefore attempt rest { e with writes := .fail failure :: items } =
      sendOn (afterDeparture rest (depart rest attempt.time (.fail failure :: items) e)) := by
  rw [depart, afterDeparture]
  by_cases hlasting : failure.kind.isTransient = true
  · rw [if_pos hlasting, sendOn_goOn hrest]
    by_cases hclosed : e.closed = true
    · rw [sendBefore_eq, proceed_rescript hrest]
      simp [transmit, hlasting, hclosed]
    · rw [if_neg hclosed]
      refine sendBefore_congr hrest hrest ?_
      simp only [transmit, hlasting, not_true, if_false, if_neg hclosed]
      rfl
  · rw [sendBefore_eq, proceed_rescript hrest]
    simp [transmit, hlasting, sendOn]

theorem transmit_pause (milliseconds : Nat) :
    transmit .idle (.pause milliseconds :: items) rest attempt e =
      transmit .idle (.resumeAt ⟨e.now + milliseconds, e.moment⟩ :: items) rest attempt e := by
  have hover : e.now + milliseconds ≤ e.now ↔ milliseconds = 0 := by omega
  simp only [transmit, hover]

/-- Sending goes on after the attempt under way. -/
theorem sendBefore_eq_depart (hrest : rest ≠ []) :
    sendBefore attempt rest { e with writes := items } =
      sendOn (afterDeparture rest (depart rest attempt.time items e)) := by
  induction items generalizing e with
  | nil =>
      rw [sendBefore_eq, proceed_rescript hrest]
      simp [transmit, depart, afterDeparture, goOn, sendOn, hrest]
  | cons item items ih =>
      cases item with
      | accept count => exact sendBefore_accept hrest count
      | fail failure => exact sendBefore_fail hrest failure
      | pause milliseconds =>
          rw [sendBefore_congr hrest hrest (transmit_pause milliseconds)]
          exact sendBefore_resumeAt hrest fun later => ih
      | resumeAt pause => exact sendBefore_resumeAt hrest fun later => ih
      | act action =>
          have hact : transmit .idle (.act action :: items) rest attempt e =
              transmit .idle items rest attempt (e.act .idle action) := rfl
          rw [sendBefore_congr hrest hrest hact, ih]
          rfl

end Sending

/-- To send octets is to take one turn after another. -/
theorem sendAll_eq_turn (rest : Bytes) (e : Endpoint C) :
    sendAll rest e = sendOn (sendTurn (rest, e)) := by
  cases rest with
  | nil =>
      rw [sendAll, sendBefore_eq]
      rfl
  | cons octet rest => exact sendBefore_eq_depart (List.cons_ne_nil octet rest)

/-! ## The cost of an attempt -/

/-- What an attempt leaves of a script, by its cost. -/
def costAfter (rest : Bytes) (deadline : Nat) (items : WriteScript (Protection C))
    (e : Endpoint C) : Nat :=
  (depart rest deadline items e).2.1.cost (depart rest deadline items e).2.2.now

theorem cost_letPass_le (time : Nat) (items : WriteScript (Protection C)) (e : Endpoint C) :
    items.cost (e.letPass time).now ≤ items.cost e.now := by
  rw [now_letPass]
  exact WriteScript.cost_anti (Nat.le_max_left _ _) items

theorem costAfter_resumeAt_le {rest : Bytes} {deadline : Nat} {items : WriteScript (Protection C)}
    (hitems : ∀ later, costAfter rest deadline items later ≤ items.cost later.now) (pause : Alarm)
    (e : Endpoint C) :
    costAfter rest deadline (.resumeAt pause :: items) e ≤
      WriteScript.cost e.now (.resumeAt pause :: items) := by
  unfold costAfter depart
  split
  · exact Nat.le_trans (hitems _)
      (Nat.le_trans (cost_letPass_le _ items e) (Nat.le_add_left _ _))
  · exact cost_letPass_le deadline (.resumeAt pause :: items) e

theorem cost_resumeAt_lt_pause (milliseconds : Nat) (items : WriteScript (Protection C))
    (e : Endpoint C) :
    WriteScript.cost e.now (.resumeAt ⟨e.now + milliseconds, e.moment⟩ :: items) <
      WriteScript.cost e.now (.pause milliseconds :: items) := by
  simp only [WriteScript.cost, WriteItem.cost]
  omega

/-- What an attempt leaves of a script does not cost more than the script. -/
theorem costAfter_le (rest : Bytes) (deadline : Nat) (items : WriteScript (Protection C))
    (e : Endpoint C) : costAfter rest deadline items e ≤ items.cost e.now := by
  induction items generalizing e with
  | nil => exact Nat.le_refl _
  | cons item items ih =>
      cases item with
      | accept count => exact Nat.le_add_left _ _
      | fail failure => exact Nat.le_add_left _ _
      | pause milliseconds =>
          exact Nat.le_of_lt (Nat.lt_of_le_of_lt (costAfter_resumeAt_le ih _ e)
            (cost_resumeAt_lt_pause milliseconds items e))
      | resumeAt pause => exact costAfter_resumeAt_le ih pause e
      | act action =>
          have hless := ih (e.act .idle action)
          rw [now_act] at hless
          exact Nat.le_trans hless (Nat.le_add_left _ _)

/-- An attempt that has time to wait costs something, unless the script is at its end. -/
theorem costAfter_lt (rest : Bytes) {deadline : Nat} {e : Endpoint C} (htime : e.now < deadline)
    (item : WriteItem (Protection C)) (items : WriteScript (Protection C)) :
    costAfter rest deadline (item :: items) e < WriteScript.cost e.now (item :: items) := by
  have hbelow {count : Nat} (hcount : count ≤ WriteScript.cost e.now items) :
      count < WriteScript.cost e.now (item :: items) :=
    Nat.lt_of_le_of_lt hcount (Nat.lt_add_of_pos_left (item.cost_pos e.now))
  cases item with
  | accept count => exact hbelow (Nat.le_refl _)
  | fail failure => exact hbelow (Nat.le_refl _)
  | pause milliseconds =>
      exact Nat.lt_of_le_of_lt (costAfter_resumeAt_le (costAfter_le rest deadline items) _ e)
        (cost_resumeAt_lt_pause milliseconds items e)
  | resumeAt pause =>
      unfold costAfter depart
      split
      · exact hbelow (Nat.le_trans (costAfter_le rest deadline items _)
          (cost_letPass_le _ items e))
      · -- the pause lasts beyond the deadline, and there is less of it left then
        have htail := cost_letPass_le deadline items e
        have hnow := now_letPass deadline e
        simp only [WriteScript.cost, WriteItem.cost]
        omega
  | act action =>
      have hless := costAfter_le rest deadline items (e.act .idle action)
      rw [now_act] at hless
      exact hbelow hless

theorem inr_of_afterDeparture {rest more : Bytes} {departure : Departure}
    {writes : WriteScript (Protection C)} {e next : Endpoint C}
    (hnext : afterDeparture rest (departure, writes, e) = .inr (more, next)) :
    next = { e with writes } := by
  have hgoOn {octets : Bytes} {e : Endpoint C} (hgo : goOn octets e = .inr (more, next)) :
      next = e := by
    unfold goOn at hgo
    split at hgo
    · cases hgo
    split at hgo
    · cases hgo
    · exact (Prod.mk.inj (Sum.inr.inj hgo)).2.symm
  cases departure with
  | taken count =>
      rw [afterDeparture] at hnext
      split at hnext
      · cases hnext
      · exact hgoOn hnext
  | failed failure =>
      rw [afterDeparture] at hnext
      split at hnext
      · exact hgoOn hnext
      · cases hnext
  | late => exact hgoOn hnext

/-- A turn after which sending goes on lowers the cost of the script. -/
theorem writeCost_of_sendTurn {state next : Bytes × Endpoint C}
    (hturn : sendTurn state = .inr next) : next.2.writeCost < state.2.writeCost := by
  obtain ⟨rest, e⟩ := state
  obtain ⟨more, later⟩ := next
  rw [sendTurn] at hturn
  split at hturn
  · cases hturn
  next hrest =>
    have htime : e.now < e.now + e.config.pollInterval :=
      Nat.lt_add_of_pos_right (Nat.pos_of_ne_zero e.valid.pollInterval)
    -- a stream that has nothing in store takes everything
    have hscript : e.writes ≠ [] := by
      intro hnil
      rw [hnil, depart, afterDeparture, List.drop_length] at hturn
      split at hturn <;> cases hturn
    obtain ⟨item, items, hscript⟩ := List.exists_cons_of_ne_nil hscript
    have hless := costAfter_lt rest htime item items
    rw [← hscript] at hless
    obtain rfl := inr_of_afterDeparture hturn
    exact hless

end PacketLayer.Endpoint
