import Mathlib.Algebra.Order.Floor.Div
import Mathlib.Tactic.Ring
import PacketLayer.Proofs.Bounds
import PacketLayer.Proofs.Openness
import PacketLayer.Proofs.Rekey.Epochs
import PacketLayer.Proofs.RoundTrip
import PacketLayer.Proofs.Schedule

/-! # The cadence of keep-alive

A read on a silent stream makes one attempt after another, each as long as the poll interval
allows, and looks after keep-alive between them. So the handler runs at multiples of the poll
interval only: after as many attempts as take longer than the keep-alive interval, after as
many again, and so on until the stream ends. The attempt in which it ends does not count.
-/

namespace PacketLayer

variable {P C : Type}

/-- From now on nothing comes on a stream until it ends, which is at a given time. -/
inductive ReadScript.EndsAt (time : Nat) : Nat → ReadScript P → Prop where
  | nil : EndsAt time time []
  | eof (items : ReadScript P) : EndsAt time time (.eof :: items)
  | empty (items : ReadScript P) : EndsAt time time (.data [] :: items)
  | pause {now milliseconds : Nat} {items : ReadScript P}
      (hends : EndsAt time (now + milliseconds) items) :
      EndsAt time now (.pause milliseconds :: items)
  | resumeAt {now moment : Nat} {items : ReadScript P}
      (hends : EndsAt time (max now moment) items) : EndsAt time now (.resumeAt moment :: items)

theorem ReadScript.EndsAt.le {time now : Nat} {items : ReadScript P}
    (hends : EndsAt time now items) : now ≤ time := by
  induction hends with
  | nil | eof | empty => exact Nat.le_refl time
  | pause _ ih => exact Nat.le_trans (Nat.le_add_right _ _) ih
  | resumeAt _ ih => exact Nat.le_trans (Nat.le_max_left _ _) ih

namespace Endpoint

open ReadScript (EndsAt)

/-! ## Attempts in vain -/

section Attempts

variable [BlockCipher C] {e : Endpoint C}

/-- An attempt has been made in vain, and so much is left of the script. -/
def lapsed (turn : Turn) (reads : ReadScript (Protection C)) (e : Endpoint C) : Endpoint C :=
  { e with now := e.now + e.config.pollInterval, turn, reads }

/-- What becomes of an attempt on a silent stream: it ends with the stream, or in vain at its
deadline. -/
inductive Wanes (time deadline : Nat) (e : Endpoint C) :
    Arrival × ReadScript (Protection C) × Endpoint C → Prop where
  | finished (left : ReadScript (Protection C)) (turn : Turn) (hended : time ≤ deadline) :
      Wanes time deadline e (.finished, left, { e with now := time, turn })
  | more {left : ReadScript (Protection C)} (turn : Turn) (hsilent : deadline < time)
      (hends : EndsAt time deadline left) :
      Wanes time deadline e (.more [], left, { e with now := deadline, turn })

/-- A wait within the attempt moves the clock on, and then the attempt goes on. A longer one
is cut short by the deadline. -/
theorem wanes_resumeAt {time want deadline moment : Nat} {items : ReadScript (Protection C)}
    (hends : EndsAt time (max e.now moment) items) (hstill : e.Still) (hstart : e.now ≤ deadline)
    (hrest : ∀ {later : Endpoint C}, later.Still → later.now = max e.now moment →
      later.now ≤ deadline → Wanes time deadline later (arrive want deadline items later)) :
    Wanes time deadline e (arrive want deadline (.resumeAt moment :: items) e) := by
  unfold arrive
  split
  next hwithin =>
    obtain ⟨turn, hwaited⟩ := hstill.waitUntil_eq .busy moment
    have hlater : (e.waitUntil .busy moment).Still :=
      hwaited ▸ ⟨hstill.held, hstill.owed, hstill.queued⟩
    have hnow := now_waitUntil .busy moment e
    have hwanes := hrest hlater hnow (by omega)
    rw [hwaited] at hwanes ⊢
    generalize arrive want deadline items _ = result at hwanes
    cases hwanes with
    | finished left turn hended => exact .finished left turn hended
    | more turn hsilent hends => exact .more turn hsilent hends
  next hbeyond =>
    obtain ⟨turn, hwaited⟩ := hstill.waitUntil_eq .busy deadline
    rw [Nat.max_eq_right hstart] at hbeyond hwaited
    have hmoment : max e.now moment = max deadline moment := by omega
    have hlate := hends.le
    rw [hwaited]
    exact .more turn (by omega) (.resumeAt (hmoment ▸ hends))

theorem wanes_arrive {time : Nat} {items : ReadScript (Protection C)}
    (hends : EndsAt time e.now items) (hstill : e.Still) (want : Nat) {deadline : Nat}
    (hstart : e.now ≤ deadline) : Wanes time deadline e (arrive want deadline items e) := by
  generalize hnow : e.now = now at hends hstart
  induction hends generalizing e with
  | nil => exact hnow ▸ .finished _ e.turn (hnow ▸ hstart)
  | eof items => exact hnow ▸ .finished _ e.turn (hnow ▸ hstart)
  | empty items => exact hnow ▸ .finished _ e.turn (hnow ▸ hstart)
  | @pause now milliseconds items hends ih =>
      subst hnow
      have hlater : max e.now (e.now + milliseconds) = e.now + milliseconds :=
        Nat.max_eq_right (Nat.le_add_right _ _)
      -- a pause is a wait for the time at which it is over
      exact wanes_resumeAt (hlater.symm ▸ hends) hstill hstart fun hstill hnow hstart =>
        ih hstill (hnow.trans hlater) (hnow.trans hlater ▸ hstart)
  | @resumeAt now moment items hends ih =>
      subst hnow
      exact wanes_resumeAt hends hstill hstart fun hstill hnow hstart =>
        ih hstill hnow (hnow ▸ hstart)

/-- One attempt of a read that has brought nothing so far. -/
theorem awaitFirstBlock_of_silent {time : Nat} (hends : EndsAt time e.now e.reads)
    (hstill : e.Still) (hopen : e.closed = false) (hparked : e.parked = none) :
    (time ≤ e.now + e.config.pollInterval ∧
      ∃ turn reads, awaitFirstBlock [] e = (.ok none, { e with now := time, turn, reads })) ∨
    (e.now + e.config.pollInterval < time ∧
      ∃ turn reads, EndsAt time (e.now + e.config.pollInterval) reads ∧
        awaitFirstBlock [] e = awaitFirstBlock [] (e.lapsed turn reads).checkKeepAlive) := by
  have hblock : ([] : Bytes).length < e.inbound.blockSize :=
    Nat.lt_of_lt_of_le (show 0 < plaintextBlockSize by decide) e.inbound.plaintextBlockSize_le
  rw [awaitFirstBlock_of_missing hparked hblock, receive_eq, List.length_nil, Nat.sub_zero]
  have hwanes := wanes_arrive hends hstill e.inbound.blockSize
    (Nat.le_add_right e.now e.config.pollInterval)
  generalize arrive e.inbound.blockSize (e.now + e.config.pollInterval) e.reads e = result
    at hwanes
  cases hwanes with
  | finished reads turn hended => exact .inl ⟨hended, turn, reads, rfl⟩
  | @more reads turn hsilent hends =>
      refine .inr ⟨hsilent, turn, reads, hends, ?_⟩
      have hunclosed : (e.lapsed turn reads).closed ≠ true := Bool.eq_false_iff.mp hopen
      exact (if_neg (Nat.not_le_of_lt hblock)).trans (if_neg hunclosed)

end Attempts

/-! ## Attempts until the handler is due -/

/-- The attempts from one run of the handler to the next, each as long as the period. -/
def attemptsPerRun (period interval : Nat) : Nat :=
  interval / period + 1

/-- The runs of a handler that is due as soon as attempts have taken longer than the interval. -/
def cadence (start period interval count : Nat) : List Firing :=
  (List.range count).map fun run =>
    ⟨start + (run + 1) * (period * attemptsPerRun period interval), interval⟩

section Arithmetic

variable {period interval : Nat}

/-- The attempts since the last run of the handler take longer than the interval, together with
the next one, exactly if their number is complete then. -/
theorem lt_mul_iff_dvd (hperiod : 0 < period) (attempts : Nat) :
    interval < (attempts % attemptsPerRun period interval + 1) * period ↔
      attemptsPerRun period interval ∣ attempts + 1 := by
  have hbelow : attempts % attemptsPerRun period interval < attemptsPerRun period interval :=
    Nat.mod_lt attempts (Nat.succ_pos (interval / period))
  rw [← Nat.div_lt_iff_lt_mul hperiod, Nat.dvd_iff_mod_eq_zero, ← Nat.mod_add_mod]
  constructor
  · intro hlonger
    have hcomplete : attempts % attemptsPerRun period interval + 1 =
        attemptsPerRun period interval := Nat.le_antisymm hbelow hlonger
    rw [hcomplete, Nat.mod_self]
  · intro hcomplete
    by_contra hshort
    have hbelow : attempts % attemptsPerRun period interval + 1 <
        attemptsPerRun period interval := by
      unfold attemptsPerRun at hshort ⊢
      omega
    rw [Nat.mod_eq_of_lt hbelow] at hcomplete
    cases hcomplete

/-- What attempts have taken is what it took to the last run of the handler and what they have
taken since. -/
theorem mul_period_eq (period interval attempts : Nat) : attempts * period =
    attempts / attemptsPerRun period interval * (period * attemptsPerRun period interval) +
      attempts % attemptsPerRun period interval * period := by
  have hsplit := Nat.div_add_mod attempts (attemptsPerRun period interval)
  calc attempts * period
    _ = (attemptsPerRun period interval * (attempts / attemptsPerRun period interval) +
          attempts % attemptsPerRun period interval) * period := by rw [hsplit]
    _ = _ := by ring

theorem cadence_succ (start count : Nat) :
    cadence start period interval (count + 1) = cadence start period interval count ++
      [⟨start + (count + 1) * (period * attemptsPerRun period interval), interval⟩] := by
  simp [cadence, List.range_succ]

/-- So many attempts are in vain on a stream that ends after a while; it ends during the next
one. -/
def vainAttempts (period silence : Nat) : Nat :=
  silence ⌈/⌉ period - 1

theorem vainAttempts_le_iff (hperiod : 0 < period) {silence attempts : Nat} :
    vainAttempts period silence ≤ attempts ↔ silence ≤ (attempts + 1) * period := by
  rw [vainAttempts, Nat.sub_le_iff_le_add, ceilDiv_le_iff_le_mul hperiod, Nat.mul_comm]

end Arithmetic

theorem checkKeepAlive_of_count {e : Endpoint C} (hdue : e.keepAliveDue = true)
    (hcount : e.keepAlive.handler = some .count) : e.checkKeepAlive = { e with
      keepAlive := { e.keepAlive with lastFired := e.now }
      fired := e.fired + 1
      journal := ⟨e.moment, .keepAliveFired e.keepAlive.interval⟩ :: e.journal } := by
  have hpoll : e.keepAlive.poll e.now e.outbound.isProtected e.rekey.pending =
      (e.keepAlive.handler, { e.keepAlive with lastFired := e.now }) := if_pos hdue
  simp only [checkKeepAlive, hpoll, hcount]
  rfl

/-- A read has made attempts in vain since the schedule was set. The handler has run whenever
their number was complete, and the next interval counts from the last of these runs. -/
structure Stalls (origin : Endpoint C) (interval attempts : Nat) (e : Endpoint C) : Prop where
  config : e.config = origin.config
  still : e.Still
  opened : e.closed = false
  parked : e.parked = none
  isProtected : e.outbound.isProtected = true
  settled : e.rekey.pending = false
  now : e.now = origin.now + attempts * origin.config.pollInterval
  keepAlive : e.keepAlive = ⟨interval, origin.now +
    attempts / attemptsPerRun origin.config.pollInterval interval *
      (origin.config.pollInterval * attemptsPerRun origin.config.pollInterval interval),
    some .count⟩
  fired : e.fired =
    origin.fired + attempts / attemptsPerRun origin.config.pollInterval interval
  firings : e.firings = (cadence origin.now origin.config.pollInterval interval
    (attempts / attemptsPerRun origin.config.pollInterval interval)).reverse ++ origin.firings

namespace Stalls

variable {origin e : Endpoint C} {interval attempts : Nat}

/-- No attempt has been made when the schedule is set. What was parked comes into use before
the first one. -/
theorem begin (hopen : e.closed = false) (hstill : e.Still)
    (hprotected : e.outbound.isProtected = true) (hsettled : e.rekey.pending = false)
    (hset : e.keepAlive = ⟨interval, e.now, some .count⟩) :
    Stalls e interval 0 e.activateParked := by
  have hruns := Nat.zero_div (attemptsPerRun e.config.pollInterval interval)
  have hnow : e.now = e.now + 0 * e.config.pollInterval := by rw [Nat.zero_mul, Nat.add_zero]
  have hkeepAlive : e.keepAlive = ⟨interval, e.now +
      0 / attemptsPerRun e.config.pollInterval interval *
        (e.config.pollInterval * attemptsPerRun e.config.pollInterval interval),
      some .count⟩ := by rw [hruns, Nat.zero_mul, Nat.add_zero, hset]
  have hfired : e.fired = e.fired + 0 / attemptsPerRun e.config.pollInterval interval := by
    rw [hruns, Nat.add_zero]
  have hfirings : e.firings = (cadence e.now e.config.pollInterval interval
      (0 / attemptsPerRun e.config.pollInterval interval)).reverse ++ e.firings := by
    rw [hruns]
    rfl
  unfold activateParked
  split
  next hparked =>
    exact ⟨rfl, hstill, hopen, hparked, hprotected, hsettled, hnow, hkeepAlive, hfired, hfirings⟩
  next protection _ =>
    have hsettled : (e.rekey.step .inboundInstalled).2.pending = false :=
      Rekey.Policy.pending_step_of_down hsettled nofun
    exact ⟨rfl, ⟨hstill.held, hstill.owed, hstill.queued⟩, hopen, rfl, hprotected, hsettled, hnow,
      hkeepAlive, hfired, hfirings⟩

theorem now_lapsed (h : Stalls origin interval attempts e) (turn : Turn)
    (reads : ReadScript (Protection C)) : (e.lapsed turn reads).now =
      origin.now + (attempts + 1) * origin.config.pollInterval := by
  rw [Nat.succ_mul, ← Nat.add_assoc, ← h.now, ← h.config]
  rfl

/-- The handler is due after the next attempt if the number of attempts is complete then. -/
theorem due_lapsed_iff (h : Stalls origin interval attempts e) (hinterval : interval ≠ 0)
    (turn : Turn) (reads : ReadScript (Protection C)) :
    (e.lapsed turn reads).keepAliveDue = true ↔
      attemptsPerRun origin.config.pollInterval interval ∣ attempts + 1 := by
  have hspent := mul_period_eq origin.config.pollInterval interval attempts
  rw [← lt_mul_iff_dvd (Nat.pos_of_ne_zero origin.valid.pollInterval), keepAliveDue_iff,
    h.now_lapsed]
  simp only [lapsed, h.keepAlive, h.isProtected, h.settled, hinterval, ne_eq, not_false_eq_true,
    Option.isSome_some, and_self, true_and]
  rw [Nat.succ_mul, Nat.succ_mul]
  omega

theorem lapsed_of_not_due (h : Stalls origin interval attempts e) {turn : Turn}
    {reads : ReadScript (Protection C)} (hdue : (e.lapsed turn reads).keepAliveDue = false)
    (hincomplete : ¬attemptsPerRun origin.config.pollInterval interval ∣ attempts + 1) :
    Stalls origin interval (attempts + 1) (e.lapsed turn reads).checkKeepAlive := by
  have hruns := Nat.succ_div_of_not_dvd hincomplete
  rw [checkKeepAlive_of_not_due hdue]
  exact ⟨h.config, ⟨h.still.held, h.still.owed, h.still.queued⟩, h.opened, h.parked,
    h.isProtected, h.settled, h.now_lapsed turn reads, hruns ▸ h.keepAlive, hruns ▸ h.fired,
    hruns ▸ h.firings⟩

theorem lapsed_of_due (h : Stalls origin interval attempts e) {turn : Turn}
    {reads : ReadScript (Protection C)} (hdue : (e.lapsed turn reads).keepAliveDue = true)
    (hcomplete : attemptsPerRun origin.config.pollInterval interval ∣ attempts + 1) :
    Stalls origin interval (attempts + 1) (e.lapsed turn reads).checkKeepAlive := by
  have hruns := Nat.succ_div_of_dvd hcomplete
  have hnow := h.now_lapsed turn reads
  have hspent := mul_period_eq origin.config.pollInterval interval (attempts + 1)
  rw [Nat.mod_eq_zero_of_dvd hcomplete, Nat.zero_mul, Nat.add_zero (_ * _)] at hspent
  have hkeepAlive : (e.lapsed turn reads).keepAlive = _ := h.keepAlive
  have hran := checkKeepAlive_of_count hdue (by rw [hkeepAlive])
  have hfirings : (e.lapsed turn reads).checkKeepAlive.firings =
      ⟨(e.lapsed turn reads).now, (e.lapsed turn reads).keepAlive.interval⟩ :: e.firings :=
    congrArg (·.2.2) (timing_checkKeepAlive_of_due hdue)
  rw [hran] at hfirings ⊢
  refine ⟨h.config, ⟨h.still.held, h.still.owed, h.still.queued⟩, h.opened, h.parked,
    h.isProtected, h.settled, hnow, ?_, ?_, ?_⟩
  · rw [← hspent, ← hnow]
    simp only [hkeepAlive]
  · rw [hruns, ← Nat.add_assoc, ← h.fired]
    rfl
  · rw [hfirings, hruns, cadence_succ, List.reverse_concat, List.cons_append, ← h.firings,
      ← hruns, ← hspent, ← hnow, hkeepAlive]

/-- The next attempt is in vain as well. -/
theorem next (h : Stalls origin interval attempts e) (hinterval : interval ≠ 0) (turn : Turn)
    (reads : ReadScript (Protection C)) :
    Stalls origin interval (attempts + 1) (e.lapsed turn reads).checkKeepAlive := by
  have hiff := h.due_lapsed_iff hinterval turn reads
  cases hdue : (e.lapsed turn reads).keepAliveDue with
  | false => exact h.lapsed_of_not_due hdue fun hcomplete => by simp [hdue, hcomplete] at hiff
  | true => exact h.lapsed_of_due hdue (hiff.mp hdue)

end Stalls

/-- A read on a silent stream ends with the stream, during the attempt after those in vain. -/
theorem Stalls.awaitFirstBlock [BlockCipher C] {origin e : Endpoint C}
    {interval silence attempts left : Nat} (hinterval : interval ≠ 0)
    (hleft : attempts + left = vainAttempts origin.config.pollInterval silence)
    (h : Stalls origin interval attempts e) (hends : EndsAt (origin.now + silence) e.now e.reads) :
    ∃ last turn reads, awaitFirstBlock [] e =
        (.ok none, { last with now := origin.now + silence, turn, reads }) ∧
      Stalls origin interval (vainAttempts origin.config.pollInterval silence) last := by
  have hperiod : 0 < origin.config.pollInterval := Nat.pos_of_ne_zero origin.valid.pollInterval
  have hdeadline : e.now + e.config.pollInterval =
      origin.now + (attempts + 1) * origin.config.pollInterval := by
    rw [h.now, h.config, Nat.succ_mul, Nat.add_assoc]
  induction left generalizing attempts e with
  | zero =>
      have hended : silence ≤ (attempts + 1) * origin.config.pollInterval :=
        (vainAttempts_le_iff hperiod).mp (Nat.le_of_eq hleft.symm)
      rcases awaitFirstBlock_of_silent hends h.still h.opened h.parked with
        ⟨-, turn, reads, hresult⟩ | ⟨hsilent, -⟩
      · exact ⟨e, turn, reads, hresult, hleft ▸ h⟩
      · omega
  | succ left ih =>
      have hshort : ¬silence ≤ (attempts + 1) * origin.config.pollInterval := by
        rw [← vainAttempts_le_iff hperiod]
        omega
      rcases awaitFirstBlock_of_silent hends h.still h.opened h.parked with
        ⟨hended, -⟩ | ⟨-, turn, reads, hrest, hresult⟩
      · omega
      · have hnext := h.next hinterval turn reads
        rw [hresult]
        refine ih (by omega) hnext ?_ ?_
        · rw [reads_checkKeepAlive, hnext.now, ← hdeadline]
          exact hrest
        · rw [hnext.now, hnext.config, Nat.succ_mul (attempts + 1), Nat.add_assoc]

variable [BlockCipher C]

/-- On an idle connection the handler runs with the cadence of the attempts, until the stream
ends and with it the read. -/
theorem run_keepAlive_cadence {e : Endpoint C} {interval silence : Nat} (hopen : e.closed = false)
    (hstill : e.Still) (hprotected : e.outbound.isProtected = true)
    (hsettled : e.rekey.pending = false) (hinterval : interval ≠ 0)
    (hends : EndsAt (e.now + silence) e.now e.reads) :
    ∃ last, run [.setKeepAlive interval .count, .read] e =
        ([.ok .done, .ok (.packet none)], last) ∧
      last.now = e.now + silence ∧
      last.fired = e.fired + vainAttempts e.config.pollInterval silence /
        attemptsPerRun e.config.pollInterval interval ∧
      last.firings = (cadence e.now e.config.pollInterval interval
        (vainAttempts e.config.pollInterval silence /
          attemptsPerRun e.config.pollInterval interval)).reverse ++ e.firings := by
  have hbefore : (e.countOperation.setKeepAlive interval .count).Still :=
    ⟨hstill.held, hstill.owed, hstill.queued⟩
  obtain ⟨turn, hupkeep⟩ := hbefore.upkeep_eq .idle
  let configured := { e.countOperation.setKeepAlive interval .count with turn }
  have hconfigure : perform (.setKeepAlive interval .count) e = (.ok .done, configured) :=
    congrArg (Prod.mk (Except.ok Reply.done)) hupkeep
  have hbegin : Stalls configured.countOperation interval 0
      configured.countOperation.activateParked :=
    .begin hopen ⟨hstill.held, hstill.owed, hstill.queued⟩ hprotected hsettled rfl
  have hsilent : EndsAt (configured.countOperation.now + silence)
      configured.countOperation.activateParked.now
      configured.countOperation.activateParked.reads := by
    rw [now_activateParked, reads_activateParked]
    exact hends
  obtain ⟨last, turn, reads, hawait, hlast⟩ :=
    hbegin.awaitFirstBlock hinterval (Nat.zero_add _) hsilent
  rw [awaitFirstBlock_activateParked] at hawait
  let final := { last with now := e.now + silence, turn, reads }
  have hread : read configured.countOperation = (.ok none, final) := by
    have hunclosed : configured.countOperation.closed ≠ true := Bool.eq_false_iff.mp hopen
    rw [read, if_neg hunclosed, Act.noting, readPacket, Act.bind_of_ok hawait]
    rfl
  have hafter : final.Still := ⟨hlast.still.held, hlast.still.owed, hlast.still.queued⟩
  obtain ⟨turn, hupkeep⟩ := hafter.upkeep_eq .idle
  refine ⟨{ final with turn }, ?_, rfl, hlast.fired, hlast.firings⟩
  simp only [run, hconfigure, perform_read_eq, hread, hupkeep]
  rfl

/-- A protected connection on which nothing arrives for a quarter of a second. -/
def silentConnection : Endpoint Rehearsal.Cipher :=
  { newEndpoint with
    outbound := ⟨some (maskedProtection 0), {}⟩
    reads := [.pause 250] }

/-- An attempt takes as long as the interval and no longer. So two of them are made before the
handler runs. -/
theorem run_keepAlive_cadence_quarter :
    ∃ last, run [.setKeepAlive 100 .count, .read] silentConnection =
        ([.ok .done, .ok (.packet none)], last) ∧
      last.now = 250 ∧ last.fired = 1 ∧ last.firings = [⟨200, 100⟩] :=
  run_keepAlive_cadence (e := silentConnection) rfl ⟨rfl, rfl, rfl⟩ rfl rfl (by decide)
    (.pause .nil)

end Endpoint

end PacketLayer
