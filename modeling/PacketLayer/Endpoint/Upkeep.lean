import PacketLayer.Endpoint.Seal
import PacketLayer.Endpoint.Send

/-!
# Upkeep

Keep-alive messages are written beside whatever else an endpoint does. They take
their turn on the outbound lane one after another, and one that the stream is
not ready for is set aside while the clock goes on. They never delay the reader;
a writer waits until the outbound lane is free.
-/

namespace PacketLayer.Endpoint

variable {C : Type}

/-- Notes how the writing of a keep-alive message ended; it can only be noted. -/
def reportKeepAlive : Except Fault Unit × Endpoint C → Endpoint C
  | (.ok (), e) => e
  | (.error fault, e) =>
      (e.note (.failure .outbound fault.message)).note (.keepAliveFailed fault.message)

/-- Deals with a keep-alive message that has come so far: it ends, or it occupies
the outbound lane. -/
def settleKeepAlive (frameLength : Nat) : Progress × Endpoint C → Endpoint C
  | (.blocked shipment, e) => { e with held := some ⟨shipment, frameLength⟩ }
  | (.sent, e) => reportKeepAlive (completePacket frameLength e)
  | (.failed fault, e) => reportKeepAlive (.error fault, e)

/-- Goes on with the keep-alive message that occupies the outbound lane. -/
def resumeKeepAlive (reader : ReaderState) (e : Endpoint C) : Endpoint C :=
  match e.held with
  | none => e
  | some message =>
      settleKeepAlive message.frameLength
        (proceed reader message.shipment.rest message.shipment.attempt
          { e with held := none, turn := .called 0 message.shipment.wake })

/-- Looks at what has been asked for: it fails on a closed endpoint, and otherwise
queues for the outbound lane. -/
def admitKeepAlives (e : Endpoint C) : Endpoint C :=
  if e.closed then
    Nat.repeat (note (.keepAliveFailed Fault.closed.message)) e.owed
      { e with owed := 0, turn := .asked }
  else { e with owed := 0, queued := e.queued + e.owed }

/-- Begins to write a keep-alive message on a free outbound lane. -/
def beginKeepAlive [BlockCipher C] (reader : ReaderState) (e : Endpoint C) : Endpoint C :=
  let (message, noise) := keepAliveMessage keepAliveDataLength e.noise
  match sealPacket message { e with noise } with
  | (.ok packet, e) =>
      settleKeepAlive packet.frameLength (proceed reader packet.bytes e.attempt e)
  | (.error fault, e) => reportKeepAlive (.error fault, e)

/-- Writes up to `count` queued messages, as long as the outbound lane is free. The
turn of each depends on how many are left behind it. -/
def beginKeepAlives [BlockCipher C] (reader : ReaderState) (turn : Nat → Turn) :
    Nat → Endpoint C → Endpoint C
  | 0, e => e
  | count + 1, e =>
      if e.held.isSome then e
      else
        beginKeepAlives reader turn count
          (beginKeepAlive reader { e with queued := count, turn := turn count })

/-- The turns of `count` messages that queue for the outbound lane, by how many are
left behind each: they follow one another if some had queued before, and otherwise
all have just been asked for. -/
def turnOfQueued (count : Nat) (e : Endpoint C) (left : Nat) : Turn :=
  match e.held, e.queued with
  | some message, _ + 1 => .called (count - left) message.shipment.wake
  | _, _ => .asked

/-- Carries all keep-alive messages as far as they go at the current time. -/
def upkeep [BlockCipher C] (reader : ReaderState) (e : Endpoint C) : Endpoint C :=
  let next := (e.resumeKeepAlive reader).admitKeepAlives
  next.beginKeepAlives reader (e.turnOfQueued next.queued) next.queued

/-- A message that is set aside waits for a pause of the write script. -/
def Steady (e : Endpoint C) : Prop :=
  ∀ message, e.held = some message → e.Holds message.shipment

theorem Holds.of_outlet {shipment : Shipment} {e next : Endpoint C} (hholds : e.Holds shipment)
    (hsame : next.outlet = e.outlet) : next.Holds shipment := by
  have hnow : next.now = e.now := congrArg Prod.fst hsame
  have hwrites : next.writes = e.writes := congrArg (·.2.1) hsame
  unfold Holds
  rw [hnow, hwrites]
  exact hholds

theorem Steady.of_outlet {e next : Endpoint C} (hsteady : e.Steady)
    (hsame : next.outlet = e.outlet) : next.Steady := by
  intro message hoccupied
  have hheld : next.held = e.held := congrArg (·.2.2) hsame
  exact (hsteady message (hheld ▸ hoccupied)).of_outlet hsame

theorem steady_of_none {e : Endpoint C} (hfree : e.held = none) : e.Steady := by
  intro message hoccupied
  rw [hfree] at hoccupied
  cases hoccupied

theorem writeCost_of_outlet {e next : Endpoint C} (hsame : next.outlet = e.outlet) :
    next.writeCost = e.writeCost := by
  have hnow : next.now = e.now := congrArg Prod.fst hsame
  have hwrites : next.writes = e.writes := congrArg (·.2.1) hsame
  unfold writeCost
  rw [hnow, hwrites]

/-- Upkeep takes no time, never raises the cost of the write script, and leaves a
message that is set aside at a pause of the script. -/
structure Tended (e next : Endpoint C) : Prop where
  now_eq : next.now = e.now
  cost_le : next.writeCost ≤ e.writeCost
  steady : next.Steady

theorem Tended.of_outlet {e middle next : Endpoint C} (htended : Tended e middle)
    (hsame : next.outlet = middle.outlet) : Tended e next where
  now_eq := (congrArg Prod.fst hsame : next.now = middle.now).trans htended.now_eq
  cost_le := writeCost_of_outlet hsame ▸ htended.cost_le
  steady := htended.steady.of_outlet hsame

theorem Tended.trans {e middle next : Endpoint C} (hfirst : Tended e middle)
    (hsecond : Tended middle next) : Tended e next where
  now_eq := hsecond.now_eq.trans hfirst.now_eq
  cost_le := Nat.le_trans hsecond.cost_le hfirst.cost_le
  steady := hsecond.steady

theorem outlet_reportKeepAlive (outcome : Except Fault Unit × Endpoint C) :
    (reportKeepAlive outcome).outlet = outcome.2.outlet := by
  obtain ⟨result, e⟩ := outcome
  cases result <;> rfl

/-- A message that is sent as far as the stream is ready for it is tended. -/
theorem tended_settleKeepAlive (reader : ReaderState) (rest : Bytes) (attempt : Alarm)
    (frameLength : Nat) {e : Endpoint C} (hfree : e.held = none) :
    Tended e (settleKeepAlive frameLength (proceed reader rest attempt e)) := by
  have hnow := now_proceed reader rest attempt e
  have hcost := writeCost_proceed_le reader rest attempt e
  have hheld := (held_proceed reader rest attempt e).trans hfree
  cases houtcome : proceed reader rest attempt e with
  | mk progress next =>
      rw [houtcome] at hnow hcost hheld
      have hdone : Tended e next := ⟨hnow, hcost, steady_of_none hheld⟩
      cases progress with
      | sent =>
          exact (hdone.of_outlet (keeps_completePacket frameLength next)).of_outlet
            (outlet_reportKeepAlive _)
      | failed fault => exact hdone.of_outlet (outlet_reportKeepAlive (.error fault, next))
      | blocked shipment =>
          refine ⟨hnow, hcost, ?_⟩
          rintro _ ⟨⟩
          have hholds := holds_of_proceed houtcome
          exact ⟨hholds.1, hholds.2⟩

theorem tended_resumeKeepAlive (reader : ReaderState) (e : Endpoint C) :
    Tended e (e.resumeKeepAlive reader) := by
  unfold resumeKeepAlive
  split
  next hfree => exact ⟨rfl, Nat.le_refl _, steady_of_none hfree⟩
  next message _ =>
    have htended := tended_settleKeepAlive reader message.shipment.rest message.shipment.attempt
      message.frameLength
      (e := { e with held := none, turn := .called 0 message.shipment.wake }) rfl
    exact ⟨htended.now_eq, htended.cost_le, htended.steady⟩

theorem outlet_repeat_note (event : Event) (count : Nat) (e : Endpoint C) :
    (Nat.repeat (note event) count e).outlet = e.outlet := by
  induction count with
  | zero => rfl
  | succ count ih => exact ih

theorem outlet_admitKeepAlives (e : Endpoint C) : e.admitKeepAlives.outlet = e.outlet := by
  unfold admitKeepAlives
  split
  · exact outlet_repeat_note _ _ _
  · rfl

theorem tended_beginKeepAlive [BlockCipher C] (reader : ReaderState) {e : Endpoint C}
    (hfree : e.held = none) : Tended e (e.beginKeepAlive reader) := by
  unfold beginKeepAlive
  dsimp only
  have hkeeps := keeps_sealPacket (keepAliveMessage keepAliveDataLength e.noise).1
    { e with noise := (keepAliveMessage keepAliveDataLength e.noise).2 }
  have hbefore : ∀ {next : Endpoint C}, next.outlet = e.outlet → Tended e next := fun hsame =>
    Tended.of_outlet ⟨rfl, Nat.le_refl _, steady_of_none hfree⟩ hsame
  split
  next packet next houtcome =>
    rw [houtcome] at hkeeps
    have hsame : next.outlet = e.outlet := hkeeps
    have hheld : next.held = none := (congrArg (·.2.2) hsame : next.held = e.held).trans hfree
    exact (hbefore hsame).trans (tended_settleKeepAlive reader _ _ _ hheld)
  next fault next houtcome =>
    rw [houtcome] at hkeeps
    exact (hbefore hkeeps).of_outlet (outlet_reportKeepAlive (.error fault, next))

theorem tended_beginKeepAlives [BlockCipher C] (reader : ReaderState) (turn : Nat → Turn)
    (count : Nat) {e : Endpoint C} (hsteady : e.Steady) :
    Tended e (e.beginKeepAlives reader turn count) := by
  induction count generalizing e with
  | zero => exact ⟨rfl, Nat.le_refl _, hsteady⟩
  | succ count ih =>
      unfold beginKeepAlives
      split
      · exact ⟨rfl, Nat.le_refl _, hsteady⟩
      next hoccupied =>
        have hfree : e.held = none := by simpa using hoccupied
        have hbegun := tended_beginKeepAlive reader
          (e := { e with queued := count, turn := turn count }) hfree
        have hall := hbegun.trans (ih hbegun.steady)
        exact ⟨hall.now_eq, hall.cost_le, hall.steady⟩

/-- Upkeep takes no time, never raises the cost of the write script, and leaves a
message that is set aside at a pause of the script. -/
theorem tended_upkeep [BlockCipher C] (reader : ReaderState) (e : Endpoint C) :
    Tended e (e.upkeep reader) := by
  have hadmitted := (tended_resumeKeepAlive reader e).of_outlet (outlet_admitKeepAlives _)
  exact hadmitted.trans (tended_beginKeepAlives reader _ _ hadmitted.steady)

end PacketLayer.Endpoint
