import PacketLayer.Endpoint.Upkeep

/-!
# Waiting

While an operation waits, the clock stops wherever a keep-alive message that was
set aside has something to do. A wait ends at a given time, or when the outbound
lane is free. The operation that waits for a time goes on before anything else that
is due then, and the one that waits for the lane after everything else.
-/

namespace PacketLayer.Endpoint

variable {C : Type} [BlockCipher C]

/-- Waits until a time, unless it has come, and looks after keep-alive messages
meanwhile. -/
def waitUntil (reader : ReaderState) (time : Nat) (e : Endpoint C) : Endpoint C :=
  if _hpassed : time ≤ e.now then e
  else
    let ready := e.upkeep reader
    match _hoccupied : ready.held with
    | none => ready.advanceTo time
    | some message =>
        if _hearly : message.shipment.wake.time < time then
          waitUntil reader time (ready.advanceTo message.shipment.wake.time)
        else ready.advanceTo time
  termination_by time - e.now
  decreasing_by
    have htended := tended_upkeep reader e
    have hlater := (htended.steady message _hoccupied).1
    rw [now_advanceTo, htended.now_eq]
    rw [htended.now_eq] at hlater
    omega

/-- Waits until the outbound lane is free. -/
def awaitOutbound (e : Endpoint C) : Endpoint C :=
  let ready := e.upkeep .idle
  match _hoccupied : ready.held with
  | none => { ready with turn := .admitted }
  | some message => awaitOutbound (ready.advanceTo message.shipment.wake.time)
  termination_by e.writeCost
  decreasing_by
    have htended := tended_upkeep .idle e
    exact Nat.lt_of_lt_of_le (htended.steady message _hoccupied).writeCost_advanceTo_lt
      htended.cost_le

/-- Lets time pass up to a given time, as between two operations. -/
def passTo (time : Nat) (e : Endpoint C) : Endpoint C :=
  (e.waitUntil .idle time).upkeep .idle

/-- Puts the clock on to a given time at once, without a stop between. -/
def leapTo (time : Nat) (e : Endpoint C) : Endpoint C :=
  (e.advanceTo time).upkeep .idle

/-- A wait ends exactly at its time. -/
theorem now_waitUntil (reader : ReaderState) (time : Nat) (e : Endpoint C) :
    (e.waitUntil reader time).now = max e.now time := by
  fun_induction waitUntil reader time e with
  | case1 e hpassed => omega
  | case2 e _ ready _ => rw [now_advanceTo, (tended_upkeep reader e).now_eq]
  | case3 e _ ready message _ hearly ih =>
      rw [ih, now_advanceTo, (tended_upkeep reader e).now_eq]
      omega
  | case4 e _ ready _ _ _ => rw [now_advanceTo, (tended_upkeep reader e).now_eq]

theorem now_le_waitUntil (reader : ReaderState) (time : Nat) (e : Endpoint C) :
    e.now ≤ (e.waitUntil reader time).now := by
  rw [now_waitUntil]
  exact Nat.le_max_left _ _

end PacketLayer.Endpoint
