import PacketLayer.Proofs.Closing.Sparing
import PacketLayer.Proofs.Inlet

/-! # Waiting for the outbound lane

To wait for the outbound lane is to let time pass until the keep-alive messages are through.
When the lane becomes free none of them is left.
-/

namespace PacketLayer.Endpoint

variable {C : Type} [BlockCipher C]

/-- The endpoint at the time when its outbound lane becomes free. -/
def waited (e : Endpoint C) : Endpoint C :=
  e.passTo e.awaitOutbound.now

theorem now_le_awaitOutbound (e : Endpoint C) : e.now ≤ e.awaitOutbound.now := by
  fun_induction awaitOutbound e with
  | case1 e ready _ => exact Nat.le_of_eq (tended_upkeep .idle e).now_eq.symm
  | case2 e ready message _ ih =>
      rw [now_advanceTo, (tended_upkeep .idle e).now_eq] at ih
      omega

/-- A wait goes through the time at which a message is looked at again. -/
theorem waitUntil_of_held {reader : ReaderState} {time : Nat} {e ready : Endpoint C}
    {message : HeldMessage} (hready : e.upkeep reader = ready)
    (hheld : ready.held = some message) (hlater : e.now < message.shipment.wake.time)
    (hwake : message.shipment.wake.time ≤ time) :
    e.waitUntil reader time =
      (ready.advanceTo message.shipment.wake.time).waitUntil reader time := by
  rw [waitUntil_of_upkeep (by omega) hready, hheld]
  dsimp only
  split
  · rfl
  next hlate =>
    obtain rfl : message.shipment.wake.time = time := by omega
    have hthere : message.shipment.wake.time ≤ (ready.advanceTo message.shipment.wake.time).now :=
      Nat.le_max_right _ _
    rw [waitUntil, dif_pos hthere]

/-- To wait for the lane is to let time pass, and to take the last turn then. -/
theorem awaitOutbound_eq (e : Endpoint C) :
    e.awaitOutbound = { e.waited with turn := .admitted } := by
  unfold waited
  fun_induction awaitOutbound e with
  | case1 e ready hfree =>
      have hnow : ready.now = e.now := (tended_upkeep .idle e).now_eq
      rw [passTo, waitUntil, dif_pos (Nat.le_of_eq hnow)]
  | case2 e ready message hheld ih =>
      have htended := tended_upkeep .idle e
      have hlater := (htended.steady message hheld).1
      have hwake := now_le_awaitOutbound (ready.advanceTo message.shipment.wake.time)
      rw [htended.now_eq] at hlater
      rw [now_advanceTo] at hwake
      rw [passTo, waitUntil_of_held rfl hheld hlater (by omega)]
      exact ih

/-- Nothing is left to do for upkeep when the outbound lane becomes free. -/
theorem still_waited (e : Endpoint C) : e.waited.Still := by
  have hfree : e.waited.held = none := by
    obtain ⟨-, hawaited⟩ := passes_awaitOutbound (s := e.during .free) rfl (fun _ => trivial) e
    rwa [awaitOutbound_eq] at hawaited
  obtain ⟨-, howed, hqueued⟩ := tends_upkeep (s := e.during .free) rfl
    (e := e.waitUntil .idle e.awaitOutbound.now) trivial
  exact ⟨hfree, howed, hqueued hfree⟩

/-- No time passes if no keep-alive message is asked for or on its way. -/
theorem waited_of_still {e : Endpoint C} (hheld : e.held = none) (howed : e.owed = 0)
    (hqueued : e.queued = 0) : ∃ turn, e.waited = { e with turn } := by
  obtain ⟨turn, hturned⟩ := Still.upkeep_eq ⟨hheld, howed, hqueued⟩ .idle
  have hnow : e.awaitOutbound.now = e.now := by
    rw [awaitOutbound_of_upkeep hturned]
    split
    next => rfl
    next message hoccupied => cases hheld.symm.trans hoccupied
  refine ⟨turn, ?_⟩
  rw [waited, hnow, passTo, waitUntil, dif_pos (Nat.le_refl _), hturned]

end PacketLayer.Endpoint
