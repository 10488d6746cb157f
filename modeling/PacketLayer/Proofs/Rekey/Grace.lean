import Mathlib.Algebra.Group.Nat.Defs
import Mathlib.Data.List.DropRight
import PacketLayer.Proofs.Rekey.Steps

/-! # The grace window

While a request for new keys stands, inbound packets are late. They are counted from the
call that raised the request, or from an inbound installation after it, and the one that
completes the grace window is refused with its count, and so are all after it.
-/

namespace PacketLayer.Rekey.Policy

/-- Calls in order, each with the policy that it meets. -/
def calls (policy : Policy) : List Step → List (Policy × Step)
  | [] => []
  | step :: steps => (policy, step) :: (policy.step step).2.calls steps

theorem calls_concat (policy : Policy) (steps : List Step) (step : Step) :
    policy.calls (steps ++ [step]) = policy.calls steps ++ [(policy.after steps, step)] := by
  induction steps generalizing policy with
  | nil => rfl
  | cons first steps ih => exact congrArg _ (ih (policy.step first).2)

/-- A call starts the grace window afresh if it raises the request or installs inbound keys. -/
def opensWindow (call : Policy × Step) : Bool :=
  (!call.1.pending && (call.1.step call.2).2.pending) || decide (call.2 = .inboundInstalled)

/-- An inbound packet is late if a request stands when it is recorded. -/
def isLate (call : Policy × Step) : Bool :=
  match call.2 with
  | .received _ => call.1.pending
  | .sent _ | .outboundInstalled | .inboundInstalled => false

/-- The late packets since the grace window was last started afresh. -/
def lateCount (limits : Limits) (steps : List Step) : Nat :=
  (((fresh limits).calls steps).rtakeWhile fun call => !opensWindow call).countP isLate

theorem lateCount_concat (limits : Limits) (steps : List Step) (step : Step) :
    lateCount limits (steps ++ [step]) =
      if opensWindow ((fresh limits).after steps, step) then 0
      else lateCount limits steps + if isLate ((fresh limits).after steps, step) then 1 else 0 := by
  unfold lateCount
  rw [calls_concat, List.rtakeWhile_concat]
  split <;> split <;> simp_all

/-- The policy counts late packets, and nothing else starts its count afresh. -/
theorem overflow_step (policy : Policy) (step : Step) :
    (policy.step step).2.overflow =
      if opensWindow (policy, step) then 0
      else policy.overflow + if isLate (policy, step) then 1 else 0 := by
  cases step with
  | sent bytes =>
      change (policy.recordSent bytes).2.overflow = _
      cases hpending : policy.pending with
      | true => simp [opensWindow, isLate, recordSent_of_pending hpending, hpending]
      | false =>
          cases hreaches : (policy.sent.record bytes).reaches policy.limits with
          | true =>
              simp [opensWindow, Policy.step, recordSent_of_reaches hpending hreaches, hpending]
          | false =>
              simp [opensWindow, isLate, Policy.step, recordSent_of_below hpending hreaches,
                hpending]
  | received bytes =>
      change (policy.recordReceived bytes).2.overflow = _
      cases hpending : policy.pending with
      | true =>
          by_cases hgrace : policy.limits.gracePackets ≤ policy.overflow + 1
          · simp [opensWindow, isLate, recordReceived_of_exhausted hpending bytes hgrace, hpending]
          · simp [opensWindow, isLate, recordReceived_of_grace hpending bytes hgrace, hpending]
      | false =>
          cases hreaches : (policy.received.record bytes).reaches policy.limits with
          | true =>
              simp [opensWindow, Policy.step, recordReceived_of_reaches hpending hreaches, hpending]
          | false =>
              simp [opensWindow, isLate, Policy.step,
                recordReceived_of_below hpending hreaches, hpending]
  | outboundInstalled =>
      simp only [opensWindow, isLate, Policy.step, installOutbound, withdraw]
      split <;> simp
  | inboundInstalled =>
      simp only [opensWindow, Policy.step, installInbound, withdraw]
      split <;> simp

/-- The count of the policy is that of the late packets in its history, up to the largest
32-bit number. -/
theorem overflow_after (limits : Limits) (steps : List Step) :
    ((fresh limits).after steps).overflow = UInt32.ofNat (lateCount limits steps) := by
  induction steps using List.reverseRecOn with
  | nil => rfl
  | append_singleton steps step ih =>
      rw [after_concat, overflow_step, ih, lateCount_concat]
      split
      · rfl
      · rw [UInt32.ofNat_add]
        split <;> rfl

/-- A policy that stands by a request answers for an inbound packet by its count alone. -/
theorem recordReceived_of_late {policy : Policy} (hup : policy.pending = true) (bytes : UInt64) :
    (policy.recordReceived bytes).1 =
      if policy.limits.gracePackets ≤ policy.overflow + 1 then
        .error (.rekeyIgnored (policy.overflow + 1))
      else .ok false := by
  split
  next hgrace => rw [recordReceived_of_exhausted hup bytes hgrace]
  next hgrace => rw [recordReceived_of_grace hup bytes hgrace]

theorem recordReceived_of_down {policy : Policy} (hdown : policy.pending = false)
    (bytes : UInt64) : ∃ raised, (policy.recordReceived bytes).1 = .ok raised := by
  cases hreaches : (policy.received.record bytes).reaches policy.limits with
  | true => exact ⟨true, congrArg Prod.fst (recordReceived_of_reaches hdown hreaches)⟩
  | false => exact ⟨false, congrArg Prod.fst (recordReceived_of_below hdown hreaches)⟩

/-- An outbound installation withdraws a request, or leaves it and its count as they are. -/
theorem installOutbound_of_pending {policy : Policy}
    (hup : policy.installOutbound.pending = true) :
    policy.pending = true ∧ policy.installOutbound.limits = policy.limits ∧
      policy.installOutbound.overflow = policy.overflow := by
  unfold installOutbound withdraw at hup ⊢
  split at hup
  · cases hup
  next hunpaired =>
    rw [if_neg hunpaired]
    exact ⟨hup, rfl, rfl⟩

/-- An inbound packet is answered by its place among the late packets of its grace window. One
that is not late is never refused, and an outbound installation that does not withdraw the
request changes no answer. -/
theorem grace_window (limits : Limits) (steps : List Step) (bytes : UInt64) :
    (((fresh limits).after steps).pending = true → lateCount limits steps + 1 < 2 ^ 32 →
      (((fresh limits).after steps).step (.received bytes)).1 = some
        (if lateCount limits steps + 1 < limits.gracePackets.toNat then .ok false
        else .error (.rekeyIgnored (UInt32.ofNat (lateCount limits steps + 1))))) ∧
    (((fresh limits).after steps).pending = false →
      ∃ raised, (((fresh limits).after steps).step (.received bytes)).1 = some (.ok raised)) ∧
    (((fresh limits).after (steps ++ [.outboundInstalled])).pending = true →
      (((fresh limits).after (steps ++ [.outboundInstalled])).step (.received bytes)).1 =
        (((fresh limits).after steps).step (.received bytes)).1) := by
  have hanswer (policy : Policy) :
      (policy.step (.received bytes)).1 = some (policy.recordReceived bytes).1 := rfl
  refine ⟨fun hup hfew => ?_, fun hdown => ?_, fun hstands => ?_⟩
  · have hcount : ((fresh limits).after steps).overflow + 1 =
        UInt32.ofNat (lateCount limits steps + 1) := by
      rw [overflow_after, UInt32.ofNat_add]
      rfl
    have hgrace : limits.gracePackets ≤ UInt32.ofNat (lateCount limits steps + 1) ↔
        ¬lateCount limits steps + 1 < limits.gracePackets.toNat := by
      rw [UInt32.le_iff_toNat_le, UInt32.toNat_ofNat', Nat.mod_eq_of_lt hfew, Nat.not_lt]
    rw [hanswer, recordReceived_of_late hup, hcount, limits_after, fresh]
    simp only [hgrace, ite_not]
  · obtain ⟨raised, hrecorded⟩ := recordReceived_of_down hdown bytes
    exact ⟨raised, congrArg some hrecorded⟩
  · have hinstalled : (fresh limits).after (steps ++ [.outboundInstalled]) =
        ((fresh limits).after steps).installOutbound := after_concat _ _ _
    rw [hinstalled] at hstands ⊢
    obtain ⟨hup, hlimits, hoverflow⟩ := installOutbound_of_pending hstands
    rw [hanswer, hanswer, recordReceived_of_late hstands, recordReceived_of_late hup, hlimits,
      hoverflow]

/-- The second late packet completes a window of two. An outbound installation before it makes
no difference, and before the request no packet is late. -/
theorem grace_window_exhausted :
    let limits : Limits := { packets := 1, gracePackets := 2 }
    (((fresh limits).after [.sent 1, .received 1]).pending = true ∧
      (((fresh limits).after [.sent 1, .received 1]).step (.received 1)).1 =
        some (.error (.rekeyIgnored 2))) ∧
    (((fresh limits).after []).pending = false ∧
      ∃ raised, (((fresh limits).after []).step (.received 1)).1 = some (.ok raised)) ∧
    ((fresh limits).after ([.sent 1, .received 1] ++ [.outboundInstalled])).pending = true ∧
      (((fresh limits).after ([.sent 1, .received 1] ++ [.outboundInstalled])).step
        (.received 1)).1 = (((fresh limits).after [.sent 1, .received 1]).step (.received 1)).1 := by
  intro limits
  have hwindow := grace_window limits [.sent 1, .received 1] 1
  exact ⟨⟨by decide, hwindow.1 (by decide) (by decide)⟩,
    ⟨by decide, (grace_window limits [] 1).2.1 (by decide)⟩, by decide, hwindow.2.2 (by decide)⟩

end PacketLayer.Rekey.Policy
