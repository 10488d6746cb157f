import PacketLayer.Proofs.Rekey.Epochs
import PacketLayer.Proofs.Rekey.Totals

/-! # Keys at their limit

While no request stands, a key is below its limits unless it was overlooked: it had reached
one of them while a request stood, and the installation of the other direction withdrew that
request. The next packet under the key asks for new ones again.
-/

namespace PacketLayer.Rekey

/-- Traffic below both limits. -/
structure Traffic.Below (limits : Limits) (traffic : Traffic) : Prop where
  packets : traffic.packets < limits.packets
  bytes : traffic.bytes < limits.bytes

theorem Traffic.below_ofPackets_iff (limits : Limits) (packets : List UInt64) :
    (ofPackets packets).Below limits ↔ ¬limits.ReachedBy packets := by
  rw [← reaches_ofPackets, reaches, Bool.or_eq_true, decide_eq_true_eq, decide_eq_true_eq,
    not_or, UInt64.not_le, UInt64.not_le]
  exact ⟨fun hbelow => ⟨hbelow.packets, hbelow.bytes⟩, fun hlow => ⟨hlow.1, hlow.2⟩⟩

theorem Limits.not_reachedBy_nil {limits : Limits} (hpackets : limits.packets ≠ 0)
    (hbytes : limits.bytes ≠ 0) : ¬limits.ReachedBy [] := by
  have hpackets := mt UInt64.toNat_inj.mp hpackets
  have hbytes := mt UInt64.toNat_inj.mp hbytes
  simp only [ReachedBy, List.length_nil, List.map_nil, List.sum_nil]
  change limits.packets.toNat ≠ 0 at hpackets
  change limits.bytes.toNat ≠ 0 at hbytes
  omega

/-- A call has no part in a direction if it neither installs it nor counts a packet of it. -/
def Step.Apart (direction : Direction) (step : Step) : Prop :=
  step ≠ .install direction ∧ step.bytes? direction = none

theorem carried_append_of_apart {direction : Direction} {steps later : List Step}
    (hapart : ∀ step ∈ later, step.Apart direction) :
    carried direction (steps ++ later) = carried direction steps := by
  induction later using List.reverseRecOn with
  | nil => rw [List.append_nil]
  | append_singleton later step ih =>
      obtain ⟨hinstall, hbytes⟩ := hapart step (by simp)
      have hlater := ih fun earlier hearlier => hapart earlier (List.mem_append_left _ hearlier)
      rw [← List.append_assoc, carried_concat, if_neg hinstall, hbytes, hlater]
      exact List.append_nil _

theorem Step.apart_install_opposite (direction : Direction) :
    (Step.install direction.opposite).Apart direction := by
  cases direction <;> exact ⟨by decide, rfl⟩

theorem Step.eq_record_of_bytes {direction : Direction} {step : Step} {bytes : UInt64}
    (hbytes : step.bytes? direction = some bytes) : step = .record direction bytes := by
  cases direction <;> cases step <;> simp_all [Step.bytes?, Step.record]

/-- The keys of a direction have reached a limit while a request stood, and the installation of
the other direction has withdrawn it. Since then nothing went by under these keys. -/
def Overlooked (limits : Limits) (direction : Direction) (steps : List Step) : Prop :=
  ∃ earlier later, steps = earlier ++ .install direction.opposite :: later ∧
    ((Policy.fresh limits).after earlier).pending = true ∧
    unpaired earlier = some direction ∧
    limits.ReachedBy (carried direction earlier) ∧
    ∀ step ∈ later, step.Apart direction

namespace Overlooked

variable {limits : Limits} {direction : Direction} {steps : List Step}

theorem reached (hoverlooked : Overlooked limits direction steps) :
    limits.ReachedBy (carried direction steps) := by
  obtain ⟨earlier, later, rfl, -, -, hreached, hapart⟩ := hoverlooked
  rw [carried_append_of_apart]
  · exact hreached
  · intro step hstep
    rcases List.mem_cons.mp hstep with rfl | hlater
    · exact Step.apart_install_opposite direction
    · exact hapart step hlater

theorem concat (hoverlooked : Overlooked limits direction steps) {step : Step}
    (hstep : step.Apart direction) : Overlooked limits direction (steps ++ [step]) := by
  obtain ⟨earlier, later, rfl, hstood, hwaiting, hreached, hapart⟩ := hoverlooked
  refine ⟨earlier, later ++ [step], by simp, hstood, hwaiting, hreached, ?_⟩
  intro other hother
  rcases List.mem_append.mp hother with hlater | hlast
  · exact hapart other hlater
  · exact List.mem_singleton.mp hlast ▸ hstep

end Overlooked

namespace Policy

/-- A packet that leaves no request standing leaves its direction below the limits. -/
theorem not_reachedBy_of_record {limits : Limits} {direction : Direction} {bytes : UInt64}
    {steps : List Step}
    (hdown : ((fresh limits).after (steps ++ [.record direction bytes])).pending = false) :
    ¬limits.ReachedBy (carried direction steps ++ [bytes]) := by
  intro hreached
  rw [after_concat] at hdown
  cases hbefore : ((fresh limits).after steps).pending with
  | true =>
      obtain ⟨installed, hinstall⟩ := install_of_lowers hbefore hdown
      cases direction <;> cases installed <;> cases hinstall
  | false =>
      have hraises := (record_raises_iff limits steps direction bytes).mpr ⟨hbefore, hreached⟩
      rw [(raised_of_answer hraises).2] at hdown
      cases hdown

/-- A key that has reached a limit while no request stands was overlooked. -/
theorem overlooked_of_reached {limits : Limits} (hpackets : limits.packets ≠ 0)
    (hbytes : limits.bytes ≠ 0) {direction : Direction} {steps : List Step}
    (hdown : ((fresh limits).after steps).pending = false)
    (hreached : limits.ReachedBy (carried direction steps)) :
    Overlooked limits direction steps := by
  induction steps using List.reverseRecOn with
  | nil => exact absurd hreached (Limits.not_reachedBy_nil hpackets hbytes)
  | append_singleton steps step ih =>
      rw [carried_concat] at hreached
      split at hreached
      next => exact absurd hreached (Limits.not_reachedBy_nil hpackets hbytes)
      next hother =>
        cases hcounted : step.bytes? direction with
        | some bytes =>
            rw [hcounted] at hreached
            rw [Step.eq_record_of_bytes hcounted] at hdown
            exact absurd hreached (not_reachedBy_of_record hdown)
        | none =>
            rw [hcounted, Option.toList_none, List.append_nil] at hreached
            cases hstood : ((fresh limits).after steps).pending with
            | false => exact (ih hstood hreached).concat ⟨hother, hcounted⟩
            | true =>
                -- this call has withdrawn the request
                rw [after_concat] at hdown
                obtain ⟨installed, rfl, hwaiting⟩ :=
                  (withdrawn_step_iff (marked_fresh_after limits steps) hstood step).mp hdown
                have hopposite : installed.opposite = direction := by
                  cases installed <;> cases direction <;> first | rfl | exact absurd rfl hother
                subst hopposite
                refine ⟨steps, [], ?_, hstood, hwaiting, hreached, by simp⟩
                cases installed <;> rfl

/-- While no request stands, the traffic of a direction is below both limits exactly if its keys
were not overlooked. -/
theorem below_limits_iff (limits : Limits) (hpackets : limits.packets ≠ 0)
    (hbytes : limits.bytes ≠ 0) (steps : List Step)
    (hdown : ((fresh limits).after steps).pending = false) (direction : Direction) :
    (traffic direction ((fresh limits).after steps)).Below limits ↔
      ¬Overlooked limits direction steps := by
  rw [traffic_after, Traffic.below_ofPackets_iff, not_iff_not]
  exact ⟨overlooked_of_reached hpackets hbytes hdown, Overlooked.reached⟩

/-- The request is raised and the outbound keys are renewed. The new keys reach the limit before
the inbound installation withdraws the request. -/
theorem below_limits_renewed :
    let limits : Limits := { packets := 1 }
    let steps : List Step := [.sent 1, .outboundInstalled, .sent 1, .inboundInstalled]
    ((fresh limits).after steps).pending = false ∧
      ((traffic .inbound ((fresh limits).after steps)).Below limits ↔
        ¬Overlooked limits .inbound steps) ∧
      ((traffic .outbound ((fresh limits).after steps)).Below limits ↔
        ¬Overlooked limits .outbound steps) := by
  intro limits steps
  have hdown : ((fresh limits).after steps).pending = false := by decide
  exact ⟨hdown, below_limits_iff limits (by decide) (by decide) steps hdown .inbound,
    below_limits_iff limits (by decide) (by decide) steps hdown .outbound⟩

/-- The outbound keys have reached their limit of one packet, and no request stands: the one that
this packet raised was withdrawn by the inbound installation alone. -/
theorem at_limit_unreported :
    ¬∀ (limits : Limits), limits.packets ≠ 0 → limits.bytes ≠ 0 → ∀ steps : List Step,
      ((fresh limits).after steps).pending = false →
      ∀ direction, (traffic direction ((fresh limits).after steps)).Below limits := by
  intro hbelow
  have hsent := hbelow { packets := 1 } (by decide) (by decide)
    [.outboundInstalled, .sent 1, .inboundInstalled] (by decide) .outbound
  exact absurd hsent.packets (by decide)

end Policy

end PacketLayer.Rekey
