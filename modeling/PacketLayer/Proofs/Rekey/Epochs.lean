import PacketLayer.Proofs.Rekey.Steps

/-! # Rekey epochs

A request for new keys ends at an installation. Which one that is depends on the
installations after the request, and on one before it that still waits for its
counterpart when the request is raised.
-/

namespace PacketLayer

def Direction.opposite : Direction → Direction
  | .inbound => .outbound
  | .outbound => .inbound

namespace Rekey

/-- Pairs an installation with an earlier one of the other direction that waits for it. -/
def pair (waiting : Option Direction) : Step → Option Direction
  | .outboundInstalled => if waiting = some .inbound then none else some .outbound
  | .inboundInstalled => if waiting = some .outbound then none else some .inbound
  | .sent _ | .received _ => waiting

/-- The direction whose last installation has not met its counterpart. -/
def unpaired (steps : List Step) : Option Direction :=
  steps.foldl pair none

/-- As long as no installation meets its counterpart, each one leaves its direction
waiting. -/
theorem pair_eq_some_iff {waiting : Option Direction} {step : Step} {direction : Direction}
    (halone : ¬∃ installed, step = .install installed ∧ waiting = some installed.opposite) :
    pair waiting step = some direction ↔ step = .install direction ∨ waiting = some direction := by
  cases step with
  | sent bytes => cases direction <;> simp [pair, Step.install]
  | received bytes => cases direction <;> simp [pair, Step.install]
  | outboundInstalled =>
      have hcounterpart : waiting ≠ some .inbound := fun h => halone ⟨.outbound, rfl, h⟩
      rcases waiting with _ | _ | _ <;> cases direction <;> simp_all [pair, Step.install]
  | inboundInstalled =>
      have hcounterpart : waiting ≠ some .outbound := fun h => halone ⟨.inbound, rfl, h⟩
      rcases waiting with _ | _ | _ <;> cases direction <;> simp_all [pair, Step.install]

namespace Policy

/-- The two marks of a policy say which direction waits for its counterpart. -/
structure Marked (waiting : Option Direction) (policy : Policy) : Prop where
  outbound : policy.outboundInstalled = decide (waiting = some .outbound)
  inbound : policy.inboundInstalled = decide (waiting = some .inbound)

variable {policy : Policy} {waiting : Option Direction}

theorem Marked.recorded (hmarked : Marked waiting policy) {result : Answer × Policy}
    (hrecorded : Recorded policy result) : Marked waiting result.2 := by
  cases hrecorded <;> exact ⟨hmarked.outbound, hmarked.inbound⟩

/-- One call pairs installations in the marks as it does in the history. -/
theorem Marked.step (hmarked : Marked waiting policy) (step : Step) :
    Marked (pair waiting step) (policy.step step).2 := by
  cases step with
  | sent bytes => exact hmarked.recorded (recorded_sent policy bytes)
  | received bytes => exact hmarked.recorded (recorded_received policy bytes)
  | outboundInstalled =>
      obtain ⟨-, hinbound⟩ := hmarked
      rcases waiting with _ | _ | _ <;>
        constructor <;> simp [Policy.step, installOutbound, withdraw, pair, hinbound]
  | inboundInstalled =>
      obtain ⟨houtbound, -⟩ := hmarked
      rcases waiting with _ | _ | _ <;>
        constructor <;> simp [Policy.step, installInbound, withdraw, pair, houtbound]

theorem Marked.after (hmarked : Marked waiting policy) (steps : List Step) :
    Marked (steps.foldl pair waiting) (policy.after steps) := by
  induction steps generalizing policy waiting with
  | nil => exact hmarked
  | cons step steps ih => exact ih (hmarked.step step)

theorem marked_fresh_after (limits : Limits) (steps : List Step) :
    Marked (unpaired steps) ((fresh limits).after steps) :=
  Marked.after ⟨rfl, rfl⟩ steps

/-- A call that does not raise the request keeps it down. -/
theorem pending_step_of_down (hdown : policy.pending = false) {step : Step}
    (hquiet : (policy.step step).1 ≠ some (.ok true)) : (policy.step step).2.pending = false := by
  have hrecorded {result : Answer × Policy} (h : Recorded policy result)
      (hquiet : result.1 ≠ some (.ok true)) : result.2.pending = false := by
    cases h with
    | raised => exact absurd rfl hquiet
    | counted => exact hdown
  cases step with
  | sent bytes => exact hrecorded (recorded_sent policy bytes) hquiet
  | received bytes => exact hrecorded (recorded_received policy bytes) hquiet
  | outboundInstalled =>
      simp only [Policy.step, installOutbound, withdraw]
      split <;> simp [hdown]
  | inboundInstalled =>
      simp only [Policy.step, installInbound, withdraw]
      split <;> simp [hdown]

theorem pending_after_of_down (hdown : policy.pending = false) {steps : List Step}
    (hquiet : ∀ result ∈ policy.run steps, result.1 ≠ some (.ok true)) :
    (policy.after steps).pending = false := by
  induction steps generalizing policy with
  | nil => exact hdown
  | cons step steps ih =>
      refine ih (pending_step_of_down hdown (hquiet _ List.mem_cons_self)) ?_
      intro result hresult
      exact hquiet result (List.mem_cons_of_mem _ hresult)

/-- A request that stands is withdrawn by an installation whose counterpart waits
for it, and by nothing else. -/
theorem withdrawn_step_iff (hmarked : Marked waiting policy) (hup : policy.pending = true)
    (step : Step) : (policy.step step).2.pending = false ↔
      ∃ direction, step = .install direction ∧ waiting = some direction.opposite := by
  have hrecorded {result : Answer × Policy} (h : Recorded policy result) :
      result.2.pending = true := by
    cases h with
    | raised => rfl
    | counted => exact hup
  cases step with
  | sent bytes =>
      rw [hrecorded (recorded_sent policy bytes)]
      refine ⟨fun hfalse => absurd hfalse (by simp), ?_⟩
      rintro ⟨direction, hinstall, -⟩
      cases direction <;> cases hinstall
  | received bytes =>
      rw [hrecorded (recorded_received policy bytes)]
      refine ⟨fun hfalse => absurd hfalse (by simp), ?_⟩
      rintro ⟨direction, hinstall, -⟩
      cases direction <;> cases hinstall
  | outboundInstalled =>
      have hinstall : ∀ direction, Step.outboundInstalled = .install direction ↔
          direction = .outbound := by
        intro direction
        cases direction <;> decide
      simp only [hinstall, exists_eq_left, Direction.opposite]
      rcases waiting with _ | _ | _ <;>
        simp [Policy.step, installOutbound, withdraw, hmarked.inbound, hup]
  | inboundInstalled =>
      have hinstall : ∀ direction, Step.inboundInstalled = .install direction ↔
          direction = .inbound := by
        intro direction
        cases direction <;> decide
      simp only [hinstall, exists_eq_left, Direction.opposite]
      rcases waiting with _ | _ | _ <;>
        simp [Policy.step, installInbound, withdraw, hmarked.outbound, hup]

/-- While a request stands, a direction waits if it has been installed since, or if
it waited before. -/
theorem waiting_iff_of_pending (hmarked : Marked waiting policy) (hup : policy.pending = true)
    {since : List Step} (hquiet : ∀ result ∈ policy.run since, result.1 ≠ some (.ok true))
    (hstands : (policy.after since).pending = true) (direction : Direction) :
    since.foldl pair waiting = some direction ↔
      .install direction ∈ since ∨ waiting = some direction := by
  induction since generalizing policy waiting with
  | nil => simp
  | cons step since ih =>
      have hrest : ∀ result ∈ (policy.step step).2.run since, result.1 ≠ some (.ok true) :=
        fun result hresult => hquiet result (List.mem_cons_of_mem _ hresult)
      cases hkept : (policy.step step).2.pending with
      | false =>
          -- nothing after this call would have raised the request again
          have hend : (policy.after (step :: since)).pending = false :=
            pending_after_of_down hkept hrest
          rw [hstands] at hend
          cases hend
      | true =>
          have halone := mt (withdrawn_step_iff hmarked hup step).mpr (by simp [hkept])
          rw [List.foldl_cons, ih (hmarked.step step) hkept hrest hstands,
            pair_eq_some_iff halone, List.mem_cons, eq_comm (a := step)]
          constructor
          · rintro (hsince | hstep | hbefore)
            · exact .inl (.inr hsince)
            · exact .inl (.inl hstep)
            · exact .inr hbefore
          · rintro ((hstep | hsince) | hbefore)
            · exact .inr (.inl hstep)
            · exact .inl hsince
            · exact .inr (.inr hbefore)

/-- Only a recorded packet raises the request, and then it stands. -/
theorem pending_of_raised {step : Step} (hraised : (policy.step step).1 = some (.ok true)) :
    (policy.step step).2.pending = true ∧ pair waiting step = waiting := by
  have hrecorded {result : Answer × Policy} (h : Recorded policy result)
      (hraised : result.1 = some (.ok true)) : result.2.pending = true := by
    cases h with
    | raised => rfl
    | counted _ _ _ answer hquiet => exact absurd (Option.some.inj hraised) hquiet
  cases step with
  | sent bytes => exact ⟨hrecorded (recorded_sent policy bytes) hraised, rfl⟩
  | received bytes => exact ⟨hrecorded (recorded_received policy bytes) hraised, rfl⟩
  | outboundInstalled => cases hraised
  | inboundInstalled => cases hraised

/-- A standing request is withdrawn exactly by an installation of one direction after
the other one has been installed since the request was raised, or had been installed
before and still waited for its counterpart then. -/
theorem request_withdrawn_iff (limits : Limits) (before since : List Step) (raise next : Step)
    (hraise : (((fresh limits).after before).step raise).1 = some (.ok true))
    (hlast : ∀ result ∈ ((fresh limits).after (before ++ [raise])).run since,
      result.1 ≠ some (.ok true))
    (hstands : ((fresh limits).after (before ++ [raise] ++ since)).pending = true) :
    ((fresh limits).after (before ++ [raise] ++ since ++ [next])).pending = false ↔
      ∃ direction, next = .install direction ∧
        (.install direction.opposite ∈ since ∨ unpaired before = some direction.opposite) := by
  obtain ⟨hup, hsame⟩ : _ ∧ pair (unpaired before) raise = unpaired before :=
    pending_of_raised hraise
  have hmarked := (marked_fresh_after limits before).step raise
  rw [hsame] at hmarked
  rw [after_append] at hstands
  rw [after_append, after_append _ (before ++ [raise])]
  rw [after_append] at hlast hstands ⊢
  refine (withdrawn_step_iff (hmarked.after since) hstands next).trans ?_
  refine exists_congr fun direction => and_congr_right fun _ => ?_
  exact waiting_iff_of_pending hmarked hup hlast hstands direction.opposite

/-- The outbound installation before the request counts for it: the inbound one after
it withdraws the request alone. -/
theorem request_withdrawn_after_outbound :
    ((fresh { packets := 1 }).after
        ([.outboundInstalled] ++ [.sent 1] ++ [] ++ [.inboundInstalled])).pending = false ↔
      ∃ direction, Step.inboundInstalled = .install direction ∧
        (.install direction.opposite ∈ ([] : List Step) ∨
          unpaired [.outboundInstalled] = some direction.opposite) :=
  request_withdrawn_iff { packets := 1 } [.outboundInstalled] [] (.sent 1) .inboundInstalled
    rfl (by simp [run]) rfl

/-- It does not take both installations after the request to withdraw it. -/
theorem request_withdrawn_half_installed :
    ¬∀ (limits : Limits) (before since : List Step) (raise next : Step),
      (((fresh limits).after before).step raise).1 = some (.ok true) →
      (∀ result ∈ ((fresh limits).after (before ++ [raise])).run since,
        result.1 ≠ some (.ok true)) →
      ((fresh limits).after (before ++ [raise] ++ since)).pending = true →
      (((fresh limits).after (before ++ [raise] ++ since ++ [next])).pending = false ↔
        .outboundInstalled ∈ since ++ [next] ∧ .inboundInstalled ∈ since ++ [next]) := by
  intro hboth
  have hwithdrawn := hboth { packets := 1 } [.outboundInstalled] [] (.sent 1) .inboundInstalled
    rfl (by simp [run]) rfl
  have hinstalled := (hwithdrawn.mp rfl).1
  simp at hinstalled

end Policy

end Rekey

end PacketLayer
