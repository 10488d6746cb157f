import PacketLayer.Rekey

/-! # Calls on the rekey policy

What each call does, by the state in which it is made, and what a sequence of
calls leaves behind.
-/

namespace PacketLayer.Rekey

/-- The installation of one direction. -/
def Step.install : Direction → Step
  | .outbound => .outboundInstalled
  | .inbound => .inboundInstalled

namespace Policy

/-- A policy before any call. -/
def fresh (limits : Limits) : Policy := { limits }

def after (policy : Policy) (steps : List Step) : Policy :=
  steps.foldl (fun policy step => (policy.step step).2) policy

theorem after_append (policy : Policy) (first second : List Step) :
    policy.after (first ++ second) = (policy.after first).after second :=
  List.foldl_append

theorem after_concat (policy : Policy) (steps : List Step) (step : Step) :
    policy.after (steps ++ [step]) = ((policy.after steps).step step).2 :=
  after_append policy steps [step]

variable {policy : Policy}

theorem recordSent_of_pending (hup : policy.pending = true) (bytes : UInt64) :
    policy.recordSent bytes = (false, { policy with sent := policy.sent.record bytes }) := by
  simp [recordSent, hup]

theorem recordSent_of_reaches (hdown : policy.pending = false) {bytes : UInt64}
    (hreaches : (policy.sent.record bytes).reaches policy.limits = true) :
    policy.recordSent bytes = (true,
      { policy with sent := policy.sent.record bytes, overflow := 0, pending := true }) := by
  simp [recordSent, arm, hdown, hreaches]

theorem recordSent_of_below (hdown : policy.pending = false) {bytes : UInt64}
    (hbelow : (policy.sent.record bytes).reaches policy.limits = false) :
    policy.recordSent bytes = (false, { policy with sent := policy.sent.record bytes }) := by
  simp [recordSent, hdown, hbelow]

theorem recordReceived_of_exhausted (hup : policy.pending = true) (bytes : UInt64)
    (hgrace : policy.limits.gracePackets ≤ policy.overflow + 1) :
    policy.recordReceived bytes = (.error (.rekeyIgnored (policy.overflow + 1)),
      { policy with
        received := policy.received.record bytes
        overflow := policy.overflow + 1 }) := by
  simp [recordReceived, hup, hgrace]

theorem recordReceived_of_grace (hup : policy.pending = true) (bytes : UInt64)
    (hgrace : ¬policy.limits.gracePackets ≤ policy.overflow + 1) :
    policy.recordReceived bytes = (.ok false,
      { policy with
        received := policy.received.record bytes
        overflow := policy.overflow + 1 }) := by
  simp [recordReceived, hup, hgrace]

theorem recordReceived_of_reaches (hdown : policy.pending = false) {bytes : UInt64}
    (hreaches : (policy.received.record bytes).reaches policy.limits = true) :
    policy.recordReceived bytes = (.ok true,
      { policy with
        received := policy.received.record bytes
        overflow := 0
        pending := true }) := by
  simp [recordReceived, arm, hdown, hreaches]

theorem recordReceived_of_below (hdown : policy.pending = false) {bytes : UInt64}
    (hbelow : (policy.received.record bytes).reaches policy.limits = false) :
    policy.recordReceived bytes =
      (.ok false, { policy with received := policy.received.record bytes }) := by
  simp [recordReceived, hdown, hbelow]

/-- The only fault in recording a packet is that the peer ignores a request. -/
theorem recordReceived_answers (policy : Policy) (bytes : UInt64) :
    (∃ raised, (policy.recordReceived bytes).1 = .ok raised) ∨
      ∃ count, (policy.recordReceived bytes).1 = .error (.rekeyIgnored count) := by
  unfold recordReceived
  dsimp only
  split
  · split
    · exact .inr ⟨_, rfl⟩
    · exact .inl ⟨_, rfl⟩
  · split
    · exact .inl ⟨_, rfl⟩
    · exact .inl ⟨_, rfl⟩

/-- Recording a packet raises the request, or leaves the request as it is. -/
inductive Recorded (policy : Policy) : Answer × Policy → Prop where
  | raised (sent received : Traffic) (hdown : policy.pending = false) :
      Recorded policy
        (some (.ok true), { policy with sent, received, overflow := 0, pending := true })
  | counted (sent received : Traffic) (overflow : UInt32) (answer : Except Fault Bool)
      (hquiet : answer ≠ .ok true) :
      Recorded policy (some answer, { policy with sent, received, overflow })

theorem recorded_sent (policy : Policy) (bytes : UInt64) :
    Recorded policy (policy.step (.sent bytes)) := by
  change Recorded policy (some (.ok (policy.recordSent bytes).1), (policy.recordSent bytes).2)
  cases hpending : policy.pending with
  | true =>
      rw [recordSent_of_pending hpending]
      exact .counted _ policy.received policy.overflow (.ok false) (by simp)
  | false =>
      cases hreaches : (policy.sent.record bytes).reaches policy.limits with
      | true =>
          rw [recordSent_of_reaches hpending hreaches]
          exact .raised _ policy.received hpending
      | false =>
          rw [recordSent_of_below hpending hreaches]
          exact .counted _ policy.received policy.overflow (.ok false) (by simp)

theorem recorded_received (policy : Policy) (bytes : UInt64) :
    Recorded policy (policy.step (.received bytes)) := by
  change Recorded policy (some (policy.recordReceived bytes).1, (policy.recordReceived bytes).2)
  cases hpending : policy.pending with
  | true =>
      by_cases hgrace : policy.limits.gracePackets ≤ policy.overflow + 1
      · rw [recordReceived_of_exhausted hpending bytes hgrace]
        exact .counted policy.sent _ _ _ (by simp)
      · rw [recordReceived_of_grace hpending bytes hgrace]
        exact .counted policy.sent _ _ (.ok false) (by simp)
  | false =>
      cases hreaches : (policy.received.record bytes).reaches policy.limits with
      | true =>
          rw [recordReceived_of_reaches hpending hreaches]
          exact .raised policy.sent _ hpending
      | false =>
          rw [recordReceived_of_below hpending hreaches]
          exact .counted policy.sent _ policy.overflow (.ok false) (by simp)

theorem limits_step (policy : Policy) (step : Step) :
    (policy.step step).2.limits = policy.limits := by
  have hrecorded {result : Answer × Policy} (h : Recorded policy result) :
      result.2.limits = policy.limits := by
    cases h <;> rfl
  cases step with
  | sent bytes => exact hrecorded (recorded_sent policy bytes)
  | received bytes => exact hrecorded (recorded_received policy bytes)
  | outboundInstalled =>
      simp only [Policy.step, installOutbound, withdraw]
      split <;> rfl
  | inboundInstalled =>
      simp only [Policy.step, installInbound, withdraw]
      split <;> rfl

theorem limits_after (policy : Policy) (steps : List Step) :
    (policy.after steps).limits = policy.limits := by
  induction steps generalizing policy with
  | nil => rfl
  | cons step steps ih => exact (ih _).trans (limits_step policy step)

end Policy

end PacketLayer.Rekey
