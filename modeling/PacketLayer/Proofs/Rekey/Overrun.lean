import PacketLayer.Proofs.Rekey.Grace

/-! # Beyond the grace window

A peer whose packet was refused may go on sending. Until new keys are installed its packets
count, so each is refused with a larger count than the one before. The count has 32 bits: the
packet that it has no room for is counted as if the window had just been opened.
-/

namespace PacketLayer.Rekey

/-- Whether a call records an inbound packet. -/
def Step.isReceived : Step → Bool
  | received _ => true
  | sent _ | outboundInstalled | inboundInstalled => false

namespace Policy

/-- The answers that inbound packets get in the course of calls. -/
def receivedAnswers (policy : Policy) (steps : List Step) : List (Except Fault Bool) :=
  (policy.calls steps).filterMap fun call =>
    match call.2 with
    | .received bytes => some (call.1.recordReceived bytes).1
    | .sent _ | .outboundInstalled | .inboundInstalled => none

/-- Every answer is a refusal, with a larger count than the one before. -/
inductive Mounting : UInt32 → List (Except Fault Bool) → Prop where
  | nil (count : UInt32) : Mounting count []
  | cons {count next : UInt32} {answers : List (Except Fault Bool)} (hmore : count < next)
      (hrest : Mounting next answers) :
      Mounting count (.error (.rekeyIgnored next) :: answers)

/-- The answer to a late packet, by its place in the window. -/
def lateAnswer (limits : Limits) (place : UInt32) : Except Fault Bool :=
  if limits.gracePackets ≤ place then .error (.rekeyIgnored place) else .ok false

variable {policy : Policy} {since : List Step}

theorem mounting_lateAnswer_iff {limits : Limits} {count place : UInt32}
    {answers : List (Except Fault Bool)} : Mounting count (lateAnswer limits place :: answers) ↔
      limits.gracePackets ≤ place ∧ count < place ∧ Mounting place answers := by
  unfold lateAnswer
  split
  next hgrace =>
    constructor
    · rintro (_ | ⟨hmore, hrest⟩)
      exact ⟨hgrace, hmore, hrest⟩
    · rintro ⟨-, hmore, hrest⟩
      exact .cons hmore hrest
  next hgrace =>
    constructor
    · rintro ⟨⟩
    · exact fun h => absurd h.1 hgrace

/-- While a request stands, a packet leaves it, and an inbound packet is counted. -/
theorem standing_sent (hup : policy.pending = true) (bytes : UInt64) :
    (policy.step (.sent bytes)).2.pending = true ∧
      (policy.step (.sent bytes)).2.limits = policy.limits ∧
        (policy.step (.sent bytes)).2.overflow = policy.overflow := by
  rw [step, recordSent_of_pending hup]
  exact ⟨hup, rfl, rfl⟩

theorem standing_received (hup : policy.pending = true) (bytes : UInt64) :
    (policy.step (.received bytes)).2.pending = true ∧
      (policy.step (.received bytes)).2.limits = policy.limits ∧
        (policy.step (.received bytes)).2.overflow = policy.overflow + 1 := by
  rw [step]
  by_cases hgrace : policy.limits.gracePackets ≤ policy.overflow + 1
  · rw [recordReceived_of_exhausted hup bytes hgrace]
    exact ⟨hup, rfl, rfl⟩
  · rw [recordReceived_of_grace hup bytes hgrace]
    exact ⟨hup, rfl, rfl⟩

theorem receivedAnswers_cons_sent (policy : Policy) (bytes : UInt64) (steps : List Step) :
    policy.receivedAnswers (.sent bytes :: steps) =
      (policy.step (.sent bytes)).2.receivedAnswers steps :=
  rfl

theorem receivedAnswers_cons_received (hup : policy.pending = true) (bytes : UInt64)
    (steps : List Step) : policy.receivedAnswers (.received bytes :: steps) =
      lateAnswer policy.limits (policy.overflow + 1) ::
        (policy.step (.received bytes)).2.receivedAnswers steps :=
  congrArg (· :: _) (recordReceived_of_late hup bytes)

/-- Among calls none of which installs keys, the first one records a packet. -/
theorem records_of_not_installs {step : Step}
    (hrecords : ∀ direction, Step.install direction ∉ step :: since) :
    (∃ bytes, step = .sent bytes) ∨ ∃ bytes, step = .received bytes := by
  cases step with
  | sent bytes => exact .inl ⟨bytes, rfl⟩
  | received bytes => exact .inr ⟨bytes, rfl⟩
  | outboundInstalled => exact absurd List.mem_cons_self (hrecords .outbound)
  | inboundInstalled => exact absurd List.mem_cons_self (hrecords .inbound)

/-- While a request stands, inbound packets are answered by their places in the window. -/
theorem receivedAnswers_of_pending (hup : policy.pending = true)
    (hrecords : ∀ direction, Step.install direction ∉ since) :
    policy.receivedAnswers since = (List.range (since.countP Step.isReceived)).map fun index =>
      lateAnswer policy.limits (policy.overflow + UInt32.ofNat (index + 1)) := by
  induction since generalizing policy with
  | nil => rfl
  | cons step since ih =>
      have hrest : ∀ direction, Step.install direction ∉ since := fun direction hmem =>
        hrecords direction (List.mem_cons_of_mem _ hmem)
      rcases records_of_not_installs hrecords with ⟨bytes, rfl⟩ | ⟨bytes, rfl⟩
      · obtain ⟨hstands, hlimits, hoverflow⟩ := standing_sent hup bytes
        rw [receivedAnswers_cons_sent, ih hstands hrest, hlimits, hoverflow,
          List.countP_cons_of_neg (by simp [Step.isReceived])]
      · obtain ⟨hstands, hlimits, hoverflow⟩ := standing_received hup bytes
        rw [receivedAnswers_cons_received hup, ih hstands hrest, hlimits, hoverflow,
          List.countP_cons_of_pos rfl, List.range_succ_eq_map, List.map_cons, List.map_map]
        refine congrArg _ (List.map_congr_left fun index _ => congrArg _ ?_)
        simp only [Nat.succ_eq_add_one, UInt32.ofNat_add]
        ac_rfl

/-- Refusals mount exactly as long as the count has room for them. -/
theorem mounting_iff (hup : policy.pending = true)
    (hgrace : policy.limits.gracePackets ≤ policy.overflow)
    (hrecords : ∀ direction, Step.install direction ∉ since) :
    Mounting policy.overflow (policy.receivedAnswers since) ↔
      policy.overflow.toNat + since.countP Step.isReceived < 2 ^ 32 := by
  induction since generalizing policy with
  | nil => exact iff_of_true (.nil _) policy.overflow.toNat_lt
  | cons step since ih =>
      have hrest : ∀ direction, Step.install direction ∉ since := fun direction hmem =>
        hrecords direction (List.mem_cons_of_mem _ hmem)
      rcases records_of_not_installs hrecords with ⟨bytes, rfl⟩ | ⟨bytes, rfl⟩
      · obtain ⟨hstands, hlimits, hoverflow⟩ := standing_sent hup bytes
        have hlater := ih hstands (hlimits ▸ hoverflow ▸ hgrace) hrest
        rwa [hoverflow, ← receivedAnswers_cons_sent,
          ← List.countP_cons_of_neg (p := Step.isReceived) (a := .sent bytes)
            (by simp [Step.isReceived])] at hlater
      · obtain ⟨hstands, hlimits, hoverflow⟩ := standing_received hup bytes
        have hnext : (policy.overflow + 1).toNat = (policy.overflow.toNat + 1) % 2 ^ 32 :=
          UInt32.toNat_add _ _
        have hbound := policy.overflow.toNat_lt
        rw [receivedAnswers_cons_received hup, mounting_lateAnswer_iff,
          List.countP_cons_of_pos rfl]
        by_cases hroom : policy.overflow.toNat + 1 < 2 ^ 32
        · rw [Nat.mod_eq_of_lt hroom] at hnext
          have hmore : policy.overflow < policy.overflow + 1 := by
            rw [UInt32.lt_iff_toNat_lt]
            omega
          have hstill : policy.limits.gracePackets ≤ policy.overflow + 1 :=
            UInt32.le_trans hgrace (UInt32.le_of_lt hmore)
          have hlater := ih hstands (hlimits ▸ hoverflow ▸ hstill) hrest
          rw [hoverflow, hnext] at hlater
          rw [and_iff_right hstill, and_iff_right hmore, hlater]
          omega
        · -- there is no room: the count starts again from zero
          refine iff_of_false (fun h => ?_) (by omega)
          have hmore := UInt32.lt_iff_toNat_lt.mp h.2.1
          omega

/-- A policy that has refused a packet still stands by its request, and its count is that of the
refusal. -/
theorem after_refusal {bytes : UInt64} {count : UInt32}
    (hrefused : (policy.step (.received bytes)).1 = some (.error (.rekeyIgnored count))) :
    (policy.step (.received bytes)).2.pending = true ∧
      (policy.step (.received bytes)).2.limits = policy.limits ∧
      (policy.step (.received bytes)).2.overflow = count ∧ policy.limits.gracePackets ≤ count := by
  have hanswer : (policy.recordReceived bytes).1 = .error (.rekeyIgnored count) :=
    Option.some.inj hrefused
  cases hup : policy.pending with
  | false =>
      obtain ⟨raised, haccepted⟩ := recordReceived_of_down hup bytes
      rw [hanswer] at haccepted
      cases haccepted
  | true =>
      obtain ⟨hstands, hlimits, hoverflow⟩ := standing_received hup bytes
      rw [recordReceived_of_late hup] at hanswer
      split at hanswer
      next hgrace =>
        cases hanswer
        exact ⟨hstands, hlimits, hoverflow, hgrace⟩
      next => cases hanswer

/-- After a refusal, and as long as no keys are installed, inbound packets are answered by their
places in the window, of which there are as many as 32-bit numbers. So each is refused with a
larger count than the one before exactly as long as the largest such number is not exceeded. -/
theorem refusals_mount_iff (limits : Limits) (before since : List Step) (bytes : UInt64)
    (count : UInt32)
    (hrefused : (((fresh limits).after before).step (.received bytes)).1 =
      some (.error (.rekeyIgnored count)))
    (hrecords : ∀ direction, Step.install direction ∉ since) :
    (((fresh limits).after (before ++ [.received bytes])).receivedAnswers since =
      (List.range (since.countP Step.isReceived)).map fun index =>
        lateAnswer limits (count + UInt32.ofNat (index + 1))) ∧
    (Mounting count (((fresh limits).after (before ++ [.received bytes])).receivedAnswers since) ↔
      count.toNat + since.countP Step.isReceived < 2 ^ 32) := by
  obtain ⟨hstands, hlimits, hoverflow, hgrace⟩ := after_refusal hrefused
  have hfresh : ((fresh limits).after before).limits = limits := limits_after _ before
  rw [after_concat]
  refine ⟨?_, ?_⟩
  · rw [receivedAnswers_of_pending hstands hrecords, hlimits, hoverflow, hfresh]
  · have hmounting := mounting_iff hstands (by rwa [hlimits, hoverflow]) hrecords
    rwa [hoverflow] at hmounting

/-- The second packet after the request is refused, and so is the third. -/
theorem refusals_mount_once :
    let limits : Limits := { packets := 1, gracePackets := 1 }
    (((fresh limits).after [.sent 1]).step (.received 1)).1 = some (.error (.rekeyIgnored 1)) ∧
      (∀ direction, Step.install direction ∉ [.sent 1, .received 1]) ∧
        Mounting 1 (((fresh limits).after ([.sent 1] ++ [.received 1])).receivedAnswers
          [.sent 1, .received 1]) := by
  intro limits
  have hrefused : (((fresh limits).after [.sent 1]).step (.received 1)).1 =
      some (.error (.rekeyIgnored 1)) := by decide
  have hrecords : ∀ direction, Step.install direction ∉ [.sent 1, .received 1] := by
    rintro (_ | _) <;> decide
  exact ⟨hrefused, hrecords,
    (refusals_mount_iff limits [.sent 1] [.sent 1, .received 1] 1 1 hrefused hrecords).2.mpr
      (by decide)⟩

/-- Refusals do not mount for ever: a peer that has been refused once and sends as many packets
more as there are positive 32-bit numbers gets through. -/
theorem refusals_end :
    ¬∀ (limits : Limits) (before since : List Step) (bytes : UInt64) (count : UInt32),
      (((fresh limits).after before).step (.received bytes)).1 =
        some (.error (.rekeyIgnored count)) →
      (∀ direction, Step.install direction ∉ since) →
      Mounting count
        (((fresh limits).after (before ++ [.received bytes])).receivedAnswers since) := by
  intro hmount
  have hrefused : (((fresh { packets := 1, gracePackets := 1 }).after [.sent 1]).step
      (.received 1)).1 = some (.error (.rekeyIgnored 1)) := by decide
  have hrecords : ∀ direction,
      Step.install direction ∉ List.replicate (2 ^ 32 - 1) (Step.received 1) := by
    intro direction hmem
    cases direction <;> cases List.eq_of_mem_replicate hmem
  obtain ⟨hstands, -, hoverflow, -⟩ := after_refusal hrefused
  have hmounting := hmount _ [.sent 1] _ 1 1 hrefused hrecords
  have hexact := mounting_iff hstands (by decide) hrecords
  rw [hoverflow, List.countP_replicate] at hexact
  rw [after_concat] at hmounting
  exact absurd (hexact.mp hmounting) (by decide)

end Policy

end PacketLayer.Rekey
