import Mathlib.Algebra.GroupWithZero.Nat
import Mathlib.Data.List.DropRight
import PacketLayer.Proofs.Rekey.Steps

/-! # Exact totals

The counts of a rekey policy stop at their largest value. A policy that keeps every packet
since the last installation of its direction, and adds them up without bound, asks for new
keys at the same packets: no limit lies beyond the largest value.
-/

namespace PacketLayer

theorem toNat_saturatingAdd (a b : UInt64) :
    (saturatingAdd a b).toNat = min (a.toNat + b.toNat) (2 ^ 64 - 1) := by
  have ha := a.toNat_lt
  have hb := b.toNat_lt
  unfold saturatingAdd
  split
  next hwrapped =>
    rw [UInt64.lt_iff_toNat_lt, UInt64.toNat_add] at hwrapped
    change 2 ^ 64 - 1 = _
    omega
  next hexact =>
    rw [UInt64.lt_iff_toNat_lt, UInt64.toNat_add] at hexact
    rw [UInt64.toNat_add]
    omega

namespace Rekey

/-- The record of a packet in one direction. -/
def Step.record : Direction → UInt64 → Step
  | .outbound => .sent
  | .inbound => .received

/-- The octets of a packet that is recorded in the given direction. -/
def Step.bytes? : Direction → Step → Option UInt64
  | .outbound, .sent bytes => some bytes
  | .inbound, .received bytes => some bytes
  | _, _ => none

/-- The packets recorded in one direction since its last installation, each by its octets. -/
def carried (direction : Direction) (steps : List Step) : List UInt64 :=
  (steps.rtakeWhile fun step => step ≠ .install direction).filterMap (Step.bytes? direction)

theorem carried_concat (direction : Direction) (steps : List Step) (step : Step) :
    carried direction (steps ++ [step]) =
      if step = .install direction then []
      else carried direction steps ++ (step.bytes? direction).toList := by
  unfold carried
  rw [List.rtakeWhile_concat]
  split <;> simp_all [List.filterMap_cons]
  split <;> simp_all

/-- Packets reach a limit by their number or by their octets taken together. -/
def Limits.ReachedBy (limits : Limits) (packets : List UInt64) : Prop :=
  limits.packets.toNat ≤ packets.length ∨ limits.bytes.toNat ≤ (packets.map UInt64.toNat).sum

instance (limits : Limits) (packets : List UInt64) : Decidable (limits.ReachedBy packets) :=
  inferInstanceAs (Decidable (_ ∨ _))

/-- A rekey policy that keeps the packets of each direction instead of counting them. -/
structure Ideal where
  limits : Limits
  pending : Bool := false
  sent : List UInt64 := []
  received : List UInt64 := []
  overflow : UInt32 := 0
  outboundInstalled : Bool := false
  inboundInstalled : Bool := false

namespace Ideal

def fresh (limits : Limits) : Ideal := { limits }

def packets : Direction → Ideal → List UInt64
  | .outbound => sent
  | .inbound => received

/-- Carries out one call. -/
def step (ideal : Ideal) : Step → Answer × Ideal
  | .sent bytes =>
      let ideal := { ideal with sent := ideal.sent ++ [bytes] }
      if ¬ideal.pending ∧ ideal.limits.ReachedBy ideal.sent then
        (some (.ok true), { ideal with overflow := 0, pending := true })
      else (some (.ok false), ideal)
  | .received bytes =>
      let ideal := { ideal with received := ideal.received ++ [bytes] }
      if ideal.pending then
        let ideal := { ideal with overflow := ideal.overflow + 1 }
        if ideal.limits.gracePackets ≤ ideal.overflow then
          (some (.error (.rekeyIgnored ideal.overflow)), ideal)
        else (some (.ok false), ideal)
      else if ideal.limits.ReachedBy ideal.received then
        (some (.ok true), { ideal with overflow := 0, pending := true })
      else (some (.ok false), ideal)
  | .outboundInstalled =>
      (none, { ideal with
        sent := []
        pending := ideal.pending && !ideal.inboundInstalled
        outboundInstalled := !ideal.inboundInstalled
        inboundInstalled := false })
  | .inboundInstalled =>
      (none, { ideal with
        received := []
        overflow := 0
        pending := ideal.pending && !ideal.outboundInstalled
        outboundInstalled := false
        inboundInstalled := !ideal.outboundInstalled })

/-- Carries out calls in order; each answer is paired with the policy after it. -/
def run (ideal : Ideal) : List Step → List (Answer × Ideal)
  | [] => []
  | step :: steps =>
      let result := ideal.step step
      result :: result.2.run steps

def after (ideal : Ideal) (steps : List Step) : Ideal :=
  steps.foldl (fun ideal step => (ideal.step step).2) ideal

theorem packets_step (direction : Direction) (ideal : Ideal) (step : Step) :
    packets direction (ideal.step step).2 =
      if step = .install direction then []
      else packets direction ideal ++ (step.bytes? direction).toList := by
  cases step with
  | sent bytes =>
      simp only [Ideal.step]
      cases direction <;> split <;> simp [packets, Step.install, Step.bytes?]
  | received bytes =>
      simp only [Ideal.step]
      cases direction <;> split <;> split <;> simp [packets, Step.install, Step.bytes?]
  | outboundInstalled => cases direction <;> simp [Ideal.step, packets, Step.install, Step.bytes?]
  | inboundInstalled => cases direction <;> simp [Ideal.step, packets, Step.install, Step.bytes?]

theorem after_append (ideal : Ideal) (first second : List Step) :
    ideal.after (first ++ second) = (ideal.after first).after second :=
  List.foldl_append

end Ideal

/-! ## Rounding -/

namespace Traffic

/-- The counts of packets, each as far as it goes. -/
def ofPackets (packets : List UInt64) : Traffic :=
  packets.foldl Traffic.record {}

@[simp] theorem ofPackets_concat (packets : List UInt64) (bytes : UInt64) :
    ofPackets (packets ++ [bytes]) = (ofPackets packets).record bytes := by
  simp [ofPackets]

theorem toNat_packets_ofPackets (packets : List UInt64) :
    (ofPackets packets).packets.toNat = min packets.length (2 ^ 64 - 1) := by
  induction packets using List.reverseRecOn with
  | nil => rfl
  | append_singleton packets bytes ih =>
      rw [ofPackets_concat, record, toNat_saturatingAdd, ih, List.length_append]
      change min (_ + 1) _ = min (_ + 1) _
      omega

theorem toNat_bytes_ofPackets (packets : List UInt64) :
    (ofPackets packets).bytes.toNat = min (packets.map UInt64.toNat).sum (2 ^ 64 - 1) := by
  induction packets using List.reverseRecOn with
  | nil => rfl
  | append_singleton packets bytes ih =>
      rw [ofPackets_concat, record, toNat_saturatingAdd, ih, List.map_append, List.sum_append]
      simp only [List.map_cons, List.map_nil, List.sum_singleton]
      omega

/-- A limit lies no higher than a count can go, so that rounded counts reach it with the exact
ones. -/
theorem reaches_ofPackets (limits : Limits) (packets : List UInt64) :
    (ofPackets packets).reaches limits = true ↔ limits.ReachedBy packets := by
  have hpackets := limits.packets.toNat_lt
  have hbytes := limits.bytes.toNat_lt
  simp only [reaches, Bool.or_eq_true, decide_eq_true_eq, UInt64.le_iff_toNat_le,
    toNat_packets_ofPackets, toNat_bytes_ofPackets, Limits.ReachedBy]
  omega

end Traffic

namespace Ideal

/-- The policy whose counts are those of the packets. -/
def rounded (ideal : Ideal) : Policy where
  limits := ideal.limits
  pending := ideal.pending
  sent := .ofPackets ideal.sent
  received := .ofPackets ideal.received
  overflow := ideal.overflow
  outboundInstalled := ideal.outboundInstalled
  inboundInstalled := ideal.inboundInstalled

/-- Counting as far as the counts go makes no difference to an answer. -/
theorem step_rounded (ideal : Ideal) (step : Step) :
    ideal.rounded.step step = ((ideal.step step).1, (ideal.step step).2.rounded) := by
  obtain ⟨limits, pending, sent, received, overflow, outboundInstalled, inboundInstalled⟩ := ideal
  cases step with
  | sent bytes =>
      have hreaches := Traffic.reaches_ofPackets limits (sent ++ [bytes])
      rw [Traffic.ofPackets_concat] at hreaches
      by_cases hreached : limits.ReachedBy (sent ++ [bytes]) <;>
        cases pending <;>
        simp_all [Policy.step, Policy.recordSent, Policy.arm, Ideal.step, rounded]
  | received bytes =>
      have hreaches := Traffic.reaches_ofPackets limits (received ++ [bytes])
      rw [Traffic.ofPackets_concat] at hreaches
      cases pending with
      | true =>
          by_cases hgrace : limits.gracePackets ≤ overflow + 1 <;>
            simp [Policy.step, Policy.recordReceived, Ideal.step, rounded, hgrace]
      | false =>
          by_cases hreached : limits.ReachedBy (received ++ [bytes]) <;>
            simp_all [Policy.step, Policy.recordReceived, Policy.arm, Ideal.step, rounded]
  | outboundInstalled =>
      cases inboundInstalled <;>
        simp [Policy.step, Policy.installOutbound, Policy.withdraw, Ideal.step, rounded,
          Traffic.ofPackets]
  | inboundInstalled =>
      cases outboundInstalled <;>
        simp [Policy.step, Policy.installInbound, Policy.withdraw, Ideal.step, rounded,
          Traffic.ofPackets]

theorem run_rounded (ideal : Ideal) (steps : List Step) :
    ideal.rounded.run steps =
      (ideal.run steps).map fun result => (result.1, result.2.rounded) := by
  induction steps generalizing ideal with
  | nil => rfl
  | cons step steps ih =>
      simp only [Policy.run, Ideal.run, step_rounded, ih, List.map_cons]

theorem after_rounded (ideal : Ideal) (steps : List Step) :
    ideal.rounded.after steps = (ideal.after steps).rounded := by
  induction steps using List.reverseRecOn with
  | nil => rfl
  | append_singleton steps step ih =>
      rw [Policy.after_append, ih, after_append]
      exact congrArg Prod.snd (step_rounded _ step)

/-- A policy of packets is always the record of its own history. -/
theorem packets_after (limits : Limits) (direction : Direction) (steps : List Step) :
    packets direction ((fresh limits).after steps) = carried direction steps := by
  induction steps using List.reverseRecOn with
  | nil => cases direction <;> rfl
  | append_singleton steps step ih =>
      rw [after_append, carried_concat, ← ih]
      exact packets_step direction _ step

theorem limits_after (limits : Limits) (steps : List Step) :
    ((fresh limits).after steps).limits = limits := by
  have hrounded := after_rounded (fresh limits) steps
  exact (congrArg Policy.limits hrounded).symm.trans (Policy.limits_after _ steps)

/-- A recorded packet raises the request when none stands and the direction's packets reach a
limit with it. -/
theorem record_raises_iff (ideal : Ideal) (direction : Direction) (bytes : UInt64) :
    (ideal.step (.record direction bytes)).1 = some (.ok true) ↔
      ideal.pending = false ∧
        ideal.limits.ReachedBy (packets direction ideal ++ [bytes]) := by
  cases direction with
  | outbound =>
      simp only [Step.record, Ideal.step, packets]
      split <;> simp_all
  | inbound =>
      simp only [Step.record, Ideal.step, packets]
      cases hpending : ideal.pending with
      | true => simp; split <;> simp
      | false => simp; split <;> simp_all

end Ideal

namespace Policy

def traffic : Direction → Policy → Traffic
  | .outbound => sent
  | .inbound => received

/-- The counts of a policy are those of the packets in its history. -/
theorem traffic_after (limits : Limits) (direction : Direction) (steps : List Step) :
    traffic direction ((fresh limits).after steps) = .ofPackets (carried direction steps) := by
  have hrounded : (fresh limits).after steps = ((Ideal.fresh limits).after steps).rounded :=
    Ideal.after_rounded (Ideal.fresh limits) steps
  rw [hrounded, ← Ideal.packets_after limits]
  cases direction <;> rfl

/-- A recorded packet raises the request when none stands and the direction's packets reach a
limit with it. -/
theorem record_raises_iff (limits : Limits) (steps : List Step) (direction : Direction)
    (bytes : UInt64) :
    (((fresh limits).after steps).step (.record direction bytes)).1 = some (.ok true) ↔
      ((fresh limits).after steps).pending = false ∧
        limits.ReachedBy (carried direction steps ++ [bytes]) := by
  have hrounded : fresh limits = (Ideal.fresh limits).rounded := rfl
  rw [hrounded, Ideal.after_rounded, Ideal.step_rounded, Ideal.record_raises_iff,
    Ideal.limits_after, Ideal.packets_after]
  rfl

/-! ## Lowering the request -/

/-- Only an installation lowers the request. -/
theorem install_of_lowers {policy : Policy} {step : Step} (hup : policy.pending = true)
    (hdown : (policy.step step).2.pending = false) : ∃ direction, step = .install direction := by
  have hrecorded {result : Answer × Policy} (h : Recorded policy result)
      (hlowered : result.2.pending = false) : False := by
    cases h with
    | raised => cases hlowered
    | counted => exact absurd (hup.symm.trans hlowered) (by decide)
  cases step with
  | sent bytes => exact (hrecorded (recorded_sent policy bytes) hdown).elim
  | received bytes => exact (hrecorded (recorded_received policy bytes) hdown).elim
  | outboundInstalled => exact ⟨.outbound, rfl⟩
  | inboundInstalled => exact ⟨.inbound, rfl⟩

/-- Where a request stands first and none stands last, an installation in between lowered it. -/
theorem exists_lowering {policy : Policy} {steps : List Step} (hup : policy.pending = true)
    (hdown : (policy.after steps).pending = false) :
    ∃ earlier direction later, steps = earlier ++ .install direction :: later ∧
      (policy.after earlier).pending = true ∧
      (policy.after (earlier ++ [.install direction])).pending = false := by
  induction steps generalizing policy with
  | nil => exact absurd (hup.symm.trans hdown) (by decide)
  | cons step steps ih =>
      cases hnext : (policy.step step).2.pending with
      | true =>
          obtain ⟨earlier, direction, later, rfl, hstood, hlowered⟩ := ih hnext hdown
          exact ⟨step :: earlier, direction, later, rfl, hstood, hlowered⟩
      | false =>
          obtain ⟨direction, rfl⟩ := install_of_lowers hup hnext
          exact ⟨[], direction, steps, rfl, hup, hnext⟩

theorem raised_of_answer {policy : Policy} {step : Step}
    (h : (policy.step step).1 = some (.ok true)) :
    policy.pending = false ∧ (policy.step step).2.pending = true := by
  have hrecorded {result : Answer × Policy} (hresult : Recorded policy result)
      (hanswer : result.1 = some (.ok true)) :
      policy.pending = false ∧ result.2.pending = true := by
    cases hresult with
    | raised sent received hdown => exact ⟨hdown, rfl⟩
    | counted sent received overflow answer hquiet => exact absurd (Option.some.inj hanswer) hquiet
  cases step with
  | sent bytes => exact hrecorded (recorded_sent policy bytes) h
  | received bytes => exact hrecorded (recorded_received policy bytes) h
  | outboundInstalled => cases h
  | inboundInstalled => cases h

end Policy

/-- The policy answers as one that keeps exact totals: it raises the request precisely when none
stands and the direction's exact total reaches a limit with the packet, and it raises it again
only after an installation has lowered it. -/
theorem Policy.exact_totals (limits : Limits) (steps : List Step) :
    (((Policy.fresh limits).run steps).map fun result => (result.1, result.2.pending)) =
        ((Ideal.fresh limits).run steps).map (fun result => (result.1, result.2.pending)) ∧
      (∀ direction bytes,
        (((Policy.fresh limits).after steps).step (.record direction bytes)).1 =
            some (.ok true) ↔
          ((Policy.fresh limits).after steps).pending = false ∧
            limits.ReachedBy (carried direction steps ++ [bytes])) ∧
      ∀ first between second,
        (((Policy.fresh limits).after steps).step first).1 = some (.ok true) →
        (((Policy.fresh limits).after (steps ++ first :: between)).step second).1 =
          some (.ok true) →
        ∃ earlier direction later, between = earlier ++ .install direction :: later ∧
          ((Policy.fresh limits).after (steps ++ first :: earlier)).pending = true ∧
          ((Policy.fresh limits).after
            (steps ++ first :: (earlier ++ [.install direction]))).pending = false := by
  have hrounded : Policy.fresh limits = (Ideal.fresh limits).rounded := rfl
  refine ⟨?_, fun direction bytes => record_raises_iff limits steps direction bytes,
    fun first between second hfirst hsecond => ?_⟩
  · rw [hrounded, Ideal.run_rounded, List.map_map]
    rfl
  · have hraised := (raised_of_answer hfirst).2
    have hdown := (raised_of_answer hsecond).1
    simp only [after_append] at hdown ⊢
    exact exists_lowering hraised hdown

/-- Two packets go beyond the largest count together and raise the request; an inbound packet
raises it again after both installations. -/
theorem Policy.exact_totals_beyond :
    let limits : Limits := { bytes := 0xffffffffffffffff }
    let steps : List Step := [.sent 0xfffffffffffffffe]
    let between : List Step := [.inboundInstalled, .outboundInstalled]
    (((Policy.fresh limits).after steps).step (.sent 5)).1 = some (.ok true) ∧
      (((Policy.fresh limits).after (steps ++ .sent 5 :: between)).step
        (.received 0xffffffffffffffff)).1 = some (.ok true) ∧
      ∃ earlier direction later, between = earlier ++ .install direction :: later ∧
        ((Policy.fresh limits).after (steps ++ .sent 5 :: earlier)).pending = true ∧
        ((Policy.fresh limits).after
          (steps ++ .sent 5 :: (earlier ++ [.install direction]))).pending = false := by
  intro limits steps between
  have htotals := Policy.exact_totals limits steps
  have hfirst := (htotals.2.1 .outbound 5).2 (by decide)
  have hsecond : (((Policy.fresh limits).after (steps ++ .sent 5 :: between)).step
      (.received 0xffffffffffffffff)).1 = some (.ok true) := by decide
  exact ⟨hfirst, hsecond, htotals.2.2 _ _ _ hfirst hsecond⟩

end Rekey

end PacketLayer
