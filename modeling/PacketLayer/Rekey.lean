import PacketLayer.Fault

/-!
# Rekey policy

Traffic is counted per direction since that direction's protection was last
installed. Reaching a limit in either direction asks for new keys; the request
stands until both directions have been installed. While it stands the peer may
send only a limited number of further packets.
-/

namespace PacketLayer

/-- Addition that stops at the largest 64-bit count. -/
def saturatingAdd (a b : UInt64) : UInt64 :=
  if a + b < a then 0xffffffffffffffff else a + b

namespace Rekey

/-- How much traffic one key may carry, and how long the peer may ignore a request. -/
structure Limits where
  /-- Octets per direction before new keys are requested. -/
  bytes : UInt64 := 0x40000000
  /-- Packets per direction before new keys are requested. -/
  packets : UInt64 := 0x40000000
  /-- The inbound packet, counted from the request, that fails. -/
  gracePackets : UInt32 := 20
  deriving DecidableEq, Repr, Inhabited

/-- Octets and packets carried in one direction. -/
structure Traffic where
  bytes : UInt64 := 0
  packets : UInt64 := 0
  deriving DecidableEq, Repr, Inhabited

/-- Counts one more packet; both counts stop at their largest value. -/
def Traffic.record (traffic : Traffic) (bytes : UInt64) : Traffic :=
  ⟨saturatingAdd traffic.bytes bytes, saturatingAdd traffic.packets 1⟩

/-- Whether the traffic has reached one of the limits. -/
def Traffic.reaches (traffic : Traffic) (limits : Limits) : Bool :=
  limits.packets ≤ traffic.packets || limits.bytes ≤ traffic.bytes

/-- The rekey bookkeeping of one connection. -/
structure Policy where
  limits : Limits
  /-- Whether a request stands. -/
  pending : Bool := false
  sent : Traffic := {}
  received : Traffic := {}
  /-- Packets received while the request stood. -/
  overflow : UInt32 := 0
  /-- Whether an outbound installation waits for its inbound counterpart. -/
  outboundInstalled : Bool := false
  /-- Whether an inbound installation waits for its outbound counterpart. -/
  inboundInstalled : Bool := false
  deriving DecidableEq, Repr, Inhabited

namespace Policy

/-- Raises the request and starts the grace window afresh. -/
def arm (policy : Policy) : Policy :=
  { policy with overflow := 0, pending := true }

/-- Withdraws the request once both directions have been installed. -/
def withdraw (policy : Policy) : Policy :=
  if policy.outboundInstalled && policy.inboundInstalled then
    { policy with outboundInstalled := false, inboundInstalled := false, pending := false }
  else policy

/-- Counts an outbound packet and tells whether it raised the request. -/
def recordSent (bytes : UInt64) (policy : Policy) : Bool × Policy :=
  let policy := { policy with sent := policy.sent.record bytes }
  if policy.pending then (false, policy)
  else if policy.sent.reaches policy.limits then (true, policy.arm)
  else (false, policy)

/-- Counts an inbound packet and tells whether it raised the request. While a
request stands, the packet that completes the grace window and every packet
counted beyond it are faults. -/
def recordReceived (bytes : UInt64) (policy : Policy) : Except Fault Bool × Policy :=
  let policy := { policy with received := policy.received.record bytes }
  if policy.pending then
    let policy := { policy with overflow := policy.overflow + 1 }
    if policy.limits.gracePackets ≤ policy.overflow then
      (.error (.rekeyIgnored policy.overflow), policy)
    else (.ok false, policy)
  else if policy.received.reaches policy.limits then (.ok true, policy.arm)
  else (.ok false, policy)

/-- Starts the outbound counts afresh for new outbound keys. -/
def installOutbound (policy : Policy) : Policy :=
  { policy with sent := {}, outboundInstalled := true }.withdraw

/-- Starts the inbound counts and the grace window afresh for new inbound keys. -/
def installInbound (policy : Policy) : Policy :=
  { policy with received := {}, overflow := 0, inboundInstalled := true }.withdraw

end Policy

/-- One call on the rekey bookkeeping. -/
inductive Step where
  | sent (bytes : UInt64)
  | received (bytes : UInt64)
  | outboundInstalled
  | inboundInstalled
  deriving DecidableEq, Repr

/-- What a call on the rekey bookkeeping answers; installations answer nothing. -/
abbrev Answer := Option (Except Fault Bool)

/-- Carries out one call. -/
def Policy.step (policy : Policy) : Step → Answer × Policy
  | .sent bytes =>
      let (raised, policy) := policy.recordSent bytes
      (some (.ok raised), policy)
  | .received bytes =>
      let (answer, policy) := policy.recordReceived bytes
      (some answer, policy)
  | .outboundInstalled => (none, policy.installOutbound)
  | .inboundInstalled => (none, policy.installInbound)

/-- Carries out calls in order; each answer is paired with the bookkeeping after it. -/
def Policy.run (policy : Policy) : List Step → List (Answer × Policy)
  | [] => []
  | step :: steps =>
      let result := policy.step step
      result :: result.2.run steps

end Rekey

end PacketLayer
