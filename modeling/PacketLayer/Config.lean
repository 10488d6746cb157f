import PacketLayer.Rekey
import PacketLayer.Text.Duration

/-!
# Configuration

A configuration is valid if every limit in it is positive. Validation names the
first limit that is not, and accepts every valid configuration.
-/

namespace PacketLayer

/-- The settings of an endpoint. -/
structure Config where
  rekey : Rekey.Limits := {}
  /-- The longest single attempt on the stream, in milliseconds. -/
  pollInterval : Nat := 100
  /-- Whether packet contents are written to the journal. -/
  dumpPackets : Bool := false
  /-- The longest banner line, in octets. -/
  maxBannerLine : Nat := 8192
  deriving DecidableEq, Repr, Inhabited

namespace Config

/-- Every limit is positive. -/
structure Valid (config : Config) : Prop where
  pollInterval : config.pollInterval ≠ 0
  bytes : config.rekey.bytes ≠ 0
  packets : config.rekey.packets ≠ 0
  gracePackets : config.rekey.gracePackets ≠ 0
  maxBannerLine : config.maxBannerLine ≠ 0

/-- The first limit that is zero, if there is one. -/
def violation? (config : Config) : Option Fault :=
  if config.pollInterval = 0 then some .zeroPollInterval
  else if config.rekey.bytes = 0 ∨ config.rekey.packets = 0 then some .zeroRekeyLimit
  else if config.rekey.gracePackets = 0 then some .zeroGraceWindow
  else if config.maxBannerLine = 0 then some .zeroBannerLimit
  else none

/-- A configuration without violations is valid, and a valid one has none. -/
theorem violation?_eq_none_iff (config : Config) :
    config.violation? = none ↔ config.Valid := by
  constructor
  · intro hnone
    unfold violation? at hnone
    split at hnone
    · cases hnone
    split at hnone
    · cases hnone
    split at hnone
    · cases hnone
    split at hnone
    · cases hnone
    next hpoll hlimits hgrace hbanner =>
      exact ⟨hpoll, fun hbytes => hlimits (.inl hbytes), fun hpackets => hlimits (.inr hpackets),
        hgrace, hbanner⟩
  · intro hvalid
    unfold violation?
    rw [if_neg hvalid.pollInterval,
      if_neg (fun hlimits => hlimits.elim hvalid.bytes hvalid.packets),
      if_neg hvalid.gracePackets, if_neg hvalid.maxBannerLine]

/-- The settings in the words of the journal. -/
def inspect (config : Config) : String :=
  let limits := config.rekey
  "PacketizerConfig \x7b rekey: RekeyLimits \x7b bytes: " ++ toString limits.bytes ++
    ", packets: " ++ toString limits.packets ++
    ", grace_packets: " ++ toString limits.gracePackets ++
    " \x7d, poll_interval: " ++ Text.duration config.pollInterval ++
    ", dump_packets: " ++ toString config.dumpPackets ++
    ", max_banner_line: " ++ toString config.maxBannerLine ++ " \x7d"

end Config

end PacketLayer
