import PacketLayer.Direction

/-!
# Faults

A fault records why an operation failed. Its category decides how callers treat
it and which heading its message carries; the detail states the cause.
-/

namespace PacketLayer

/-- The kinds of stream failure that callers can tell apart. -/
inductive StreamFailureKind where
  | interrupted
  | wouldBlock
  | timedOut
  | connectionReset
  | brokenPipe
  | unexpectedEof
  | writeZero
  | other
  deriving DecidableEq, Repr

/-- A transient failure leaves the stream usable, so the attempt is repeated. -/
def StreamFailureKind.isTransient : StreamFailureKind → Bool
  | .interrupted | .wouldBlock | .timedOut => true
  | _ => false

/-- A failure reported by the underlying stream. -/
structure StreamFailure where
  kind : StreamFailureKind
  text : String
  deriving DecidableEq, Repr

/-- What a caller distinguishes among faults. -/
inductive Category where
  /-- The stream failed. -/
  | io
  /-- A value the layer cannot run with. -/
  | config
  /-- A message that is malformed or too long. -/
  | protocol
  /-- Lengths or padding that do not fit the packet format. -/
  | framing
  /-- A cipher or tag engine failed. -/
  | crypto
  /-- A tag did not match. -/
  | authentication
  /-- The peer kept sending after a key exchange was requested. -/
  | rekeyIgnored
  /-- A deadline passed. -/
  | timeout
  /-- The endpoint was closed. -/
  | closed
  /-- Anything raised outside the packet layer. -/
  | other
  deriving DecidableEq, Repr

/-- The words before the detail in a message. -/
def Category.heading : Category → String
  | .io => "IO error: "
  | .config => "Configuration error: "
  | .protocol => "Protocol error: "
  | .framing => "Framing error: "
  | .crypto => "Crypto error: "
  | .authentication => "Authentication error: "
  | .timeout => "Timeout: "
  | .other => "Error: "
  | .rekeyIgnored | .closed => ""

/-- Why an operation failed. -/
inductive Fault where
  /-- The stream failed and the failure was not transient. -/
  | stream (failure : StreamFailure)
  /-- Attempts would never be allowed to wait. -/
  | zeroPollInterval
  /-- A traffic limit of zero would ask for new keys at once. -/
  | zeroRekeyLimit
  /-- A grace window of zero would refuse the first packet. -/
  | zeroGraceWindow
  /-- No banner line would ever be accepted. -/
  | zeroBannerLimit
  /-- The block size lies outside `smallest` to `largest`. -/
  | blockSizeRange (size smallest largest : Nat)
  /-- More tag octets are asked for than the engine yields. -/
  | tagSizeRange (requested available : Nat)
  /-- The framed message would exceed the packet limit. -/
  | messageTooLong (packetLength limit : Nat)
  /-- A banner line exceeds its limit. -/
  | bannerTooLong (limit : Nat)
  /-- Fewer octets than one block were offered as a first block. -/
  | shortFirstBlock (length blockSize : Nat)
  /-- The declared packet length exceeds the packet limit. -/
  | packetTooLong (packetLength limit : Nat)
  /-- The declared packet length does not fill whole blocks. -/
  | misaligned (packetLength blockSize : Nat)
  /-- The declared padding exceeds the inbound limit. -/
  | excessPadding (padding limit : Nat)
  /-- The declared padding leaves no room in the packet. -/
  | paddingOverrun (padding packetLength : Nat)
  /-- The packet ends before the octets already read for it. -/
  | shorterThanFirstRead (frameLength : Nat)
  /-- Too little key material for a cipher. -/
  | shortCipherKey (cipher : String) (expected actual : Nat)
  /-- Too little initial-vector material for a cipher. -/
  | shortCipherIv (cipher : String) (expected actual : Nat)
  /-- Too little key material for a tag engine. -/
  | shortTagKey (expected actual : Nat)
  /-- A chaining cipher was given a partial block. -/
  | partialBlock (direction : Direction) (length blockSize : Nat)
  /-- A tag engine yielded fewer octets than the tag size. -/
  | shortTag (actual expected : Nat)
  /-- The received tag differs from the computed one. -/
  | tagMismatch (sequence : UInt32)
  /-- The peer exhausted the grace window. -/
  | rekeyIgnored (packets : UInt32)
  /-- The banner deadline passed without a line. -/
  | bannerDeadline
  /-- The endpoint was closed. -/
  | closed
  /-- A fault stated by an engine or by the layer above, in its own words. -/
  | reported (category : Category) (text : String)
  deriving DecidableEq, Repr

namespace Fault

/-- The category of each cause. -/
def category : Fault → Category
  | stream _ => .io
  | zeroPollInterval | zeroRekeyLimit | zeroGraceWindow | zeroBannerLimit => .config
  | blockSizeRange .. | tagSizeRange .. => .config
  | messageTooLong .. | bannerTooLong _ => .protocol
  | shortFirstBlock .. | packetTooLong .. | misaligned .. => .framing
  | excessPadding .. | paddingOverrun .. | shorterThanFirstRead _ => .framing
  | shortCipherKey .. | shortCipherIv .. | shortTagKey .. => .crypto
  | partialBlock .. | shortTag .. => .crypto
  | tagMismatch _ => .authentication
  | rekeyIgnored _ => .rekeyIgnored
  | bannerDeadline => .timeout
  | closed => .closed
  | reported category _ => category

/-- The cause in words, without the heading of its category. -/
def detail : Fault → String
  | stream failure => failure.text
  | zeroPollInterval => "poll_interval must be non-zero"
  | zeroRekeyLimit => "rekey limits must be non-zero"
  | zeroGraceWindow => "rekey grace window must be non-zero"
  | zeroBannerLimit => "max_banner_line must be non-zero"
  | blockSizeRange size smallest largest =>
      s!"Invalid block size {size} (must be {smallest}..={largest})"
  | tagSizeRange requested available => s!"MAC size {requested} exceeds engine output {available}"
  | messageTooLong packetLength limit =>
      s!"Packet too large: {packetLength} bytes (maximum {limit})"
  | bannerTooLong limit => s!"Banner line longer than {limit} bytes"
  | shortFirstBlock length blockSize =>
      s!"Short first block: {length} bytes (block size {blockSize})"
  | packetTooLong packetLength limit =>
      s!"Packet too large: {packetLength} bytes (maximum {limit})"
  | misaligned packetLength blockSize =>
      s!"Invalid packet blocking: length {packetLength} not aligned to block size {blockSize}"
  | excessPadding padding limit => s!"Invalid padding: {padding} bytes (maximum {limit})"
  | paddingOverrun padding packetLength =>
      s!"Invalid padding: {padding} bytes in a {packetLength}-byte packet"
  | shorterThanFirstRead frameLength =>
      s!"Packet of {frameLength} bytes shorter than its first read"
  | shortCipherKey cipher expected actual =>
      s!"Insufficient key material for {cipher}: expected {expected}, got {actual}"
  | shortCipherIv cipher expected actual =>
      s!"Insufficient IV material for {cipher}: expected {expected}, got {actual}"
  | shortTagKey expected actual =>
      s!"Insufficient key material for MAC: expected {expected}, got {actual}"
  | partialBlock .outbound length blockSize =>
      s!"encipher error: short buffer ({length} bytes, block {blockSize})"
  | partialBlock .inbound length blockSize =>
      s!"decode error: short buffer ({length} bytes, block {blockSize})"
  | shortTag actual expected => s!"MAC engine returned {actual} bytes, expected {expected}"
  | tagMismatch sequence => s!"MAC mismatch on packet {sequence}"
  | rekeyIgnored packets =>
      s!"Rekey requests are being ignored ({packets} packets since request)"
  | bannerDeadline => "No banner line before deadline"
  | closed => "Connection closed"
  | reported _ text => text

/-- The full message shown to people. -/
def message (fault : Fault) : String :=
  fault.category.heading ++ fault.detail

/-- Only a passed deadline leaves the connection usable; after any other fault
the packet stream is out of step or not trusted. -/
def isFatal (fault : Fault) : Bool :=
  fault.category != .timeout

/-- The text of the failure underneath, for faults that wrap another party's. -/
def source? (fault : Fault) : Option String :=
  match fault.category with
  | .io | .other => some fault.detail
  | _ => none

end Fault

end PacketLayer
