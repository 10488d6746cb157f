import PacketLayer.Bytes
import PacketLayer.Direction
import PacketLayer.Moment

/-!
# Journal

An endpoint notes what happens to it as events. Each event has a severity, a
message and named fields. Payload octets appear only in dumps.
-/

namespace PacketLayer

/-- Something worth noting about a connection. -/
inductive Event where
  /-- A packet was read, with its payload length, or is being written, with its frame length. -/
  | packet (direction : Direction) (label : String) (length : Nat)
  /-- Plain octets of a packet. -/
  | dump (direction : Direction) (bytes : Bytes)
  /-- A traffic limit was reached. -/
  | rekeyRequested (direction : Direction) (packets bytes : Nat)
  /-- A protection came into use. -/
  | installed (direction : Direction) (blockSize tagSize : Nat)
  /-- An inbound protection waits for the next packet border. -/
  | deferred
  /-- The keep-alive handler runs. -/
  | keepAliveFired (interval : Nat)
  /-- A read or a write failed. -/
  | failure (direction : Direction) (text : String)
  /-- A keep-alive message could not be written. -/
  | keepAliveFailed (text : String)
  deriving DecidableEq, Repr

/-- How important an event is. -/
inductive Severity where
  | trace
  | debug
  | warn
  deriving DecidableEq, Repr

/-- The value of a field. -/
inductive FieldValue where
  | number (value : Nat)
  | text (value : String)
  deriving DecidableEq, Repr

namespace Event

/-- The severity of each event. -/
def severity : Event → Severity
  | dump .. => .trace
  | failure .. | keepAliveFailed _ => .warn
  | _ => .debug

/-- The message of each event. -/
def message : Event → String
  | packet .inbound label length => s!"Read packet <{label}>, length {length}"
  | packet .outbound label length => s!"Write packet <{label}>, length {length}"
  | dump .. => "packet dump"
  | rekeyRequested .inbound packets bytes =>
      s!"Rekeying (hit {packets} packets, {bytes} bytes received)"
  | rekeyRequested .outbound packets bytes =>
      s!"Rekeying (hit {packets} packets, {bytes} bytes sent)"
  | installed .. => "Cipher installed"
  | deferred => "Reader busy; inbound cipher will be installed at the next packet boundary"
  | keepAliveFired _ => "Keep-alive fired"
  | failure .. => "Packet layer failure"
  | keepAliveFailed _ => "Keep-alive write failed"

/-- The fields of each event. -/
def fields : Event → List (String × FieldValue)
  | packet direction label length =>
      [("direction", .text direction.label), ("message_type", .text label),
        ("length", .number length)]
  | dump direction bytes =>
      [("direction", .text direction.label), ("len", .number bytes.length),
        ("bytes", .text bytes.hex)]
  | rekeyRequested direction packets bytes =>
      [("direction", .text direction.label), ("packets", .number packets),
        ("bytes", .number bytes)]
  | installed direction blockSize tagSize =>
      [("direction", .text direction.label), ("block_size", .number blockSize),
        ("mac_size", .number tagSize)]
  | deferred => [("direction", .text Direction.inbound.label)]
  | keepAliveFired interval => [("interval_ms", .number interval)]
  | failure direction text => [("direction", .text direction.label), ("error", .text text)]
  | keepAliveFailed text => [("error", .text text)]

end Event

/-- An event with the moment at which it was noted. -/
structure Entry where
  moment : Moment
  event : Event
  deriving DecidableEq, Repr

end PacketLayer
