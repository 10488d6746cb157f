import PacketLayer.Config
import PacketLayer.Journal
import PacketLayer.KeepAlive
import PacketLayer.Lane
import PacketLayer.Script

/-!
# Endpoints

An endpoint owns one side of a connection: a lane in each direction, the rekey
and keep-alive bookkeeping, and the scripted stream underneath with its clock.
This module holds the state and the steps that touch neither the stream nor the
clock.
-/

namespace PacketLayer

/-- The published rekey request, with the number of times it has changed. -/
structure Signal where
  value : Bool := false
  version : Nat := 0
  deriving DecidableEq, Repr, Inhabited

/-- Publishes a value; nothing happens if it is already published. -/
def Signal.publish (value : Bool) (signal : Signal) : Signal :=
  if signal.value = value then signal else ⟨value, signal.version + 1⟩

/-- Whether a read is under way. -/
inductive ReaderState where
  | idle
  | busy
  deriving DecidableEq, Repr

/-- Octets on their way into a stream that is not ready for them. -/
structure Shipment where
  /-- The octets that the stream has not accepted. -/
  rest : Bytes
  /-- The end of the attempt under way. -/
  attempt : Alarm
  /-- The end of the attempt or of the pause of the stream, whichever is first. -/
  wake : Alarm
  deriving DecidableEq, Repr

/-- A keep-alive message whose sending was interrupted. -/
structure HeldMessage where
  shipment : Shipment
  /-- The length of its frame, which is counted once all of it is sent. -/
  frameLength : Nat
  deriving DecidableEq, Repr

/-- One side of a connection, with ciphers of type `C`. -/
structure Endpoint (C : Type) where
  config : Config
  valid : config.Valid
  inbound : Lane C := {}
  outbound : Lane C := {}
  /-- An inbound protection that waits for the next packet border. -/
  parked : Option (Protection C) := none
  rekey : Rekey.Policy
  signal : Signal := {}
  keepAlive : KeepAlive Handler
  /-- How often a counting keep-alive handler has run. -/
  fired : Nat := 0
  /-- Keep-alive messages that have been asked for and not been looked at. -/
  owed : Nat := 0
  /-- Keep-alive messages that wait for the outbound lane. -/
  queued : Nat := 0
  /-- The keep-alive message that occupies the outbound lane. -/
  held : Option HeldMessage := none
  closed : Bool := false
  /-- Where padding octets come from. -/
  padding : ByteSource
  /-- Where the filler of keep-alive messages comes from. -/
  noise : ByteSource
  reads : ReadScript (Protection C) := []
  writes : WriteScript (Protection C) := []
  flushes : List (FlushItem (Protection C)) := []
  /-- What the stream has accepted and nobody has collected, latest piece first. -/
  accepted : List Bytes := []
  /-- The clock, in milliseconds. -/
  now : Nat := 0
  /-- The number of the operation under way, among all on the same clock. -/
  operation : Nat := 0
  /-- The turn that the endpoint takes at the current time. -/
  turn : Turn := .first
  /-- What has been noted and not been collected, latest entry first. -/
  journal : List Entry := []

namespace Endpoint

variable {C : Type}

/-- An endpoint without protections, on a stream with empty scripts. -/
def make (config : Config) (padding noise : ByteSource) : Except Fault (Endpoint C) :=
  match hviolation : config.violation? with
  | some fault => .error fault
  | none =>
      .ok {
        config
        valid := config.violation?_eq_none_iff.1 hviolation
        rekey := { limits := config.rekey }
        keepAlive := .disabled 0
        padding
        noise }

/-- The current moment. -/
def moment (e : Endpoint C) : Moment :=
  e.now :: e.operation :: e.turn

/-- Notes an event at the current moment. -/
def note (event : Event) (e : Endpoint C) : Endpoint C :=
  { e with journal := ⟨e.moment, event⟩ :: e.journal }

/-- Notes plain octets if the configuration asks for it. -/
def dump (direction : Direction) (bytes : Bytes) (e : Endpoint C) : Endpoint C :=
  if e.config.dumpPackets then e.note (.dump direction bytes) else e

/-- Publishes whether new keys are pending. -/
def publish (e : Endpoint C) : Endpoint C :=
  { e with signal := e.signal.publish e.rekey.pending }

/-- Closes the endpoint for good. -/
def close (e : Endpoint C) : Endpoint C :=
  { e with closed := true }

/-- Sets the keep-alive interval and handler, starting now. -/
def setKeepAlive (interval : Nat) (handler : Handler) (e : Endpoint C) : Endpoint C :=
  { e with keepAlive := .configure interval handler e.now }

/-- Brings an outbound protection into use for the next packet. -/
def installOutbound (protection : Protection C) (e : Endpoint C) : Endpoint C :=
  let e := e.note (.installed .outbound protection.blockSize protection.tagSize)
  { e with
    outbound := e.outbound.install protection
    rekey := e.rekey.installOutbound }.publish

/-- Brings an inbound protection into use. -/
def activateInbound (protection : Protection C) (e : Endpoint C) : Endpoint C :=
  let e := e.note (.installed .inbound protection.blockSize protection.tagSize)
  { e with
    inbound := e.inbound.install protection
    rekey := e.rekey.installInbound }.publish

/-- Brings the parked inbound protection into use, if there is one. -/
def activateParked (e : Endpoint C) : Endpoint C :=
  match e.parked with
  | none => e
  | some protection => { e with parked := none }.activateInbound protection

/-- Installs an inbound protection: at once if no read is under way, and
otherwise by parking it. Either way an earlier parked protection is dropped. -/
def installInbound (reader : ReaderState) (protection : Protection C) (e : Endpoint C) :
    Endpoint C :=
  match reader with
  | .idle => { e with parked := none }.activateInbound protection
  | .busy => { e with parked := some protection }.note .deferred

/-- Carries out an action of another party. -/
def act (reader : ReaderState) (action : Action (Protection C)) (e : Endpoint C) : Endpoint C :=
  match action with
  | .close => e.close
  | .installInbound protection => e.installInbound reader protection
  | .setKeepAlive interval handler => e.setKeepAlive interval handler

/-- Runs a keep-alive handler. -/
def runHandler (handler : Handler) (e : Endpoint C) : Endpoint C :=
  match handler with
  | .count => { e with fired := e.fired + 1 }
  | .close => { e with fired := e.fired + 1 }.close
  | .sendIgnore => { e with owed := e.owed + 1 }

/-- Runs the keep-alive handler if it is due. -/
def checkKeepAlive (e : Endpoint C) : Endpoint C :=
  let (handler?, keepAlive) :=
    e.keepAlive.poll e.now e.outbound.isProtected e.rekey.pending
  let e := { e with keepAlive }
  match handler? with
  | none => e
  | some handler => (e.note (.keepAliveFired keepAlive.interval)).runHandler handler

/-- Counts a packet that was written. -/
def accountSent (bytes : Nat) (e : Endpoint C) : Endpoint C :=
  let (raised, rekey) := e.rekey.recordSent (UInt64.ofNat bytes)
  let e := { e with rekey }
  if raised then
    (e.note (.rekeyRequested .outbound rekey.sent.packets.toNat rekey.sent.bytes.toNat)).publish
  else e

/-- Counts a packet that was accepted; the peer may be found to ignore a request. -/
def accountReceived (bytes : Nat) (e : Endpoint C) : Except Fault Unit × Endpoint C :=
  let (answer, rekey) := e.rekey.recordReceived (UInt64.ofNat bytes)
  let e := { e with rekey }
  match answer with
  | .error fault => (.error fault, e)
  | .ok false => (.ok (), e)
  | .ok true =>
      (.ok (), (e.note (.rekeyRequested .inbound rekey.received.packets.toNat
        rekey.received.bytes.toNat)).publish)

/-- The octets that the stream has accepted and nobody has collected, in order. -/
def acceptedBytes (e : Endpoint C) : Bytes :=
  e.accepted.reverse.flatten

/-- The entries that nobody has collected, in order. -/
def entries (e : Endpoint C) : List Entry :=
  e.journal.reverse

/-- A description of the settings and of the state of the connection. -/
def inspect (e : Endpoint C) : String :=
  "Packetizer \x7b config: " ++ e.config.inspect ++
    ", outbound_active: " ++ toString e.outbound.isProtected ++
    ", closed: " ++ toString e.closed ++ ", .. \x7d"

end Endpoint

end PacketLayer
