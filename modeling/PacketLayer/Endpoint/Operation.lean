import PacketLayer.Endpoint.Banner
import PacketLayer.Endpoint.Read
import PacketLayer.Endpoint.Write

/-!
# Operations

An operation is anything that can be done with an endpoint from outside. After it
keep-alive messages are carried as far as they go without waiting.
-/

namespace PacketLayer

/-- An operation on an endpoint, with protections in a form `P`. -/
inductive Operation (P : Type) where
  | write (payload : Bytes)
  | read
  | readBanner (milliseconds : Nat)
  | writeBanner (line : String)
  | installOutbound (protection : P)
  | installInbound (protection : P)
  /-- More happens on the inbound side of the stream. -/
  | feed (items : ReadScript P)
  /-- More happens on the outbound side of the stream. -/
  | scriptWrites (items : WriteScript P)
  | scriptFlushes (items : List (FlushItem P))
  | setKeepAlive (interval : Nat) (handler : Handler)
  /-- Time passes. -/
  | advance (milliseconds : Nat)
  | close

/-- What an operation returns. -/
inductive Reply where
  | done
  /-- A message, or none at the end of the stream. -/
  | packet (packet? : Option Packet)
  /-- A line, or none at the end of the stream. -/
  | line (line? : Option String)
  deriving DecidableEq, Repr

namespace Operation

variable {P Q : Type}

/-- Whether an operation puts the clock on without a stop between. -/
def isLeap : Operation P → Bool
  | advance _ => true
  | _ => false

/-- Turns the protections of an operation into another form. -/
def build (make : Direction → P → Except Fault Q) : Operation P → Except Fault (Operation Q)
  | write payload => .ok (write payload)
  | read => .ok read
  | readBanner milliseconds => .ok (readBanner milliseconds)
  | writeBanner line => .ok (writeBanner line)
  | installOutbound protection => (make .outbound protection).map installOutbound
  | installInbound protection => (make .inbound protection).map installInbound
  | feed items => (items.mapM (ReadItem.build make)).map feed
  | scriptWrites items => (items.mapM (WriteItem.build make)).map scriptWrites
  | scriptFlushes items => (items.mapM (FlushItem.build make)).map scriptFlushes
  | setKeepAlive interval handler => .ok (setKeepAlive interval handler)
  | advance milliseconds => .ok (advance milliseconds)
  | close => .ok close

end Operation

namespace Endpoint

variable {C : Type} [BlockCipher C]

/-- Begins an operation and carries it as far as its own result. -/
def start : Operation (Protection C) → Act C Reply
  | .write payload => do write payload; return .done
  | .read => do return .packet (← read)
  | .readBanner milliseconds => do return .line (← readBanner milliseconds)
  | .writeBanner line => do writeBanner line; return .done
  | .installOutbound protection => do Act.update (replaceOutbound protection); return .done
  | .installInbound protection => do Act.update (installInbound .idle protection); return .done
  | .feed items => do Act.update (fun e => { e with reads := e.reads ++ items }); return .done
  | .scriptWrites items => do
      Act.update (fun e => { e with writes := e.writes ++ items }); return .done
  | .scriptFlushes items => do
      Act.update (fun e => { e with flushes := e.flushes ++ items }); return .done
  | .setKeepAlive interval handler => do
      Act.update (setKeepAlive interval handler); return .done
  | .advance milliseconds => do
      Act.update (fun e => e.advanceTo (e.now + milliseconds)); return .done
  | .close => do Act.update close; return .done

/-- Counts an operation, which has the first turn now. -/
def countOperation (e : Endpoint C) : Endpoint C :=
  { e with operation := e.operation + 1, turn := .first }

/-- Carries out an operation, and then whatever keep-alive messages can do at once. -/
def perform (operation : Operation (Protection C)) : Act C Reply := fun e =>
  let (result, e) := start operation e.countOperation
  (result, e.upkeep .idle)

/-- Carries out operations in order, each after the one before it has ended. -/
def run : List (Operation (Protection C)) → Endpoint C → List (Except Fault Reply) × Endpoint C
  | [], e => ([], e)
  | operation :: operations, e =>
      let (result, e) := perform operation e
      let (results, e) := run operations e
      (result :: results, e)

end Endpoint

end PacketLayer
