import PacketLayer.Bytes
import PacketLayer.Fault
import PacketLayer.Moment

/-!
# Scripted streams

The stream under an endpoint follows scripts: one says what arrives and when,
one says how much the stream accepts and when, and one says how flushes end.
Scripts also hold actions that other parties take in the middle of an attempt.
The cost of a script bounds the attempts that can be made on it.
-/

namespace PacketLayer

/-- What happens when the connection has been idle for the keep-alive interval. -/
inductive Handler where
  /-- The firing is counted. -/
  | count
  /-- The firing is counted and the endpoint is closed. -/
  | close
  /-- A message that the peer ignores is written as soon as the clock has to move. -/
  | sendIgnore
  deriving DecidableEq, Repr

/-- What another party does to an endpoint in the middle of an attempt. Protections
are given in a form `P`. -/
inductive Action (P : Type) where
  | close
  | installInbound (protection : P)
  | setKeepAlive (interval : Nat) (handler : Handler)

/-- What happens on the inbound side of a stream. -/
inductive ReadItem (P : Type) where
  /-- Octets arrive; no octets at all are an end of stream that passes. -/
  | data (bytes : Bytes)
  /-- The stream appears to end, once. -/
  | eof
  /-- The attempt fails, once. -/
  | fail (failure : StreamFailure)
  /-- Nothing happens for a while, counted from when this item is reached. -/
  | pause (milliseconds : Nat)
  /-- Nothing happens before the given time. -/
  | resumeAt (time : Nat)
  | installOutbound (protection : P)
  | act (action : Action P)

/-- What happens on the outbound side of a stream. -/
inductive WriteItem (P : Type) where
  /-- At most so many octets are accepted. -/
  | accept (count : Nat)
  /-- The attempt fails, once. -/
  | fail (failure : StreamFailure)
  /-- Nothing happens for a while, counted from when this item is reached. -/
  | pause (milliseconds : Nat)
  /-- Nothing happens before the alarm. -/
  | resumeAt (alarm : Alarm)
  | act (action : Action P)

/-- How a flush ends. -/
inductive FlushItem (P : Type) where
  | succeed
  | fail (failure : StreamFailure)
  /-- The flush succeeds and leaves a protection unused. -/
  | unused (direction : Direction) (protection : P)

/-- The script of the inbound side, for protections in a form `P`. -/
abbrev ReadScript (P : Type) := List (ReadItem P)

/-- The script of the outbound side, for protections in a form `P`. -/
abbrev WriteScript (P : Type) := List (WriteItem P)

namespace Action

variable {P Q : Type}

/-- Turns the protections of an action into another form. -/
def build (make : Direction → P → Except Fault Q) : Action P → Except Fault (Action Q)
  | close => .ok close
  | installInbound protection => (make .inbound protection).map installInbound
  | setKeepAlive interval handler => .ok (setKeepAlive interval handler)

end Action

namespace ReadItem

variable {P Q : Type}

/-- Turns the protections of an item into another form. -/
def build (make : Direction → P → Except Fault Q) : ReadItem P → Except Fault (ReadItem Q)
  | data bytes => .ok (data bytes)
  | eof => .ok eof
  | fail failure => .ok (fail failure)
  | pause milliseconds => .ok (pause milliseconds)
  | resumeAt time => .ok (resumeAt time)
  | installOutbound protection => (make .outbound protection).map installOutbound
  | act action => (action.build make).map act

/-- A bound on the attempts that an item allows, at the given time. -/
def cost (now : Nat) : ReadItem P → Nat
  | data bytes => bytes.length + 1
  | pause milliseconds => milliseconds + 2
  | resumeAt time => time - now + 1
  | eof | fail _ | installOutbound _ | act _ => 1

/-- The octets that an item still holds. -/
def unread : ReadItem P → Nat
  | data bytes => bytes.length
  | _ => 0

theorem cost_pos (now : Nat) (item : ReadItem P) : 0 < item.cost now := by
  cases item <;> simp only [cost] <;> omega

theorem cost_anti {now later : Nat} (hlater : now ≤ later) (item : ReadItem P) :
    item.cost later ≤ item.cost now := by
  cases item <;> simp only [cost] <;> omega

end ReadItem

namespace WriteItem

variable {P Q : Type}

/-- Turns the protections of an item into another form. -/
def build (make : Direction → P → Except Fault Q) : WriteItem P → Except Fault (WriteItem Q)
  | accept count => .ok (accept count)
  | fail failure => .ok (fail failure)
  | pause milliseconds => .ok (pause milliseconds)
  | resumeAt alarm => .ok (resumeAt alarm)
  | act action => (action.build make).map act

/-- A bound on the attempts that an item allows, at the given time. -/
def cost (now : Nat) : WriteItem P → Nat
  | pause milliseconds => milliseconds + 2
  | resumeAt alarm => alarm.time - now + 1
  | accept _ | fail _ | act _ => 1

theorem cost_pos (now : Nat) (item : WriteItem P) : 0 < item.cost now := by
  cases item <;> simp only [cost] <;> omega

theorem cost_anti {now later : Nat} (hlater : now ≤ later) (item : WriteItem P) :
    item.cost later ≤ item.cost now := by
  cases item <;> simp only [cost] <;> omega

end WriteItem

namespace FlushItem

variable {P Q : Type}

/-- Turns the protection of an item into another form, even though it is not used. -/
def build (make : Direction → P → Except Fault Q) : FlushItem P → Except Fault (FlushItem Q)
  | succeed => .ok succeed
  | fail failure => .ok (fail failure)
  | unused direction protection => (make direction protection).map (unused direction)

end FlushItem

namespace ReadScript

variable {P : Type}

/-- A bound on the attempts that a script allows, at the given time. -/
def cost (now : Nat) : ReadScript P → Nat
  | [] => 0
  | item :: items => item.cost now + cost now items

/-- The octets that a script still holds. -/
def unread : ReadScript P → Nat
  | [] => 0
  | item :: items => item.unread + unread items

theorem cost_anti {now later : Nat} (hlater : now ≤ later) (script : ReadScript P) :
    script.cost later ≤ script.cost now := by
  induction script with
  | nil => exact Nat.le_refl _
  | cons item items ih => exact Nat.add_le_add (item.cost_anti hlater) ih

end ReadScript

namespace WriteScript

variable {P : Type}

/-- A bound on the attempts that a script allows, at the given time. -/
def cost (now : Nat) : WriteScript P → Nat
  | [] => 0
  | item :: items => item.cost now + cost now items

theorem cost_anti {now later : Nat} (hlater : now ≤ later) (script : WriteScript P) :
    script.cost later ≤ script.cost now := by
  induction script with
  | nil => exact Nat.le_refl _
  | cons item items ih => exact Nat.add_le_add (item.cost_anti hlater) ih

end WriteScript

end PacketLayer
