import PacketLayer.ByteSource
import PacketLayer.MessageType
import PacketLayer.Text.Duration

/-!
# Keep-alive

An idle connection is kept alive by a handler that runs at most once per
interval. There is no timer: the schedule is consulted between read attempts,
and it is silent without outbound protection and while new keys are pending.
-/

namespace PacketLayer

/-- A keep-alive schedule with a handler of type `H`; times are in milliseconds. -/
structure KeepAlive (H : Type) where
  /-- The interval; zero disables the schedule. -/
  interval : Nat := 0
  /-- When the handler last ran or the schedule was last set. -/
  lastFired : Nat := 0
  handler : Option H := none
  deriving Repr

namespace KeepAlive

variable {H : Type}

/-- A schedule that never fires, made at the given time. -/
def disabled (now : Nat) : KeepAlive H :=
  { lastFired := now }

/-- Sets interval and handler; the first interval starts now. -/
def configure (interval : Nat) (handler : H) (now : Nat) : KeepAlive H :=
  ⟨interval, now, some handler⟩

/-- Whether the schedule has an interval and a handler. -/
def enabled (schedule : KeepAlive H) : Bool :=
  schedule.interval != 0 && schedule.handler.isSome

/-- Whether more than the interval has passed, on a protected connection that is
not waiting for new keys. -/
def due (schedule : KeepAlive H) (now : Nat) (cipherActive rekeyPending : Bool) : Bool :=
  schedule.enabled && cipherActive && !rekeyPending &&
    decide (schedule.lastFired + schedule.interval < now)

/-- Hands out the handler if it is due, and then starts the next interval. -/
def poll (now : Nat) (cipherActive rekeyPending : Bool) (schedule : KeepAlive H) :
    Option H × KeepAlive H :=
  if schedule.due now cipherActive rekeyPending then
    (schedule.handler, { schedule with lastFired := now })
  else (none, schedule)

/-- A description that shows neither the handler nor the time it last ran. -/
def inspect (schedule : KeepAlive H) : String :=
  let handler := if schedule.handler.isSome then "Some(\"<callback>\")" else "None"
  "KeepAliveScheduler \x7b interval: " ++ Text.duration schedule.interval ++
    ", last_fired: _, handler: " ++ handler ++ " \x7d"

end KeepAlive

namespace KeepAlive

/-- A schedule with a counting handler, on a clock that is moved by hand. -/
structure Trial where
  schedule : KeepAlive Unit := disabled 0
  now : Nat := 0
  fired : Nat := 0

/-- One step of a trial. -/
inductive TrialStep where
  | configure (interval : Nat)
  | advance (milliseconds : Nat)
  /-- Polls as if it were the given time, and runs the handler if it is due. -/
  | poll (time : Nat) (cipherActive rekeyPending : Bool)
  | inspect
  deriving DecidableEq, Repr

/-- What a step of a trial answers. -/
inductive TrialAnswer where
  | nothing
  | due (fired : Bool)
  | text (description : String)
  deriving DecidableEq, Repr

/-- Carries out one step of a trial. -/
def Trial.step (trial : Trial) : TrialStep → TrialAnswer × Trial
  | .configure interval =>
      (.nothing, { trial with schedule := configure interval () trial.now })
  | .advance milliseconds => (.nothing, { trial with now := trial.now + milliseconds })
  | .poll time cipherActive rekeyPending =>
      let (handler?, schedule) := trial.schedule.poll time cipherActive rekeyPending
      let fired := if handler?.isSome then trial.fired + 1 else trial.fired
      (.due handler?.isSome, { trial with schedule, fired })
  | .inspect => (.text trial.schedule.inspect, trial)

/-- Carries out steps in order; each answer is paired with the trial after it. -/
def Trial.run (trial : Trial) : List TrialStep → List (TrialAnswer × Trial)
  | [] => []
  | step :: steps =>
      let result := trial.step step
      result :: result.2.run steps

end KeepAlive

/-- The number of filler octets in a keep-alive message. -/
def keepAliveDataLength : Nat := 32

/-- A message that the peer ignores, filled with octets of the given source. -/
def keepAliveMessage (dataLength : Nat) (filler : ByteSource) : Bytes × ByteSource :=
  let (data, filler) := filler.take dataLength
  (MessageType.ignore.code :: (Bytes.bigEndian 4 dataLength ++ data), filler)

end PacketLayer
