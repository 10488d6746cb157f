/-!
# Moments

Much can happen at one time when several endpoints share a clock. A moment tells
the time and the turn that something takes among all that happens then. The
operation under way has the first turn. Messages that were set aside follow in
the order in which their alarms were due and set, and then what these let begin,
round by round. An operation that had to wait for its lane comes last.
-/

namespace PacketLayer

/-- A turn among all that happens at one time; turns are compared number by number. -/
abbrev Turn := List Nat

/-- A time, the number of an operation and a turn; moments are compared number by number. -/
abbrev Moment := List Nat

/-- Whether a moment comes no later than another one. -/
def Moment.noLater : Moment → Moment → Bool
  | [], _ => true
  | _ :: _, [] => false
  | number :: rest, other :: others =>
      if number < other then true
      else if other < number then false
      else noLater rest others

/-- A time at which something is due, with the moment at which that was settled. -/
structure Alarm where
  time : Nat
  since : Moment
  deriving DecidableEq, Repr

/-- Of two alarms the one that is due first, or at the same time the one set first. -/
def Alarm.earlier (first second : Alarm) : Alarm :=
  if first.time < second.time then first
  else if second.time < first.time then second
  else if first.since.noLater second.since then first
  else second

@[simp] theorem Alarm.time_earlier (first second : Alarm) :
    (first.earlier second).time = min first.time second.time := by
  unfold earlier
  split
  · omega
  · split
    · omega
    · split <;> omega

namespace Turn

/-- The operation under way, once the clock has moved. -/
def first : Turn := [0]

/-- A message that an alarm lets go on, in round 0, or one that comes in a later
round because as many messages before it have left the lane. -/
def called (round : Nat) (alarm : Alarm) : Turn := 1 :: round :: 0 :: alarm.time :: alarm.since

/-- A message that has just been asked for: after all that alarms let go on, and
before all that follow these. -/
def asked : Turn := [1, 0, 1]

/-- An operation that has waited for the outbound lane. -/
def admitted : Turn := [2]

end Turn

end PacketLayer
