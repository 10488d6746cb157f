import PacketLayer.Proofs.Lockstep
import PacketLayer.Proofs.Rekey.Steps
import PacketLayer.Proofs.Trace

/-! # The course of an endpoint

Whatever an endpoint does, it does in small deeds: a packet is sealed, the stream accepts
a piece of it, an item is taken off a script, a protection comes into use, a block is
deciphered. Each deed is tied to what it takes: the operation that was asked for, an item of
a script, a message that waits. What all deeds respect, every function of an endpoint
respects, since each takes the endpoint along a course of deeds.
-/

namespace PacketLayer

variable {P C : Type}

/-- What an endpoint is asked to send. -/
inductive Request where
  | message (payload : Bytes)
  | line (text : String)
  deriving DecidableEq

/-- What becomes of a request. It is late if the endpoint was closed before it was begun. -/
structure Answer where
  request : Request
  late : Bool
  result : Except Fault Unit
  deriving DecidableEq

/-- Octets on their way into the stream. -/
structure Dispatch where
  /-- What they were made for; nobody asks for a keep-alive message. -/
  request : Option Request
  /-- What the stream has not accepted. -/
  rest : Bytes
  /-- The length of the frame, which is counted in the end. A line has none. -/
  frameLength : Option Nat

/-- Where a call to an endpoint comes from: the operation that was asked for, or an item of
one of the scripts. -/
inductive Origin where
  | operation
  | reads
  | writes
  deriving DecidableEq

/-- A read under way. -/
structure Intake (C : Type) where
  reader : Reader
  /-- The attempt under way. -/
  attempt : Option (Attempt C) := none
  /-- What has been received since the read began. -/
  received : Bytes := []
  /-- The inbound lane as it was before the packet that has been opened. -/
  packet : Option (Lane C) := none

/-- What an endpoint is about. -/
inductive Phase (C : Type) where
  /-- Nothing is left to do but upkeep. -/
  | free
  /-- An operation was asked for and has not been begun. -/
  | ordered (operation : Operation (Protection C))
  | reading (intake : Intake C)

/-- An endpoint in the middle of what it does. While a script is followed, the endpoint holds
it as it was before, and what is left of it stands beside. -/
structure Stage (C : Type) where
  endpoint : Endpoint C
  phase : Phase C
  reads : ReadScript (Protection C)
  writes : WriteScript (Protection C)
  sending : Option Dispatch

/-- What an endpoint does. -/
inductive Deed (C : Type) where
  /-- An operation is asked for. -/
  | asked (operation : Operation (Protection C))
  /-- A request comes to an endpoint that is closed. -/
  | turnedAway (request : Request)
  /-- A message cannot be framed, signed or enciphered. -/
  | declined (request : Option Request) (payload : Bytes) (fault : Fault)
  | sealed (request : Option Request) (payload frame wire : Bytes)
  /-- A line is about to be sent. -/
  | lined (text : String)
  /-- The stream accepts a piece of what is being sent. -/
  | carried (piece : Bytes)
  /-- The sending of a line or of a frame of some length comes to its end. -/
  | ended (request : Option Request) (frameLength : Option Nat) (result : Except Fault Unit)
  /-- A keep-alive message is set aside. -/
  | heldBack
  /-- A keep-alive message that was set aside is taken up again. -/
  | resumed
  /-- Keep-alive messages that were asked for queue for the outbound lane. -/
  | admitted
  | elapsed (time : Nat)
  /-- The clock is put on at once. -/
  | leapt (milliseconds : Nat)
  /-- An outbound protection is installed. -/
  | rekeyed (origin : Origin) (protection : Protection C)
  /-- Another party acts while a read is under way or while none is. -/
  | acted (origin : Origin) (reader : ReaderState) (action : Action (Protection C))
  /-- The parked protection comes into use. -/
  | activated (protection : Protection C)
  /-- More is to happen on the stream. -/
  | supplied (operation : Operation (Protection C))
  /-- A packet is asked for of an endpoint that is closed. -/
  | unread
  /-- A read of a packet begins. -/
  | reading
  /-- A read of a line begins. -/
  | listening
  | attempting (reader : Reader) (want limit : Nat)
  | received (octets : Bytes)
  /-- An attempt to read ends, and the keep-alive handler may run at once. -/
  | attempted (attempt : Attempt C) (firing? : Option Firing)
  /-- The first block of a packet is deciphered. -/
  | opened (block : Bytes)
  /-- The rest of a frame is deciphered. -/
  | unfolded (body : Bytes)
  /-- A packet that was read on a lane passes every check. -/
  | verified (lane : Lane C) (octets : Bytes) (header : Header) (frame : Bytes)
  /-- A read ends without a packet that passes every check. -/
  | left
  /-- An item of a script is passed that brings nothing. -/
  | passed (script : Origin)
  /-- Something is noted, or another turn is taken. -/
  | aside

/-- What is learned of a deed outside. -/
inductive Tiding where
  | answered (answer : Answer)
  | reading
  /-- The tag of a frame is found right under a number. -/
  | verified (sequence : UInt32) (frame : Bytes)

def Tiding.verified? : Tiding → Option (UInt32 × Bytes)
  | verified sequence frame => some (sequence, frame)
  | answered _ | reading => none

namespace Deed

def tiding : Deed C → Option Tiding
  | turnedAway request => some (.answered ⟨request, true, .error .closed⟩)
  | declined request _ fault =>
      request.map fun request => .answered ⟨request, false, .error fault⟩
  | ended request _ result => request.map fun request => .answered ⟨request, false, result⟩
  | reading => some .reading
  | verified lane _ _ frame => some (.verified lane.sequence.value frame)
  | _ => none

/-- The number and the frame that a deed verifies. -/
def verified? (deed : Deed C) : Option (UInt32 × Bytes) :=
  deed.tiding.bind Tiding.verified?

/-- What a deed means for the rekey policy. -/
def rekeySteps : Deed C → List Rekey.Step
  | ended _ frameLength (.ok ()) => frameLength.toList.map fun length => .sent (UInt64.ofNat length)
  | rekeyed .. => [.outboundInstalled]
  | activated _ | acted _ .idle (.installInbound _) => [.inboundInstalled]
  | verified lane _ header _ => [.received (UInt64.ofNat (header.frameLength + lane.tagSize))]
  | _ => []

/-- The deeds by which octets get into the stream. -/
def Sends : Deed C → Prop
  | carried _ | ended .. | heldBack | resumed | acted .writes .. | passed .writes | aside => True
  | _ => False

/-- The deeds by which keep-alive messages are looked after while time passes. -/
def Tends : Deed C → Prop
  | declined none _ _ | sealed none _ _ _ | admitted | elapsed _ => True
  | deed => deed.Sends

/-- The deeds by which an operation sends something or brings new keys into use. -/
def Writes : Deed C → Prop
  | turnedAway _ | declined .. | sealed .. | lined _ | rekeyed .operation _ => True
  | deed => deed.Tends

/-- The deeds by which a read script is followed. -/
def Follows : Deed C → Prop
  | rekeyed .reads _ | acted .reads .. | received _ | passed .reads => True
  | deed => deed.Tends

/-- The deeds by which a reader waits for octets. -/
def Awaits : Deed C → Prop
  | attempting .. | attempted .. => True
  | deed => deed.Follows

/-- The deeds of a single operation. -/
def Inside : Deed C → Prop
  | asked _ => False
  | _ => True

theorem Sends.tends {deed : Deed C} (hsends : deed.Sends) : deed.Tends := by
  cases deed <;> first | exact hsends | exact False.elim hsends

theorem Tends.writes {deed : Deed C} (htends : deed.Tends) : deed.Writes := by
  cases deed with
  | rekeyed origin => exact False.elim htends
  | _ => first | exact htends | trivial

theorem Tends.follows {deed : Deed C} (htends : deed.Tends) : deed.Follows := by
  cases deed with
  | rekeyed origin => exact False.elim htends
  | acted origin | passed origin => cases origin <;> first | exact htends | exact False.elim htends
  | _ => first | exact htends | exact False.elim htends

theorem Follows.awaits {deed : Deed C} (hfollows : deed.Follows) : deed.Awaits := by
  cases deed <;> first | exact hfollows | trivial

theorem Writes.inside {deed : Deed C} (hwrites : deed.Writes) : deed.Inside := by
  cases deed with
  | asked operation => exact hwrites
  | _ => trivial

theorem Awaits.inside {deed : Deed C} (hawaits : deed.Awaits) : deed.Inside := by
  cases deed with
  | asked operation => exact hawaits
  | _ => trivial

end Deed

/-- A fault that ends the sending of octets: the stream failed, or the endpoint was closed. -/
def Fault.Stops (fault : Fault) : Prop :=
  fault = .closed ∨ ∃ failure, fault = .stream failure

/-- A payload is sealed for a request, or as a keep-alive message if there is none. -/
def Request.Asks : Option Request → Bytes → Prop
  | some (.message payload), sealed => sealed = payload
  | some (.line _), _ => False
  | none, sealed => ∃ filler, sealed = (keepAliveMessage keepAliveDataLength filler).1

namespace Operation

/-- The request that an operation makes. -/
def request? : Operation P → Option Request
  | write payload => some (.message payload)
  | writeBanner text => some (.line text)
  | _ => none

/-- What an operation does as any other party might. -/
def action? : Operation P → Option (Action P)
  | close => some .close
  | installInbound protection => some (.installInbound protection)
  | setKeepAlive interval handler => some (.setKeepAlive interval handler)
  | _ => none

/-- The operations that wait for the outbound lane before they do anything. -/
def Awaits : Operation P → Prop
  | write _ | writeBanner _ | installOutbound _ => True
  | _ => False

end Operation

/-- The items at the front of a read script that bring nothing are passed, or stand for a time
from now on. -/
inductive ReadScript.Skips (now : Nat) : ReadScript P → ReadScript P → Prop where
  | hollow (items : ReadScript P) : Skips now (.data [] :: items) items
  | eof (items : ReadScript P) : Skips now (.eof :: items) items
  | fail (failure : StreamFailure) (items : ReadScript P) : Skips now (.fail failure :: items) items
  | pause (milliseconds : Nat) (items : ReadScript P) :
      Skips now (.pause milliseconds :: items) (.resumeAt (now + milliseconds) :: items)
  | resumeAt {time : Nat} (hpassed : time ≤ now) (items : ReadScript P) :
      Skips now (.resumeAt time :: items) items

/-- The items at the front of a write script that only delay are passed, or stand for an alarm
from now on. -/
inductive WriteScript.Skips (now : Nat) (moment : Moment) :
    WriteScript P → WriteScript P → Prop where
  | fail {failure : StreamFailure} (htransient : failure.kind.isTransient = true)
      (items : WriteScript P) : Skips now moment (.fail failure :: items) items
  | hollow (items : WriteScript P) : Skips now moment (.pause 0 :: items) items
  | pause (milliseconds : Nat) (items : WriteScript P) :
      Skips now moment (.pause milliseconds :: items)
        (.resumeAt ⟨now + milliseconds, moment⟩ :: items)
  | resumeAt {alarm : Alarm} (hpassed : alarm.time ≤ now) (items : WriteScript P) :
      Skips now moment (.resumeAt alarm :: items) items

/-- What a stream accepts of octets by its script: as many as the next item says, or all of
them at the end of the script. -/
inductive WriteScript.Accepts : WriteScript P → Bytes → Bytes → WriteScript P → Prop where
  | part {count : Nat} (hcount : count ≠ 0) (octets : Bytes) (items : WriteScript P) :
      Accepts (.accept count :: items) (octets.take count) (octets.drop count) items
  | all (octets : Bytes) : Accepts [] octets [] []

namespace Endpoint

/-- An endpoint but for what no deed depends on: turns, the number of the operation, notes that
tell nothing of new keys or of keep-alive, and the write script of which what is left stands
beside. -/
def sight (e : Endpoint C) : Endpoint C :=
  { e with
    writes := []
    operation := 0
    turn := .first
    journal := e.journal.filter (·.event.tells) }

/-- A view that shows what deeds depend on, and no more. -/
theorem view_of_sight {γ : Type} (view : Endpoint C → γ) (hview : ∀ e, view e.sight = view e)
    {e next : Endpoint C} (hsight : next.sight = e.sight) : view next = view e := by
  rw [← hview next, hsight, hview e]

/-- The keep-alive message that occupies the outbound lane. -/
def occupying (e : Endpoint C) : Option Dispatch :=
  e.held.map fun message => ⟨none, message.shipment.rest, some message.frameLength⟩

/-- All that can be done for keep-alive messages before a time has been done. -/
structure Settled (time : Nat) (e : Endpoint C) : Prop where
  owed : e.owed = 0
  queued : e.held = none → e.queued = 0
  held : ∀ message, e.held = some message →
    e.now < message.shipment.wake.time ∧ time ≤ message.shipment.wake.time

/-- Counts what was sent whole, if it was a packet. -/
def countSent (frameLength : Option Nat) (e : Endpoint C) : Endpoint C :=
  match frameLength with
  | none => e
  | some length => e.accountSent length

/-- Counting a packet sent concerns the rekey policy, and what is published and noted of it. -/
theorem countSent_eq (frameLength : Option Nat) (e : Endpoint C) :
    ∃ signal journal, e.countSent frameLength =
      { e with
        rekey := e.rekey.after (frameLength.toList.map fun length => .sent (UInt64.ofNat length))
        signal
        journal } := by
  cases frameLength with
  | none => exact ⟨_, _, rfl⟩
  | some length =>
      unfold countSent accountSent
      dsimp only
      split <;> exact ⟨_, _, rfl⟩

/-- Flushing takes an item off its script. -/
theorem flush_eq (e : Endpoint C) : ∃ flushes, (flush e).2 = { e with flushes } := by
  unfold flush
  split <;> exact ⟨_, rfl⟩

/-- An endpoint about something, with its scripts all there. -/
def during (phase : Phase C) (e : Endpoint C) : Stage C :=
  ⟨e, phase, e.reads, e.writes, e.occupying⟩

end Endpoint

namespace Stage

/-- Whether a read is under way. -/
def reader (s : Stage C) : ReaderState :=
  match s.phase with
  | .free | .ordered _ => .idle
  | .reading _ => .busy

/-- Upkeep has its time: the operation waits for the outbound lane or is through, or an attempt
to read is at a pause of the script. -/
def Pausing (now : Nat) (s : Stage C) : Prop :=
  match s.phase with
  | .free => True
  | .ordered operation => operation.Awaits
  | .reading intake =>
      intake.attempt ≠ none ∧ ∃ time items, s.reads = .resumeAt time :: items ∧ now < time

/-- A reader of packets takes up the parked protection here: before it begins, and between
attempts until a packet has been opened. -/
inductive AtBorder (s : Stage C) : Prop where
  | before (hphase : s.phase = .ordered .read) (hopen : s.endpoint.closed = false)
  | waiting {intake : Intake C} (hphase : s.phase = .reading intake)
      (hreader : intake.reader = .packet) (hidle : intake.attempt = none)
      (hpacket : intake.packet = none)

/-- An action is due at a stage, and struck off where it stands. -/
inductive Meets (s : Stage C) : Origin → Action (Protection C) → Stage C → Prop where
  | operation {operation : Operation (Protection C)} {action : Action (Protection C)}
      (hphase : s.phase = .ordered operation) (haction : operation.action? = some action) :
      Meets s .operation action { s with phase := .free }
  | reads {intake : Intake C} {action : Action (Protection C)} {items : ReadScript (Protection C)}
      (hphase : s.phase = .reading intake) (hattempt : intake.attempt ≠ none)
      (hreads : s.reads = .act action :: items) :
      Meets s .reads action { s with reads := items }
  | writes {action : Action (Protection C)} {items : WriteScript (Protection C)}
      (hpausing : s.Pausing s.endpoint.now) (hsending : s.sending ≠ none)
      (hwrites : s.writes = .act action :: items) :
      Meets s .writes action { s with writes := items }

/-- A message is due to be sealed: the one that was asked for, or a keep-alive message that
queues for the outbound lane. -/
inductive Drafts (s : Stage C) : Option Request → Bytes → Stage C → Prop where
  | own {payload : Bytes} (hphase : s.phase = .ordered (.write payload)) :
      Drafts s (some (.message payload)) payload { s with phase := .free }
  | keepAlive {count : Nat} (hpausing : s.Pausing s.endpoint.now)
      (hqueued : s.endpoint.queued = count + 1) :
      Drafts s none (keepAliveMessage keepAliveDataLength s.endpoint.noise).1
        { s with
          endpoint := { s.endpoint with
            queued := count
            noise := (keepAliveMessage keepAliveDataLength s.endpoint.noise).2 } }

/-- What brings the sending of octets to a stop when some are left, or when the stream is to be
flushed. -/
inductive Breaks (s : Stage C) (rest : Bytes) : Fault → Stage C → Prop where
  | closed (hclosed : s.endpoint.closed = true) : Breaks s rest .closed s
  | failed {failure : StreamFailure} {items : WriteScript (Protection C)}
      (hwrites : s.writes = .fail failure :: items)
      (hfinal : ¬failure.kind.isTransient = true) :
      Breaks s rest (.stream failure) { s with writes := items }
  | refused {items : WriteScript (Protection C)} (hwrites : s.writes = .accept 0 :: items) :
      Breaks s rest (.stream ⟨.writeZero, "stream accepted no bytes"⟩)
        { s with
          endpoint := { s.endpoint with accepted := [] :: s.endpoint.accepted }
          writes := items }
  | unflushed {failure : StreamFailure} {flushes : List (FlushItem (Protection C))}
      (hrest : rest = []) (hflushes : s.endpoint.flushes = .fail failure :: flushes) :
      Breaks s rest (.stream failure) { s with endpoint := { s.endpoint with flushes } }

/-- More of a script is supplied. -/
inductive Supplies (s : Stage C) : Operation (Protection C) → Stage C → Prop where
  | reads (items : ReadScript (Protection C)) :
      Supplies s (.feed items)
        { s with
          endpoint := { s.endpoint with reads := s.endpoint.reads ++ items }
          phase := .free
          reads := s.reads ++ items }
  | writes (items : WriteScript (Protection C)) :
      Supplies s (.scriptWrites items)
        { s with phase := .free, writes := s.writes ++ items }
  | flushes (items : List (FlushItem (Protection C))) :
      Supplies s (.scriptFlushes items)
        { s with
          endpoint := { s.endpoint with flushes := s.endpoint.flushes ++ items }
          phase := .free }

end Stage

variable [BlockCipher C]

/-- Why a lane does not seal a payload, and the lane afterwards. -/
inductive Lane.Declines (lane : Lane C) (payload : Bytes) : Fault → Lane C → Prop where
  | tooLong (hlong : maxPacketLength < framedLength payload.length lane.blockSize) :
      Declines lane payload
        (.messageTooLong (framedLength payload.length lane.blockSize) maxPacketLength) lane
  | unsigned {frame : Bytes} {fault : Fault} (hframe : IsFrame payload lane.blockSize frame)
      (hsign : lane.sign frame = .error fault) : Declines lane payload fault lane
  | unciphered {frame tag : Bytes} {fault : Fault} {next : Lane C}
      (hframe : IsFrame payload lane.blockSize frame) (hsign : lane.sign frame = .ok tag)
      (hencipher : lane.apply frame = (.error fault, next)) : Declines lane payload fault next

theorem Lane.Declines.sequence_eq {lane next : Lane C} {payload : Bytes} {fault : Fault}
    (hdeclines : lane.Declines payload fault next) : next.sequence = lane.sequence := by
  cases hdeclines with
  | tooLong | unsigned => rfl
  | unciphered _ _ hencipher => exact (Lane.apply_eq hencipher).2.2.1

/-- What a deed requires of a stage, and what it makes of it. -/
inductive Does : Stage C → Deed C → Stage C → Prop where
  | asked {s : Stage C} (operation : Operation (Protection C)) (hphase : s.phase = .free) :
      Does s (.asked operation) { s with phase := .ordered operation }
  | turnedAway {s : Stage C} {operation : Operation (Protection C)} {request : Request}
      (hphase : s.phase = .ordered operation) (hrequest : operation.request? = some request)
      (hclosed : s.endpoint.closed = true)
      (hown : ∀ dispatch, s.sending = some dispatch → dispatch.request = none) :
      Does s (.turnedAway request) { s with phase := .free }
  | declined {s drafted : Stage C} {request : Option Request} {payload : Bytes} {fault : Fault}
      {lane : Lane C} (hfree : s.sending = none) (hdrafts : s.Drafts request payload drafted)
      (hdeclines : s.endpoint.outbound.Declines payload fault lane) :
      Does s (.declined request payload fault)
        { drafted with
          endpoint := { drafted.endpoint with
            outbound := lane
            padding := (frame payload s.endpoint.outbound.blockSize s.endpoint.padding).2 } }
  | sealed {s drafted : Stage C} {request : Option Request} {payload plain wire : Bytes}
      {lane : Lane C} (hfree : s.sending = none) (hdrafts : s.Drafts request payload drafted)
      (hframe : (frame payload s.endpoint.outbound.blockSize s.endpoint.padding).1 = .ok plain)
      (hseals : s.endpoint.outbound.Seals plain wire lane) :
      Does s (.sealed request payload plain wire)
        { drafted with
          endpoint := { drafted.endpoint with
            outbound := lane
            padding := (frame payload s.endpoint.outbound.blockSize s.endpoint.padding).2 }
          sending := some ⟨request, wire, some plain.length⟩ }
  | lined {s : Stage C} {text : String} (hphase : s.phase = .ordered (.writeBanner text))
      (hfree : s.sending = none) :
      Does s (.lined text)
        { s with
          phase := .free
          sending := some ⟨some (.line text), Text.Utf8.encode text, none⟩ }
  | carried {s : Stage C} {request : Option Request} {piece rest : Bytes}
      {frameLength : Option Nat} {writes : WriteScript (Protection C)}
      (hpausing : s.Pausing s.endpoint.now)
      (hsending : s.sending = some ⟨request, piece ++ rest, frameLength⟩)
      (haccepts : s.writes.Accepts piece rest writes) :
      Does s (.carried piece)
        { s with
          endpoint := { s.endpoint with accepted := piece :: s.endpoint.accepted }
          writes
          sending := some ⟨request, rest, frameLength⟩ }
  | completed {s : Stage C} {request : Option Request} {frameLength : Option Nat}
      (hpausing : s.Pausing s.endpoint.now)
      (hsending : s.sending = some ⟨request, [], frameLength⟩)
      (hflush : (Endpoint.flush s.endpoint).1 = .ok ()) :
      Does s (.ended request frameLength (.ok ()))
        { s with
          endpoint := (Endpoint.flush s.endpoint).2.countSent frameLength
          sending := none }
  | stopped {s broken : Stage C} {request : Option Request} {rest : Bytes}
      {frameLength : Option Nat} {fault : Fault} (hpausing : s.Pausing s.endpoint.now)
      (hsending : s.sending = some ⟨request, rest, frameLength⟩)
      (hbreaks : s.Breaks rest fault broken) :
      Does s (.ended request frameLength (.error fault)) { broken with sending := none }
  | heldBack {s : Stage C} {shipment : Shipment} {frameLength : Nat} {pause : Alarm}
      {items : WriteScript (Protection C)} (hpausing : s.Pausing s.endpoint.now)
      (hsending : s.sending = some ⟨none, shipment.rest, some frameLength⟩)
      (hwrites : s.writes = .resumeAt pause :: items)
      (hlater : s.endpoint.now < shipment.wake.time) (hready : shipment.wake.time ≤ pause.time) :
      Does s .heldBack
        { s with endpoint := { s.endpoint with held := some ⟨shipment, frameLength⟩ } }
  | resumed {s : Stage C} {message : HeldMessage} (hpausing : s.Pausing s.endpoint.now)
      (hheld : s.endpoint.held = some message) :
      Does s .resumed { s with endpoint := { s.endpoint with held := none } }
  | admitted {s : Stage C} (hpausing : s.Pausing s.endpoint.now) (howed : s.endpoint.owed ≠ 0) :
      Does s .admitted { s with endpoint := s.endpoint.admitKeepAlives }
  | waited {s : Stage C} {time : Nat} (hpausing : s.Pausing s.endpoint.now)
      (hsettled : s.endpoint.Settled time) :
      Does s (.elapsed time) { s with endpoint := s.endpoint.advanceTo time }
  | stalled {s : Stage C} {request : Request} {rest : Bytes} {frameLength : Option Nat}
      {time : Nat} {pause : Alarm} {items : WriteScript (Protection C)}
      (hsending : s.sending = some ⟨some request, rest, frameLength⟩)
      (hwrites : s.writes = .resumeAt pause :: items) (hready : time ≤ pause.time) :
      Does s (.elapsed time) { s with endpoint := s.endpoint.advanceTo time }
  | leapt {s : Stage C} {milliseconds : Nat} (hphase : s.phase = .ordered (.advance milliseconds)) :
      Does s (.leapt milliseconds)
        { s with
          endpoint := s.endpoint.advanceTo (s.endpoint.now + milliseconds)
          phase := .free }
  | replaced {s : Stage C} {protection : Protection C}
      (hphase : s.phase = .ordered (.installOutbound protection)) (hfree : s.sending = none) :
      Does s (.rekeyed .operation protection)
        { s with endpoint := s.endpoint.installOutbound protection, phase := .free }
  | rekeyed {s : Stage C} {intake : Intake C} {protection : Protection C}
      {items : ReadScript (Protection C)} (hphase : s.phase = .reading intake)
      (hattempt : intake.attempt ≠ none) (hreads : s.reads = .installOutbound protection :: items) :
      Does s (.rekeyed .reads protection)
        { s with endpoint := s.endpoint.installOutbound protection, reads := items }
  | acted {s struck : Stage C} {origin : Origin} {action : Action (Protection C)}
      (hmeets : s.Meets origin action struck) :
      Does s (.acted origin s.reader action)
        { struck with endpoint := s.endpoint.act s.reader action }
  | activated {s : Stage C} {protection : Protection C} (hborder : s.AtBorder)
      (hparked : s.endpoint.parked = some protection) :
      Does s (.activated protection) { s with endpoint := s.endpoint.activateParked }
  | supplied {s next : Stage C} {operation : Operation (Protection C)}
      (hphase : s.phase = .ordered operation) (hsupplies : s.Supplies operation next) :
      Does s (.supplied operation) next
  | unread {s : Stage C} (hphase : s.phase = .ordered .read)
      (hclosed : s.endpoint.closed = true) : Does s .unread { s with phase := .free }
  | reading {s : Stage C} (hphase : s.phase = .ordered .read)
      (hopen : s.endpoint.closed = false) (hparked : s.endpoint.parked = none) :
      Does s .reading { s with phase := .reading { reader := .packet } }
  | listening {s : Stage C} {milliseconds : Nat}
      (hphase : s.phase = .ordered (.readBanner milliseconds)) :
      Does s .listening { s with phase := .reading { reader := .line } }
  | attempting {s : Stage C} {intake : Intake C} (want limit : Nat)
      (hphase : s.phase = .reading intake) (hidle : intake.attempt = none)
      (hborder : intake.reader = .packet → intake.packet = none → s.endpoint.parked = none) :
      Does s (.attempting intake.reader want limit)
        { s with
          phase := .reading { intake with
            attempt := some (s.endpoint.beginAttempt intake.reader want limit) } }
  | received {s : Stage C} {intake : Intake C} {attempt : Attempt C} {bytes : Bytes}
      {items : ReadScript (Protection C)} (hphase : s.phase = .reading intake)
      (hattempt : intake.attempt = some attempt) (hbytes : bytes ≠ [])
      (hreads : s.reads = .data bytes :: items) :
      Does s (.received (bytes.take attempt.want))
        { s with
          phase := .reading { intake with
            received := intake.received ++ bytes.take attempt.want }
          reads := Endpoint.leftOver attempt.want bytes items }
  | attempted {s : Stage C} {intake : Intake C} {attempt : Attempt C}
      (hphase : s.phase = .reading intake) (hattempt : intake.attempt = some attempt)
      (hleft : attempt.left = s.reads) :
      Does s (.attempted attempt (s.endpoint.firingAfter attempt))
        { s with
          endpoint := s.endpoint.endAttempt attempt
          phase := .reading { intake with attempt := none } }
  | opened {s : Stage C} {intake : Intake C} (hphase : s.phase = .reading intake)
      (hreader : intake.reader = .packet) (hidle : intake.attempt = none)
      (hpacket : intake.packet = none) (hparked : s.endpoint.parked = none)
      (henough : s.endpoint.inbound.blockSize ≤ intake.received.length) :
      Does s (.opened (intake.received.take s.endpoint.inbound.blockSize))
        { s with
          endpoint := { s.endpoint with
            inbound := (s.endpoint.inbound.apply
              (intake.received.take s.endpoint.inbound.blockSize)).2 }
          phase := .reading { intake with packet := some s.endpoint.inbound } }
  | unfolded {s : Stage C} {intake : Intake C} {lane : Lane C}
      (hphase : s.phase = .reading intake) (hidle : intake.attempt = none)
      (hpacket : intake.packet = some lane) :
      Does s (.unfolded (intake.received.drop lane.blockSize))
        { s with
          endpoint := { s.endpoint with
            inbound := (s.endpoint.inbound.apply (intake.received.drop lane.blockSize)).2 } }
  | verified {s : Stage C} {intake : Intake C} {lane : Lane C} {header : Header} {plain : Bytes}
      (hphase : s.phase = .reading intake) (hidle : intake.attempt = none)
      (hpacket : intake.packet = some lane)
      (hgenuine : lane.Genuine intake.received header plain s.endpoint.inbound)
      (hwhole : intake.received.length = header.frameLength + lane.tagSize) :
      Does s (.verified lane intake.received header plain)
        { s with
          endpoint := (s.endpoint.advanceInbound.accountReceived
            (header.frameLength + lane.tagSize)).2
          phase := .free }
  | left {s : Stage C} {intake : Intake C} (hphase : s.phase = .reading intake)
      (hidle : intake.attempt = none) : Does s .left { s with phase := .free }
  | passedRead {s : Stage C} {intake : Intake C} {reads : ReadScript (Protection C)}
      (hphase : s.phase = .reading intake) (hattempt : intake.attempt ≠ none)
      (hskips : s.reads.Skips s.endpoint.now reads) : Does s (.passed .reads) { s with reads }
  | passedWrite {s : Stage C} {writes : WriteScript (Protection C)}
      (hpausing : s.Pausing s.endpoint.now) (hsending : s.sending ≠ none)
      (hskips : s.writes.Skips s.endpoint.now s.endpoint.moment writes) :
      Does s (.passed .writes) { s with writes }
  | aside {s : Stage C} {e : Endpoint C} (hsight : e.sight = s.endpoint.sight) :
      Does s .aside { s with endpoint := e }

/-- Deeds one after another. -/
inductive Course : Stage C → List (Deed C) → Stage C → Prop where
  | done (s : Stage C) : Course s [] s
  | step {s middle next : Stage C} {deed : Deed C} {deeds : List (Deed C)}
      (hdoes : Does s deed middle) (hrest : Course middle deeds next) :
      Course s (deed :: deeds) next

namespace Course

variable {s middle next : Stage C} {first second deeds : List (Deed C)}

theorem single {deed : Deed C} (hdoes : Does s deed next) : Course s [deed] next :=
  .step hdoes (.done next)

theorem append (hfirst : Course s first middle) (hsecond : Course middle second next) :
    Course s (first ++ second) next := by
  induction hfirst with
  | done s => exact hsecond
  | step hdoes _ ih => exact .step hdoes (ih hsecond)

theorem of_append (hcourse : Course s (first ++ second) next) :
    ∃ middle, Course s first middle ∧ Course middle second next := by
  induction first generalizing s with
  | nil => exact ⟨s, .done s, hcourse⟩
  | cons deed first ih =>
      obtain - | ⟨hdoes, hrest⟩ := hcourse
      obtain ⟨middle, hfirst, hsecond⟩ := ih hrest
      exact ⟨middle, .step hdoes hfirst, hsecond⟩

/-- Every deed of a course was done in its place. -/
theorem of_mem_split {before after : List (Deed C)} {deed : Deed C}
    (hcourse : Course s (before ++ deed :: after) next) :
    ∃ here there, Course s before here ∧ Does here deed there ∧ Course there after next := by
  obtain ⟨here, hbefore, hrest⟩ := hcourse.of_append
  obtain - | ⟨hdoes, hafter⟩ := hrest
  exact ⟨here, _, hbefore, hdoes, hafter⟩

/-- What the deeds of a course respect, one by one, the course respects. -/
theorem relates {R : Stage C → Stage C → Prop} (hrefl : ∀ s, R s s)
    (htrans : ∀ {s middle next}, R s middle → R middle next → R s next)
    (hcourse : Course s deeds next)
    (hdeeds : ∀ deed ∈ deeds, ∀ {here there}, Does here deed there → R here there) : R s next := by
  induction hcourse with
  | done s => exact hrefl s
  | step hdoes _ ih =>
      obtain ⟨hfirst, hrest⟩ := List.forall_mem_cons.mp hdeeds
      exact htrans (hfirst hdoes) (ih hrest)

end Course

/-- A stage passes into another one by deeds of one sort, and these tidings of it come to the
outside. -/
def Passes (sort : Deed C → Prop) (s : Stage C) (tidings : List Tiding) (next : Stage C) : Prop :=
  ∃ deeds, Course s deeds next ∧ deeds.filterMap Deed.tiding = tidings ∧ ∀ deed ∈ deeds, sort deed

namespace Passes

variable {sort : Deed C → Prop} {s middle next : Stage C}

theorem refl (s : Stage C) : Passes sort s [] s :=
  ⟨[], .done s, rfl, by simp⟩

theorem of_does {deed : Deed C} (hdoes : Does s deed next) (hsort : sort deed) :
    Passes sort s deed.tiding.toList next := by
  refine ⟨[deed], .single hdoes, ?_, by simpa using hsort⟩
  cases htiding : deed.tiding <;> simp [htiding]

theorem append {first second : List Tiding} (hfirst : Passes sort s first middle)
    (hsecond : Passes sort middle second next) : Passes sort s (first ++ second) next := by
  obtain ⟨deeds, hcourse, rfl, hdeeds⟩ := hfirst
  obtain ⟨more, hmore, rfl, hothers⟩ := hsecond
  refine ⟨deeds ++ more, hcourse.append hmore, List.filterMap_append, ?_⟩
  intro deed hmem
  exact (List.mem_append.mp hmem).elim (hdeeds deed) (hothers deed)

theorem trans {tidings : List Tiding} (hfirst : Passes sort s [] middle)
    (hsecond : Passes sort middle tidings next) : Passes sort s tidings next :=
  hfirst.append hsecond

theorem mono {other : Deed C → Prop} {tidings : List Tiding} (hpasses : Passes sort s tidings next)
    (hsorts : ∀ {deed}, sort deed → other deed) : Passes other s tidings next := by
  obtain ⟨deeds, hcourse, htidings, hdeeds⟩ := hpasses
  exact ⟨deeds, hcourse, htidings, fun deed hmem => hsorts (hdeeds deed hmem)⟩

/-- What is noted, and which turn is taken, makes no difference. -/
theorem aside {tidings : List Tiding} {e : Endpoint C} (haside : sort .aside)
    (hpasses : Passes sort s tidings next) (hsight : e.sight = next.endpoint.sight) :
    Passes sort s tidings { next with endpoint := e } := by
  have hlast := hpasses.append (.of_does (.aside hsight) haside)
  rwa [show (Deed.aside : Deed C).tiding.toList = [] from rfl, List.append_nil] at hlast

theorem relates {R : Stage C → Stage C → Prop} {tidings : List Tiding} (hrefl : ∀ s, R s s)
    (htrans : ∀ {s middle next}, R s middle → R middle next → R s next)
    (hpasses : Passes sort s tidings next)
    (hdeeds : ∀ {deed here there}, sort deed → Does here deed there → R here there) : R s next := by
  obtain ⟨deeds, hcourse, -, hsort⟩ := hpasses
  exact hcourse.relates hrefl htrans fun deed hmem => hdeeds (hsort deed hmem)

end Passes

end PacketLayer
