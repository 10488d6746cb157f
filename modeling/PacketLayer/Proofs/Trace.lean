import PacketLayer.Endpoint.Operation

/-! # Traces

Between and inside operations, few things happen that bear on requests for new keys and on
keep-alive: the clock moves, the endpoint is closed, a keep-alive schedule is set, a
protection comes into use, a packet is counted, or an attempt to read begins or ends. A
trace lists them in order. Whatever else an endpoint does shows nowhere in its watch.
-/

namespace PacketLayer

variable {C : Type}

/-- Whether an event tells of new keys or of keep-alive. -/
def Event.tells : Event → Bool
  | installed .. | rekeyRequested .. | keepAliveFired _ => true
  | packet .. | dump .. | deferred | failure .. | keepAliveFailed _ => false

/-- What is for a reader of packets or of lines. -/
inductive Reader where
  | packet
  | line
  deriving DecidableEq, Repr

/-- An attempt to read that is under way, with the end that it is going to have. -/
structure Attempt (C : Type) where
  reader : Reader
  /-- How many octets are wanted. -/
  want : Nat
  arrival : Endpoint.Arrival
  /-- What the attempt leaves of the script. -/
  left : ReadScript (Protection C)

/-- Whether an attempt leaves a packet in want of octets that may still come. -/
def Attempt.unfinished (attempt : Attempt C) : Bool :=
  match attempt.reader, attempt.arrival with
  | .packet, .more bytes => decide (bytes.length < attempt.want)
  | .packet, .finished | .packet, .failed _ | .line, _ => false

/-- A run of the keep-alive handler. -/
structure Firing where
  time : Nat
  /-- The interval of the schedule that was due. -/
  interval : Nat
  deriving DecidableEq, Repr

/-- Something that bears on requests for new keys or on keep-alive. -/
inductive Incident (C : Type) where
  | elapsed (time : Nat)
  | closed
  | configured (time interval : Nat) (handler : Handler)
  | installed (direction : Direction) (protection : Protection C)
  /-- A packet is counted, with a number of octets. -/
  | counted (direction : Direction) (bytes : Nat)
  /-- More is to happen on the inbound side of the stream. -/
  | fed (items : ReadScript (Protection C))
  | attempting (reader : Reader) (want limit : Nat)
  /-- An attempt ends, and the handler may run at once. -/
  | attempted (attempt : Attempt C) (firing? : Option Firing)

/-- The run of the handler with which an incident ends. -/
def Incident.firing? : Incident C → Option Firing
  | attempted _ firing? => firing?
  | elapsed _ | closed | configured .. | installed .. | counted .. | fed _ | attempting .. => none

/-- What of an endpoint bears on requests for new keys and on keep-alive. -/
structure Watch (C : Type) where
  now : Nat
  closed : Bool
  isProtected : Bool
  rekey : Rekey.Policy
  signal : Signal
  keepAlive : KeepAlive Handler
  fired : Nat
  reads : ReadScript (Protection C)
  /-- What the journal tells, latest entry first. -/
  told : List Entry

namespace Endpoint

def watch (e : Endpoint C) : Watch C :=
  ⟨e.now, e.closed, e.outbound.isProtected, e.rekey, e.signal, e.keepAlive, e.fired, e.reads,
    e.journal.filter (·.event.tells)⟩

/-- Nothing that bears on new keys or on keep-alive has happened to a new endpoint. -/
theorem watch_make {config : Config} {padding noise : ByteSource} {e : Endpoint C}
    (hmade : make config padding noise = .ok e) :
    e.watch = ⟨0, false, false, { limits := config.rekey }, {}, .disabled 0, 0, [], []⟩ := by
  unfold make at hmade
  split at hmade
  · cases hmade
  · obtain rfl := Except.ok.inj hmade
    rfl

/-- Whether the keep-alive handler is due. -/
def keepAliveDue (e : Endpoint C) : Bool :=
  e.keepAlive.due e.now e.outbound.isProtected e.rekey.pending

/-- Ends an attempt. A reader who is left in want of octets looks after keep-alive, unless
the endpoint is closed. -/
def endAttempt (attempt : Attempt C) (e : Endpoint C) : Endpoint C :=
  if attempt.unfinished && !e.closed then { e with reads := attempt.left }.checkKeepAlive
  else { e with reads := attempt.left }

/-- Whether the handler runs at the end of an attempt. -/
def firesAfter (attempt : Attempt C) (e : Endpoint C) : Bool :=
  attempt.unfinished && !e.closed && e.keepAliveDue

/-- The run of the handler with which an attempt ends. -/
def firingAfter (attempt : Attempt C) (e : Endpoint C) : Option Firing :=
  if e.firesAfter attempt then some ⟨e.now, e.keepAlive.interval⟩ else none

end Endpoint

/-- An endpoint, with the attempt to read that is under way. -/
structure Scene (C : Type) where
  attempt : Option (Attempt C)
  endpoint : Endpoint C

variable [BlockCipher C]

/-- The attempt that begins at an endpoint. Its end is that of the stream's own making. -/
def Endpoint.beginAttempt (reader : Reader) (want limit : Nat) (e : Endpoint C) : Attempt C :=
  match arrive want (e.now + limit) e.reads e with
  | (arrival, left, _) => ⟨reader, want, arrival, left⟩

/-- What an incident makes of a scene. -/
inductive Happens : Scene C → Incident C → Scene C → Prop where
  | elapsed {attempt : Option (Attempt C)} (time : Nat) (e : Endpoint C) :
      Happens ⟨attempt, e⟩ (.elapsed time) ⟨attempt, e.advanceTo time⟩
  | closed {attempt : Option (Attempt C)} (e : Endpoint C) :
      Happens ⟨attempt, e⟩ .closed ⟨attempt, e.close⟩
  | configured {attempt : Option (Attempt C)} (interval : Nat) (handler : Handler)
      (e : Endpoint C) :
      Happens ⟨attempt, e⟩ (.configured e.now interval handler)
        ⟨attempt, e.setKeepAlive interval handler⟩
  | installedOutbound {attempt : Option (Attempt C)} (protection : Protection C)
      (e : Endpoint C) :
      Happens ⟨attempt, e⟩ (.installed .outbound protection)
        ⟨attempt, e.installOutbound protection⟩
  | installedInbound {attempt : Option (Attempt C)} (protection : Protection C)
      (e : Endpoint C) :
      Happens ⟨attempt, e⟩ (.installed .inbound protection)
        ⟨attempt, e.activateInbound protection⟩
  | sent {attempt : Option (Attempt C)} (bytes : Nat) (e : Endpoint C) :
      Happens ⟨attempt, e⟩ (.counted .outbound bytes) ⟨attempt, e.accountSent bytes⟩
  | received {attempt : Option (Attempt C)} (bytes : Nat) (e : Endpoint C) :
      Happens ⟨attempt, e⟩ (.counted .inbound bytes) ⟨attempt, (e.accountReceived bytes).2⟩
  | fed (items : ReadScript (Protection C)) (e : Endpoint C) :
      Happens ⟨none, e⟩ (.fed items) ⟨none, { e with reads := e.reads ++ items }⟩
  | attempting (reader : Reader) (want limit : Nat) (e : Endpoint C) :
      Happens ⟨none, e⟩ (.attempting reader want limit)
        ⟨some (e.beginAttempt reader want limit), e⟩
  | attempted (attempt : Attempt C) (e : Endpoint C) :
      Happens ⟨some attempt, e⟩ (.attempted attempt (e.firingAfter attempt))
        ⟨none, e.endAttempt attempt⟩

/-- Incidents one after another. Beside them an endpoint may do whatever its watch does not
show. -/
inductive Trace : Scene C → List (Incident C) → Scene C → Prop where
  | done (scene : Scene C) : Trace scene [] scene
  | aside {attempt : Option (Attempt C)} {e middle : Endpoint C} {last : Scene C}
      {incidents : List (Incident C)} (hwatch : middle.watch = e.watch)
      (hrest : Trace ⟨attempt, middle⟩ incidents last) : Trace ⟨attempt, e⟩ incidents last
  | step {scene middle last : Scene C} {incident : Incident C} {incidents : List (Incident C)}
      (hhappens : Happens scene incident middle) (hrest : Trace middle incidents last) :
      Trace scene (incident :: incidents) last

namespace Trace

variable {scene middle last : Scene C} {first second : List (Incident C)}

theorem single {incident : Incident C} (hhappens : Happens scene incident last) :
    Trace scene [incident] last :=
  .step hhappens (.done last)

theorem append (hfirst : Trace scene first middle) (hsecond : Trace middle second last) :
    Trace scene (first ++ second) last := by
  induction hfirst with
  | done scene => exact hsecond
  | aside hwatch _ ih => exact .aside hwatch (ih hsecond)
  | step hhappens _ ih => exact .step hhappens (ih hsecond)

theorem of_append (htrace : Trace scene (first ++ second) last) :
    ∃ middle, Trace scene first middle ∧ Trace middle second last := by
  generalize hincidents : first ++ second = incidents at htrace
  induction htrace generalizing first with
  | done scene =>
      obtain ⟨rfl, rfl⟩ := List.append_eq_nil_iff.mp hincidents
      exact ⟨scene, .done scene, .done scene⟩
  | aside hwatch _ ih =>
      obtain ⟨middle, hfirst, hsecond⟩ := ih hincidents
      exact ⟨middle, .aside hwatch hfirst, hsecond⟩
  | step hhappens hrest ih =>
      cases first with
      | nil =>
          obtain rfl := hincidents
          exact ⟨_, .done _, .step hhappens hrest⟩
      | cons incident first =>
          obtain ⟨rfl, hrest⟩ := List.cons.inj hincidents
          obtain ⟨middle, hfirst, hsecond⟩ := ih hrest
          exact ⟨middle, .step hhappens hfirst, hsecond⟩

theorem of_cons {incident : Incident C} {after : List (Incident C)}
    (htrace : Trace scene (incident :: after) last) :
    ∃ here there, Trace scene [] here ∧ Happens here incident there ∧
      Trace there after last := by
  generalize hincidents : incident :: after = incidents at htrace
  induction htrace with
  | done scene => cases hincidents
  | aside hwatch _ ih =>
      obtain ⟨here, there, hbefore, hrest⟩ := ih hincidents
      exact ⟨here, there, .aside hwatch hbefore, hrest⟩
  | step hhappens hrest _ =>
      obtain ⟨rfl, rfl⟩ := List.cons.inj hincidents
      exact ⟨_, _, .done _, hhappens, hrest⟩

/-- Every incident of a trace happened in its place. -/
theorem of_split {before after : List (Incident C)} {incident : Incident C}
    (htrace : Trace scene (before ++ incident :: after) last) :
    ∃ here there, Trace scene before here ∧ Happens here incident there ∧
      Trace there after last := by
  obtain ⟨middle, hbefore, hrest⟩ := htrace.of_append
  obtain ⟨here, there, haside, hhappens, hafter⟩ := hrest.of_cons
  have hhere := hbefore.append haside
  rw [List.append_nil] at hhere
  exact ⟨here, there, hhere, hhappens, hafter⟩

end Trace

end PacketLayer
