import PacketLayer.Endpoint.Operation
import PacketLayer.Rehearsal.StandIn

/-!
# Sessions

A session rehearses several endpoints on one clock. Each step acts on one
endpoint or carries what another has written over to it, and is answered with
everything that can be observed of that endpoint. Meanwhile the others keep up
with the clock, and their keep-alive messages go on.
-/

namespace PacketLayer.Rehearsal

/-- The setting of one endpoint. -/
structure Setting where
  config : Config := {}
  padding : Bytes := []
  reads : ReadScript ProtectionSpec := []
  writes : WriteScript ProtectionSpec := []
  flushes : List (FlushItem ProtectionSpec) := []

/-- One endpoint of a session. -/
structure Party where
  endpoint : Endpoint Cipher
  /-- Whether the endpoint has been taken apart. -/
  parted : Bool := false
  /-- What has been written and not been carried over, latest piece first. -/
  unpiped : List Bytes := []
  /-- What has been written since the last answer, latest piece first. -/
  unanswered : List Bytes := []
  /-- The version of the signal that was last seen. -/
  seen : Nat := 0

/-- What part of the octets carried over becomes of each element of a plan. -/
inductive PlanItem where
  /-- The next octets arrive together. -/
  | take (count : Nat)
  /-- The next octets are lost. -/
  | skip (count : Nat)
  | item (item : ReadItem ProtectionSpec)

/-- A step of a session. -/
inductive Request where
  | operation (operation : Operation ProtectionSpec)
  /-- Carries over what another endpoint has written: some octets are masked, and
  the rest follows the plan, or arrives together without one. -/
  | pipe (source : String) (masks : List (Nat × UInt8)) (plan : Option (List PlanItem))
  | inspect
  /-- Takes the endpoint apart. -/
  | part

/-- What a step comes to. -/
inductive Outcome where
  | reply (reply : Reply)
  | piped (count : Nat)
  | inspected (text : String) (pollInterval : Nat)
  | parts
  /-- The endpoint had been taken apart before. -/
  | consumed
  | fault (fault : Fault)
  deriving DecidableEq, Repr

/-- What can be seen of an endpoint that has not been taken apart. -/
structure Status where
  closed : Bool
  needRekey : Bool
  /-- Whether the signal has changed since the last answer. -/
  notified : Bool
  signal : Bool
  deriving DecidableEq, Repr

/-- Everything that can be observed after a step. -/
structure Answer where
  outcome : Outcome
  time : Nat
  /-- The octets that are still to arrive. -/
  unread : Nat
  /-- The octets written since the last answer. -/
  written : Bytes
  fired : Nat
  status : Option Status
  entries : List Entry
  deriving DecidableEq, Repr

/-- Endpoints by name. Between two steps their clocks agree, and so do their counts
of operations. -/
structure Session where
  parties : List (String × Party) := []

namespace Setting

/-- Makes an endpoint. Its scripts are made first, so their fault is the one
reported when the configuration is at fault as well. -/
def build (setting : Setting) : Except Fault Party := do
  let reads ← setting.reads.mapM (ReadItem.build ProtectionSpec.build)
  let writes ← setting.writes.mapM (WriteItem.build ProtectionSpec.build)
  let flushes ← setting.flushes.mapM (FlushItem.build ProtectionSpec.build)
  let endpoint ← Endpoint.make setting.config (.cycling setting.padding) .zeros
  return { endpoint := { endpoint with reads, writes, flushes } }

end Setting

/-- Masks the octets at the given places; places beyond the end are passed over. -/
def mask (masks : List (Nat × UInt8)) (bytes : Bytes) : Bytes :=
  masks.foldl (fun bytes (place, byte) => bytes.modify place (· ^^^ byte)) bytes

/-- The script that a plan makes of octets. -/
def follow (bytes : Bytes) : List PlanItem → ReadScript ProtectionSpec
  | [] => []
  | .take count :: plan =>
      match bytes.take count with
      | [] => follow (bytes.drop count) plan
      | byte :: rest => .data (byte :: rest) :: follow (bytes.drop count) plan
  | .skip count :: plan => follow (bytes.drop count) plan
  | .item item :: plan => item :: follow bytes plan

/-- The script that an optional plan makes of octets. -/
def arrange (bytes : Bytes) : Option (List PlanItem) → ReadScript ProtectionSpec
  | none => follow bytes [.take bytes.length]
  | some plan => follow bytes plan

namespace Party

/-- Carries out an operation, once the protections in it have been made. -/
def operate (operation : Operation ProtectionSpec) (party : Party) : Outcome × Party :=
  match operation.build ProtectionSpec.build with
  | .error fault => (.fault fault, party)
  | .ok operation =>
      match Endpoint.perform operation party.endpoint with
      | (.ok reply, endpoint) => (.reply reply, { party with endpoint })
      | (.error fault, endpoint) => (.fault fault, { party with endpoint })

/-- Lets octets arrive that another endpoint has written. -/
def receive (bytes : Bytes) (masks : List (Nat × UInt8)) (plan : Option (List PlanItem))
    (party : Party) : Outcome × Party :=
  match party.operate (.feed (arrange (mask masks bytes) plan)) with
  | (.reply _, party) => (.piped bytes.length, party)
  | other => other

/-- Brings an endpoint up to the time and the operation that another one has come to:
at once if the operation was a leap, and otherwise through all that was due meanwhile. -/
def keepUp (leap : Bool) (time operation : Nat) (party : Party) : Party :=
  let endpoint := { party.endpoint with operation }
  let endpoint := if leap then endpoint.leapTo time else endpoint.passTo time
  { party with
    endpoint := { endpoint with accepted := [] }
    unpiped := endpoint.accepted ++ party.unpiped
    unanswered := endpoint.accepted ++ party.unanswered }

/-- Everything that can be observed of an endpoint, with the entries of all. -/
def observe (outcome : Outcome) (entries : List Entry) (party : Party) : Answer :=
  let e := party.endpoint
  let status : Status := {
    closed := e.closed
    needRekey := e.rekey.pending
    notified := e.signal.version != party.seen
    signal := e.signal.value }
  { outcome
    time := e.now
    unread := ReadScript.unread e.reads
    written := party.unanswered.reverse.flatten
    fired := e.fired
    status := if party.parted then none else some status
    entries }

/-- Forgets what has been noted, and after an answer about this endpoint what it
showed. -/
def forget (shown : Bool) (party : Party) : Party :=
  let party := { party with endpoint := { party.endpoint with journal := [] } }
  if shown then { party with unanswered := [], seen := party.endpoint.signal.version }
  else party

end Party

namespace Session

/-- Makes a session. The endpoints are made in the order of their names, so the
first name that is at fault determines the fault. -/
def build (settings : List (String × Setting)) : Except Fault Session := do
  let ordered := settings.mergeSort fun a b => a.1 ≤ b.1
  let parties ← ordered.mapM fun (name, setting) => return (name, ← setting.build)
  return { parties }

/-- The endpoint with a name. -/
def find? (name : String) (session : Session) : Option Party :=
  session.parties.lookup name

/-- Does the same to every endpoint, depending on its name. -/
def map (f : String → Party → Party) (session : Session) : Session :=
  { session with parties := session.parties.map fun (name, party) => (name, f name party) }

/-- Replaces the endpoint with a name. -/
def replace (name : String) (party : Party) : Session → Session :=
  map fun other old => if other == name then party else old

/-- Takes what an endpoint has written and nobody has carried over. -/
def collect (source : String) (session : Session) : Bytes × Session :=
  match session.find? source with
  | none => ([], session)
  | some party =>
      (party.unpiped.reverse.flatten, session.replace source { party with unpiped := [] })

/-- What has been noted at any endpoint, in the order of the moments. -/
def entries (session : Session) : List Entry :=
  let all := session.parties.flatMap (·.2.endpoint.entries)
  all.mergeSort fun a b => a.moment.noLater b.moment

/-- Does something to the endpoint with a name, lets the others keep up, and answers
with what can be observed then. There is no answer if there is no such endpoint,
and an endpoint that was taken apart only says so. -/
def visit (name : String) (leap : Bool) (deed : Party → Outcome × Party) (session : Session) :
    Option Answer × Session :=
  match session.find? name with
  | none => (none, session)
  | some party =>
      let (outcome, party) := if party.parted then (.consumed, party) else deed party
      let e := party.endpoint
      let session := (session.replace name party).map fun _ => Party.keepUp leap e.now e.operation
      let answer := (session.find? name).map (·.observe outcome session.entries)
      (answer, session.map fun other => Party.forget (other == name))

/-- Carries out a step on the endpoint with a name. -/
def step (name : String) (request : Request) (session : Session) : Option Answer × Session :=
  match request with
  | .operation operation => session.visit name operation.isLeap (·.operate operation)
  | .inspect => session.visit name false fun party =>
      (.inspected party.endpoint.inspect party.endpoint.config.pollInterval, party)
  | .part => session.visit name false fun party => (.parts, { party with parted := true })
  | .pipe source masks plan =>
      let (bytes, session) := session.collect source
      session.visit name false (·.receive bytes masks plan)

/-- Carries out steps in order. -/
def run : List (String × Request) → Session → List (Option Answer)
  | [], _ => []
  | (name, request) :: requests, session =>
      let (answer, session) := session.step name request
      answer :: run requests session

end Session

end PacketLayer.Rehearsal
