import PacketLayer.Proofs.Closing.Reading
import PacketLayer.Proofs.Closing.Writing

/-! # Closing

An endpoint may be closed at any point of a run: between operations, in the middle of an
attempt on the stream, or by a keep-alive handler. Nothing is different up to there. The
operation under way ends as it would have ended anyway or is cut short, and whatever is begun
later is refused.
-/

namespace PacketLayer.Endpoint

variable {C : Type} [BlockCipher C]

/-- How the operations of an open endpoint end, whenever it is closed in the course of them,
beside the same operations on an endpoint that nobody closes. -/
structure InFlight (e : Endpoint C) : Prop where
  /-- No keep-alive message is written beside the read. -/
  read : e.Unaided → ReadScript.Unaided e.reads →
    (start .read e).1 = .ok (.packet none) ∨ (start .read e).1 = (start .read e.spare).1
  /-- Keep-alive messages are written beside the read, and nobody installs a protection
  meanwhile. -/
  readAided : WriteScript.Quiet e.writes →
    (start .read e).1 = .ok (.packet none) ∨ (start .read e).1 = (start .read e.spare).1 ∨
      ∃ packet, Judges e packet ∧ Judges e.spare packet
  delivered : ∀ packet, (start .read e).1 = .ok (.packet (some packet)) → Judges e packet
  /-- The endpoint is open when the write has the outbound lane. -/
  write : ∀ payload, e.awaitOutbound.closed = false →
    (start (.write payload) e).1 = .error .closed ∨
      (start (.write payload) e).1 = (start (.write payload) e.spare).1
  severed : ∀ payload, (start (.write payload) e).1 = .error .closed →
    Severed payload e.awaitOutbound (start (.write payload) e).2
  writeBanner : ∀ text, e.awaitOutbound.closed = false →
    (start (.writeBanner text) e).1 = .error .closed ∨
      (start (.writeBanner text) e).1 = (start (.writeBanner text) e.spare).1
  cutOff : ∀ text, (start (.writeBanner text) e).1 = .error .closed →
    ∃ left, CutOff (Text.Utf8.encode text) left e.awaitOutbound (start (.writeBanner text) e).2

theorem start_read (e : Endpoint C) :
    start .read e = ((Endpoint.read e).1.map .packet, (Endpoint.read e).2) :=
  Act.bind_pure_eq Endpoint.read Reply.packet e

theorem start_write (payload : Bytes) (e : Endpoint C) :
    start (.write payload) e =
      ((Endpoint.write payload e).1.map fun _ => .done, (Endpoint.write payload e).2) :=
  Act.bind_pure_eq (Endpoint.write payload) (fun _ => Reply.done) e

theorem start_writeBanner (text : String) (e : Endpoint C) :
    start (.writeBanner text) e =
      ((Endpoint.writeBanner text e).1.map fun _ => .done, (Endpoint.writeBanner text e).2) :=
  Act.bind_pure_eq (Endpoint.writeBanner text) (fun _ => Reply.done) e

/-- A result is a fault or not, whatever is made of it. -/
theorem map_eq_error_iff {α β : Type} {result : Except Fault α} {f : α → β} {fault : Fault} :
    result.map f = .error fault ↔ result = .error fault := by
  cases result with
  | error _ => simp only [Except.map, Except.error.injEq]
  | ok _ => exact ⟨nofun, nofun⟩

theorem inFlight {e : Endpoint C} (hopen : e.closed = false) : InFlight e where
  read := by
    intro hunaided hscript
    rw [start_read, start_read]
    rcases read_of_company hopen (.alone hunaided) fun _ => hscript with hnone | hsame | ⟨⟨⟩, -⟩
    · exact .inl (congrArg (Except.map Reply.packet) hnone)
    · exact .inr (congrArg (Except.map Reply.packet) hsame)
  readAided := by
    intro hquiet
    rw [start_read, start_read]
    rcases read_of_company hopen (.aided hquiet) nofun with hnone | hsame | ⟨-, hjudged⟩
    · exact .inl (congrArg (Except.map Reply.packet) hnone)
    · exact .inr (.inl (congrArg (Except.map Reply.packet) hsame))
    · exact .inr (.inr hjudged)
  delivered := by
    intro packet hdelivered
    rw [start_read] at hdelivered
    refine judges_of_delivered ?_
    cases hread : (Endpoint.read e).1 with
    | error fault =>
        rw [hread] at hdelivered
        cases hdelivered
    | ok packet? =>
        rw [hread] at hdelivered
        exact congrArg Except.ok (Reply.packet.inj (Except.ok.inj hdelivered))
  write := by
    intro payload hfree
    rw [start_write, start_write, map_eq_error_iff]
    exact (write_of_free payload hfree).imp_right (congrArg (Except.map fun _ => Reply.done))
  severed := by
    intro payload hclosed
    rw [start_write] at hclosed ⊢
    exact write_severed hopen (map_eq_error_iff.mp hclosed)
  writeBanner := by
    intro text hfree
    rw [start_writeBanner, start_writeBanner, map_eq_error_iff]
    exact (writeBanner_of_free text hfree).imp_right (congrArg (Except.map fun _ => Reply.done))
  cutOff := by
    intro text hclosed
    rw [start_writeBanner] at hclosed ⊢
    exact writeBanner_cutOff hopen (map_eq_error_iff.mp hclosed)

/-- An endpoint is closed; it reads nothing and writes nothing, and nothing of it changes. -/
structure Refuses (e : Endpoint C) : Prop where
  closed : e.closed = true
  read : start .read e = (.ok (.packet none), e)
  write : ∀ payload, start (.write payload) e = (.error .closed, e)
  writeBanner : ∀ text, start (.writeBanner text) e = (.error .closed, e)

theorem refuses {e : Endpoint C} (hclosed : e.closed = true) : Refuses e where
  closed := hclosed
  read := by rw [start_read, Endpoint.read, if_pos hclosed]; rfl
  write := fun payload => by rw [start_write, Endpoint.write, if_pos hclosed]; rfl
  writeBanner := fun text => by rw [start_writeBanner, Endpoint.writeBanner, if_pos hclosed]; rfl

/-- Closing an endpoint in a run, at any point, shows in nothing before, cuts short what is
under way at the most, and lasts. -/
structure Closing (operations : List (Operation (Protection C))) (e : Endpoint C) : Prop where
  before : (run operations e).2.closed = false →
    run (operations.map Operation.spare) e.spare =
      ((run operations e).1, (run operations e).2.spare)
  flight : (run operations e).2.closed = false → InFlight (run operations e).2.countOperation
  after : (run operations e).2.closed = true →
    ∀ more, Refuses (run more (run operations e).2).2.countOperation

theorem run_closing (operations : List (Operation (Protection C))) (e : Endpoint C) :
    Closing operations e where
  before := run_spare operations
  flight := fun hopen => inFlight (e := (run operations e).2.countOperation) hopen
  after := fun hclosed more => refuses ((lasts_run more (run operations e).2).closed hclosed)

/-- An endpoint that is closed when the first block of a packet has arrived. -/
def halfwayReader : Endpoint Rehearsal.Cipher :=
  { newEndpoint with
    reads := [.data [0, 0, 0, 12, 10, 1, 0, 0], .act .close, .data [0],
      .data (List.replicate 7 0)] }

theorem run_closing_halfway : Closing [] halfwayReader ∧
    (run [.read] halfwayReader).1 = [.ok (.packet none)] ∧
    (run [.read] halfwayReader.spare).1 = [.ok (.packet (some ⟨[1], 0⟩))] :=
  ⟨run_closing [] halfwayReader, by decide +kernel⟩

/-- An endpoint whose keep-alive message is due in the middle of a read, when it is closed. -/
def accompaniedReader : Endpoint Rehearsal.Cipher :=
  { newEndpoint with
    outbound := ⟨some (maskedProtection 0), {}⟩
    keepAlive := .configure 1 .sendIgnore 0
    reads := [.pause 50, .fail ⟨.wouldBlock, "not yet"⟩, .act .close, .pause 10,
      .data ([0, 0, 0, 12, 10, 1] ++ List.replicate 10 0)] }

/-- The keep-alive message would be counted, and the packet would come too late. -/
def hurriedReader : Endpoint Rehearsal.Cipher :=
  { accompaniedReader with
    config := { rekey := { packets := 1, gracePackets := 1 } }
    valid := (Config.violation?_eq_none_iff _).mp rfl
    rekey := { limits := { packets := 1, gracePackets := 1 } } }

/-- A protection would be installed after an octet of the keep-alive message. -/
def rekeyedReader : Endpoint Rehearsal.Cipher :=
  { accompaniedReader with
    writes := [.accept 1, .act (.installInbound (maskedProtection 0))] }

/-- An endpoint whose keep-alive message is on its way when it is closed, and would meet with a
failure of the stream. -/
def occupiedWriter : Endpoint Rehearsal.Cipher :=
  { accompaniedReader with
    reads := [.pause 50, .fail ⟨.wouldBlock, "not yet"⟩]
    writes := [.pause 10, .act .close, .accept 1, .fail ⟨.brokenPipe, "gone"⟩] }

/-- A keep-alive message that is refused is not counted, and nothing comes in the middle of it.
One that is cut short leaves the failure of the stream to the write behind it. -/
theorem run_accompanied :
    (run [.read] hurriedReader).1 = [.ok (.packet (some ⟨[1], 0⟩))] ∧
      (run [.read] hurriedReader.spare).1 = [.error (.rekeyIgnored 1)] ∧
    (run [.read] rekeyedReader).1 = [.ok (.packet (some ⟨[1], 0⟩))] ∧
      (run [.read] rekeyedReader.spare).1 ≠ (run [.read] rekeyedReader).1 ∧
    (run [.read, .write [1]] occupiedWriter).1 =
        [.ok (.packet none), .error (.stream ⟨.brokenPipe, "gone"⟩)] ∧
      (run [.read, .write [1]] occupiedWriter.spare).1 = [.ok (.packet none), .ok .done] := by
  decide +kernel

end PacketLayer.Endpoint
