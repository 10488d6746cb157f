import Mathlib.Data.List.Forall2
import PacketLayer.Endpoint.Operation
import PacketLayer.Proofs.Verification

/-! # Endpoints that differ in marks only

Alarms and entries are marked with the number of the operation and the turn in which they were
set or noted. The marks put in order what happens at one time at several endpoints. Twins are
endpoints that differ in nothing else.
-/

namespace PacketLayer

variable {P C : Type}

/-- An item that does the same, with an alarm for the same time. -/
inductive WriteItem.Twins : WriteItem P → WriteItem P → Prop where
  | accept (count : Nat) : Twins (.accept count) (.accept count)
  | fail (failure : StreamFailure) : Twins (.fail failure) (.fail failure)
  | pause (milliseconds : Nat) : Twins (.pause milliseconds) (.pause milliseconds)
  | resumeAt {alarm other : Alarm} (htime : alarm.time = other.time) :
      Twins (.resumeAt alarm) (.resumeAt other)
  | act (action : Action P) : Twins (.act action) (.act action)

theorem WriteItem.Twins.refl (item : WriteItem P) : item.Twins item := by
  cases item with
  | accept count => exact .accept count
  | fail failure => exact .fail failure
  | pause milliseconds => exact .pause milliseconds
  | resumeAt alarm => exact .resumeAt rfl
  | act action => exact .act action

/-- Scripts that do the same, with alarms for the same times. -/
abbrev WriteScript.Twins (script other : WriteScript P) : Prop :=
  List.Forall₂ WriteItem.Twins script other

theorem WriteScript.Twins.refl (script : WriteScript P) : script.Twins script :=
  List.forall₂_same.mpr fun item _ => .refl item

/-- The same octets on their way, with alarms for the same times. -/
structure Shipment.Twins (shipment other : Shipment) : Prop where
  rest_eq : shipment.rest = other.rest
  attempt_eq : shipment.attempt.time = other.attempt.time
  wake_eq : shipment.wake.time = other.wake.time

structure HeldMessage.Twins (message other : HeldMessage) : Prop where
  shipment : message.shipment.Twins other.shipment
  frameLength_eq : message.frameLength = other.frameLength

/-- The same event at the same time. -/
structure Entry.Twins (entry other : Entry) : Prop where
  event_eq : entry.event = other.event
  time_eq : entry.moment.head? = other.moment.head?

namespace Endpoint

/-- The parts of an endpoint in which there are marks. -/
structure Marks (C : Type) where
  operation : Nat
  turn : Turn
  held : Option HeldMessage
  writes : WriteScript (Protection C)
  journal : List Entry

def marks (e : Endpoint C) : Marks C :=
  ⟨e.operation, e.turn, e.held, e.writes, e.journal⟩

/-- The endpoint with other marks. -/
def withMarks (marks : Marks C) (e : Endpoint C) : Endpoint C :=
  { e with
    operation := marks.operation
    turn := marks.turn
    held := marks.held
    writes := marks.writes
    journal := marks.journal }

/-- The same messages, scripts and events, at the same times. -/
structure Marks.Twins (marks other : Marks C) : Prop where
  held : Option.Rel HeldMessage.Twins marks.held other.held
  writes : marks.writes.Twins other.writes
  journal : List.Forall₂ Entry.Twins marks.journal other.journal

/-- Endpoints that differ in marks only. -/
inductive Twins (e : Endpoint C) : Endpoint C → Prop where
  | intro (marks : Marks C) (hmarks : e.marks.Twins marks) : Twins e (e.withMarks marks)

variable {e other : Endpoint C}

namespace Twins

theorem refl (e : Endpoint C) : Twins e e := by
  refine .intro e.marks ⟨?_, .refl e.writes, List.forall₂_same.mpr fun entry _ => ⟨rfl, rfl⟩⟩
  cases e.marks.held with
  | none => exact .none
  | some message => exact .some ⟨⟨rfl, rfl, rfl⟩, rfl⟩

theorem marks (htwins : Twins e other) : e.marks.Twins other.marks := by
  obtain ⟨marks, hmarks⟩ := htwins
  exact hmarks

/-- Who does not look at marks sees no difference. -/
theorem seen_eq {α : Type} (htwins : Twins e other) (seen : Endpoint C → α)
    (hseen : ∀ marks e, seen (withMarks marks e) = seen e) : seen e = seen other := by
  obtain ⟨marks, -⟩ := htwins
  exact (hseen marks e).symm

theorem now_eq (htwins : Twins e other) : e.now = other.now :=
  htwins.seen_eq now fun _ _ => rfl

theorem closed_eq (htwins : Twins e other) : e.closed = other.closed :=
  htwins.seen_eq closed fun _ _ => rfl

theorem config_eq (htwins : Twins e other) : e.config = other.config :=
  htwins.seen_eq config fun _ _ => rfl

/-- A change that neither looks at marks nor makes any. -/
theorem change (htwins : Twins e other) (change : Endpoint C → Endpoint C)
    (hcommutes : ∀ marks e, change (withMarks marks e) = withMarks marks (change e)) :
    Twins (change e) (change other) := by
  obtain ⟨marks, hmarks⟩ := htwins
  have hsame : change e = withMarks e.marks (change e) := hcommutes e.marks e
  rw [hcommutes]
  refine .intro marks ?_
  rw [hsame]
  exact hmarks

theorem turned (htwins : Twins e other) (turn turnOther : Turn) :
    Twins { e with turn } { other with turn := turnOther } := by
  obtain ⟨marks, ⟨hheld, hwrites, hjournal⟩⟩ := htwins
  exact .intro { marks with turn := turnOther } ⟨hheld, hwrites, hjournal⟩

theorem countOperation (htwins : Twins e other) :
    Twins e.countOperation other.countOperation := by
  obtain ⟨marks, ⟨hheld, hwrites, hjournal⟩⟩ := htwins
  exact .intro { marks with operation := marks.operation + 1, turn := .first }
    ⟨hheld, hwrites, hjournal⟩

theorem countOperation_left (htwins : Twins e other) : Twins e.countOperation other := by
  obtain ⟨marks, ⟨hheld, hwrites, hjournal⟩⟩ := htwins
  exact .intro (e := e.countOperation) marks ⟨hheld, hwrites, hjournal⟩

theorem note (htwins : Twins e other) (event : Event) :
    Twins (e.note event) (other.note event) := by
  obtain ⟨marks, ⟨hheld, hwrites, hjournal⟩⟩ := htwins
  exact .intro
    { marks with journal := ⟨(e.withMarks marks).moment, event⟩ :: marks.journal }
    ⟨hheld, hwrites, .cons ⟨rfl, rfl⟩ hjournal⟩

theorem dump (htwins : Twins e other) (direction : Direction) (bytes : Bytes) :
    Twins (e.dump direction bytes) (other.dump direction bytes) := by
  unfold Endpoint.dump
  rw [← htwins.config_eq]
  split
  · exact htwins.note _
  · exact htwins

theorem publish (htwins : Twins e other) : Twins e.publish other.publish :=
  htwins.change Endpoint.publish fun _ _ => rfl

theorem advanceTo (htwins : Twins e other) (time : Nat) :
    Twins (e.advanceTo time) (other.advanceTo time) := by
  have hmoved := htwins.change (fun e => { e with now := max e.now time }) fun _ _ => rfl
  exact hmoved.turned .first .first

theorem rescript (htwins : Twins e other) {writes writesOther : WriteScript (Protection C)}
    (hscripts : writes.Twins writesOther) :
    Twins { e with writes } { other with writes := writesOther } := by
  obtain ⟨marks, ⟨hheld, hwrites, hjournal⟩⟩ := htwins
  exact .intro { marks with writes := writesOther } ⟨hheld, hscripts, hjournal⟩

theorem hold (htwins : Twins e other) {held heldOther : Option HeldMessage}
    (hmessages : Option.Rel HeldMessage.Twins held heldOther) :
    Twins { e with held } { other with held := heldOther } := by
  obtain ⟨marks, ⟨hheld, hwrites, hjournal⟩⟩ := htwins
  exact .intro { marks with held := heldOther } ⟨hmessages, hwrites, hjournal⟩

/-- The outbound lane is free at both endpoints, or occupied at both by the same message. -/
theorem held_cases (htwins : Twins e other) :
    (e.held = none ∧ other.held = none) ∨ ∃ message messageOther,
      e.held = some message ∧ other.held = some messageOther ∧
        HeldMessage.Twins message messageOther := by
  have hheld : Option.Rel HeldMessage.Twins e.held other.held := htwins.marks.held
  generalize e.held = held at hheld ⊢
  generalize other.held = heldOther at hheld ⊢
  cases hheld with
  | none => exact .inl ⟨rfl, rfl⟩
  | some hmessage => exact .inr ⟨_, _, rfl, rfl, hmessage⟩

theorem installOutbound (htwins : Twins e other) (protection : Protection C) :
    Twins (e.installOutbound protection) (other.installOutbound protection) :=
  ((htwins.note _).change (fun e => { e with
    outbound := e.outbound.install protection
    rekey := e.rekey.installOutbound }) fun _ _ => rfl).publish

theorem activateInbound (htwins : Twins e other) (protection : Protection C) :
    Twins (e.activateInbound protection) (other.activateInbound protection) :=
  ((htwins.note _).change (fun e => { e with
    inbound := e.inbound.install protection
    rekey := e.rekey.installInbound }) fun _ _ => rfl).publish

theorem installInbound (htwins : Twins e other) (reader : ReaderState)
    (protection : Protection C) :
    Twins (e.installInbound reader protection) (other.installInbound reader protection) := by
  cases reader with
  | idle =>
      exact (htwins.change (fun e => { e with parked := none }) fun _ _ => rfl).activateInbound _
  | busy =>
      exact (htwins.change (fun e => { e with parked := some protection }) fun _ _ => rfl).note _

theorem activateParked (htwins : Twins e other) :
    Twins e.activateParked other.activateParked := by
  have hparked : e.parked = other.parked := htwins.seen_eq parked fun _ _ => rfl
  unfold Endpoint.activateParked
  rw [← hparked]
  cases e.parked with
  | none => exact htwins
  | some protection => exact htwins.installInbound .idle protection

theorem act (htwins : Twins e other) (reader : ReaderState) (action : Action (Protection C)) :
    Twins (e.act reader action) (other.act reader action) := by
  cases action with
  | close => exact htwins.change Endpoint.close fun _ _ => rfl
  | installInbound protection => exact htwins.installInbound reader protection
  | setKeepAlive interval handler =>
      exact htwins.change (Endpoint.setKeepAlive interval handler) fun _ _ => rfl

theorem runHandler (htwins : Twins e other) (handler : Handler) :
    Twins (e.runHandler handler) (other.runHandler handler) :=
  htwins.change (Endpoint.runHandler handler) fun _ _ => by cases handler <;> rfl

theorem checkKeepAlive (htwins : Twins e other) :
    Twins e.checkKeepAlive other.checkKeepAlive := by
  have hpoll := htwins.seen_eq
    (fun e => e.keepAlive.poll e.now e.outbound.isProtected e.rekey.pending) fun _ _ => rfl
  unfold Endpoint.checkKeepAlive
  rw [← hpoll]
  obtain ⟨handler?, keepAlive⟩ := e.keepAlive.poll e.now e.outbound.isProtected e.rekey.pending
  have hpolled := htwins.change (fun e => { e with keepAlive }) fun _ _ => rfl
  cases handler? with
  | none => exact hpolled
  | some handler => exact (hpolled.note _).runHandler handler

theorem accountSent (htwins : Twins e other) (bytes : Nat) :
    Twins (e.accountSent bytes) (other.accountSent bytes) := by
  have hrekey := htwins.seen_eq rekey fun _ _ => rfl
  unfold Endpoint.accountSent
  rw [← hrekey]
  obtain ⟨raised, rekey⟩ := e.rekey.recordSent (UInt64.ofNat bytes)
  have hcounted := htwins.change (fun e => { e with rekey }) fun _ _ => rfl
  cases raised with
  | false => exact hcounted
  | true => exact (hcounted.note _).publish

end Twins

/-! ## Operations -/

/-- The same result, at endpoints that differ in marks only. -/
inductive Concurs {α : Type} :
    Except Fault α × Endpoint C → Except Fault α × Endpoint C → Prop where
  | ok (a : α) {e other : Endpoint C} (htwins : Twins e other) : Concurs (.ok a, e) (.ok a, other)
  | error (fault : Fault) {e other : Endpoint C} (htwins : Twins e other) :
      Concurs (.error fault, e) (.error fault, other)

namespace Concurs

variable {α β : Type} {outcome outcomeOther : Except Fault α × Endpoint C}

theorem of_eq (hresult : outcome.1 = outcomeOther.1) (htwins : Twins outcome.2 outcomeOther.2) :
    Concurs outcome outcomeOther := by
  obtain ⟨result, e⟩ := outcome
  obtain ⟨resultOther, other⟩ := outcomeOther
  obtain rfl : result = resultOther := hresult
  cases result with
  | ok a => exact .ok a htwins
  | error fault => exact .error fault htwins

theorem result_eq (hconcurs : Concurs outcome outcomeOther) : outcome.1 = outcomeOther.1 := by
  cases hconcurs <;> rfl

theorem twins (hconcurs : Concurs outcome outcomeOther) : Twins outcome.2 outcomeOther.2 := by
  cases hconcurs with
  | ok a htwins => exact htwins
  | error fault htwins => exact htwins

theorem bind {m n : Act C α} {f g : α → Act C β} (hm : Concurs (m e) (n other))
    (hf : ∀ a middle middleOther, Twins middle middleOther →
      Concurs (f a middle) (g a middleOther)) : Concurs ((m >>= f) e) ((n >>= g) other) := by
  rcases hfirst : m e with ⟨result, middle⟩
  rcases hsecond : n other with ⟨resultOther, middleOther⟩
  rw [hfirst, hsecond] at hm
  cases hm with
  | ok a htwins =>
      rw [Act.bind_of_ok hfirst, Act.bind_of_ok hsecond]
      exact hf a middle middleOther htwins
  | error fault htwins =>
      rw [Act.bind_of_error hfirst, Act.bind_of_error hsecond]
      exact .error fault htwins

theorem noting {m n : Act C α} (hm : Concurs (m e) (n other)) (direction : Direction) :
    Concurs (Act.noting direction m e) (Act.noting direction n other) := by
  unfold Act.noting
  generalize m e = outcome at hm
  generalize n other = outcomeOther at hm
  cases hm with
  | ok a htwins => exact .ok a htwins
  | error fault htwins => exact .error fault (htwins.note _)

end Concurs

/-- An operation that marks make no difference to. -/
def Act.Blind {α : Type} (m : Act C α) : Prop :=
  ∀ e other, Twins e other → Concurs (m e) (m other)

namespace Act.Blind

variable {α β : Type}

theorem bind {m : Act C α} {f : α → Act C β} (hm : m.Blind) (hf : ∀ a, (f a).Blind) :
    (m >>= f).Blind :=
  fun e other htwins => .bind (hm e other htwins) hf

theorem pure (a : α) : (Pure.pure a : Act C α).Blind :=
  fun _ _ htwins => .ok a htwins

theorem fail (fault : Fault) : (Act.fail fault : Act C α).Blind :=
  fun _ _ htwins => .error fault htwins

theorem ofExcept (result : Except Fault α) : (Act.ofExcept result : Act C α).Blind :=
  fun _ _ htwins => .of_eq rfl htwins

theorem update {change : Endpoint C → Endpoint C}
    (hchange : ∀ e other, Twins e other → Twins (change e) (change other)) :
    (Act.update change).Blind :=
  fun e other htwins => .ok () (hchange e other htwins)

theorem noting {m : Act C α} (hm : m.Blind) (direction : Direction) :
    (Act.noting direction m).Blind :=
  fun e other htwins => (hm e other htwins).noting direction

/-- What is read off the state does not depend on marks. -/
theorem ask {seen : Endpoint C → α} (hseen : ∀ marks e, seen (withMarks marks e) = seen e) :
    (Act.ask seen).Blind :=
  fun _ _ htwins => .of_eq (congrArg Except.ok (htwins.seen_eq seen hseen)) htwins

/-- An operation that neither looks at marks nor makes any. -/
theorem of_commutes {m : Act C α}
    (hcommutes : ∀ marks e, m (withMarks marks e) = ((m e).1, withMarks marks (m e).2)) :
    m.Blind := by
  intro e other htwins
  refine .of_eq (htwins.seen_eq (fun e => (m e).1) fun marks e => ?_)
    (htwins.change (fun e => (m e).2) fun marks e => ?_)
  · rw [hcommutes]
  · rw [hcommutes]

end Act.Blind

end Endpoint

end PacketLayer
