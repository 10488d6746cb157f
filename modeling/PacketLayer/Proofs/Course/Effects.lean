import PacketLayer.Proofs.Course

/-! # What deeds change

A deed changes little of an endpoint, and most deeds leave alone most of it. What each kind
of deed leaves alone, and what the others make of it, is told here once, by the deeds.
-/

namespace PacketLayer

variable {C : Type}

namespace Endpoint

theorem sight_note {event : Event} (htells : event.tells = false) (e : Endpoint C) :
    (e.note event).sight = e.sight := by
  simp [sight, note, htells]

theorem sight_dump (direction : Direction) (bytes : Bytes) (e : Endpoint C) :
    (e.dump direction bytes).sight = e.sight := by
  unfold dump
  split
  · exact sight_note rfl e
  · rfl

theorem sight_reportKeepAlive (outcome : Except Fault Unit × Endpoint C) :
    (reportKeepAlive outcome).sight = outcome.2.sight := by
  obtain ⟨fault | _, e⟩ := outcome
  · exact (sight_note rfl _).trans (sight_note rfl e)
  · rfl

theorem sight_repeat_note {event : Event} (htells : event.tells = false) (count : Nat)
    (e : Endpoint C) : (Nat.repeat (note event) count e).sight = e.sight := by
  induction count with
  | zero => rfl
  | succ count ih => exact (sight_note htells _).trans ih

/-! ## What the parts of deeds change -/

/-- Messages that are asked for are queued or given up, and nothing else but notes and turns
changes. -/
theorem admitKeepAlives_sight (e : Endpoint C) : ∃ queued turn,
    e.admitKeepAlives.sight = sight { e with owed := 0, queued, turn } := by
  unfold admitKeepAlives
  split
  · exact ⟨e.queued, .asked, sight_repeat_note rfl e.owed { e with owed := 0, turn := .asked }⟩
  · exact ⟨_, e.turn, rfl⟩

theorem owed_admitKeepAlives (e : Endpoint C) : e.admitKeepAlives.owed = 0 := by
  obtain ⟨queued, turn, hsight⟩ := admitKeepAlives_sight e
  exact (view_of_sight owed (fun _ => rfl) hsight).trans rfl

/-- The handler may run when an attempt ends. -/
theorem endAttempt_eq (attempt : Attempt C) (e : Endpoint C) :
    ∃ keepAlive fired owed closed journal, (e.closed = true → closed = true) ∧
      e.endAttempt attempt =
        { e with reads := attempt.left, keepAlive, fired, owed, closed, journal } := by
  unfold endAttempt
  split
  · unfold checkKeepAlive
    dsimp only
    split
    · exact ⟨_, _, _, _, _, id, rfl⟩
    next handler _ =>
      cases handler with
      | close => exact ⟨_, _, _, _, _, fun _ => rfl, rfl⟩
      | count | sendIgnore => exact ⟨_, _, _, _, _, id, rfl⟩
  · exact ⟨_, _, _, _, _, id, rfl⟩

theorem activateParked_eq {protection : Protection C} {e : Endpoint C}
    (hparked : e.parked = some protection) :
    e.activateParked = { e with parked := none }.activateInbound protection := by
  rw [activateParked, hparked]

/-- Counting a packet received concerns the rekey policy, and what is published and noted of
it. -/
theorem accountReceived_keeps (bytes : Nat) (e : Endpoint C) :
    ∃ signal journal, (accountReceived bytes e).2 =
      { e with rekey := e.rekey.after [.received (UInt64.ofNat bytes)], signal, journal } := by
  unfold accountReceived
  dsimp only
  split <;> exact ⟨_, _, rfl⟩

/-- Flushing and counting what was sent changes little. -/
theorem completed_eq (frameLength : Option Nat) (e : Endpoint C) :
    ∃ flushes signal journal, (flush e).2.countSent frameLength =
      { e with
        flushes
        rekey := e.rekey.after (frameLength.toList.map fun length => .sent (UInt64.ofNat length))
        signal
        journal } := by
  obtain ⟨flushes, hflush⟩ := flush_eq e
  obtain ⟨signal, journal, hcount⟩ := countSent_eq frameLength (flush e).2
  rw [hcount, hflush]
  exact ⟨flushes, signal, journal, rfl⟩

/-! ## Views

A view that shows nothing of what a part of a deed changes is the same before and after it. -/

section

variable {γ : Type} (view : Endpoint C → γ)

theorem view_completed
    (hview : ∀ (e : Endpoint C) flushes rekey signal journal,
      view { e with flushes, rekey, signal, journal } = view e)
    (frameLength : Option Nat) (e : Endpoint C) :
    view ((flush e).2.countSent frameLength) = view e := by
  obtain ⟨flushes, signal, journal, hcompleted⟩ := completed_eq frameLength e
  rw [hcompleted]
  exact hview e _ _ _ _

theorem view_activateParked
    (hview : ∀ (e : Endpoint C) inbound parked rekey signal journal,
      view { e with inbound, parked, rekey, signal, journal } = view e)
    (e : Endpoint C) : view e.activateParked = view e := by
  cases hparked : e.parked with
  | none => rw [activateParked, hparked]
  | some protection =>
      rw [activateParked_eq hparked]
      exact hview e _ _ _ _ _

theorem view_admitKeepAlives (hsight : ∀ e, view e.sight = view e)
    (hview : ∀ (e : Endpoint C) owed queued turn, view { e with owed, queued, turn } = view e)
    (e : Endpoint C) : view e.admitKeepAlives = view e := by
  obtain ⟨queued, turn, hadmitted⟩ := admitKeepAlives_sight e
  exact (view_of_sight view hsight hadmitted).trans (hview e _ _ _)

theorem view_endAttempt
    (hview : ∀ (e : Endpoint C) reads keepAlive fired owed closed journal,
      view { e with reads, keepAlive, fired, owed, closed, journal } = view e)
    (attempt : Attempt C) (e : Endpoint C) : view (e.endAttempt attempt) = view e := by
  obtain ⟨keepAlive, fired, owed, closed, journal, -, hended⟩ := endAttempt_eq attempt e
  rw [hended]
  exact hview e _ _ _ _ _ _

theorem view_accountReceived
    (hview : ∀ (e : Endpoint C) rekey signal journal,
      view { e with rekey, signal, journal } = view e)
    (bytes : Nat) (e : Endpoint C) : view (accountReceived bytes e).2 = view e := by
  obtain ⟨signal, journal, hcounted⟩ := accountReceived_keeps bytes e
  rw [hcounted]
  exact hview e _ _ _

end

end Endpoint

variable [BlockCipher C] {here there : Stage C} {deed : Deed C}

namespace Endpoint

/-- What of an endpoint sending leaves to other parties. -/
def standing (e : Endpoint C) : Config × Lane C × Option (Protection C) × KeepAlive Handler × Nat ×
    Bool × ReadScript (Protection C) :=
  (e.config, e.inbound, e.parked, e.keepAlive, e.fired, e.closed, e.reads)

/-- The messages that are asked for and those that queue. -/
def dues (e : Endpoint C) : Nat × Nat :=
  (e.owed, e.queued)

/-- What packets are read with. -/
def inlet (e : Endpoint C) : Lane C × Option (Protection C) :=
  (e.inbound, e.parked)

omit [BlockCipher C] in
theorem reads_act (reader : ReaderState) (action : Action (Protection C)) (e : Endpoint C) :
    (e.act reader action).reads = e.reads := by
  cases action with
  | installInbound protection => cases reader <;> rfl
  | close | setKeepAlive => rfl

omit [BlockCipher C] in
theorem dues_act (reader : ReaderState) (action : Action (Protection C)) (e : Endpoint C) :
    (e.act reader action).dues = e.dues := by
  cases action with
  | installInbound protection => cases reader <;> rfl
  | close | setKeepAlive => rfl

omit [BlockCipher C] in
theorem outbound_act (reader : ReaderState) (action : Action (Protection C)) (e : Endpoint C) :
    (e.act reader action).outbound = e.outbound := by
  cases action with
  | installInbound protection => cases reader <;> rfl
  | close | setKeepAlive => rfl

omit [BlockCipher C] in
theorem accepted_act (reader : ReaderState) (action : Action (Protection C)) (e : Endpoint C) :
    (e.act reader action).accepted = e.accepted := by
  cases action with
  | installInbound protection => cases reader <;> rfl
  | close | setKeepAlive => rfl

end Endpoint

open Endpoint

/-! ## What deeds leave alone -/

/-- An operation that reads nothing leaves most of an endpoint to other parties. -/
theorem Does.standing_eq (hwrites : deed.Writes)
    (hacts : ∀ origin reader action, deed ≠ .acted origin reader action)
    (hdoes : Does here deed there) : there.endpoint.standing = here.endpoint.standing := by
  cases hdoes with
  | aside hsight => exact view_of_sight standing (fun _ => rfl) hsight
  | completed => exact view_completed standing (fun _ _ _ _ _ => rfl) _ _
  | stopped _ _ hbreaks => cases hbreaks <;> rfl
  | declined _ hdrafts _ | sealed _ hdrafts _ _ => cases hdrafts <;> rfl
  | acted => exact absurd rfl (hacts _ _ _)
  | admitted => exact view_admitKeepAlives standing (fun _ => rfl) (fun _ _ _ _ => rfl) _
  | turnedAway | lined | carried | heldBack | resumed | waited | stalled | replaced
  | passedWrite => rfl
  | _ => exact False.elim hwrites

/-- Looking after keep-alive messages neither ends a read nor begins an operation. -/
theorem Does.phase_eq (htends : deed.Tends) (hdoes : Does here deed there) :
    there.phase = here.phase := by
  cases hdoes with
  | stopped _ _ hbreaks => cases hbreaks <;> rfl
  | declined _ hdrafts _ | sealed _ hdrafts _ _ =>
      cases hdrafts with
      | own => exact False.elim htends
      | keepAlive => rfl
  | acted hmeets =>
      cases hmeets with
      | operation | reads => exact False.elim htends
      | writes => rfl
  | carried | completed | heldBack | resumed | admitted | waited | stalled | passedWrite
  | aside => rfl
  | _ => exact False.elim htends

/-- The read script stays as it is unless a reader follows it or more is supplied. -/
theorem Does.reads_eq (hwrites : deed.Writes) (hdoes : Does here deed there) :
    there.endpoint.reads = here.endpoint.reads ∧ there.reads = here.reads := by
  refine ⟨?_, ?_⟩
  · cases deed with
    | acted =>
        cases hdoes with
        | acted => exact reads_act _ _ _
    | _ => exact congrArg (·.2.2.2.2.2.2) (hdoes.standing_eq hwrites nofun)
  · cases hdoes with
    | stopped _ _ hbreaks => cases hbreaks <;> rfl
    | declined _ hdrafts _ | sealed _ hdrafts _ _ => cases hdrafts <;> rfl
    | acted hmeets =>
        cases hmeets with
        | reads => exact False.elim hwrites
        | operation | writes => rfl
    | turnedAway | lined | carried | completed | heldBack | resumed | admitted | waited | stalled
    | replaced | passedWrite | aside => rfl
    | _ => exact False.elim hwrites

/-- No keep-alive message is asked for or queues in the course of sending. -/
theorem Does.dues_eq (hsends : deed.Sends) (hdoes : Does here deed there) :
    there.endpoint.dues = here.endpoint.dues := by
  cases hdoes with
  | aside hsight => exact view_of_sight dues (fun _ => rfl) hsight
  | completed => exact view_completed dues (fun _ _ _ _ _ => rfl) _ _
  | stopped _ _ hbreaks => cases hbreaks <;> rfl
  | acted => exact dues_act _ _ _
  | carried | heldBack | resumed | passedWrite => rfl
  | _ => exact False.elim hsends

/-- The deeds that concern the inbound lane or the parked protection. -/
def Deed.Inward : Deed C → Prop
  | acted _ _ (.installInbound _) | activated _ | opened _ | unfolded _ | verified .. => True
  | _ => False

/-- No other deed touches what packets are read with. -/
theorem Does.inlet_eq (hinward : ¬deed.Inward) (hdoes : Does here deed there) :
    there.endpoint.inlet = here.endpoint.inlet := by
  cases hdoes with
  | aside hsight => exact view_of_sight inlet (fun _ => rfl) hsight
  | completed => exact view_completed inlet (fun _ _ _ _ _ => rfl) _ _
  | stopped _ _ hbreaks => cases hbreaks <;> rfl
  | declined _ hdrafts _ | sealed _ hdrafts _ _ => cases hdrafts <;> rfl
  | @acted _ _ action =>
      cases action with
      | installInbound => exact absurd trivial hinward
      | close | setKeepAlive => rfl
  | admitted => exact view_admitKeepAlives inlet (fun _ => rfl) (fun _ _ _ _ => rfl) _
  | attempted => exact view_endAttempt inlet (fun _ _ _ _ _ _ _ => rfl) _ _
  | supplied _ hsupplies => cases hsupplies <;> rfl
  | activated | opened | unfolded | verified => exact absurd trivial hinward
  | _ => rfl

/-- The deeds that concern the outbound lane. -/
def Deed.Outward : Deed C → Prop
  | declined .. | sealed .. | rekeyed .. => True
  | _ => False

/-- No other deed touches the outbound lane. -/
theorem Does.outbound_eq (houtward : ¬deed.Outward) (hdoes : Does here deed there) :
    there.endpoint.outbound = here.endpoint.outbound := by
  cases hdoes with
  | aside hsight => exact view_of_sight outbound (fun _ => rfl) hsight
  | completed => exact view_completed outbound (fun _ _ _ _ _ => rfl) _ _
  | stopped _ _ hbreaks => cases hbreaks <;> rfl
  | acted => exact outbound_act _ _ _
  | activated => exact view_activateParked outbound (fun _ _ _ _ _ _ => rfl) _
  | admitted => exact view_admitKeepAlives outbound (fun _ => rfl) (fun _ _ _ _ => rfl) _
  | attempted => exact view_endAttempt outbound (fun _ _ _ _ _ _ _ => rfl) _ _
  | verified => exact view_accountReceived outbound (fun _ _ _ _ => rfl) _ _
  | supplied _ hsupplies => cases hsupplies <;> rfl
  | declined | sealed | replaced | rekeyed => exact absurd trivial houtward
  | _ => rfl

/-! ## What the deeds make of an endpoint -/

/-- The rekey policy makes the steps of the deed, and no others. -/
theorem Does.rekey_eq (hdoes : Does here deed there) :
    there.endpoint.rekey = here.endpoint.rekey.after deed.rekeySteps := by
  cases hdoes with
  | aside hsight => exact view_of_sight rekey (fun _ => rfl) hsight
  | @completed _ frameLength =>
      obtain ⟨flushes, signal, journal, hcompleted⟩ := completed_eq frameLength here.endpoint
      dsimp only
      rw [hcompleted]
      rfl
  | stopped _ _ hbreaks => cases hbreaks <;> rfl
  | declined _ hdrafts _ | sealed _ hdrafts _ _ => cases hdrafts <;> rfl
  | @acted _ _ action => cases action <;> cases here.reader <;> rfl
  | activated _ hparked =>
      dsimp only
      rw [activateParked_eq hparked]
      rfl
  | admitted => exact view_admitKeepAlives rekey (fun _ => rfl) (fun _ _ _ _ => rfl) _
  | attempted => exact view_endAttempt rekey (fun _ _ _ _ _ _ _ => rfl) _ _
  | @verified _ lane header =>
      obtain ⟨signal, journal, hcounted⟩ := accountReceived_keeps
        (header.frameLength + lane.tagSize) here.endpoint.advanceInbound
      dsimp only
      rw [hcounted]
      rfl
  | supplied _ hsupplies => cases hsupplies <;> rfl
  | _ => rfl

theorem Course.rekey_eq {s next : Stage C} {deeds : List (Deed C)} (hcourse : Course s deeds next) :
    next.endpoint.rekey = s.endpoint.rekey.after (deeds.flatMap Deed.rekeySteps) := by
  induction hcourse with
  | done s => rfl
  | step hdoes _ ih => rw [ih, hdoes.rekey_eq, List.flatMap_cons, Rekey.Policy.after_append]

/-- What the stream accepts with a deed. -/
def Deed.piece : Deed C → Bytes
  | carried piece => piece
  | _ => []

/-- Nothing else gets into the stream. -/
theorem Does.acceptedBytes_eq (hdoes : Does here deed there) :
    there.endpoint.acceptedBytes = here.endpoint.acceptedBytes ++ deed.piece := by
  have hsame {e next : Endpoint C} (haccepted : next.accepted = e.accepted) :
      next.acceptedBytes = e.acceptedBytes ++ [] := by
    rw [List.append_nil, acceptedBytes, acceptedBytes, haccepted]
  cases hdoes with
  | aside hsight => exact hsame (view_of_sight accepted (fun _ => rfl) hsight)
  | carried => simp [acceptedBytes, Deed.piece]
  | completed => exact hsame (view_completed accepted (fun _ _ _ _ _ => rfl) _ _)
  | stopped _ _ hbreaks =>
      cases hbreaks with
      | refused => simp [acceptedBytes, Deed.piece]
      | closed | failed | unflushed => exact hsame rfl
  | declined _ hdrafts _ | sealed _ hdrafts _ _ => cases hdrafts <;> exact hsame rfl
  | acted => exact hsame (accepted_act _ _ _)
  | activated => exact hsame (view_activateParked accepted (fun _ _ _ _ _ _ => rfl) _)
  | admitted =>
      exact hsame (view_admitKeepAlives accepted (fun _ => rfl) (fun _ _ _ _ => rfl) _)
  | attempted => exact hsame (view_endAttempt accepted (fun _ _ _ _ _ _ _ => rfl) _ _)
  | verified => exact hsame (view_accountReceived accepted (fun _ _ _ _ => rfl) _ _)
  | supplied _ hsupplies => cases hsupplies <;> exact hsame rfl
  | _ => exact hsame rfl

end PacketLayer
