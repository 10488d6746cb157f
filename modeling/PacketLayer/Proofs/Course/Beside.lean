import PacketLayer.Proofs.Course.Effects

/-! # Beside a read

While packets are read, keep-alive messages may be sent, other parties may act and new keys may
be installed. Whatever else is done leaves alone what is counted and what belongs to sending.
Where no keep-alive message is under way, none comes up unless the handler asks for one.
-/

namespace PacketLayer

variable {C : Type}

/-- What belongs to sending. -/
structure SendingSide (C : Type) where
  outbound : Lane C
  queued : Nat
  held : Option HeldMessage
  padding : ByteSource
  noise : ByteSource
  writes : WriteScript (Protection C)
  flushes : List (FlushItem (Protection C))
  accepted : List Bytes

/-- What the reading of a packet does not touch before the packet is accepted. The policy has
the counts of both directions, the grace window and the request for new keys. -/
structure Holdings (C : Type) where
  sequence : SequenceNumber
  rekey : Rekey.Policy
  signal : Signal
  sendingSide : SendingSide C

def Endpoint.sendingSide (e : Endpoint C) : SendingSide C where
  outbound := e.outbound
  queued := e.queued
  held := e.held
  padding := e.padding
  noise := e.noise
  writes := e.writes
  flushes := e.flushes
  accepted := e.accepted

def Endpoint.holdings (e : Endpoint C) : Holdings C where
  sequence := e.inbound.sequence
  rekey := e.rekey
  signal := e.signal
  sendingSide := e.sendingSide

/-- The holdings in the middle of a script. -/
def Stage.holdings (s : Stage C) : Holdings C :=
  { s.endpoint with writes := s.writes }.holdings

namespace Deed

/-- A deed by which a keep-alive message is made or gets into the stream. -/
def Keeps : Deed C → Prop
  | declined none _ _ | sealed none _ _ _ | carried _ | ended none _ _ | heldBack | resumed
  | admitted | acted .writes _ _ | passed .writes => True
  | _ => False

/-- What may happen besides while a read waits. -/
def Interlude : Deed C → Prop
  | activated _ | rekeyed .reads _ => True
  | deed => deed.Keeps

end Deed

/-- A packet is to be read, is being read or has been read. Besides, no more is sent than a
keep-alive message. -/
structure Stage.Devoted (s : Stage C) : Prop where
  phase : ∀ operation, s.phase = .ordered operation → operation = .read
  own : ∀ dispatch, s.sending = some dispatch → dispatch.request = none

/-- No keep-alive message is under way, asked for or queues. -/
structure Stage.Silent (s : Stage C) : Prop where
  sending : s.sending = none
  held : s.endpoint.held = none
  dues : s.endpoint.dues = (0, 0)

variable [BlockCipher C] {here there s next : Stage C} {deed : Deed C} {deeds : List (Deed C)}

/-- In the course of a read, what is held changes by interludes only, until a packet is
verified. -/
theorem Does.devoted (hdoes : Does here deed there) (hinside : deed.Inside)
    (hdevoted : here.Devoted) : there.Devoted ∧
      (deed.verified? = none → deed.Interlude ∨ there.holdings = here.holdings) := by
  obtain ⟨hread, hown⟩ := hdevoted
  have hbegun {request : Request} {rest : Bytes} {frameLength : Option Nat}
      (hsending : here.sending = some ⟨some request, rest, frameLength⟩) : False := by
    cases hown _ hsending
  have hdeciphered (data : Bytes) :
      { here.holdings with sequence := (here.endpoint.inbound.apply data).2.sequence } =
        here.holdings := by
    have hsequence : (here.endpoint.inbound.apply data).2.sequence =
        here.endpoint.inbound.sequence := (Lane.apply_eq rfl).2.2.1
    rw [hsequence]
    rfl
  cases hdoes with
  | asked => exact False.elim hinside
  | turnedAway hphase hrequest =>
      obtain rfl := hread _ hphase
      cases hrequest
  | declined _ hdrafts =>
      cases hdrafts with
      | own hphase => cases hread _ hphase
      | keepAlive => exact ⟨⟨hread, hown⟩, fun _ => .inl trivial⟩
  | sealed _ hdrafts =>
      cases hdrafts with
      | own hphase => cases hread _ hphase
      | keepAlive =>
          refine ⟨⟨hread, ?_⟩, fun _ => .inl trivial⟩
          rintro _ ⟨⟩
          rfl
  | lined hphase | leapt hphase | replaced hphase | listening hphase => cases hread _ hphase
  | carried _ hsending =>
      refine ⟨⟨hread, ?_⟩, fun _ => .inl trivial⟩
      rintro dispatch ⟨⟩
      have hrequest := hown _ hsending
      exact hrequest
  | @completed request _ _ hsending =>
      cases request with
      | some => exact (hbegun hsending).elim
      | none => exact ⟨⟨hread, nofun⟩, fun _ => .inl trivial⟩
  | @stopped _ request _ _ _ _ hsending hbreaks =>
      cases request with
      | some => exact (hbegun hsending).elim
      | none =>
          refine ⟨⟨?_, nofun⟩, fun _ => .inl trivial⟩
          cases hbreaks <;> exact hread
  | heldBack | resumed | admitted | passedWrite | rekeyed | activated =>
      exact ⟨⟨hread, hown⟩, fun _ => .inl trivial⟩
  | stalled hsending => exact (hbegun hsending).elim
  | waited | passedRead => exact ⟨⟨hread, hown⟩, fun _ => .inr rfl⟩
  | @acted _ _ action hmeets =>
      cases hmeets with
      | operation hphase haction =>
          obtain rfl := hread _ hphase
          cases haction
      | writes => exact ⟨⟨hread, hown⟩, fun _ => .inl trivial⟩
      | reads hphase =>
          refine ⟨⟨hread, hown⟩, fun _ => .inr ?_⟩
          have hbusy : here.reader = .busy := by rw [Stage.reader, hphase]
          rw [hbusy]
          cases action <;> rfl
  | supplied hphase hsupplies =>
      obtain rfl := hread _ hphase
      cases hsupplies
  | unread | reading | attempting | received | left => exact ⟨⟨nofun, hown⟩, fun _ => .inr rfl⟩
  | attempted =>
      refine ⟨⟨nofun, hown⟩, fun _ => .inr ?_⟩
      exact Endpoint.view_endAttempt (fun e => Stage.holdings { here with endpoint := e })
        (fun _ _ _ _ _ _ _ => rfl) _ _
  | opened => exact ⟨⟨nofun, hown⟩, fun _ => .inr (hdeciphered _)⟩
  | unfolded => exact ⟨⟨hread, hown⟩, fun _ => .inr (hdeciphered _)⟩
  | verified => exact ⟨⟨nofun, hown⟩, nofun⟩
  | @aside e hsight =>
      refine ⟨⟨hread, hown⟩, fun _ => .inr ?_⟩
      exact Endpoint.view_of_sight (fun e => Stage.holdings { here with endpoint := e })
        (fun _ => rfl) hsight

theorem Course.devoted (hcourse : Course s deeds next) (hinside : ∀ deed ∈ deeds, deed.Inside)
    (hdevoted : s.Devoted) : next.Devoted := by
  induction hcourse with
  | done s => exact hdevoted
  | step hdoes _ ih =>
      obtain ⟨hfirst, hrest⟩ := List.forall_mem_cons.mp hinside
      exact ih hrest (hdoes.devoted hfirst hdevoted).1

omit [BlockCipher C] in
/-- The handler is the same when an attempt ends, and asks for no keep-alive message unless it
runs and sends them. -/
theorem Endpoint.dues_endAttempt {attempt : Attempt C} {e : Endpoint C}
    (hfires : ∀ firing, e.firingAfter attempt = some firing →
      e.keepAlive.handler ≠ some .sendIgnore) :
    (e.endAttempt attempt).dues = e.dues ∧
      (e.endAttempt attempt).keepAlive.handler = e.keepAlive.handler := by
  unfold endAttempt
  split
  swap
  · exact ⟨rfl, rfl⟩
  next hends =>
    cases hdue : e.keepAlive.due e.now e.outbound.isProtected e.rekey.pending with
    | false => simp [checkKeepAlive, KeepAlive.poll, hdue, dues]
    | true =>
        have hruns := hfires ⟨e.now, e.keepAlive.interval⟩
          (if_pos (by rw [firesAfter, hends, keepAliveDue, hdue]; rfl))
        cases hhandler : e.keepAlive.handler with
        | none => simp [checkKeepAlive, KeepAlive.poll, hdue, hhandler, dues]
        | some handler =>
            cases handler with
            | sendIgnore => exact absurd hhandler hruns
            | count | close =>
                simp [checkKeepAlive, KeepAlive.poll, hdue, hhandler, dues, runHandler, note,
                  Endpoint.close]

/-- Where nothing is under way, no keep-alive message comes up unless the handler asks for
one. -/
theorem Does.silent (hdoes : Does here deed there) (hdevoted : here.Devoted)
    (hsilent : here.Silent)
    (hfires : ∀ attempt firing, deed = .attempted attempt (some firing) →
      here.endpoint.keepAlive.handler ≠ some .sendIgnore) : ¬deed.Keeps ∧ there.Silent := by
  obtain ⟨hfree, hheld, hdues⟩ := hsilent
  obtain ⟨howed, hqueued⟩ := Prod.mk.inj hdues
  cases hdoes with
  | declined _ hdrafts | sealed _ hdrafts =>
      cases hdrafts with
      | own hphase => cases hdevoted.phase _ hphase
      | keepAlive _ hdue => rw [hqueued] at hdue; cases hdue
  | lined hphase => cases hdevoted.phase _ hphase
  | carried _ hsending | completed _ hsending | stopped _ hsending | heldBack _ hsending
  | stalled hsending => rw [hfree] at hsending; cases hsending
  | resumed _ hmessage => rw [hheld] at hmessage; cases hmessage
  | admitted _ hdue => exact absurd howed hdue
  | passedWrite _ hsending => exact absurd hfree hsending
  | @acted _ _ action hmeets =>
      cases hmeets with
      | operation hphase haction =>
          obtain rfl := hdevoted.phase _ hphase
          cases haction
      | writes _ hsending => exact absurd hfree hsending
      | reads =>
          refine ⟨id, hfree, ?_, (Endpoint.dues_act _ _ _).trans hdues⟩
          cases action <;> cases here.reader <;> exact hheld
  | activated =>
      obtain ⟨hstill, hsame⟩ := Prod.mk.inj (Endpoint.view_activateParked
        (fun e => (e.held, e.dues)) (fun _ _ _ _ _ _ => rfl) here.endpoint)
      exact ⟨id, hfree, hstill.trans hheld, hsame.trans hdues⟩
  | @attempted _ attempt =>
      obtain ⟨hsame, -⟩ := Endpoint.dues_endAttempt fun firing hfiring =>
        hfires attempt firing (by rw [hfiring])
      have hstill := Endpoint.view_endAttempt Endpoint.held (fun _ _ _ _ _ _ _ => rfl) attempt
        here.endpoint
      exact ⟨id, hfree, hstill.trans hheld, hsame.trans hdues⟩
  | @verified _ lane header =>
      obtain ⟨hstill, hsame⟩ := Prod.mk.inj (Endpoint.view_accountReceived
        (fun e => (e.held, e.dues)) (fun _ _ _ _ => rfl) (header.frameLength + lane.tagSize)
        here.endpoint.advanceInbound)
      exact ⟨id, hfree, hstill.trans hheld, hsame.trans hdues⟩
  | supplied _ hsupplies => cases hsupplies <;> exact ⟨id, hfree, hheld, hdues⟩
  | aside hsight =>
      exact ⟨id, hfree, (Endpoint.view_of_sight Endpoint.held (fun _ => rfl) hsight).trans hheld,
        (Endpoint.view_of_sight Endpoint.dues (fun _ => rfl) hsight).trans hdues⟩
  | _ => exact ⟨id, hfree, hheld, hdues⟩

/-- Where nothing is under way, no keep-alive message comes up before the handler runs. -/
theorem Course.silent (hcourse : Course s deeds next) (hinside : ∀ deed ∈ deeds, deed.Inside)
    (hdevoted : s.Devoted) (hsilent : s.Silent)
    (hfires : ∀ attempt firing, .attempted attempt (some firing) ∉ deeds) : next.Silent := by
  induction hcourse with
  | done s => exact hsilent
  | step hdoes _ ih =>
      obtain ⟨hfirst, hrest⟩ := List.forall_mem_cons.mp hinside
      refine ih hrest (hdoes.devoted hfirst hdevoted).1 ?_ fun attempt firing hmem =>
        hfires attempt firing (List.mem_cons_of_mem _ hmem)
      refine (hdoes.silent hdevoted hsilent fun attempt firing hdeed => ?_).2
      exact absurd (hdeed ▸ List.mem_cons_self) (hfires attempt firing)

namespace Endpoint

omit [BlockCipher C] in
/-- No more is under way than a keep-alive message. -/
theorem devoted_of_occupying {phase : Phase C}
    (hphase : ∀ operation, phase = .ordered operation → operation = .read)
    (reads : ReadScript (Protection C)) (e : Endpoint C) :
    Stage.Devoted ⟨e, phase, reads, e.writes, e.occupying⟩ := by
  refine ⟨hphase, fun dispatch hsending => ?_⟩
  obtain ⟨message, -, rfl⟩ := Option.map_eq_some_iff.mp hsending
  rfl

omit [BlockCipher C] in
theorem devoted_during (e : Endpoint C) : (e.during (.ordered .read)).Devoted := by
  refine devoted_of_occupying ?_ e.reads e
  rintro operation ⟨⟩
  rfl

end Endpoint

end PacketLayer
