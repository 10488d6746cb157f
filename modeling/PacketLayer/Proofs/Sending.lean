import PacketLayer.Endpoint.Write
import PacketLayer.Proofs.Lockstep

/-! # Writing on a healthy stream

A stream may accept octets in pieces, pause and fail for the moment. As long as it
does no worse, a message that fits is written: its sealed packet is accepted to the
last octet, behind everything accepted before.
-/

namespace PacketLayer

variable {P C : Type}

/-- A stream makes progress, and nobody closes the endpoint. -/
def WriteItem.Healthy : WriteItem P → Prop
  | .accept count => count ≠ 0
  | .fail failure => failure.kind.isTransient = true
  | .act .close => False
  | .pause _ | .resumeAt _ | .act _ => True

def WriteScript.Healthy (script : WriteScript P) : Prop :=
  ∀ item ∈ script, item.Healthy

theorem WriteScript.Healthy.cons {item : WriteItem P} {items : WriteScript P}
    (hitem : item.Healthy) (hitems : WriteScript.Healthy items) :
    WriteScript.Healthy (item :: items) := by
  intro other hmem
  rcases List.mem_cons.mp hmem with rfl | htail
  · exact hitem
  · exact hitems other htail

theorem WriteScript.Healthy.tail {item : WriteItem P} {items : WriteScript P}
    (hitems : WriteScript.Healthy (item :: items)) : WriteScript.Healthy items :=
  fun other hmem => hitems other (List.mem_cons_of_mem _ hmem)

namespace Endpoint

/-- An open endpoint on a healthy stream, without keep-alive messages under way. -/
structure Ready (e : Endpoint C) : Prop where
  opened : e.closed = false
  held : e.held = none
  owed : e.owed = 0
  queued : e.queued = 0
  writes : WriteScript.Healthy e.writes
  flushes : ∀ failure, FlushItem.fail failure ∉ e.flushes

/-- Octets have been accepted up to a rest, and nothing has happened to the lane. -/
structure Carried (e : Endpoint C) (octets rest : Bytes) (next : Endpoint C) : Prop where
  accepted : next.acceptedBytes ++ rest = e.acceptedBytes ++ octets
  outbound : next.outbound = e.outbound
  ready : next.Ready

theorem Carried.refl {e : Endpoint C} (hready : e.Ready) (octets : Bytes) :
    Carried e octets octets e :=
  ⟨rfl, rfl, hready⟩

theorem Carried.trans {e middle next : Endpoint C} {octets between rest : Bytes}
    (hfirst : Carried e octets between middle) (hsecond : Carried middle between rest next) :
    Carried e octets rest next :=
  ⟨hsecond.accepted.trans hfirst.accepted, hsecond.outbound.trans hfirst.outbound,
    hsecond.ready⟩

/-- Everything that decides whether an endpoint is ready, and the outbound lane. -/
def desk (e : Endpoint C) : Lane C × Bool × Option HeldMessage × Nat × Nat ×
    WriteScript (Protection C) × List (FlushItem (Protection C)) :=
  (e.outbound, e.closed, e.held, e.owed, e.queued, e.writes, e.flushes)

theorem Ready.of_desk {e next : Endpoint C} (hready : e.Ready) (hsame : next.desk = e.desk) :
    next.Ready := by
  simp only [desk, Prod.mk.injEq] at hsame
  obtain ⟨-, hclosed, hheld, howed, hqueued, hwrites, hflushes⟩ := hsame
  exact ⟨hclosed.trans hready.opened, hheld.trans hready.held, howed.trans hready.owed,
    hqueued.trans hready.queued, hwrites ▸ hready.writes, hflushes ▸ hready.flushes⟩

theorem Ready.relane {e : Endpoint C} (hready : e.Ready) (lane : Lane C) :
    { e with outbound := lane }.Ready :=
  ⟨hready.opened, hready.held, hready.owed, hready.queued, hready.writes, hready.flushes⟩

theorem Carried.of_desk {e next : Endpoint C} {octets rest : Bytes} (hready : e.Ready)
    (hsame : next.desk = e.desk)
    (haccepted : next.acceptedBytes ++ rest = e.acceptedBytes ++ octets) :
    Carried e octets rest next :=
  ⟨haccepted, congrArg (·.1) hsame, hready.of_desk hsame⟩

theorem carried_accept {e : Endpoint C} (hready : e.Ready) (octets : Bytes) (count : Nat) :
    Carried e octets (octets.drop count)
      { e with accepted := octets.take count :: e.accepted } :=
  .of_desk hready rfl (by simp [acceptedBytes])

theorem carried_act {e : Endpoint C} (hready : e.Ready) (octets : Bytes) (reader : ReaderState)
    {action : Action (Protection C)} (haction : (WriteItem.act action).Healthy) :
    Carried e octets octets (e.act reader action) := by
  cases action with
  | close => cases haction
  | installInbound protection => cases reader <;> exact .of_desk hready rfl rfl
  | setKeepAlive interval handler => exact .of_desk hready rfl rfl

/-- Sending did not fail, and these octets are left. -/
inductive Leaves : Progress → Bytes → Prop where
  | sent : Leaves .sent []
  | blocked (shipment : Shipment) : Leaves (.blocked shipment) shipment.rest

theorem leaves_await {e : Endpoint C} (hready : e.Ready) (rest : Bytes) (attempt pause : Alarm) :
    Leaves (e.await rest attempt pause) rest := by
  unfold await
  rw [hready.opened]
  split
  · exact .blocked ⟨rest, attempt, pause.earlier attempt⟩
  · exact .blocked ⟨rest, e.attempt, pause.earlier e.attempt⟩

/-- Sending on a healthy stream comes as far as the stream is ready for. -/
theorem transmit_of_healthy {items : WriteScript (Protection C)}
    (hitems : WriteScript.Healthy items) {e : Endpoint C} (hready : e.Ready)
    (reader : ReaderState) (octets : Bytes) (attempt : Alarm) :
    ∃ rest, Leaves (transmit reader items octets attempt e).1 rest ∧
      WriteScript.Healthy (transmit reader items octets attempt e).2.1 ∧
      Carried e octets rest (transmit reader items octets attempt e).2.2 := by
  induction items generalizing octets attempt e with
  | nil =>
      refine ⟨[], .sent, hitems, ?_⟩
      exact .of_desk hready rfl (by simp [transmit, acceptedBytes])
  | cons item items ih =>
      have hitem := hitems item List.mem_cons_self
      have htail := hitems.tail
      cases item with
      | accept count =>
          have haccepted := carried_accept hready octets count
          unfold transmit
          dsimp only
          rw [if_neg hitem]
          split
          next hall =>
            rw [List.drop_of_length_le hall] at haccepted
            exact ⟨[], .sent, htail, haccepted⟩
          next hsome =>
            rw [if_neg (by simp [hready.opened])]
            obtain ⟨rest, hleaves, hleft, hcarried⟩ := ih htail haccepted.ready _ _
            exact ⟨rest, hleaves, hleft, haccepted.trans hcarried⟩
      | fail failure =>
          unfold transmit
          have htransient : failure.kind.isTransient = true := hitem
          rw [if_neg (not_not.mpr htransient), if_neg (by simp [hready.opened])]
          exact ih htail hready octets _
      | pause milliseconds =>
          unfold transmit
          split
          · exact ih htail hready octets attempt
          · exact ⟨octets, leaves_await hready _ _ _, .cons trivial htail, .refl hready octets⟩
      | resumeAt pause =>
          unfold transmit
          split
          · exact ih htail hready octets attempt
          · exact ⟨octets, leaves_await hready _ _ _, hitems, .refl hready octets⟩
      | act action =>
          have hacted := carried_act hready octets reader hitem
          obtain ⟨rest, hleaves, hleft, hcarried⟩ := ih htail hacted.ready octets attempt
          exact ⟨rest, hleaves, hleft, hacted.trans hcarried⟩

theorem proceed_of_ready {e : Endpoint C} (hready : e.Ready) (reader : ReaderState)
    (octets : Bytes) (attempt : Alarm) :
    ∃ rest, Leaves (proceed reader octets attempt e).1 rest ∧
      Carried e octets rest (proceed reader octets attempt e).2 := by
  unfold proceed
  split
  next hempty =>
    obtain rfl := List.isEmpty_iff.mp hempty
    exact ⟨[], .sent, .refl hready []⟩
  next hsome =>
    obtain ⟨rest, hleaves, hleft, hcarried⟩ :=
      transmit_of_healthy hready.writes hready reader octets attempt
    obtain ⟨haccepted, houtbound, hopen, hheld, howed, hqueued, -, hflushes⟩ := hcarried
    exact ⟨rest, hleaves, haccepted, houtbound, hopen, hheld, howed, hqueued, hleft, hflushes⟩

theorem sendBefore_of_ready {e : Endpoint C} (hready : e.Ready) (attempt : Alarm)
    (octets : Bytes) :
    ∃ next, sendBefore attempt octets e = (.ok (), next) ∧ Carried e octets [] next := by
  fun_induction sendBefore attempt octets e with
  | case1 attempt octets e next houtcome =>
      obtain ⟨rest, hleaves, hcarried⟩ := proceed_of_ready hready .idle octets attempt
      rw [houtcome] at hleaves hcarried
      cases hleaves
      exact ⟨next, rfl, hcarried⟩
  | case2 attempt octets e fault next houtcome =>
      obtain ⟨rest, hleaves, -⟩ := proceed_of_ready hready .idle octets attempt
      rw [houtcome] at hleaves
      cases hleaves
  | case3 attempt octets e shipment next houtcome ih =>
      obtain ⟨rest, hleaves, hcarried⟩ := proceed_of_ready hready .idle octets attempt
      rw [houtcome] at hleaves hcarried
      cases hleaves
      have hlater : Carried next shipment.rest shipment.rest
          (next.advanceTo shipment.wake.time) := .of_desk hcarried.ready rfl rfl
      obtain ⟨last, hsend, hlast⟩ := ih hlater.ready
      exact ⟨last, hsend, (hcarried.trans hlater).trans hlast⟩

theorem desk_dump (direction : Direction) (bytes : Bytes) (e : Endpoint C) :
    (e.dump direction bytes).desk = e.desk ∧
      (e.dump direction bytes).acceptedBytes = e.acceptedBytes := by
  unfold dump
  split <;> exact ⟨rfl, rfl⟩

theorem flush_of_ready {e : Endpoint C} (hready : e.Ready) :
    ∃ next, flush e = (.ok (), next) ∧ Carried e [] [] next := by
  have hcarried : Carried e [] [] { e with flushes := e.flushes.tail } := by
    refine ⟨rfl, rfl, hready.opened, hready.held, hready.owed, hready.queued, hready.writes, ?_⟩
    exact fun failure hmem => hready.flushes failure (List.mem_of_mem_tail hmem)
  refine ⟨_, ?_, hcarried⟩
  unfold flush
  split
  next failure flushes hscript =>
    exact absurd (hscript ▸ List.mem_cons_self) (hready.flushes failure)
  next => rfl

theorem carried_accountSent {e : Endpoint C} (hready : e.Ready) (bytes : Nat) :
    Carried e [] [] (e.accountSent bytes) := by
  unfold accountSent
  dsimp only
  split <;> exact .of_desk hready rfl rfl

theorem completePacket_of_ready {e : Endpoint C} (hready : e.Ready) (frameLength : Nat) :
    ∃ next, completePacket frameLength e = (.ok (), next) ∧ Carried e [] [] next := by
  obtain ⟨flushed, hflush, hcarried⟩ := flush_of_ready hready
  rw [completePacket, Act.bind_of_ok hflush]
  exact ⟨_, rfl, hcarried.trans (carried_accountSent hcarried.ready frameLength)⟩

variable [BlockCipher C]

theorem upkeep_of_ready {e : Endpoint C} (hready : e.Ready) (reader : ReaderState) :
    e.upkeep reader = e := by
  obtain ⟨hopen, hheld, howed, hqueued, -, -⟩ := hready
  cases e
  subst hopen hheld howed hqueued
  rfl

theorem awaitOutbound_of_ready {e : Endpoint C} (hready : e.Ready) :
    e.awaitOutbound = { e with turn := .admitted } := by
  rw [awaitOutbound]
  split
  next => rw [upkeep_of_ready hready]
  next message hoccupied =>
    rw [upkeep_of_ready hready, hready.held] at hoccupied
    cases hoccupied

theorem sealPacket_of_seals {e : Endpoint C} (hready : e.Ready) {payload packet wire : Bytes}
    {padding : ByteSource} {lane : Lane C}
    (hframe : frame payload e.outbound.blockSize e.padding = (.ok packet, padding))
    (hseals : e.outbound.Seals packet wire lane) :
    ∃ next, sealPacket payload e = (.ok ⟨wire, packet.length⟩, next) ∧
      next.acceptedBytes = e.acceptedBytes ∧ next.outbound = lane ∧ next.Ready := by
  have hframed : frameOutbound payload e = (.ok packet, { e with padding }) := by
    simp [frameOutbound, hframe]
  obtain @⟨tag, enciphered, next, hsign, hencipher⟩ := hseals
  unfold sealPacket
  rw [Act.bind_of_ok hframed, Act.update_bind, Act.update_bind, Act.ask_bind, id]
  generalize hnoted : note (.packet .outbound (MessageType.describePayload payload) packet.length)
    { e with padding } = noted
  obtain ⟨hdesk, haccepted⟩ := desk_dump .outbound packet noted
  generalize dump .outbound packet noted = dumped at hdesk haccepted
  have hbefore : noted.desk = e.desk ∧ noted.acceptedBytes = e.acceptedBytes := by
    rw [← hnoted]
    exact ⟨rfl, rfl⟩
  have hcarried : Carried e [] [] dumped :=
    .of_desk hready (hdesk.trans hbefore.1) (by rw [haccepted, hbefore.2])
  rw [← hcarried.outbound] at hsign hencipher
  rw [hsign, Act.ofExcept_ok_bind]
  have henciphered : encipher packet dumped =
      (.ok enciphered, { dumped with outbound := next }) := by
    simp [encipher, hencipher]
  rw [Act.bind_of_ok henciphered]
  refine ⟨_, rfl, ?_, rfl, hcarried.ready.relane _⟩
  exact haccepted.trans hbefore.2

/-- A message that can be framed and sealed is written. -/
theorem write_of_seals {e : Endpoint C} (hready : e.Ready) {payload packet wire : Bytes}
    {padding : ByteSource} {lane : Lane C}
    (hframe : frame payload e.outbound.blockSize e.padding = (.ok packet, padding))
    (hseals : e.outbound.Seals packet wire lane) :
    ∃ next, write payload e = (.ok (), next) ∧
      next.acceptedBytes = e.acceptedBytes ++ wire ∧ next.outbound = lane ∧ next.Ready := by
  have hadmitted : Ready { e with turn := .admitted } := hready.of_desk rfl
  obtain ⟨packed, hseal, hbefore, hlane, hpacked⟩ := sealPacket_of_seals hadmitted hframe hseals
  obtain ⟨sent, hsend, hsent⟩ := sendBefore_of_ready hpacked packed.attempt wire
  obtain ⟨last, hcomplete, hlast⟩ := completePacket_of_ready hsent.ready packet.length
  have hsendPacket : sendPacket payload { e with turn := .admitted } = (.ok (), last) := by
    have hsendAll : sendAll wire packed = (.ok (), sent) := hsend
    unfold sendPacket
    rw [Act.bind_of_ok hseal]
    dsimp only
    rw [Act.bind_of_ok hsendAll, hcomplete]
  refine ⟨last, ?_, ?_, ?_, hlast.ready⟩
  · rw [write, if_neg (by simp [hready.opened]), awaitOutbound_of_ready hready, Act.noting,
      hsendPacket]
  · have haccepted := hsent.accepted
    have hcompleted := hlast.accepted
    rw [List.append_nil] at haccepted hcompleted
    rw [hcompleted, List.append_nil, haccepted, hbefore]
    rfl
  · rw [hlast.outbound, hsent.outbound, hlane]

/-- A line is written as it stands. -/
theorem writeBanner_of_ready {e : Endpoint C} (hready : e.Ready) (line : String) :
    ∃ next, writeBanner line e = (.ok (), next) ∧
      next.acceptedBytes = e.acceptedBytes ++ Text.Utf8.encode line := by
  have hadmitted : Ready { e with turn := .admitted } := hready.of_desk rfl
  obtain ⟨sent, hsend, hsent⟩ :=
    sendBefore_of_ready hadmitted (attempt { e with turn := .admitted }) (Text.Utf8.encode line)
  obtain ⟨last, hflush, hlast⟩ := flush_of_ready hsent.ready
  have hsendAll : sendAll (Text.Utf8.encode line) { e with turn := .admitted } = (.ok (), sent) :=
    hsend
  refine ⟨last, ?_, ?_⟩
  · rw [writeBanner, if_neg (by simp [hready.opened]), awaitOutbound_of_ready hready, sendLine,
      Act.bind_of_ok hsendAll, hflush]
  · have haccepted := hsent.accepted
    have hflushed := hlast.accepted
    rw [List.append_nil] at haccepted hflushed
    rw [hflushed, List.append_nil, haccepted]
    rfl

end Endpoint

end PacketLayer
