import Mathlib.Algebra.GroupWithZero.Nat
import PacketLayer.Proofs.Course.Runs

/-! # What lasts

Whatever an endpoint does, its settings stay, it stays closed once it is closed, and its
outbound lane counts no packets but the messages that it seals: those that it is asked to
write, and keep-alive messages, each of which takes filler from the noise.
-/

namespace PacketLayer

variable {C : Type}

namespace Endpoint

/-- One endpoint comes of another that has sealed `own` messages of its own and, beside them,
some of the keep-alive messages that were made. -/
structure Lasts (own : Nat) (e next : Endpoint C) : Prop where
  config : next.config = e.config
  closed : e.closed = true → next.closed = true
  counts : ∃ made kept, kept ≤ made ∧
    next.noise.position = e.noise.position + keepAliveDataLength * made ∧
    next.outbound.sequence.value = e.outbound.sequence.value + UInt32.ofNat (own + kept)

/-- All that has to last, for as long as nothing is sealed. -/
def lasting (e : Endpoint C) : Config × Bool × ByteSource × SequenceNumber :=
  (e.config, e.closed, e.noise, e.outbound.sequence)

namespace Lasts

variable {own : Nat} {e middle next : Endpoint C}

theorem of_lasting (hsame : next.lasting = e.lasting) : Lasts 0 e next := by
  simp only [lasting, Prod.mk.injEq] at hsame
  obtain ⟨hconfig, hclosed, hnoise, hsequence⟩ := hsame
  refine ⟨hconfig, hclosed.trans, 0, 0, Nat.le_refl 0, by rw [hnoise]; rfl, ?_⟩
  rw [hsequence]
  exact (UInt32.add_zero _).symm

theorem refl (e : Endpoint C) : Lasts 0 e e :=
  of_lasting rfl

theorem trans {more : Nat} (hfirst : Lasts own e middle) (hsecond : Lasts more middle next) :
    Lasts (own + more) e next := by
  obtain ⟨hconfig, hclosed, made, kept, hkept, hnoise, hsequence⟩ := hfirst
  obtain ⟨hconfig', hclosed', made', kept', hkept', hnoise', hsequence'⟩ := hsecond
  refine ⟨hconfig'.trans hconfig, fun h => hclosed' (hclosed h), made + made', kept + kept',
    Nat.add_le_add hkept hkept', ?_, ?_⟩
  · rw [hnoise', hnoise, Nat.mul_add, Nat.add_assoc]
  · rw [hsequence', hsequence, UInt32.add_assoc, ← UInt32.ofNat_add]
    congr 2
    omega

theorem after (hfirst : Lasts 0 e middle) (hsecond : Lasts own middle next) :
    Lasts own e next :=
  Nat.zero_add own ▸ hfirst.trans hsecond

end Lasts

/-- An operation that seals no message of its own. -/
def Act.Lasting {α : Type} (m : Act C α) : Prop :=
  ∀ e, Lasts 0 e (m e).2

theorem Act.Lasting.bind {α β : Type} {m : Act C α} {f : α → Act C β} (hm : m.Lasting)
    (hf : ∀ a, (f a).Lasting) : (m >>= f).Lasting := by
  intro e
  have hfirst := hm e
  rcases houtcome : m e with ⟨fault | a, next⟩
  · rw [bind_of_error houtcome]
    rwa [houtcome] at hfirst
  · rw [bind_of_ok houtcome]
    rw [houtcome] at hfirst
    exact hfirst.after (hf a next)

end Endpoint

open Endpoint

/-- How many numbers a deed takes for a message that an operation is asked to write. -/
def Deed.own : Deed C → Nat
  | sealed (some _) _ _ _ => 1
  | _ => 0

variable [BlockCipher C]

theorem Does.lasts {here there : Stage C} {deed : Deed C} (hdoes : Does here deed there) :
    Lasts deed.own here.endpoint there.endpoint := by
  cases hdoes with
  | aside hsight => exact .of_lasting (view_of_sight lasting (fun _ => rfl) hsight)
  | completed => exact .of_lasting (view_completed lasting (fun _ _ _ _ _ => rfl) _ _)
  | stopped _ _ hbreaks => cases hbreaks <;> exact .of_lasting rfl
  | declined _ hdrafts hdeclines =>
      cases hdrafts with
      | own =>
          refine .of_lasting ?_
          simp only [lasting, hdeclines.sequence_eq]
      | keepAlive =>
          refine ⟨rfl, id, 1, 0, Nat.zero_le 1, rfl, ?_⟩
          simp only [hdeclines.sequence_eq]
          exact (UInt32.add_zero _).symm
  | sealed _ hdrafts _ hseals =>
      have hnumber := congrArg SequenceNumber.value hseals.sequence_eq
      cases hdrafts with
      | own => exact ⟨rfl, id, 0, 0, Nat.le_refl 0, rfl, hnumber⟩
      | keepAlive => exact ⟨rfl, id, 1, 1, Nat.le_refl 1, rfl, hnumber⟩
  | @acted _ _ action =>
      cases action with
      | close => exact ⟨rfl, fun _ => rfl, (Lasts.refl here.endpoint).counts⟩
      | installInbound => cases here.reader <;> exact .of_lasting rfl
      | setKeepAlive => exact .of_lasting rfl
  | activated => exact .of_lasting (view_activateParked lasting (fun _ _ _ _ _ _ => rfl) _)
  | admitted =>
      exact .of_lasting (view_admitKeepAlives lasting (fun _ => rfl) (fun _ _ _ _ => rfl) _)
  | @attempted _ attempt =>
      obtain ⟨keepAlive, fired, owed, closed, journal, hstill, hended⟩ :=
        endAttempt_eq attempt here.endpoint
      dsimp only
      rw [hended]
      exact ⟨rfl, hstill, (Lasts.refl here.endpoint).counts⟩
  | verified => exact .of_lasting (view_accountReceived lasting (fun _ _ _ _ => rfl) _ _)
  | supplied _ hsupplies => cases hsupplies <;> exact .of_lasting rfl
  | _ => exact .of_lasting rfl

theorem Course.lasts {s next : Stage C} {deeds : List (Deed C)}
    (hcourse : Course s deeds next) :
    Lasts (deeds.map Deed.own).sum s.endpoint next.endpoint := by
  induction hcourse with
  | done s => exact .refl _
  | step hdoes _ ih =>
      rw [List.map_cons, List.sum_cons]
      exact hdoes.lasts.trans ih

/-- Within an operation no other one is begun. -/
theorem Does.ordered_of_inside {here there : Stage C} {deed : Deed C} (hdoes : Does here deed there)
    (hinside : deed.Inside) {operation : Operation (Protection C)}
    (hphase : there.phase = .ordered operation) : here.phase = .ordered operation := by
  cases hdoes with
  | asked => exact False.elim hinside
  | stopped _ _ hbreaks => cases hbreaks <;> exact hphase
  | declined _ hdrafts _ | sealed _ hdrafts _ _ =>
      cases hdrafts with
      | own => cases hphase
      | keepAlive => exact hphase
  | acted hmeets =>
      cases hmeets with
      | operation => cases hphase
      | reads | writes => exact hphase
  | supplied _ hsupplies => cases hsupplies <;> cases hphase
  | _ => first | exact hphase | cases hphase

/-- An operation other than a write seals no message of its own. -/
theorem Leads.lasts {s next : Stage C} {tidings : List Tiding} (hleads : Leads s tidings next)
    (hphase : ∀ payload, s.phase ≠ .ordered (.write payload)) :
    Lasts 0 s.endpoint next.endpoint := by
  obtain ⟨deeds, hcourse, -, hdeeds⟩ := hleads
  induction hcourse with
  | done s => exact .refl _
  | @step s middle next deed deeds hdoes _ ih =>
      obtain ⟨hinside, hrest⟩ := List.forall_mem_cons.mp hdeeds
      have hown : deed.own = 0 := by
        cases hdoes with
        | sealed _ hdrafts =>
            cases hdrafts with
            | own hwrite => exact absurd hwrite (hphase _)
            | keepAlive => rfl
        | _ => rfl
      exact Lasts.after (hown ▸ hdoes.lasts)
        (ih (fun payload hwrite => hphase payload (hdoes.ordered_of_inside hinside hwrite)) hrest)

namespace Endpoint

/-! ## Sending -/

/-- How many numbers it takes to seal a message. -/
def sealings (payload : Bytes) (e : Endpoint C) : Nat :=
  if (sealPacket payload e).1.isOk then 1 else 0

theorem lasts_sealPacket (payload : Bytes) (e : Endpoint C) :
    Lasts (sealings payload e) e (sealPacket payload e).2 := by
  have hsealing : Sealing (some (.message payload)) payload
      ⟨e, .ordered (.write payload), [], [], none⟩ ⟨e, .free, [], [], none⟩
      (sealPacket payload e) :=
    sealing_sealPacket rfl (.own rfl)
  unfold sealings
  rcases houtcome : sealPacket payload e with ⟨result, next⟩
  rw [houtcome] at hsealing
  cases hsealing with
  | declined _ hcourse => exact hcourse.lasts
  | made _ hcourse => exact hcourse.lasts

/-- Looking after keep-alive messages does not seal a message that was asked for. -/
theorem lasts_of_tends {s next : Stage C} {tidings : List Tiding}
    (hpasses : Passes Deed.Tends s tidings next)
    (hphase : ∀ payload, s.phase ≠ .ordered (.write payload)) :
    Lasts 0 s.endpoint next.endpoint :=
  Leads.lasts (hpasses.mono fun htends => htends.writes.inside) hphase

theorem lasting_sendAll (octets : Bytes) : Act.Lasting (C := C) (sendAll octets) := by
  intro e
  have hsending := sending_sendBefore (s := e.during .free) rfl (fun _ => trivial)
    (.message []) none e.attempt octets e
  unfold sendAll
  generalize sendBefore e.attempt octets e = outcome at hsending
  cases hsending with
  | sent hpasses | stopped hpasses => exact lasts_of_tends hpasses nofun

omit [BlockCipher C] in
theorem lasting_flush : (flush : Act C Unit).Lasting := by
  intro e
  obtain ⟨flushes, hflush⟩ := flush_eq e
  rw [hflush]
  exact .of_lasting rfl

theorem lasting_completePacket (frameLength : Nat) :
    (completePacket frameLength : Act C Unit).Lasting := by
  intro e
  have hpasses := passes_completePacket (s := e.during .free) none frameLength e.writes
    (e := e) trivial
  exact lasts_of_tends (hpasses.mono Deed.Sends.tends) nofun

theorem lasts_settleKeepAlive (frameLength : Nat) (outcome : Progress × Endpoint C) :
    Lasts 0 outcome.2 (settleKeepAlive frameLength outcome) := by
  have hreported (outcome : Except Fault Unit × Endpoint C) :
      Lasts 0 outcome.2 (reportKeepAlive outcome) :=
    .of_lasting (view_of_sight lasting (fun _ => rfl) (sight_reportKeepAlive outcome))
  obtain ⟨progress, e⟩ := outcome
  cases progress with
  | sent => exact (lasting_completePacket frameLength e).after (hreported _)
  | failed fault => exact hreported (.error fault, e)
  | blocked shipment => exact .of_lasting rfl

theorem lasts_admitKeepAlives (e : Endpoint C) : Lasts 0 e e.admitKeepAlives := by
  have hpasses := passes_admitKeepAlives (s := e.during .free) (e := e) trivial
  exact lasts_of_tends hpasses nofun

theorem lasts_beginKeepAlives (reader : ReaderState) (turn : Nat → Turn) {count : Nat}
    {e : Endpoint C} (howed : e.owed = 0) (hqueued : e.queued = count) :
    Lasts 0 e (e.beginKeepAlives reader turn count) := by
  have hpasses := passes_beginKeepAlives (reader_waiting reader (e.now + 1) e) turn count
    (pausing_waiting reader (Nat.lt_succ_self e.now) e) howed hqueued
  cases reader <;> exact lasts_of_tends hpasses.1 nofun

theorem lasts_upkeep (reader : ReaderState) (e : Endpoint C) : Lasts 0 e (e.upkeep reader) := by
  have hpasses := waits_upkeep reader e
  cases reader <;> exact lasts_of_tends hpasses nofun

theorem lasts_waitUntil (reader : ReaderState) (time : Nat) (e : Endpoint C) :
    Lasts 0 e (e.waitUntil reader time) := by
  have hpasses := waits_waitUntil reader time e
  cases reader <;> exact lasts_of_tends hpasses nofun

theorem lasts_awaitOutbound (e : Endpoint C) : Lasts 0 e e.awaitOutbound := by
  have hpasses := passes_awaitOutbound (s := e.during .free) rfl (fun _ => trivial) e
  exact lasts_of_tends hpasses.1 nofun

/-! ## Reading -/

theorem lasts_arrive (want deadline : Nat) (items : ReadScript (Protection C)) (e : Endpoint C) :
    Lasts 0 e (arrive want deadline items e).2.2 := by
  have hpasses : Passes Deed.Follows
      (e.midway ⟨.line, some ⟨.line, want, .finished, []⟩, [], none⟩ items) [] _ :=
    passes_arrive rfl deadline items e
  exact (hpasses.mono Deed.Follows.awaits).leads.lasts nofun

theorem lasts_receive {want limit : Nat} {arrival : Arrival} {e next : Endpoint C}
    (hattempt : e.receive want limit = (arrival, next)) : Lasts 0 e next := by
  obtain rfl : (e.receive want limit).2 = next := congrArg Prod.snd hattempt
  exact (lasts_arrive want (e.now + limit) e.reads e).after (.of_lasting rfl)

theorem lasting_fill (raw : Bytes) (count : Nat) :
    Act.Lasting (fill raw count : Act C (Option Bytes)) := by
  intro e
  obtain ⟨octets, hpasses, -⟩ := passes_fill e.inbound [] raw count e
  exact hpasses.leads.lasts nofun

theorem lasting_awaitFirstBlock (raw : Bytes) :
    Act.Lasting (awaitFirstBlock raw : Act C (Option Bytes)) := by
  intro e
  have hawaited := awaited_awaitFirstBlock raw e
  generalize awaitFirstBlock raw e = outcome at hawaited
  cases hawaited with
  | begun hleads | missed hleads => exact hleads.lasts nofun

omit [BlockCipher C] in
theorem lasting_ofExcept {α : Type} (result : Except Fault α) :
    (Act.ofExcept result : Act C α).Lasting :=
  fun e => .refl e

omit [BlockCipher C] in
theorem lasting_ask {α : Type} (f : Endpoint C → α) : (Act.ask f).Lasting :=
  fun e => .refl e

omit [BlockCipher C] in
theorem lasting_pure {α : Type} (a : α) : (pure a : Act C α).Lasting :=
  fun e => .refl e

theorem lasting_decipher (data : Bytes) : (decipher data : Act C Bytes).Lasting :=
  fun _ => .of_lasting rfl

omit [BlockCipher C] in
theorem lasting_verify (expected received : Bytes) :
    (verify expected received : Act C Unit).Lasting := by
  intro e
  unfold verify
  split <;> exact .refl e

omit [BlockCipher C] in
theorem lasts_dump (direction : Direction) (bytes : Bytes) :
    (Act.update (dump direction bytes) : Act C Unit).Lasting :=
  fun e => .of_lasting (view_of_sight lasting (fun _ => rfl) (sight_dump direction bytes e))

omit [BlockCipher C] in
theorem lasting_deliver (header : Header) (frame : Bytes) :
    (deliver header frame : Act C Packet).Lasting := by
  refine .bind (lasting_ask id) fun e => .bind (fun _ => .of_lasting rfl) fun _ => ?_
  refine .bind (fun _ => .of_lasting rfl) fun _ => .bind (fun e => .of_lasting ?_) fun _ =>
    lasting_pure _
  unfold accountReceived
  dsimp only
  split <;> rfl

theorem lasting_read : (read : Act C (Option Packet)).Lasting :=
  fun e => (leads_read e).lasts nofun

theorem lasts_readLine (deadline : Option Nat) (line : Bytes) (e : Endpoint C) :
    Lasts 0 e (readLine deadline line e).2 := by
  obtain ⟨octets, hpasses⟩ := passes_readLine [] deadline line e
  exact hpasses.leads.lasts nofun

/-! ## Runs -/

/-- How many numbers an operation takes for a message that it is asked to write. -/
def taken (operation : Operation (Protection C)) (e : Endpoint C) : Nat :=
  match operation with
  | .write payload => if e.closed then 0 else sealings payload e.countOperation.awaitOutbound
  | _ => 0

theorem lasts_sendPacket (payload : Bytes) (e : Endpoint C) :
    Lasts (sealings payload e) e (sendPacket payload e).2 := by
  have hsealed := lasts_sealPacket payload e
  unfold sendPacket
  rcases houtcome : sealPacket payload e with ⟨fault | packet, next⟩
  all_goals rw [houtcome] at hsealed
  · rw [Act.bind_of_error houtcome]
    exact hsealed
  · rw [Act.bind_of_ok houtcome]
    exact hsealed.trans (Act.Lasting.bind (lasting_sendAll packet.bytes)
      (fun _ => lasting_completePacket packet.frameLength) next)

theorem lasts_write (payload : Bytes) (e : Endpoint C) :
    Lasts (if e.closed then 0 else sealings payload e.awaitOutbound) e (write payload e).2 := by
  unfold write
  split
  · exact .refl e
  have hsent := (lasts_awaitOutbound e).after (lasts_sendPacket payload e.awaitOutbound)
  unfold Act.noting
  split
  next houtcome => rwa [houtcome] at hsent
  next fault next houtcome =>
    rw [houtcome] at hsent
    have hnoted : Lasts 0 next (next.note (.failure .outbound fault.message)) := .of_lasting rfl
    exact hsent.trans hnoted

theorem lasts_perform (operation : Operation (Protection C)) (e : Endpoint C) :
    Lasts (taken operation e) e (perform operation e).2 := by
  have hother (hwrite : ∀ payload, operation ≠ .write payload) :
      Lasts 0 e (perform operation e).2 :=
    (leads_perform operation e).lasts fun payload hphase =>
      hwrite payload (Phase.ordered.inj hphase)
  cases operation with
  | write payload =>
      have hcounted : Lasts 0 e e.countOperation := .of_lasting rfl
      have hstart : start (.write payload) e.countOperation = _ :=
        Act.bind_pure_eq (write payload) (fun _ => Reply.done) e.countOperation
      unfold perform
      rw [hstart]
      exact (hcounted.after (lasts_write payload e.countOperation)).trans (lasts_upkeep .idle _)
  | _ => exact hother nofun

/-- How many numbers a run takes for the messages that it is asked to write. -/
def takenByRun : List (Operation (Protection C)) → Endpoint C → Nat
  | [], _ => 0
  | operation :: operations, e =>
      taken operation e + takenByRun operations (perform operation e).2

theorem lasts_run (operations : List (Operation (Protection C))) (e : Endpoint C) :
    Lasts (takenByRun operations e) e (run operations e).2 := by
  induction operations generalizing e with
  | nil => exact .refl e
  | cons operation operations ih => exact (lasts_perform operation e).trans (ih _)

end Endpoint

end PacketLayer
