import PacketLayer.Proofs.Course.Runs

/-! # Traces of runs

A trace shows of the deeds of an endpoint those that bear on requests for new keys and on
keep-alive. So every operation leaves a trace, as it takes the endpoint along a course of
deeds, and the trace of a run is put together from the traces of its operations.
-/

namespace PacketLayer

variable {C : Type}

/-- The attempt to read that is under way. -/
def Stage.attempt (s : Stage C) : Option (Attempt C) :=
  match s.phase with
  | .reading intake => intake.attempt
  | .free | .ordered _ => none

/-- What a trace shows of a stage. -/
def Stage.scene (s : Stage C) : Scene C :=
  ⟨s.attempt, s.endpoint⟩

namespace Endpoint

/-- What a trace depends on shows in the sight of an endpoint. -/
theorem watch_sight (e : Endpoint C) : e.sight.watch = e.watch := by
  simp [watch, sight]

end Endpoint

variable [BlockCipher C]

theorem Lane.Declines.isProtected_eq {lane next : Lane C} {payload : Bytes} {fault : Fault}
    (hdeclines : lane.Declines payload fault next) : next.isProtected = lane.isProtected := by
  cases hdeclines with
  | tooLong | unsigned => rfl
  | @unciphered frame _ _ _ _ _ hencipher =>
      have hsame := lane.isProtected_apply frame
      rwa [hencipher] at hsame

theorem Lane.Seals.isProtected_eq {lane next : Lane C} {frame wire : Bytes}
    (hseals : lane.Seals frame wire next) : next.isProtected = lane.isProtected := by
  obtain ⟨-, hencipher⟩ := hseals
  have hsame := lane.isProtected_apply frame
  rwa [hencipher] at hsame

namespace Endpoint

/-- Some trace leads from one endpoint to another, within an attempt to read or outside of
any. -/
def Evolves (attempt : Option (Attempt C)) (e next : Endpoint C) : Prop :=
  ∃ incidents, Trace ⟨attempt, e⟩ incidents ⟨attempt, next⟩

variable {attempt : Option (Attempt C)} {e middle next : Endpoint C}

namespace Evolves

theorem of_watch (hwatch : next.watch = e.watch) : Evolves attempt e next :=
  ⟨[], .aside hwatch (.done _)⟩

theorem refl (e : Endpoint C) : Evolves attempt e e :=
  of_watch rfl

theorem of_happens {incident : Incident C}
    (hhappens : Happens ⟨attempt, e⟩ incident ⟨attempt, next⟩) : Evolves attempt e next :=
  ⟨[incident], .single hhappens⟩

theorem trans (hfirst : Evolves attempt e middle) (hsecond : Evolves attempt middle next) :
    Evolves attempt e next := by
  obtain ⟨first, hfirst⟩ := hfirst
  obtain ⟨second, hsecond⟩ := hsecond
  exact ⟨first ++ second, hfirst.append hsecond⟩

end Evolves

theorem evolves_act (reader : ReaderState) (action : Action (Protection C)) (e : Endpoint C) :
    Evolves attempt e (e.act reader action) := by
  cases action with
  | close => exact .of_happens (.closed e)
  | setKeepAlive interval handler => exact .of_happens (.configured interval handler e)
  | installInbound protection =>
      cases reader with
      | idle =>
          have hdropped : Evolves attempt e { e with parked := none } := .of_watch rfl
          exact hdropped.trans (.of_happens (.installedInbound protection _))
      | busy => exact .of_watch ((view_of_sight watch watch_sight (sight_note rfl _)).trans rfl)

theorem evolves_activateParked (e : Endpoint C) : Evolves attempt e e.activateParked := by
  unfold activateParked
  split
  · exact .refl e
  next protection _ =>
    have htaken : Evolves attempt e { e with parked := none } := .of_watch rfl
    exact htaken.trans (.of_happens (.installedInbound protection _))

theorem evolves_countSent (frameLength : Option Nat) (e : Endpoint C) :
    Evolves attempt e (e.countSent frameLength) := by
  cases frameLength with
  | none => exact .refl e
  | some length => exact .of_happens (.sent length e)

end Endpoint

open Endpoint

/-- Every deed leaves a trace, if only an empty one. -/
theorem Does.trace {here there : Stage C} {deed : Deed C} (hdoes : Does here deed there) :
    ∃ incidents, Trace here.scene incidents there.scene := by
  have hwithin {next : Stage C} (hattempt : next.attempt = here.attempt)
      (hevolves : Evolves here.attempt here.endpoint next.endpoint) :
      ∃ incidents, Trace here.scene incidents next.scene := by
    unfold Stage.scene
    rw [hattempt]
    exact hevolves
  have hordered {operation : Operation (Protection C)} (hphase : here.phase = .ordered operation) :
      none = here.attempt := by
    rw [Stage.attempt, hphase]
  have hreading {intake : Intake C} (hphase : here.phase = .reading intake) :
      intake.attempt = here.attempt := by
    rw [Stage.attempt, hphase]
  cases hdoes with
  | asked _ hphase =>
      refine hwithin ?_ (.refl _)
      rw [Stage.attempt, Stage.attempt, hphase]
  | turnedAway hphase | lined hphase | unread hphase | reading hphase | listening hphase =>
      exact hwithin (hordered hphase) (.refl _)
  | leapt hphase => exact hwithin (hordered hphase) (.of_happens (.elapsed _ _))
  | replaced hphase => exact hwithin (hordered hphase) (.of_happens (.installedOutbound _ _))
  | declined _ hdrafts hdeclines =>
      have hprotected := hdeclines.isProtected_eq
      cases hdrafts with
      | own hphase =>
          exact hwithin (hordered hphase) (.of_watch (by simp [watch, hprotected]))
      | keepAlive => exact hwithin rfl (.of_watch (by simp [watch, hprotected]))
  | sealed _ hdrafts _ hseals =>
      have hprotected := hseals.isProtected_eq
      cases hdrafts with
      | own hphase =>
          exact hwithin (hordered hphase) (.of_watch (by simp [watch, hprotected]))
      | keepAlive => exact hwithin rfl (.of_watch (by simp [watch, hprotected]))
  | @completed _ frameLength =>
      obtain ⟨flushes, hflush⟩ := flush_eq here.endpoint
      have hflushed : Evolves here.attempt here.endpoint (flush here.endpoint).2 := by
        rw [hflush]
        exact .of_watch rfl
      exact hwithin rfl (hflushed.trans (evolves_countSent frameLength _))
  | stopped _ _ hbreaks => cases hbreaks <;> exact hwithin rfl (.of_watch rfl)
  | waited | stalled => exact hwithin rfl (.of_happens (.elapsed _ _))
  | admitted =>
      exact hwithin rfl (.of_watch (view_admitKeepAlives watch watch_sight (fun _ _ _ _ => rfl) _))
  | rekeyed => exact hwithin rfl (.of_happens (.installedOutbound _ _))
  | acted hmeets =>
      cases hmeets with
      | operation hphase => exact hwithin (hordered hphase) (evolves_act _ _ _)
      | reads | writes => exact hwithin rfl (evolves_act _ _ _)
  | activated => exact hwithin rfl (evolves_activateParked _)
  | supplied hphase hsupplies =>
      cases hsupplies with
      | reads items =>
          exact hwithin (hordered hphase) (by
            rw [← hordered hphase]
            exact .of_happens (.fed items _))
      | writes | flushes => exact hwithin (hordered hphase) (.of_watch rfl)
  | @attempting intake want limit hphase hidle =>
      have hattempting := Happens.attempting intake.reader want limit here.endpoint
      rw [← hidle, hreading hphase] at hattempting
      exact ⟨_, .single hattempting⟩
  | @attempted _ attempt hphase hattempt =>
      have hattempted := Happens.attempted attempt here.endpoint
      rw [← hattempt, hreading hphase] at hattempted
      exact ⟨_, .single hattempted⟩
  | received hphase =>
      have hattempt := hreading hphase
      exact hwithin hattempt (.refl _)
  | opened hphase =>
      have hattempt := hreading hphase
      exact hwithin hattempt (.of_watch rfl)
  | @verified _ lane header _ hphase hidle =>
      have hadvanced : Evolves here.attempt here.endpoint here.endpoint.advanceInbound :=
        .of_watch rfl
      exact hwithin (hidle.symm.trans (hreading hphase))
        (hadvanced.trans (.of_happens (.received _ _)))
  | left hphase hidle => exact hwithin (hidle.symm.trans (hreading hphase)) (.refl _)
  | aside hsight => exact hwithin rfl (.of_watch (view_of_sight watch watch_sight hsight))
  | carried | heldBack | resumed | unfolded | passedRead | passedWrite =>
      exact hwithin rfl (.of_watch rfl)

theorem Course.trace {s next : Stage C} {deeds : List (Deed C)} (hcourse : Course s deeds next) :
    ∃ incidents, Trace s.scene incidents next.scene := by
  induction hcourse with
  | done s => exact ⟨[], .done _⟩
  | step hdoes _ ih =>
      obtain ⟨first, hfirst⟩ := hdoes.trace
      obtain ⟨second, hsecond⟩ := ih
      exact ⟨first ++ second, hfirst.append hsecond⟩

/-- What leads from one stage to another leaves a trace. -/
theorem Leads.evolves {s next : Stage C} {tidings : List Tiding} {attempt : Option (Attempt C)}
    (hleads : Leads s tidings next) (hbefore : s.attempt = attempt)
    (hafter : next.attempt = attempt) : Evolves attempt s.endpoint next.endpoint := by
  obtain ⟨deeds, hcourse, -⟩ := hleads
  obtain ⟨incidents, htrace⟩ := hcourse.trace
  refine ⟨incidents, ?_⟩
  unfold Stage.scene at htrace
  rwa [hbefore, hafter] at htrace

namespace Endpoint

/-- An attempt to read leaves a trace from its beginning to its end. -/
theorem trace_receive (reader : Reader) {want limit : Nat} {arrival : Arrival}
    {e next : Endpoint C} (hattempt : e.receive want limit = (arrival, next)) :
    ∃ inside, Trace ⟨none, e⟩
      (inside ++ [.attempted ⟨reader, want, arrival, next.reads⟩
        (next.firingAfter ⟨reader, want, arrival, next.reads⟩)])
      ⟨none, next.endAttempt ⟨reader, want, arrival, next.reads⟩⟩ := by
  rcases harrive : arrive want (e.now + limit) e.reads e with ⟨arrival', left, middle⟩
  have hbegin : e.beginAttempt reader want limit = ⟨reader, want, arrival', left⟩ := by
    rw [beginAttempt, harrive]
  simp only [receive, harrive, Prod.mk.injEq] at hattempt
  obtain ⟨rfl, rfl⟩ := hattempt
  -- the attempt has its end in store from its beginning on
  have hbegun := Happens.attempting reader want limit e
  rw [hbegin] at hbegun
  have hinside : Passes Deed.Follows
      (e.midway ⟨reader, some ⟨reader, want, arrival', left⟩, [], none⟩ e.reads) [] _ :=
    passes_arrive rfl (e.now + limit) e.reads e
  rw [harrive] at hinside
  obtain ⟨deeds, hcourse, -⟩ := hinside
  obtain ⟨inside, htrace⟩ := hcourse.trace
  exact ⟨_ :: inside, .step hbegun (htrace.append (.single (.attempted _ middle)))⟩

/-- Upkeep leaves a trace. -/
theorem evolves_upkeep (e : Endpoint C) : Evolves none e (e.upkeep .idle) :=
  Leads.evolves ((passes_upkeep (s := e.during .free) rfl (e := e) trivial).mono
    fun htends => htends.writes.inside) rfl rfl

/-- What a reader of a packet does once some octets are there. -/
def continueRead (raw : Bytes) : Act C (Option Packet) := do
  let some raw ← awaitFirstBlock raw | return none
  readFrom raw

theorem evolves_readFrom {raw : Bytes} {e : Endpoint C} (hparked : e.parked = none)
    (hblock : e.inbound.blockSize ≤ raw.length) : Evolves none e (readFrom raw e).2 := by
  have htaken := taken_takeFrom hparked hblock
  rw [readFrom_eq]
  rcases htake : takeFrom raw e with ⟨result, next⟩
  rw [htake] at htaken
  cases htaken with
  | missed hleads hnone =>
      have hevolves := hleads.evolves rfl rfl
      rcases result with fault | (_ | taken)
      · rwa [Act.bind_of_error htake]
      · rwa [Act.bind_of_ok htake]
      · exact absurd rfl (hnone taken)
  | whole hleads hgenuine hwhole =>
      rw [Act.bind_of_ok htake, deliverTaken, Act.bind_pure_eq]
      exact (hleads.append (leads_deliver hgenuine hwhole)).evolves rfl rfl

/-- A reader that goes on with a packet leaves a trace, and a note of its failure shows
nowhere. -/
theorem evolves_continueRead (raw : Bytes) (e : Endpoint C) :
    Evolves none e (Act.noting .inbound (continueRead raw) e).2 := by
  have hcontinued : Evolves none e (continueRead raw e).2 := by
    have hawaited := awaited_awaitFirstBlock raw e
    unfold continueRead
    rcases hawait : awaitFirstBlock raw e with ⟨result, next⟩
    rw [hawait] at hawaited
    cases hawaited with
    | missed hleads hnone =>
        have hevolves := hleads.evolves rfl rfl
        rcases result with fault | (_ | raw)
        · rwa [Act.bind_of_error hawait]
        · rwa [Act.bind_of_ok hawait]
        · exact absurd rfl (hnone raw)
    | begun hleads hparked hblock =>
        rw [Act.bind_of_ok hawait]
        exact (hleads.evolves rfl rfl).trans (evolves_readFrom hparked hblock)
  unfold Act.noting
  split
  next houtcome => rwa [houtcome] at hcontinued
  next houtcome =>
    rw [houtcome] at hcontinued
    exact hcontinued.trans (.of_watch (view_of_sight watch watch_sight (sight_note rfl _)))

/-! ## Operations -/

theorem evolves_perform (operation : Operation (Protection C)) (e : Endpoint C) :
    Evolves none e (perform operation e).2 :=
  (leads_perform operation e).evolves rfl rfl

/-- A trace of a run is made of traces of its operations. -/
inductive Traced : List (Operation (Protection C)) → Endpoint C → List (Incident C) → Prop where
  | done (e : Endpoint C) : Traced [] e []
  | step {operation : Operation (Protection C)} {operations : List (Operation (Protection C))}
      {e : Endpoint C} {incidents more : List (Incident C)}
      (htrace : Trace ⟨none, e⟩ incidents ⟨none, (perform operation e).2⟩)
      (hrest : Traced operations (perform operation e).2 more) :
      Traced (operation :: operations) e (incidents ++ more)

/-- Every run leaves a trace. -/
theorem exists_traced (operations : List (Operation (Protection C))) (e : Endpoint C) :
    ∃ incidents, Traced operations e incidents := by
  induction operations generalizing e with
  | nil => exact ⟨[], .done e⟩
  | cons operation operations ih =>
      obtain ⟨incidents, htrace⟩ := evolves_perform operation e
      obtain ⟨more, hrest⟩ := ih (perform operation e).2
      exact ⟨incidents ++ more, .step htrace hrest⟩

theorem Traced.append {first second : List (Operation (Protection C))} {e : Endpoint C}
    {incidents more : List (Incident C)} (hfirst : Traced first e incidents)
    (hsecond : Traced second (run first e).2 more) :
    Traced (first ++ second) e (incidents ++ more) := by
  induction hfirst with
  | done e => exact hsecond
  | step htrace _ ih =>
      rw [List.append_assoc]
      exact .step htrace (ih hsecond)

theorem Traced.trace {operations : List (Operation (Protection C))} {e : Endpoint C}
    {incidents : List (Incident C)} (htraced : Traced operations e incidents) :
    Trace ⟨none, e⟩ incidents ⟨none, (run operations e).2⟩ := by
  induction htraced with
  | done e => exact .done _
  | step htrace _ ih => exact htrace.append ih

end Endpoint

end PacketLayer
