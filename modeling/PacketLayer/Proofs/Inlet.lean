import PacketLayer.Proofs.Course.Outbound
import PacketLayer.Proofs.Course.Takings

/-! # The inbound side beside upkeep

Keep-alive messages are written while a read is under way. Unless another party
installs a protection meanwhile, the inbound side takes no notice: upkeep only
counts the messages that it sends, and an endpoint once closed stays closed.
-/

namespace PacketLayer

variable {P C : Type}

/-- An action that installs no protection. -/
def Action.Quiet : Action P → Prop
  | .installInbound _ => False
  | .close | .setKeepAlive _ _ => True

def WriteScript.Quiet (script : WriteScript P) : Prop :=
  ∀ action, WriteItem.act action ∈ script → action.Quiet

namespace Endpoint

/-- The inbound side is as before, and the rekey policy has only counted messages sent. -/
structure Undisturbed (e next : Endpoint C) : Prop where
  inbound : next.inbound = e.inbound
  parked : next.parked = e.parked
  closed : e.closed = true → next.closed = true
  counted : ∃ sent : List UInt64, next.rekey = e.rekey.after (sent.map .sent)
  quiet : WriteScript.Quiet next.writes

namespace Undisturbed

variable {e middle next : Endpoint C}

theorem refl (hquiet : WriteScript.Quiet e.writes) : Undisturbed e e :=
  ⟨rfl, rfl, id, ⟨[], rfl⟩, hquiet⟩

theorem trans (hfirst : Undisturbed e middle) (hsecond : Undisturbed middle next) :
    Undisturbed e next where
  inbound := hsecond.inbound.trans hfirst.inbound
  parked := hsecond.parked.trans hfirst.parked
  closed := fun hclosed => hsecond.closed (hfirst.closed hclosed)
  counted := by
    obtain ⟨first, hcounted⟩ := hfirst.counted
    obtain ⟨second, hmore⟩ := hsecond.counted
    refine ⟨first ++ second, ?_⟩
    rw [hmore, hcounted, List.map_append, Rekey.Policy.after_append]
  quiet := hsecond.quiet

theorem reread (h : Undisturbed e next) (reads : ReadScript (Protection C)) :
    Undisturbed e { next with reads } :=
  ⟨h.inbound, h.parked, h.closed, h.counted, h.quiet⟩

theorem relane (h : Undisturbed e next) (lane : Lane C) :
    Undisturbed { e with inbound := lane } { next with inbound := lane } :=
  ⟨rfl, h.parked, h.closed, h.counted, h.quiet⟩

end Undisturbed

/-- The inbound side is undisturbed, and so is what is to come on the stream. -/
structure Beside (e next : Endpoint C) : Prop extends Undisturbed e next where
  reads : next.reads = e.reads

/-- Everything that decides what goes on beside a read. -/
def stake (e : Endpoint C) : Lane C × Option (Protection C) × Bool × Rekey.Policy ×
    WriteScript (Protection C) × ReadScript (Protection C) :=
  (e.inbound, e.parked, e.closed, e.rekey, e.writes, e.reads)

namespace Beside

variable {e middle next : Endpoint C}

theorem of_stake (hquiet : WriteScript.Quiet e.writes) (hsame : next.stake = e.stake) :
    Beside e next := by
  simp only [stake, Prod.mk.injEq] at hsame
  obtain ⟨hinbound, hparked, hclosed, hrekey, hwrites, hreads⟩ := hsame
  exact ⟨⟨hinbound, hparked, hclosed.trans, ⟨[], hrekey⟩, hwrites ▸ hquiet⟩, hreads⟩

theorem refl (hquiet : WriteScript.Quiet e.writes) : Beside e e :=
  of_stake hquiet rfl

theorem trans (hfirst : Beside e middle) (hsecond : Beside middle next) : Beside e next :=
  ⟨hfirst.toUndisturbed.trans hsecond.toUndisturbed, hsecond.reads.trans hfirst.reads⟩

end Beside

theorem stake_dump (direction : Direction) (bytes : Bytes) (e : Endpoint C) :
    (e.dump direction bytes).stake = e.stake := by
  unfold dump
  split <;> rfl

theorem beside_dump {e : Endpoint C} (hquiet : WriteScript.Quiet e.writes)
    (direction : Direction) (bytes : Bytes) : Beside e (e.dump direction bytes) :=
  .of_stake hquiet (stake_dump direction bytes e)

theorem beside_act {e : Endpoint C} (hquiet : WriteScript.Quiet e.writes) (reader : ReaderState)
    {action : Action (Protection C)} (haction : action.Quiet) :
    Beside e (e.act reader action) := by
  cases action with
  | close => exact ⟨⟨rfl, rfl, fun _ => rfl, ⟨[], rfl⟩, hquiet⟩, rfl⟩
  | installInbound protection => cases haction
  | setKeepAlive interval handler => exact .of_stake hquiet rfl

theorem reads_checkKeepAlive (e : Endpoint C) : e.checkKeepAlive.reads = e.reads := by
  unfold checkKeepAlive
  dsimp only
  split
  · rfl
  next handler _ => cases handler <;> rfl

theorem beside_checkKeepAlive {e : Endpoint C} (hquiet : WriteScript.Quiet e.writes) :
    Beside e e.checkKeepAlive := by
  unfold checkKeepAlive
  dsimp only
  split
  · exact .of_stake hquiet rfl
  next handler _ =>
    cases handler with
    | count => exact .of_stake hquiet rfl
    | close => exact ⟨⟨rfl, rfl, fun _ => rfl, ⟨[], rfl⟩, hquiet⟩, rfl⟩
    | sendIgnore => exact .of_stake hquiet rfl

end Endpoint

/-- The endpoint in the middle of a script, with what is left of its write script. -/
def Stage.whole (s : Stage C) : Endpoint C :=
  { s.endpoint with writes := s.writes }

/-- Nobody installs a protection by the write script. -/
def Stage.Quiet (s : Stage C) : Prop :=
  ∀ action, .action action ∈ s.cues .writes → action.Quiet

theorem Stage.Quiet.writes {s : Stage C} (hquiet : s.Quiet) : WriteScript.Quiet s.writes :=
  fun action hmem => hquiet action (List.mem_append_left _ (WriteScript.mem_cues.mpr hmem))

/-- Keep-alive messages that are looked after are counted, and nothing else is. -/
theorem Deed.sent_of_tends {deed : Deed C} (htends : deed.Tends)
    (hacts : ∀ origin reader action, deed ≠ .acted origin reader action) :
    ∃ sent : List UInt64, deed.rekeySteps = sent.map .sent := by
  cases deed with
  | ended request frameLength result =>
      rcases result with fault | ⟨⟨⟩⟩
      · exact ⟨[], rfl⟩
      · cases frameLength with
        | none => exact ⟨[], rfl⟩
        | some length => exact ⟨[_], rfl⟩
  | acted => exact absurd rfl (hacts _ _ _)
  | _ => first | exact ⟨[], rfl⟩ | exact False.elim htends

variable [BlockCipher C]

/-- Looking after keep-alive messages by a quiet script leaves the inbound side alone. -/
theorem Does.beside {here there : Stage C} {deed : Deed C} (htends : deed.Tends)
    (hdoes : Does here deed there) (hquiet : here.Quiet) :
    there.Quiet ∧ Endpoint.Beside here.whole there.whole := by
  have htakes := hdoes.takes (by rintro operation rfl; exact htends) .writes
  have hstill : there.Quiet := by
    intro action hmem
    refine hquiet action ?_
    rw [htakes]
    exact List.mem_append_right _ hmem
  refine ⟨hstill, ?_⟩
  cases deed with
  | acted origin reader action =>
      cases hdoes with
      | acted hmeets =>
          cases hmeets with
          | operation | reads => exact False.elim htends
          | writes =>
              have haction : action.Quiet := hquiet action (by
                rw [htakes]
                exact List.mem_cons_self)
              cases action with
              | installInbound => exact False.elim haction
              | close => exact ⟨⟨rfl, rfl, fun _ => rfl, ⟨[], rfl⟩, hstill.writes⟩, rfl⟩
              | setKeepAlive => exact ⟨⟨rfl, rfl, id, ⟨[], rfl⟩, hstill.writes⟩, rfl⟩
  | _ =>
      have hstanding := hdoes.standing_eq htends.writes nofun
      simp only [Endpoint.standing, Prod.mk.injEq] at hstanding
      obtain ⟨-, hinbound, hparked, -, -, hclosed, hreads⟩ := hstanding
      obtain ⟨sent, hsteps⟩ := Deed.sent_of_tends htends nofun
      have hrekey := hdoes.rekey_eq
      rw [hsteps] at hrekey
      exact ⟨⟨hinbound, hparked, hclosed.trans, ⟨sent, hrekey⟩, hstill.writes⟩, hreads⟩

theorem Passes.beside {s next : Stage C} {tidings : List Tiding}
    (hpasses : Passes Deed.Tends s tidings next) (hquiet : s.Quiet) :
    Endpoint.Beside s.whole next.whole :=
  (hpasses.relates (R := fun s next => s.Quiet → next.Quiet ∧ Endpoint.Beside s.whole next.whole)
    (fun _ hquiet => ⟨hquiet, .refl hquiet.writes⟩)
    (fun hfirst hsecond hquiet =>
      ⟨(hsecond (hfirst hquiet).1).1, (hfirst hquiet).2.trans (hsecond (hfirst hquiet).1).2⟩)
    fun htends hdoes hquiet => hdoes.beside htends hquiet) hquiet |>.2

namespace Endpoint

omit [BlockCipher C] in
theorem quiet_waiting {e : Endpoint C} (hquiet : WriteScript.Quiet e.writes)
    (reader : ReaderState) (time : Nat) : (e.waiting reader time).Quiet := by
  intro action hmem
  refine hquiet action (WriteScript.mem_cues.mp ?_)
  cases reader <;> simpa [Stage.cues, waiting, Phase.cues, during] using hmem

theorem beside_upkeep {e : Endpoint C} (hquiet : WriteScript.Quiet e.writes)
    (reader : ReaderState) : Beside e (e.upkeep reader) := by
  have hbeside := (waits_upkeep reader e).beside (quiet_waiting hquiet reader _)
  cases reader <;> exact hbeside

/-- The inbound side takes no notice of time that passes. -/
theorem beside_waitUntil {e : Endpoint C} (hquiet : WriteScript.Quiet e.writes)
    (reader : ReaderState) (time : Nat) : Beside e (e.waitUntil reader time) := by
  have hbeside := (waits_waitUntil reader time e).beside (quiet_waiting hquiet reader time)
  cases reader <;> exact hbeside

/-- No keep-alive message is asked for or on its way. -/
structure Still (e : Endpoint C) : Prop where
  held : e.held = none
  owed : e.owed = 0
  queued : e.queued = 0

/-- There is nothing for upkeep to do then but to take its turn. -/
theorem Still.upkeep_eq {e : Endpoint C} (hstill : e.Still) (reader : ReaderState) :
    ∃ turn, e.upkeep reader = { e with turn } := by
  obtain ⟨hheld, howed, hqueued⟩ := hstill
  have hresumed : e.resumeKeepAlive reader = e := by
    unfold resumeKeepAlive
    rw [hheld]
  unfold upkeep admitKeepAlives
  rw [hresumed, howed, hqueued]
  cases e
  dsimp only at howed hqueued
  subst howed hqueued
  split
  · exact ⟨_, rfl⟩
  · exact ⟨_, rfl⟩

/-- Waiting moves the clock then, and nothing else. -/
theorem Still.waitUntil_eq {e : Endpoint C} (hstill : e.Still) (reader : ReaderState)
    (time : Nat) : ∃ turn, e.waitUntil reader time = { e with now := max e.now time, turn } := by
  obtain ⟨turn, hupkeep⟩ := hstill.upkeep_eq reader
  fun_cases waitUntil reader time e with
  | case1 hpassed => exact ⟨e.turn, by rw [Nat.max_eq_left hpassed]⟩
  | case2 _ ready =>
      have hready : ready = { e with turn } := hupkeep
      exact ⟨.first, by rw [hready]; rfl⟩
  | case3 _ ready message hheld =>
      have hready : ready = { e with turn } := hupkeep
      rw [hready] at hheld
      cases hstill.held.symm.trans hheld
  | case4 _ ready =>
      have hready : ready = { e with turn } := hupkeep
      exact ⟨.first, by rw [hready]; rfl⟩

end Endpoint

end PacketLayer
