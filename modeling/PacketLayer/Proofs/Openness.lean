import PacketLayer.Proofs.Course.Beside
import PacketLayer.Proofs.Course.Inbound
import PacketLayer.Proofs.Inlet

/-! # Endpoints that stay open

While a reader waits for octets an endpoint is closed by other parties only: the read script
may hold a close, and so may the write script, which keep-alive messages follow on their way.
Where no close is to be met, an open endpoint stays open.
-/

namespace PacketLayer

variable {C : Type}

namespace Endpoint

/-- An open endpoint that is not closed from its write script: there is no close in it, or
nothing that would meet one. -/
structure Guarded (e : Endpoint C) : Prop where
  opened : e.closed = false
  writes : .act .close ∉ e.writes ∨ Still e

/-- An open endpoint that nobody closes. -/
structure StaysOpen (e : Endpoint C) : Prop extends Guarded e where
  reads : .act .close ∉ e.reads

theorem closed_act {action : Action (Protection C)} (haction : action ≠ .close)
    (reader : ReaderState) (e : Endpoint C) : (e.act reader action).closed = e.closed := by
  cases action with
  | close => exact absurd rfl haction
  | installInbound protection => cases reader <;> rfl
  | setKeepAlive interval handler => rfl

/-- Everything that decides whether an endpoint is closed from its write script. -/
theorem Guarded.of_same {e next : Endpoint C} (hguarded : e.Guarded)
    (hclosed : next.closed = e.closed) (hwrites : next.writes = e.writes)
    (hheld : next.held = e.held) (howed : next.owed = e.owed) (hqueued : next.queued = e.queued) :
    next.Guarded := by
  refine ⟨hclosed.trans hguarded.opened, hguarded.writes.imp (hwrites ▸ ·) fun hstill => ?_⟩
  exact ⟨hheld.trans hstill.held, howed.trans hstill.owed, hqueued.trans hstill.queued⟩

end Endpoint

/-- In the middle of its scripts an open endpoint is not closed from its write script. -/
structure Stage.Guarded (s : Stage C) : Prop where
  opened : s.endpoint.closed = false
  writes : .action .close ∉ s.cues .writes ∨ s.Silent

variable [BlockCipher C] {here there s next : Stage C} {deed : Deed C}

/-- While a read script is followed, nothing but a close closes an endpoint. -/
theorem Does.closed_eq (hdoes : Does here deed there) (hfollows : deed.Follows)
    (hopens : ∀ origin reader, deed ≠ .acted origin reader .close) :
    there.endpoint.closed = here.endpoint.closed := by
  cases deed with
  | acted origin reader action =>
      cases hdoes with
      | acted =>
          refine Endpoint.closed_act ?_ _ _
          rintro rfl
          exact hopens _ _ rfl
  | rekeyed | received | passed => cases hdoes <;> rfl
  | _ => exact congrArg (·.2.2.2.2.2.1) (hdoes.standing_eq (by trivial) (by nofun))

/-- What is followed without a close leaves an endpoint guarded. -/
theorem Does.guarded (hdoes : Does here deed there) (hfollows : deed.Follows)
    (hreads : .action .close ∉ deed.cues .reads) (hdevoted : here.Devoted)
    (hguarded : here.Guarded) : there.Guarded := by
  have hasked : ∀ operation, deed ≠ .asked operation := by
    rintro operation rfl
    exact hfollows
  have hopened (hwrites : ∀ reader, deed ≠ .acted .writes reader .close) :
      there.endpoint.closed = false := by
    refine (hdoes.closed_eq hfollows fun origin reader hcloses => ?_).trans hguarded.opened
    subst hcloses
    cases origin with
    | operation => exact hfollows
    | reads => exact hreads List.mem_cons_self
    | writes => exact hwrites reader rfl
  rcases hguarded.writes with hnone | hsilent
  · rw [hdoes.takes hasked .writes, List.mem_append, not_or] at hnone
    refine ⟨hopened ?_, .inl hnone.2⟩
    rintro reader rfl
    exact hnone.1 List.mem_cons_self
  · obtain ⟨hkeeps, hstill⟩ := hdoes.silent hdevoted hsilent (by
      rintro attempt firing rfl
      exact False.elim hfollows)
    refine ⟨hopened ?_, .inr hstill⟩
    rintro reader rfl
    exact hkeeps trivial

/-- What is followed of a read script without a close leaves an endpoint guarded, and what is
left of the script has no close either. -/
theorem Passes.guarded {tidings : List Tiding} (hpasses : Passes Deed.Follows s tidings next)
    (hreads : .action .close ∉ s.cues .reads) (hdevoted : s.Devoted) (hguarded : s.Guarded) :
    next.Guarded ∧ .action .close ∉ next.cues .reads := by
  obtain ⟨deeds, hcourse, -, hdeeds⟩ := hpasses
  induction hcourse with
  | done s => exact ⟨hguarded, hreads⟩
  | step hdoes _ ih =>
      obtain ⟨hfollows, hrest⟩ := List.forall_mem_cons.mp hdeeds
      have hinside := hfollows.awaits.inside
      rw [hdoes.takes (by rintro operation rfl; exact hinside) .reads, List.mem_append,
        not_or] at hreads
      exact ih hreads.2 (hdoes.devoted hinside hdevoted).1
        (hdoes.guarded hfollows hreads.1 hdevoted hguarded) hrest

namespace Endpoint

variable {e : Endpoint C}

omit [BlockCipher C] in
theorem guarded_iff {phase : Phase C} (hphase : phase.cues .writes = [])
    (reads : ReadScript (Protection C)) :
    Stage.Guarded ⟨e, phase, reads, e.writes, e.occupying⟩ ↔ e.Guarded := by
  have hscript : .action .close ∉ Stage.cues ⟨e, phase, reads, e.writes, e.occupying⟩ .writes ↔
      .act .close ∉ e.writes := by
    rw [Stage.cues, hphase, List.append_nil, WriteScript.mem_cues]
  have hstill : Stage.Silent ⟨e, phase, reads, e.writes, e.occupying⟩ ↔ e.Still := by
    refine ⟨fun hsilent => ?_, fun hstill => ⟨?_, hstill.held, ?_⟩⟩
    · obtain ⟨howed, hqueued⟩ := Prod.mk.inj hsilent.dues
      exact ⟨hsilent.held, howed, hqueued⟩
    · rw [occupying, hstill.held]
      rfl
    · rw [dues, hstill.owed, hstill.queued]
  refine ⟨fun hguarded => ⟨hguarded.opened, ?_⟩, fun hguarded => ⟨hguarded.opened, ?_⟩⟩
  · exact hguarded.writes.imp hscript.mp hstill.mp
  · exact hguarded.writes.imp hscript.mpr hstill.mpr

/-- Following a read script without a close leaves an endpoint open. -/
theorem StaysOpen.follow {next : Endpoint C} (hopen : e.StaysOpen) {phase after : Phase C}
    {items left : ReadScript (Protection C)}
    (hpasses : Passes Deed.Follows ⟨e, phase, items, e.writes, e.occupying⟩ []
      ⟨next, after, left, next.writes, next.occupying⟩)
    (hphase : ∀ operation, phase ≠ .ordered operation)
    (hafter : ∀ operation, after ≠ .ordered operation)
    (hreads : .act .close ∉ items) : next.Guarded ∧ .act .close ∉ left := by
  have hnothing {phase : Phase C} (hphase : ∀ operation, phase ≠ .ordered operation)
      (origin : Origin) : phase.cues origin = [] := by
    cases phase with
    | ordered operation => exact absurd rfl (hphase operation)
    | free | reading => rfl
  have hdevoted : Stage.Devoted ⟨e, phase, items, e.writes, e.occupying⟩ :=
    devoted_of_occupying (fun operation hordered => absurd hordered (hphase operation)) items e
  obtain ⟨hguarded, hleft⟩ := hpasses.guarded
    (by rwa [Stage.cues, hnothing hphase, List.append_nil, ReadScript.mem_cues]) hdevoted
    ((guarded_iff (hnothing hphase _) items).mpr hopen.toGuarded)
  refine ⟨(guarded_iff (hnothing hafter _) left).mp hguarded, ?_⟩
  rwa [Stage.cues, hnothing hafter, List.append_nil, ReadScript.mem_cues] at hleft

theorem StaysOpen.receive {next : Endpoint C} (hopen : e.StaysOpen) {want limit : Nat}
    {arrival : Arrival} (hattempt : e.receive want limit = (arrival, next)) : next.StaysOpen := by
  obtain ⟨rfl, rfl⟩ := Prod.mk.inj hattempt
  have hpasses : Passes Deed.Follows
      (e.midway ⟨.line, some ⟨.line, want, .finished, []⟩, [], none⟩ e.reads) [] _ :=
    passes_arrive rfl (e.now + limit) e.reads e
  obtain ⟨hguarded, hleft⟩ := hopen.follow hpasses nofun nofun hopen.reads
  exact ⟨hguarded.of_same rfl rfl rfl rfl rfl, hleft⟩

/-- Upkeep does not touch the read script. -/
theorem reads_upkeep (reader : ReaderState) (e : Endpoint C) :
    (e.upkeep reader).reads = e.reads := by
  have hreads := ((waits_upkeep reader e).mono Deed.Tends.writes).reads_eq.1
  cases reader <;> exact hreads

theorem StaysOpen.upkeep (hopen : e.StaysOpen) (reader : ReaderState) :
    (e.upkeep reader).StaysOpen := by
  have hpasses := (waits_upkeep reader e).mono Deed.Tends.follows
  have hguarded : (e.upkeep reader).Guarded := by
    cases reader with
    | idle => exact (hopen.follow hpasses nofun nofun hopen.reads).1
    | busy => exact (hopen.follow hpasses nofun nofun (by simp)).1
  exact ⟨hguarded, (reads_upkeep reader e).symm ▸ hopen.reads⟩

end Endpoint

end PacketLayer
