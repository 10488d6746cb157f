import PacketLayer.Proofs.Acceptance
import PacketLayer.Proofs.Trace.Runs

/-! # The keep-alive schedule

However operations, other parties and the clock work together, the keep-alive handler runs
only while the connection is open, protected and not waiting for new keys, and only after
more than the interval has passed: since the schedule was last set, and since the handler
last ran under that schedule.
-/

namespace PacketLayer

variable {C : Type}

/-- The run of the handler that an entry of the journal tells of. -/
def Entry.firing? (entry : Entry) : Option Firing :=
  match entry.event with
  | .keepAliveFired interval => some ⟨entry.moment.headD 0, interval⟩
  | .packet .. | .dump .. | .rekeyRequested .. | .installed .. | .deferred | .failure ..
  | .keepAliveFailed _ => none

namespace Incident

/-- Whether an incident sets the schedule. -/
def configures : Incident C → Bool
  | configured .. => true
  | elapsed _ | closed | installed .. | counted .. | fed _ | attempting .. | attempted .. => false

/-- The runs of the handler in the course of incidents. -/
def firings (incidents : List (Incident C)) : List Firing :=
  incidents.filterMap firing?

/-- In the course of incidents the schedule was last set at some time to some interval, and
these incidents have followed. -/
structure LastSet (told : List (Incident C)) (start interval : Nat)
    (since : List (Incident C)) : Prop where
  told_eq : ∃ older handler, told = older ++ .configured start interval handler :: since
  quiet : ∀ incident ∈ since, incident.configures = false

namespace LastSet

variable {told since : List (Incident C)} {start interval : Nat}

theorem concat_configured (told : List (Incident C)) (start interval : Nat) (handler : Handler) :
    LastSet (told ++ [.configured start interval handler]) start interval [] :=
  ⟨⟨told, handler, rfl⟩, nofun⟩

theorem concat (hset : LastSet told start interval since) {incident : Incident C}
    (hquiet : incident.configures = false) :
    LastSet (told ++ [incident]) start interval (since ++ [incident]) := by
  obtain ⟨⟨older, handler, rfl⟩, hsince⟩ := hset
  refine ⟨⟨older, handler, by simp⟩, ?_⟩
  intro other hother
  rcases List.mem_append.mp hother with hother | hother
  · exact hsince other hother
  · rwa [List.mem_singleton.mp hother]

end LastSet

end Incident

open Incident

namespace Endpoint

/-- The runs of the handler that the journal tells of, latest first. -/
def firings (e : Endpoint C) : List Firing :=
  e.journal.filterMap Entry.firing?

theorem firings_eq_told (e : Endpoint C) : e.firings = e.watch.told.filterMap Entry.firing? := by
  rw [firings, watch, List.filterMap_filter]
  congr 1
  funext entry
  cases hevent : entry.event <;> simp [Entry.firing?, Event.tells, hevent]

theorem keepAliveDue_iff (e : Endpoint C) : e.keepAliveDue = true ↔
    (e.keepAlive.interval ≠ 0 ∧ e.keepAlive.handler.isSome = true) ∧
      e.outbound.isProtected = true ∧ e.rekey.pending = false ∧
        e.keepAlive.lastFired + e.keepAlive.interval < e.now := by
  simp [keepAliveDue, KeepAlive.due, KeepAlive.enabled, and_assoc]

/-- What keeping the connection alive depends on and what it notes. -/
def timing (e : Endpoint C) : Lane C × KeepAlive Handler × List Firing :=
  (e.outbound, e.keepAlive, e.firings)

theorem timing_accountSent (bytes : Nat) (e : Endpoint C) :
    (e.accountSent bytes).timing = e.timing := by
  unfold accountSent
  dsimp only
  split <;> rfl

theorem timing_accountReceived (bytes : Nat) (e : Endpoint C) :
    (e.accountReceived bytes).2.timing = e.timing := by
  unfold accountReceived
  dsimp only
  split <;> rfl

/-- If the handler is due it runs, which is noted, and from then on the next interval counts. -/
theorem timing_checkKeepAlive_of_due {e : Endpoint C} (hdue : e.keepAliveDue = true) :
    e.checkKeepAlive.timing = (e.outbound, { e.keepAlive with lastFired := e.now },
      ⟨e.now, e.keepAlive.interval⟩ :: e.firings) := by
  have hpoll : e.keepAlive.poll e.now e.outbound.isProtected e.rekey.pending =
      (e.keepAlive.handler, { e.keepAlive with lastFired := e.now }) := if_pos hdue
  obtain ⟨handler, hhandler⟩ :=
    Option.isSome_iff_exists.mp (e.keepAliveDue_iff.mp hdue).1.2
  simp only [checkKeepAlive, hpoll, hhandler]
  cases handler <;> rfl

theorem checkKeepAlive_of_not_due {e : Endpoint C} (hdue : e.keepAliveDue = false) :
    e.checkKeepAlive = e := by
  have hpoll : e.keepAlive.poll e.now e.outbound.isProtected e.rekey.pending =
      (none, e.keepAlive) := if_neg (by rw [← keepAliveDue, hdue]; exact Bool.false_ne_true)
  simp only [checkKeepAlive, hpoll]

theorem timing_endAttempt_of_fires {attempt : Attempt C} {e : Endpoint C}
    (hfires : e.firesAfter attempt = true) :
    (e.endAttempt attempt).timing = (e.outbound, { e.keepAlive with lastFired := e.now },
      ⟨e.now, e.keepAlive.interval⟩ :: e.firings) := by
  obtain ⟨hlooks, hdue⟩ := Bool.and_eq_true_iff.mp hfires
  rw [endAttempt, if_pos hlooks]
  exact timing_checkKeepAlive_of_due (e := { e with reads := attempt.left }) hdue

theorem timing_endAttempt_of_not_fires {attempt : Attempt C} {e : Endpoint C}
    (hfires : e.firesAfter attempt = false) : (e.endAttempt attempt).timing = e.timing := by
  rcases Bool.and_eq_false_iff.mp hfires with hover | hdue
  · rw [endAttempt, if_neg (by simp [hover])]
    rfl
  · have hsame := checkKeepAlive_of_not_due (e := { e with reads := attempt.left }) hdue
    rw [endAttempt, hsame, ite_self]
    rfl

/-- The journal tells of the run of the handler with which an attempt ends. -/
theorem firings_endAttempt (attempt : Attempt C) (e : Endpoint C) :
    (e.endAttempt attempt).firings = (e.firingAfter attempt).toList ++ e.firings := by
  cases hfires : e.firesAfter attempt with
  | true =>
      rw [firingAfter, if_pos hfires]
      exact congrArg (·.2.2) (timing_endAttempt_of_fires hfires)
  | false =>
      rw [firingAfter, hfires]
      exact congrArg (·.2.2) (timing_endAttempt_of_not_fires hfires)

/-- What a schedule, and the protection of the outbound lane, owe to the incidents so far. -/
structure Scheduled (told : List (Incident C)) (e : Endpoint C) : Prop where
  installed : e.outbound.isProtected = true → ∃ protection, .installed .outbound protection ∈ told
  set : e.keepAlive.handler.isSome = true →
    ∃ start since, LastSet told start e.keepAlive.interval since ∧
      start ≤ e.keepAlive.lastFired ∧
        ∀ firing ∈ Incident.firings since, firing.time ≤ e.keepAlive.lastFired

theorem scheduled_make {config : Config} {padding noise : ByteSource} {e : Endpoint C}
    (hmade : make config padding noise = .ok e) : Scheduled [] e := by
  have hwatch := watch_make hmade
  have hplain : e.outbound.isProtected = false := congrArg Watch.isProtected hwatch
  have hdisabled : e.keepAlive = .disabled 0 := congrArg Watch.keepAlive hwatch
  refine ⟨?_, ?_⟩
  · rw [hplain]
    exact nofun
  · rw [hdisabled]
    exact nofun

namespace Scheduled

variable {told : List (Incident C)} {e next : Endpoint C} {incident : Incident C}

/-- An incident that leaves the schedule alone. -/
theorem concat (h : Scheduled told e)
    (hprotected : next.outbound.isProtected = true →
      e.outbound.isProtected = true ∨ ∃ protection, incident = .installed .outbound protection)
    (hkeepAlive : next.keepAlive = e.keepAlive) (hquiet : incident.configures = false)
    (hfiring : incident.firing? = none) : Scheduled (told ++ [incident]) next := by
  refine ⟨?_, ?_⟩
  · intro hnext
    rcases hprotected hnext with hbefore | ⟨protection, rfl⟩
    · obtain ⟨protection, hmem⟩ := h.installed hbefore
      exact ⟨protection, List.mem_append_left _ hmem⟩
    · exact ⟨protection, by simp⟩
  · rw [hkeepAlive]
    intro hhandler
    obtain ⟨start, since, hset, hstart, hsince⟩ := h.set hhandler
    refine ⟨start, _, hset.concat hquiet, hstart, ?_⟩
    simpa [Incident.firings, hfiring] using hsince

theorem of_timing (h : Scheduled told e) (htiming : next.timing = e.timing)
    (hquiet : incident.configures = false) (hfiring : incident.firing? = none) :
    Scheduled (told ++ [incident]) next := by
  simp only [timing, Prod.mk.injEq] at htiming
  obtain ⟨houtbound, hkeepAlive, -⟩ := htiming
  exact h.concat (fun hnext => .inl (houtbound ▸ hnext)) hkeepAlive hquiet hfiring

theorem configure (h : Scheduled told e) (interval : Nat) (handler : Handler) :
    Scheduled (told ++ [.configured e.now interval handler]) (e.setKeepAlive interval handler) := by
  refine ⟨?_, ?_⟩
  · intro hprotected
    obtain ⟨protection, hmem⟩ := h.installed hprotected
    exact ⟨protection, List.mem_append_left _ hmem⟩
  · intro _
    exact ⟨e.now, [], .concat_configured told e.now interval handler, Nat.le_refl _, nofun⟩

/-- The next interval counts from a run of the handler, which is later than all before it. -/
theorem attempted (h : Scheduled told e) (attempt : Attempt C) :
    Scheduled (told ++ [.attempted attempt (e.firingAfter attempt)]) (e.endAttempt attempt) := by
  cases hfires : e.firesAfter attempt with
  | false =>
      apply h.of_timing (timing_endAttempt_of_not_fires hfires) rfl
      simp [Incident.firing?, firingAfter, hfires]
  | true =>
      have htiming := timing_endAttempt_of_fires hfires
      simp only [timing, Prod.mk.injEq] at htiming
      obtain ⟨houtbound, hkeepAlive, -⟩ := htiming
      obtain ⟨⟨-, hhandler⟩, -, -, hpassed⟩ :=
        e.keepAliveDue_iff.mp (Bool.and_eq_true_iff.mp hfires).2
      refine ⟨?_, ?_⟩
      · rw [houtbound]
        intro hprotected
        obtain ⟨protection, hmem⟩ := h.installed hprotected
        exact ⟨protection, List.mem_append_left _ hmem⟩
      · rw [hkeepAlive]
        intro _
        obtain ⟨start, since, hset, hstart, hsince⟩ := h.set hhandler
        refine ⟨start, _, hset.concat rfl, by dsimp only; omega, ?_⟩
        intro firing hfiring
        -- it is this run, or an earlier one that was no later than the last
        simp only [Incident.firings, List.filterMap_append, List.mem_append] at hfiring
        rcases hfiring with hbefore | hlast
        · have hearlier := hsince firing hbefore
          dsimp only
          omega
        · obtain rfl : firing = ⟨e.now, e.keepAlive.interval⟩ := by
            simpa [firingAfter, hfires, Incident.firing?] using hlast
          exact Nat.le_refl _

end Scheduled

end Endpoint

variable [BlockCipher C]

open Endpoint

theorem Happens.scheduled {here there : Scene C} {incident : Incident C}
    {told : List (Incident C)} (hhappens : Happens here incident there)
    (h : Scheduled told here.endpoint) : Scheduled (told ++ [incident]) there.endpoint := by
  cases hhappens with
  | configured interval handler e => exact h.configure interval handler
  | attempted attempt e => exact h.attempted attempt
  | installedOutbound protection e => exact h.concat (fun _ => .inr ⟨protection, rfl⟩) rfl rfl rfl
  | sent bytes e => exact h.of_timing (timing_accountSent bytes e) rfl rfl
  | received bytes e => exact h.of_timing (timing_accountReceived bytes e) rfl rfl
  | _ => exact h.of_timing rfl rfl rfl

theorem Trace.scheduled {scene last : Scene C} {incidents told : List (Incident C)}
    (htrace : Trace scene incidents last) (h : Scheduled told scene.endpoint) :
    Scheduled (told ++ incidents) last.endpoint := by
  induction htrace generalizing told with
  | done scene => rwa [List.append_nil]
  | @aside attempt e middle last incidents hwatch _ ih =>
      have hprotected : middle.outbound.isProtected = e.outbound.isProtected :=
        congrArg Watch.isProtected hwatch
      have hkeepAlive : middle.keepAlive = e.keepAlive := congrArg Watch.keepAlive hwatch
      exact ih ⟨fun hmiddle => h.installed (hprotected ▸ hmiddle), hkeepAlive ▸ h.set⟩
  | @step scene middle last incident incidents hhappens _ ih =>
      rw [List.append_cons]
      exact ih (hhappens.scheduled h)

theorem Happens.firings_eq {here there : Scene C} {incident : Incident C}
    (hhappens : Happens here incident there) :
    there.endpoint.firings = incident.firing?.toList ++ here.endpoint.firings := by
  cases hhappens with
  | attempted attempt e => exact firings_endAttempt attempt e
  | sent bytes e => exact congrArg (·.2.2) (timing_accountSent bytes e)
  | received bytes e => exact congrArg (·.2.2) (timing_accountReceived bytes e)
  | _ => rfl

/-- The journal tells of every run of the handler, and of no other. -/
theorem Trace.firings_eq {scene last : Scene C} {incidents : List (Incident C)}
    (htrace : Trace scene incidents last) :
    last.endpoint.firings = (Incident.firings incidents).reverse ++ scene.endpoint.firings := by
  induction htrace with
  | done scene => rfl
  | aside hwatch _ ih => rw [ih, firings_eq_told, firings_eq_told, hwatch]
  | @step scene middle last incident incidents hhappens _ ih =>
      rw [ih, hhappens.firings_eq]
      cases hfiring : incident.firing? <;> simp [Incident.firings, hfiring]

/-- What holds of a run of the handler, at an endpoint to which these incidents have led. -/
structure Timely (before : List (Incident C)) (e : Endpoint C) (firing : Firing) : Prop where
  now : firing.time = e.now
  interval : firing.interval = e.keepAlive.interval
  enabled : firing.interval ≠ 0
  installed : ∃ protection, .installed .outbound protection ∈ before
  settled : e.rekey.pending = false
  unclosed : e.closed = false
  elapsed : ∃ start since, LastSet before start firing.interval since ∧
    start + firing.interval < firing.time ∧
      ∀ earlier ∈ Incident.firings since, earlier.time + firing.interval < firing.time

/-- The handler runs only in time. -/
theorem Happens.timely {here there : Scene C} {incident : Incident C}
    {before : List (Incident C)} {firing : Firing} (hhappens : Happens here incident there)
    (h : Scheduled before here.endpoint) (hfiring : incident.firing? = some firing) :
    Timely before here.endpoint firing := by
  cases hhappens with
  | attempted attempt e =>
      simp only [Incident.firing?, firingAfter] at hfiring
      split at hfiring
      · obtain rfl := Option.some.inj hfiring
        next hfires =>
          obtain ⟨hlooks, hdue⟩ := Bool.and_eq_true_iff.mp hfires
          obtain ⟨-, hopen⟩ := Bool.and_eq_true_iff.mp hlooks
          obtain ⟨⟨hinterval, hhandler⟩, hprotected, hsettled, hpassed⟩ :=
            e.keepAliveDue_iff.mp hdue
          obtain ⟨start, since, hset, hstart, hsince⟩ := h.set hhandler
          refine ⟨rfl, rfl, hinterval, h.installed hprotected, hsettled, by simpa using hopen,
            start, since, hset, Nat.lt_of_le_of_lt (Nat.add_le_add_right hstart _) hpassed, ?_⟩
          intro earlier hearlier
          exact Nat.lt_of_le_of_lt (Nat.add_le_add_right (hsince earlier hearlier) _) hpassed
      · cases hfiring
  | _ => cases hfiring

namespace Endpoint

/-- Whenever the keep-alive handler runs in the course of a run, it runs in time. The journal
tells of each of these times. -/
theorem run_keepAlive_timely {config : Config} {padding noise : ByteSource} {e : Endpoint C}
    (hmade : make config padding noise = .ok e) (operations : List (Operation (Protection C))) :
    (∃ incidents, Traced operations e incidents) ∧
      ∀ incidents, Traced operations e incidents →
        (run operations e).2.firings = (Incident.firings incidents).reverse ∧
          ∀ before incident after firing, incidents = before ++ incident :: after →
            incident.firing? = some firing →
            ∃ here there, Trace ⟨none, e⟩ before here ∧ Happens here incident there ∧
              Trace there after ⟨none, (run operations e).2⟩ ∧
              Timely before here.endpoint firing := by
  have hnew : e.firings = [] := by
    rw [firings_eq_told, watch_make hmade]
    rfl
  refine ⟨exists_traced operations e, ?_⟩
  intro incidents htraced
  refine ⟨?_, ?_⟩
  · rw [htraced.trace.firings_eq, hnew, List.append_nil]
  · rintro before incident after firing rfl hfiring
    obtain ⟨here, there, hbefore, hhappens, hafter⟩ := htraced.trace.of_split
    have hscheduled := hbefore.scheduled (scheduled_make hmade)
    exact ⟨here, there, hbefore, hhappens, hafter, hhappens.timely hscheduled hfiring⟩

/-- An idle connection on which the handler counts every ten milliseconds. -/
def idling : List (Operation (Protection Rehearsal.Cipher)) :=
  [.setKeepAlive 10 .count, .installOutbound (maskedProtection 0),
    .feed [.pause 50, .fail ⟨.wouldBlock, "not yet"⟩, .pause 10, .fail ⟨.wouldBlock, "not yet"⟩],
    .read]

/-- The handler runs after the first failure, and not again as soon as the interval has
passed. -/
theorem run_keepAlive_timely_idling :
    make {} .zeros .zeros = .ok newEndpoint ∧
      (run idling newEndpoint).2.firings = [⟨50, 10⟩] ∧
      ∃ before here, Trace ⟨none, newEndpoint⟩ before here ∧
        Timely before here.endpoint ⟨50, 10⟩ := by
  have hmade : make {} .zeros .zeros = .ok newEndpoint := rfl
  have hfirings : (run idling newEndpoint).2.firings = [⟨50, 10⟩] := by decide +kernel
  obtain ⟨⟨incidents, htraced⟩, htimely⟩ := run_keepAlive_timely hmade idling
  obtain ⟨hnoted, hruns⟩ := htimely incidents htraced
  -- the run that the journal tells of is one of the trace
  have hmem : ⟨50, 10⟩ ∈ Incident.firings incidents := by
    rw [← List.mem_reverse, ← hnoted, hfirings]
    exact List.mem_cons_self
  obtain ⟨incident, hincident, hfiring⟩ := List.mem_filterMap.mp hmem
  obtain ⟨before, after, hsplit⟩ := List.append_of_mem hincident
  obtain ⟨here, -, hbefore, -, -, hrun⟩ := hruns before incident after _ hsplit hfiring
  exact ⟨hmade, hfirings, before, here, hbefore, hrun⟩

end Endpoint

end PacketLayer
