import PacketLayer.Proofs.Acceptance
import PacketLayer.Proofs.Rekey.Steps
import PacketLayer.Proofs.Trace.Runs

/-! # Announcing requests for new keys

Others learn of a request for new keys from a signal. It always shows whether a request
stands, and it changes exactly once whenever a request is raised or withdrawn: at the same
incident, and at no other.
-/

namespace PacketLayer

variable {C : Type}

namespace Rekey.Policy

variable {policy : Policy}

/-- How often a request is raised or withdrawn in the course of calls. -/
def changes (policy : Policy) : List Step → Nat
  | [] => 0
  | step :: steps =>
      (if (policy.step step).2.pending = policy.pending then 0 else 1) +
        (policy.step step).2.changes steps

theorem changes_append (policy : Policy) (first second : List Step) :
    policy.changes (first ++ second) =
      policy.changes first + (policy.after first).changes second := by
  induction first generalizing policy with
  | nil => exact (Nat.zero_add _).symm
  | cons step first ih =>
      rw [List.cons_append, changes, ih, ← Nat.add_assoc]
      rfl

/-- A recorded packet that raises no request withdraws none. -/
theorem Recorded.pending_eq {result : Answer × Policy} (hrecorded : Recorded policy result)
    (hquiet : result.1 ≠ some (.ok true)) : result.2.pending = policy.pending := by
  cases hrecorded with
  | raised => exact absurd rfl hquiet
  | counted => rfl

end Rekey.Policy

/-- What an incident means for the rekey policy. -/
def Incident.rekeyStep? : Incident C → Option Rekey.Step
  | installed direction _ => some (.install direction)
  | counted .outbound bytes => some (.sent (UInt64.ofNat bytes))
  | counted .inbound bytes => some (.received (UInt64.ofNat bytes))
  | elapsed _ | closed | configured .. | fed _ | attempting .. | attempted .. => none

namespace Endpoint

/-- The signal shows whether a request for new keys stands. -/
def Current (e : Endpoint C) : Prop :=
  e.signal.value = e.rekey.pending

/-- From one endpoint to another, the signal changes once if a request for new keys has been
raised or withdrawn, and does not change otherwise. -/
def Announces (e next : Endpoint C) : Prop :=
  next.signal =
    if next.rekey.pending = e.rekey.pending then e.signal
    else ⟨next.rekey.pending, e.signal.version + 1⟩

variable {e next : Endpoint C}

theorem current_make {config : Config} {padding noise : ByteSource}
    (hmade : make config padding noise = .ok e) : e.Current := by
  have hwatch := watch_make hmade
  have hsignal : e.signal = {} := congrArg Watch.signal hwatch
  have hrekey : e.rekey = { limits := config.rekey } := congrArg Watch.rekey hwatch
  rw [Current, hsignal, hrekey]

theorem Announces.of_kept (hsignal : next.signal = e.signal)
    (hpending : next.rekey.pending = e.rekey.pending) : Announces e next := by
  rw [Announces, if_pos hpending, hsignal]

theorem Announces.publish (hcurrent : e.Current) (hsignal : next.signal = e.signal) :
    Announces e next.publish := by
  rw [Current] at hcurrent
  simp only [Announces, Endpoint.publish, Signal.publish, hsignal, hcurrent, eq_comm]

theorem Announces.current (hannounces : Announces e next) (hcurrent : e.Current) :
    next.Current := by
  rw [Announces] at hannounces
  rw [Current, hannounces]
  split
  next hpending => exact hcurrent.trans hpending.symm
  next => rfl

theorem rekey_accountSent (bytes : Nat) (e : Endpoint C) :
    (e.accountSent bytes).rekey = (e.rekey.step (.sent (UInt64.ofNat bytes))).2 := by
  unfold accountSent
  dsimp only
  split <;> rfl

theorem rekey_accountReceived (bytes : Nat) (e : Endpoint C) :
    (e.accountReceived bytes).2.rekey = (e.rekey.step (.received (UInt64.ofNat bytes))).2 := by
  unfold accountReceived
  dsimp only
  split <;> rfl

theorem announces_accountSent (hcurrent : e.Current) (bytes : Nat) :
    Announces e (e.accountSent bytes) := by
  have hrecorded := Rekey.Policy.recorded_sent e.rekey (UInt64.ofNat bytes)
  unfold accountSent
  dsimp only
  split
  · exact .publish hcurrent rfl
  next hquiet =>
    exact .of_kept rfl (hrecorded.pending_eq (by simpa [Rekey.Policy.step] using hquiet))

theorem announces_accountReceived (hcurrent : e.Current) (bytes : Nat) :
    Announces e (e.accountReceived bytes).2 := by
  have hrecorded := Rekey.Policy.recorded_received e.rekey (UInt64.ofNat bytes)
  unfold accountReceived
  dsimp only
  split
  next hanswer => exact .of_kept rfl (hrecorded.pending_eq (by simp [Rekey.Policy.step, hanswer]))
  next hanswer => exact .of_kept rfl (hrecorded.pending_eq (by simp [Rekey.Policy.step, hanswer]))
  · exact .publish hcurrent rfl

theorem checkKeepAlive_keeps (e : Endpoint C) :
    e.checkKeepAlive.rekey = e.rekey ∧ e.checkKeepAlive.signal = e.signal := by
  unfold checkKeepAlive
  dsimp only
  split
  · exact ⟨rfl, rfl⟩
  next handler _ => cases handler <;> exact ⟨rfl, rfl⟩

theorem endAttempt_keeps (attempt : Attempt C) (e : Endpoint C) :
    (e.endAttempt attempt).rekey = e.rekey ∧ (e.endAttempt attempt).signal = e.signal := by
  unfold endAttempt
  split
  · exact checkKeepAlive_keeps { e with reads := attempt.left }
  · exact ⟨rfl, rfl⟩

end Endpoint

variable [BlockCipher C]

open Endpoint

theorem Happens.rekey_eq {here there : Scene C} {incident : Incident C}
    (hhappens : Happens here incident there) :
    there.endpoint.rekey = here.endpoint.rekey.after incident.rekeyStep?.toList := by
  cases hhappens with
  | sent bytes e => exact rekey_accountSent bytes e
  | received bytes e => exact rekey_accountReceived bytes e
  | attempted attempt e => exact (endAttempt_keeps attempt e).1
  | _ => rfl

/-- Whatever raises or withdraws a request announces it at once. -/
theorem Happens.announces {here there : Scene C} {incident : Incident C}
    (hhappens : Happens here incident there) (hcurrent : here.endpoint.Current) :
    Announces here.endpoint there.endpoint := by
  cases hhappens with
  | installedOutbound protection e => exact .publish hcurrent rfl
  | installedInbound protection e => exact .publish hcurrent rfl
  | sent bytes e => exact announces_accountSent hcurrent bytes
  | received bytes e => exact announces_accountReceived hcurrent bytes
  | attempted attempt e =>
      obtain ⟨hrekey, hsignal⟩ := endAttempt_keeps attempt e
      exact .of_kept hsignal (congrArg Rekey.Policy.pending hrekey)
  | _ => exact .of_kept rfl rfl

/-- Through calls on the rekey policy, the signal has been changed as often as the request
has, and shows it in the end. -/
structure KeepsUp (e : Endpoint C) (steps : List Rekey.Step) (next : Endpoint C) : Prop where
  current : next.Current
  rekey : next.rekey = e.rekey.after steps
  version : next.signal.version = e.signal.version + e.rekey.changes steps

/-- An incident that announces what it does to the request makes at most one call. -/
theorem KeepsUp.of_happens {here there : Scene C} {incident : Incident C}
    (hhappens : Happens here incident there) (hcurrent : here.endpoint.Current) :
    KeepsUp here.endpoint incident.rekeyStep?.toList there.endpoint := by
  have hannounces := hhappens.announces hcurrent
  have hrekey := hhappens.rekey_eq
  refine ⟨hannounces.current hcurrent, hrekey, ?_⟩
  rw [Announces] at hannounces
  cases hstep : incident.rekeyStep? with
  | none =>
      rw [hstep] at hrekey
      have hpending : there.endpoint.rekey.pending = here.endpoint.rekey.pending :=
        congrArg Rekey.Policy.pending hrekey
      rw [hannounces, if_pos hpending]
      rfl
  | some step =>
      rw [hstep] at hrekey
      have hpending : there.endpoint.rekey.pending =
          (here.endpoint.rekey.step step).2.pending := congrArg Rekey.Policy.pending hrekey
      rw [hannounces, hpending]
      simp only [Option.toList_some, Rekey.Policy.changes]
      split <;> rfl

omit [BlockCipher C] in
theorem KeepsUp.trans {e middle next : Endpoint C} {first second : List Rekey.Step}
    (hfirst : KeepsUp e first middle) (hsecond : KeepsUp middle second next) :
    KeepsUp e (first ++ second) next := by
  obtain ⟨-, hrekey, hversion⟩ := hfirst
  obtain ⟨hcurrent, hrekey', hversion'⟩ := hsecond
  refine ⟨hcurrent, ?_, ?_⟩
  · rw [hrekey', hrekey, Rekey.Policy.after_append]
  · rw [hversion', hversion, hrekey, Rekey.Policy.changes_append, Nat.add_assoc]

theorem Trace.keepsUp {scene last : Scene C} {incidents : List (Incident C)}
    (htrace : Trace scene incidents last) (hcurrent : scene.endpoint.Current) :
    KeepsUp scene.endpoint (incidents.filterMap Incident.rekeyStep?) last.endpoint := by
  induction htrace with
  | done scene => exact ⟨hcurrent, rfl, rfl⟩
  | @aside attempt e middle last incidents hwatch _ ih =>
      -- what the watch does not show touches neither the signal nor the policy
      have hsignal : middle.signal = e.signal := congrArg Watch.signal hwatch
      have hrekey : middle.rekey = e.rekey := congrArg Watch.rekey hwatch
      have hmiddle : middle.Current := by rwa [Current, hsignal, hrekey]
      obtain ⟨hlast, hafter, hversion⟩ := ih hmiddle
      exact ⟨hlast, hrekey ▸ hafter, hsignal ▸ hrekey ▸ hversion⟩
  | @step scene middle last incident incidents hhappens _ ih =>
      have hfirst := KeepsUp.of_happens hhappens hcurrent
      have hall := hfirst.trans (ih hfirst.current)
      cases hstep : incident.rekeyStep? <;> simpa [hstep] using hall

namespace Endpoint

/-- The signal shows the request for new keys after every operation. All along a run, it
changes once at every incident that raises or withdraws the request, and at no other. -/
theorem run_announced {config : Config} {padding noise : ByteSource} {e : Endpoint C}
    (hmade : make config padding noise = .ok e) (operations : List (Operation (Protection C))) :
    (∃ incidents, Traced operations e incidents) ∧
      ∀ incidents, Traced operations e incidents →
        KeepsUp e (incidents.filterMap Incident.rekeyStep?) (run operations e).2 ∧
          ∀ before incident after, incidents = before ++ incident :: after →
            ∃ here there, Trace ⟨none, e⟩ before here ∧ Happens here incident there ∧
              Trace there after ⟨none, (run operations e).2⟩ ∧
              Announces here.endpoint there.endpoint := by
  have hcurrent := current_make hmade
  refine ⟨exists_traced operations e, ?_⟩
  intro incidents htraced
  refine ⟨htraced.trace.keepsUp hcurrent, ?_⟩
  rintro before incident after rfl
  obtain ⟨here, there, hbefore, hhappens, hafter⟩ := htraced.trace.of_split
  exact ⟨here, there, hbefore, hhappens, hafter,
    hhappens.announces (hbefore.keepsUp hcurrent).current⟩

/-- An endpoint that may send one packet with the same keys. -/
def briefEndpoint : Endpoint Rehearsal.Cipher :=
  { newEndpoint with
    config := { rekey := { packets := 1 } }
    valid := (Config.violation?_eq_none_iff _).mp rfl
    rekey := { limits := { packets := 1 } } }

/-- The first message raises a request, and only the second installation withdraws it. -/
theorem run_announced_brief :
    make { rekey := { packets := 1 } } .zeros .zeros = .ok briefEndpoint ∧
      (run [.write [1], .installInbound (maskedProtection 0)] briefEndpoint).2.signal = ⟨true, 1⟩ ∧
      (run [.write [1], .installInbound (maskedProtection 0),
        .installOutbound (maskedProtection 0)] briefEndpoint).2.signal = ⟨false, 2⟩ ∧
      ∃ incidents, KeepsUp briefEndpoint incidents
        (run [.write [1], .installInbound (maskedProtection 0),
          .installOutbound (maskedProtection 0)] briefEndpoint).2 := by
  have hmade : make { rekey := { packets := 1 } } .zeros .zeros = .ok briefEndpoint := rfl
  obtain ⟨⟨incidents, htraced⟩, hannounced⟩ := run_announced hmade [.write [1],
    .installInbound (maskedProtection 0), .installOutbound (maskedProtection 0)]
  exact ⟨hmade, by decide +kernel, by decide +kernel, _, (hannounced incidents htraced).1⟩

end Endpoint

end PacketLayer
