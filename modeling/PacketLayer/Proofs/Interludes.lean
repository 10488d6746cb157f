import PacketLayer.Proofs.Course.Beside
import PacketLayer.Proofs.Numbering
import PacketLayer.Proofs.Succession

/-! # Reads that accept nothing

While a read waits, a protection that was parked may come into use, new outbound keys may be
installed, and keep-alive messages may be written. A read that accepts no packet leaves every
number, every count, the request for new keys and all that belongs to sending as these
interludes leave them. Each interlude has its cause in what the endpoint held before or in its
scripts, and where there is no cause nothing changes.
-/

namespace PacketLayer

variable {P C : Type}

/-- An item of a read script that neither installs a protection nor has keep-alive messages
sent. -/
def ReadItem.Plain : ReadItem P → Prop
  | installOutbound _ | act (.installInbound _) | act (.setKeepAlive _ .sendIgnore) => False
  | _ => True

/-- An endpoint with no cause for an interlude: nothing is parked, no keep-alive message is
under way, and the script brings no protections. -/
structure Endpoint.Secluded (e : Endpoint C) : Prop where
  parked : e.parked = none
  held : e.held = none
  owed : e.owed = 0
  queued : e.queued = 0
  handler : e.keepAlive.handler ≠ some .sendIgnore
  reads : ∀ item ∈ e.reads, item.Plain

/-- Nothing at a stage is a cause for an interlude. -/
structure Stage.Secluded (s : Stage C) : Prop extends s.Devoted, s.Silent where
  parked : s.endpoint.parked = none
  handler : s.endpoint.keepAlive.handler ≠ some .sendIgnore
  reads : ∀ item ∈ s.reads, item.Plain

namespace Rekey.Policy

theorem received_installOutbound (policy : Policy) :
    policy.installOutbound.received = policy.received := by
  unfold installOutbound withdraw
  split <;> rfl

theorem sent_installInbound (policy : Policy) : policy.installInbound.sent = policy.sent := by
  unfold installInbound withdraw
  split <;> rfl

theorem received_recordSent (policy : Policy) (bytes : UInt64) :
    (policy.recordSent bytes).2.received = policy.received := by
  unfold recordSent
  dsimp only
  split
  · rfl
  · split <;> rfl

end Rekey.Policy

variable [BlockCipher C] {here there s next : Stage C} {deed : Deed C} {deeds : List (Deed C)}

/-- In the course of a read, only interludes bear on the rekey policy until a packet is
verified. -/
theorem Does.interlude_of_steps (hdoes : Does here deed there) (hdevoted : here.Devoted)
    (hnone : deed.verified? = none) (hsteps : deed.rekeySteps ≠ []) : deed.Interlude := by
  obtain ⟨hread, hown⟩ := hdevoted
  cases hdoes with
  | completed _ hsending =>
      have hrequest := hown _ hsending
      dsimp only at hrequest
      subst hrequest
      trivial
  | replaced hphase => cases hread _ hphase
  | rekeyed | activated => trivial
  | @acted _ _ action hmeets =>
      cases hmeets with
      | operation hphase haction =>
          obtain rfl := hread _ hphase
          cases haction
      | writes => trivial
      | reads hphase =>
          have hbusy : here.reader = .busy := by rw [Stage.reader, hphase]
          rw [hbusy] at hsteps
          cases action <;> exact absurd rfl hsteps
  | verified => cases hnone
  | _ => exact absurd rfl hsteps

/-- Counts of what is received change when an inbound protection comes into use. -/
theorem Does.received_eq (hdoes : Does here deed there) (hnone : deed.verified? = none)
    (hused : deed.used? = none) :
    there.endpoint.rekey.received = here.endpoint.rekey.received := by
  rw [hdoes.rekey_eq]
  cases deed with
  | ended request frameLength result =>
      rcases result with fault | ⟨⟨⟩⟩
      · rfl
      · cases frameLength with
        | none => rfl
        | some length => exact Rekey.Policy.received_recordSent _ _
  | rekeyed origin protection => exact Rekey.Policy.received_installOutbound _
  | acted origin reader action =>
      cases action with
      | installInbound protection =>
          cases reader with
          | idle => cases hused
          | busy => rfl
      | close | setKeepAlive => cases reader <;> rfl
  | activated protection => cases hused
  | verified => cases hnone
  | _ => rfl

/-- A protection that is no longer parked touches nothing that belongs to sending. -/
theorem Does.sendingSide_of_activated {protection : Protection C}
    (hdoes : Does here (.activated protection) there) :
    there.holdings.sendingSide = here.holdings.sendingSide ∧
      there.endpoint.rekey.sent = here.endpoint.rekey.sent := by
  cases hdoes with
  | activated _ hparked =>
      rw [Stage.holdings, Endpoint.activateParked_eq hparked]
      exact ⟨rfl, Rekey.Policy.sent_installInbound _⟩

/-- Where there is no cause for an interlude, none takes place, and no cause comes up. -/
theorem Does.secluded (hdoes : Does here deed there) (hinside : deed.Inside)
    (hsecluded : here.Secluded) : ¬deed.Interlude ∧ there.Secluded := by
  obtain ⟨hkeeps, hsilent⟩ := hdoes.silent hsecluded.toDevoted hsecluded.toSilent
    fun _ _ _ => hsecluded.handler
  have hdevoted := (hdoes.devoted hinside hsecluded.toDevoted).1
  obtain ⟨⟨hread, -⟩, ⟨hfree, -, -⟩, hparked, hhandler, hreads⟩ := hsecluded
  cases hdoes with
  | rekeyed _ _ hitems =>
      rw [hitems] at hreads
      exact False.elim (hreads _ List.mem_cons_self)
  | @acted _ _ action hmeets =>
      cases hmeets with
      | operation hphase haction =>
          obtain rfl := hread _ hphase
          cases haction
      | writes _ hsending => exact absurd hfree hsending
      | reads _ _ hitems =>
          rw [hitems] at hreads
          obtain ⟨hplain, hrest⟩ := List.forall_mem_cons.mp hreads
          cases action with
          | installInbound => exact False.elim hplain
          | close => exact ⟨id, hdevoted, hsilent, hparked, hhandler, hrest⟩
          | setKeepAlive interval handler =>
              refine ⟨id, hdevoted, hsilent, hparked, ?_, hrest⟩
              cases handler with
              | sendIgnore => exact False.elim hplain
              | count | close => nofun
  | activated _ hsome =>
      rw [hparked] at hsome
      cases hsome
  | @received _ attempt bytes items _ _ _ hitems =>
      rw [hitems] at hreads
      refine ⟨id, hdevoted, hsilent, hparked, hhandler, fun item hmem => ?_⟩
      dsimp only at hmem
      unfold Endpoint.leftOver at hmem
      split at hmem
      · exact hreads item (List.mem_cons_of_mem _ hmem)
      · obtain rfl | hmem := List.mem_cons.mp hmem
        · trivial
        · exact hreads item (List.mem_cons_of_mem _ hmem)
  | passedRead _ _ hskips =>
      refine ⟨id, hdevoted, hsilent, hparked, hhandler, ?_⟩
      generalize here.reads = items at hskips hreads
      cases hskips with
      | pause =>
          rw [List.forall_mem_cons]
          exact ⟨trivial, (List.forall_mem_cons.mp hreads).2⟩
      | hollow | eof | fail | resumeAt => exact (List.forall_mem_cons.mp hreads).2
  | @attempted _ attempt =>
      obtain ⟨-, hsame⟩ := Endpoint.dues_endAttempt fun _ _ => hhandler
      have hstill := Endpoint.view_endAttempt Endpoint.parked (fun _ _ _ _ _ _ _ => rfl) attempt
        here.endpoint
      exact ⟨id, hdevoted, hsilent, hstill.trans hparked, hsame ▸ hhandler, hreads⟩
  | @verified _ lane header =>
      obtain ⟨hstill, hsame⟩ := Prod.mk.inj (Endpoint.view_accountReceived
        (fun e => (e.parked, e.keepAlive)) (fun _ _ _ _ => rfl)
        (header.frameLength + lane.tagSize) here.endpoint.advanceInbound)
      exact ⟨id, hdevoted, hsilent, hstill.trans hparked, hsame ▸ hhandler, hreads⟩
  | aside hsight =>
      refine ⟨id, hdevoted, hsilent, ?_, ?_, hreads⟩
      · exact (Endpoint.view_of_sight Endpoint.parked (fun _ => rfl) hsight).trans hparked
      · exact Endpoint.view_of_sight Endpoint.keepAlive (fun _ => rfl) hsight ▸ hhandler
  | supplied hphase hsupplies =>
      obtain rfl := hread _ hphase
      cases hsupplies
  | replaced hphase => cases hread _ hphase
  | carried | admitted | passedWrite | heldBack | resumed => exact False.elim (hkeeps trivial)
  | completed _ hsending | stopped _ hsending | stalled hsending =>
      rw [hfree] at hsending
      cases hsending
  | declined _ hdrafts | sealed _ hdrafts =>
      cases hdrafts with
      | own hphase => cases hread _ hphase
      | keepAlive => exact False.elim (hkeeps trivial)
  | _ => exact ⟨id, hdevoted, hsilent, hparked, hhandler, hreads⟩

/-- What every deed of a read keeps, the read keeps. -/
theorem Course.keeps_of_devoted {γ : Type} (view : Stage C → γ) (hcourse : Course s deeds next)
    (hinside : ∀ deed ∈ deeds, deed.Inside) (hdevoted : s.Devoted)
    (hdeeds : ∀ deed ∈ deeds, ∀ {here there : Stage C}, here.Devoted → Does here deed there →
      view there = view here) : view next = view s := by
  have hkept := hcourse.relates
    (R := fun s next => s.Devoted → next.Devoted ∧ view next = view s) (fun _ h => ⟨h, rfl⟩)
    (fun hfirst hsecond h =>
      ⟨(hsecond (hfirst h).1).1, (hsecond (hfirst h).1).2.trans (hfirst h).2⟩)
    fun deed hmem _ _ hdoes h => ⟨(hdoes.devoted (hinside deed hmem) h).1, hdeeds deed hmem h hdoes⟩
  exact (hkept hdevoted).2

theorem Course.secluded (hcourse : Course s deeds next) (hinside : ∀ deed ∈ deeds, deed.Inside)
    (hsecluded : s.Secluded) : ∀ deed ∈ deeds, ¬deed.Interlude := by
  induction hcourse with
  | done s => simp
  | step hdoes _ ih =>
      obtain ⟨hfirst, hrest⟩ := List.forall_mem_cons.mp hinside
      obtain ⟨hquiet, hnext⟩ := hdoes.secluded hfirst hsecluded
      exact List.forall_mem_cons.mpr ⟨hquiet, ih hrest hnext⟩

/-! ## Reads -/

namespace Endpoint

/-- Deeds by which an endpoint may read a packet. -/
structure ReadCourse (e : Endpoint C) (deeds : List (Deed C)) : Prop where
  course : Course (e.during (.ordered .read)) deeds ((read e).2.during .free)
  tidings : deeds.filterMap Deed.tiding = tidingsOfRead e
  inside : ∀ deed ∈ deeds, deed.Inside

/-- What a read leaves behind that accepts no packet, by its deeds. Apart from what interludes
do, it is what the read found, and every interlude has its cause. -/
structure Unaccepted (e : Endpoint C) (deeds : List (Deed C)) : Prop where
  sequence : (read e).2.inbound.sequence = e.inbound.sequence
  /-- Wherever the holdings change, an interlude changes them. -/
  changes : ∀ before deed after here there, deeds = before ++ deed :: after →
    Course (e.during (.ordered .read)) before here → Does here deed there →
      deed.Interlude ∨ there.holdings = here.holdings
  /-- The rekey policy makes the steps of interludes, and no others. -/
  rekey : (read e).2.rekey = e.rekey.after (deeds.flatMap Deed.rekeySteps)
  steps : ∀ deed ∈ deeds, deed.rekeySteps ≠ [] → deed.Interlude
  received : (∀ deed ∈ deeds, deed.used? = none) →
    (read e).2.rekey.received = e.rekey.received
  sent : (∀ deed ∈ deeds, ¬deed.Keeps ∧ ∀ origin protection, deed ≠ .rekeyed origin protection) →
    (read e).2.sendingSide = e.sendingSide ∧ (read e).2.rekey.sent = e.rekey.sent
  still : (∀ deed ∈ deeds, ¬deed.Interlude) → (read e).2.holdings = e.holdings
  /-- New keys and what other parties do are taken from the scripts, in order and among the
  octets that are received. -/
  taken : ∀ origin, e.cues origin =
    deeds.flatMap (Deed.cues origin) ++ (read e).2.cues origin
  /-- A protection that comes into use was parked before, or has been parked meanwhile. -/
  parked : ∀ before protection after, deeds = before ++ .activated protection :: after →
    (e.parked = some protection ∧ ∀ deed ∈ before, deed.Passive) ∨ Waits before protection
  /-- A keep-alive message was under way, asked for or queued before, or the handler ran. -/
  kept : ∀ before deed after, deeds = before ++ deed :: after → deed.Keeps →
    e.held ≠ none ∨ e.owed ≠ 0 ∨ e.queued ≠ 0 ∨
      ∃ attempt firing, .attempted attempt (some firing) ∈ before

omit [BlockCipher C] in
theorem Secluded.during {e : Endpoint C} (hsecluded : e.Secluded) :
    (e.during (.ordered .read)).Secluded where
  toDevoted := devoted_during e
  sending := congrArg (Option.map _) hsecluded.held
  held := hsecluded.held
  dues := Prod.ext hsecluded.owed hsecluded.queued
  parked := hsecluded.parked
  handler := hsecluded.handler
  reads := hsecluded.reads

namespace ReadCourse

variable {e : Endpoint C} {deeds : List (Deed C)}

theorem steps (hread : ReadCourse e deeds) (hnone : ∀ deed ∈ deeds, deed.verified? = none) :
    ∀ deed ∈ deeds, deed.rekeySteps ≠ [] → deed.Interlude := by
  intro deed hmem hsteps
  obtain ⟨before, after, rfl⟩ := List.append_of_mem hmem
  obtain ⟨here, there, hbefore, hdoes, -⟩ := hread.course.of_mem_split
  have hinside := (List.forall_mem_append.mp hread.inside).1
  exact hdoes.interlude_of_steps (hbefore.devoted hinside (devoted_during e))
    (hnone deed hmem) hsteps

/-- Without interludes the holdings stay as they are until a packet is verified. -/
theorem still (hread : ReadCourse e deeds) (hnone : ∀ deed ∈ deeds, deed.verified? = none)
    (hquiet : ∀ deed ∈ deeds, ¬deed.Interlude) : (read e).2.holdings = e.holdings :=
  hread.course.keeps_of_devoted Stage.holdings hread.inside (devoted_during e)
    fun deed hmem _ _ hdevoted hdoes =>
      ((hdoes.devoted (hread.inside deed hmem) hdevoted).2 (hnone deed hmem)).resolve_left
        (hquiet deed hmem)

/-- Only new outbound keys and keep-alive messages touch what belongs to sending. -/
theorem sent (hread : ReadCourse e deeds) (hnone : ∀ deed ∈ deeds, deed.verified? = none)
    (hquiet : ∀ deed ∈ deeds,
      ¬deed.Keeps ∧ ∀ origin protection, deed ≠ .rekeyed origin protection) :
    (read e).2.sendingSide = e.sendingSide ∧ (read e).2.rekey.sent = e.rekey.sent := by
  refine Prod.mk.inj (hread.course.keeps_of_devoted
    (fun s => (s.holdings.sendingSide, s.endpoint.rekey.sent)) hread.inside (devoted_during e) ?_)
  intro deed hmem here there hdevoted hdoes
  obtain ⟨hkeeps, hrekeyed⟩ := hquiet deed hmem
  rcases (hdoes.devoted (hread.inside deed hmem) hdevoted).2 (hnone deed hmem) with
    hinterlude | hsame
  · cases deed with
    | activated protection =>
        obtain ⟨hside, hsent⟩ := hdoes.sendingSide_of_activated
        exact Prod.ext hside hsent
    | rekeyed origin protection => exact absurd rfl (hrekeyed origin protection)
    | _ => exact absurd hinterlude hkeeps
  · exact congrArg (fun holdings => (holdings.sendingSide, holdings.rekey.sent)) hsame

theorem kept (hread : ReadCourse e deeds) {before after : List (Deed C)} {deed : Deed C}
    (hdeeds : deeds = before ++ deed :: after) (hkeeps : deed.Keeps) :
    e.held ≠ none ∨ e.owed ≠ 0 ∨ e.queued ≠ 0 ∨
      ∃ attempt firing, .attempted attempt (some firing) ∈ before := by
  subst hdeeds
  by_contra hcause
  push Not at hcause
  obtain ⟨hheld, howed, hqueued, hfires⟩ := hcause
  obtain ⟨here, there, hbefore, hdoes, -⟩ := hread.course.of_mem_split
  have hinside := (List.forall_mem_append.mp hread.inside).1
  have hsilent : (e.during (.ordered .read)).Silent :=
    ⟨congrArg (Option.map _) hheld, hheld, Prod.ext howed hqueued⟩
  refine (hdoes.silent (hbefore.devoted hinside (devoted_during e))
    (hbefore.silent hinside (devoted_during e) hsilent hfires) ?_).1 hkeeps
  rintro attempt firing rfl
  exact False.elim hkeeps

theorem taken (hread : ReadCourse e deeds) (origin : Origin) :
    e.cues origin = deeds.flatMap (Deed.cues origin) ++ (read e).2.cues origin := by
  have htaken := hread.course.cues_eq origin
  rw [Deed.brings_of_inside origin hread.inside] at htaken
  cases origin with
  | operation => exact htaken
  | reads | writes =>
      simpa [Stage.cues, Endpoint.cues, Phase.cues, Operation.cues, during] using htaken

theorem unaccepted (hread : ReadCourse e deeds) (hverification : verification e = none) :
    Unaccepted e deeds := by
  have hverified : deeds.filterMap Deed.verified? = [] := by
    have htidings := congrArg (List.filterMap Tiding.verified?) hread.tidings
    rw [List.filterMap_filterMap, verified_tidingsOfRead, hverification] at htidings
    exact htidings
  have hnone := List.filterMap_eq_nil_iff.mp hverified
  refine ⟨?_, ?_, hread.course.rekey_eq, hread.steps hnone, ?_, hread.sent hnone,
    hread.still hnone, hread.taken, ?_, fun before deed after => hread.kept⟩
  · refine hread.course.keeps_of_devoted (fun s => s.endpoint.inbound.sequence) hread.inside
      (devoted_during e) fun deed hmem _ _ _ hdoes => ?_
    rcases hdoes.counts with ⟨-, hsame⟩ | ⟨frame, hsome, -⟩
    · exact hsame
    · rw [hnone deed hmem] at hsome
      cases hsome
  · rintro before deed after here there rfl hbefore hdoes
    obtain ⟨hinside, hrest⟩ := List.forall_mem_append.mp hread.inside
    exact (hdoes.devoted (hrest deed List.mem_cons_self)
      (hbefore.devoted hinside (devoted_during e))).2 (hnone deed (by simp))
  · intro hused
    exact hread.course.keeps_of_devoted (fun s => s.endpoint.rekey.received) hread.inside
      (devoted_during e) fun deed hmem _ _ _ hdoes =>
        hdoes.received_eq (hnone deed hmem) (hused deed hmem)
  · rintro before protection after rfl
    obtain ⟨here, there, hbefore, hdoes, -⟩ := hread.course.of_mem_split
    have hparked : here.endpoint.parked = some protection := by
      cases hdoes with
      | activated _ hparked => exact hparked
    exact hbefore.waits hparked

end ReadCourse

/-- A read that accepts no packet counts none: the inbound number stays, and so does all that
is counted, asked for or sent, apart from what interludes make of it, whichever deeds the read
may consist of. Where nothing is a cause for an interlude, it stays altogether. A packet that
is refused because the peer ignores a request for new keys has been accepted before. -/
theorem read_unaccepted {e : Endpoint C} (hpacket : ∀ packet, (read e).1 ≠ .ok (some packet))
    (hignored : ∀ count, (read e).1 ≠ .error (.rekeyIgnored count)) :
    (∃ deeds, ReadCourse e deeds) ∧ (∀ deeds, ReadCourse e deeds → Unaccepted e deeds) ∧
      (e.Secluded → (read e).2.holdings = e.holdings) := by
  have hnone : verification e = none := by
    refine Option.eq_none_iff_forall_ne_some.mpr fun verified hverified => ?_
    rcases read_of_verified hverified with hdelivered | ⟨count, hrefused⟩
    · exact hpacket _ hdelivered
    · exact hignored count hrefused
  obtain ⟨deeds, hcourse, htidings, hinside⟩ := leads_read e
  have hread : ReadCourse e deeds := ⟨hcourse, htidings, hinside⟩
  refine ⟨⟨deeds, hread⟩, fun _ hread => hread.unaccepted hnone, fun hsecluded => ?_⟩
  exact (hread.unaccepted hnone).still (hcourse.secluded hinside hsecluded.during)

/-- A reader with a protection parked whose stream ends four octets into the rest of a masked
packet; new outbound keys are installed after the first block. -/
def brokenReader : Endpoint Rehearsal.Cipher :=
  { newEndpoint with
    parked := some (maskedProtection 0)
    reads := [.data (maskedOctets.take 8), .installOutbound (maskedProtection 0),
      .data ((maskedOctets.drop 8).take 4), .eof] }

/-- A reader whose stream ends after four octets, while others have a counting handler run and
close it. -/
def quietReader : Endpoint Rehearsal.Cipher :=
  { newEndpoint with
    reads := [.data (maskedOctets.take 4), .act (.setKeepAlive 1 .count), .pause 5, .act .close,
      .eof] }

theorem read_unaccepted_broken :
    (read brokenReader).1 = .ok none ∧ (read brokenReader).2.inbound.isProtected = true ∧
      (read brokenReader).2.outbound.isProtected = true ∧
      (∃ deeds, ReadCourse brokenReader deeds) ∧
      (∀ deeds, ReadCourse brokenReader deeds → Unaccepted brokenReader deeds) ∧
      (read quietReader).1 = .ok none ∧
      (read quietReader).2.holdings = quietReader.holdings := by
  have hbroken : (read brokenReader).1 = .ok none := by decide +kernel
  have hquiet : (read quietReader).1 = .ok none := by decide +kernel
  obtain ⟨hexists, hunaccepted, -⟩ := read_unaccepted
    (e := brokenReader) (by rw [hbroken]; rintro packet ⟨⟩) (by rw [hbroken]; rintro count ⟨⟩)
  obtain ⟨-, -, hstill⟩ := read_unaccepted
    (e := quietReader) (by rw [hquiet]; rintro packet ⟨⟩) (by rw [hquiet]; rintro count ⟨⟩)
  have hsecluded : quietReader.Secluded :=
    ⟨rfl, rfl, rfl, rfl, nofun, by simp [quietReader, ReadItem.Plain]⟩
  exact ⟨hbroken, by decide +kernel, by decide +kernel, hexists, hunaccepted, hquiet,
    hstill hsecluded⟩

end Endpoint

end PacketLayer
