import PacketLayer.Proofs.Closing.Operations
import PacketLayer.Proofs.Course.Inbound

/-! # Reading on an endpoint that is closed meanwhile

A read goes on for a while after its endpoint is closed: to the end of an attempt, and further
if that has brought all octets of a stage. Up to there it takes the same octets off the stream
as the read of an endpoint that is spared, and makes the same of them. Keep-alive messages
beside the two reads may fare differently, which tells only on the count of packets sent.
-/

namespace PacketLayer

variable {P C : Type}

/-- Nobody arranges for keep-alive messages to be written. -/
def ReadScript.Unaided (script : ReadScript P) : Prop :=
  ∀ interval, ReadItem.act (.setKeepAlive interval .sendIgnore) ∈ script → interval = 0

namespace ReadScript.Unaided

theorem tail {item : ReadItem P} {items : ReadScript P} (h : Unaided (item :: items)) :
    Unaided items :=
  fun interval hmem => h interval (List.mem_cons_of_mem _ hmem)

theorem cons {item : ReadItem P} {items : ReadScript P} (h : Unaided items)
    (hitem : ∀ action, item ≠ .act action) : Unaided (item :: items) := by
  intro interval hmem
  rcases List.mem_cons.mp hmem with hhead | htail
  · exact absurd hhead.symm (hitem _)
  · exact h interval htail

theorem leftOver {items : ReadScript (Protection C)} (h : Unaided items) (want : Nat)
    (bytes : Bytes) : Unaided (Endpoint.leftOver want bytes items) := by
  unfold Endpoint.leftOver
  split
  · exact h
  · exact h.cons fun _ => by rintro ⟨⟩

end ReadScript.Unaided

theorem WriteScript.Quiet.spare {script : WriteScript P} (h : WriteScript.Quiet script) :
    WriteScript.Quiet (WriteScript.spare script) := by
  intro action hmem
  obtain ⟨item, hitem, hspared⟩ := List.mem_map.mp hmem
  cases item with
  | act acted =>
      have hacted := h acted hitem
      cases acted with
      | close => cases hspared
      | installInbound protection => cases hacted
      | setKeepAlive interval handler =>
          cases hspared
          trivial
  | accept | fail | pause | resumeAt => cases hspared

theorem Handler.eq_sendIgnore_of_spare {handler : Handler} (h : handler.spare = .sendIgnore) :
    handler = .sendIgnore := by
  cases handler with
  | count | close => cases h
  | sendIgnore => rfl

/-- A handler is handed out only if there is an interval, and the schedule keeps it. -/
theorem KeepAlive.poll_handler {H : Type} (schedule : KeepAlive H) (now : Nat)
    (cipherActive rekeyPending : Bool) :
    (schedule.poll now cipherActive rekeyPending).2.handler = schedule.handler ∧
      (schedule.poll now cipherActive rekeyPending).2.interval = schedule.interval ∧
      ∀ handler, (schedule.poll now cipherActive rekeyPending).1 = some handler →
        schedule.handler = some handler ∧ schedule.interval ≠ 0 := by
  unfold poll
  split
  next hdue =>
    simp only [due, enabled, Bool.and_eq_true, bne_iff_ne] at hdue
    exact ⟨rfl, rfl, fun handler hhandler => ⟨hhandler, hdue.1.1.1.1⟩⟩
  next => exact ⟨rfl, rfl, fun handler hnone => by cases hnone⟩

namespace Endpoint

/-- No keep-alive message is asked for or on its way, and no handler will ask for one. -/
structure Unaided (e : Endpoint C) : Prop where
  held : e.held = none
  owed : e.owed = 0
  queued : e.queued = 0
  handler : e.keepAlive.handler = some .sendIgnore → e.keepAlive.interval = 0

/-- Keep-alive messages may be written beside a read, with nobody to install a protection
meanwhile, or there are none. -/
inductive Company : Bool → Endpoint C → Prop where
  | aided {e : Endpoint C} (hquiet : WriteScript.Quiet e.writes) : Company true e
  | alone {e : Endpoint C} (hunaided : e.Unaided) : Company false e

/-- All that an endpoint's company depends on. -/
def attendance (e : Endpoint C) : WriteScript (Protection C) × Option HeldMessage × Nat × Nat ×
    KeepAlive Handler :=
  (e.writes, e.held, e.owed, e.queued, e.keepAlive)

namespace Company

variable {aided : Bool} {e : Endpoint C}

theorem of_attendance {next : Endpoint C} (h : Company aided e)
    (hsame : next.attendance = e.attendance) : Company aided next := by
  simp only [attendance, Prod.mk.injEq] at hsame
  obtain ⟨hwrites, hheld, howed, hqueued, hkeepAlive⟩ := hsame
  cases h with
  | aided hquiet => exact .aided (hwrites ▸ hquiet)
  | alone hunaided =>
      exact .alone ⟨hheld.trans hunaided.held, howed.trans hunaided.owed,
        hqueued.trans hunaided.queued, hkeepAlive ▸ hunaided.handler⟩

theorem spare (h : Company aided e) : Company aided e.spare := by
  cases h with
  | aided hquiet => exact .aided hquiet.spare
  | alone hunaided =>
      refine .alone ⟨hunaided.held, hunaided.owed, hunaided.queued, fun hspared => ?_⟩
      obtain ⟨handler, hhandler, hignores⟩ := Option.map_eq_some_iff.mp hspared
      obtain rfl := Handler.eq_sendIgnore_of_spare hignores
      exact hunaided.handler hhandler

theorem setKeepAlive (h : Company aided e) {interval : Nat} {handler : Handler}
    (hsilent : aided = false → handler = .sendIgnore → interval = 0) :
    Company aided (e.setKeepAlive interval handler) := by
  cases h with
  | aided hquiet => exact .aided hquiet
  | alone hunaided =>
      exact .alone ⟨hunaided.held, hunaided.owed, hunaided.queued,
        fun hignores => hsilent rfl (Option.some.inj hignores)⟩

/-- A handler that is due without company asks for no message. -/
theorem checkKeepAlive (h : Company aided e) : Company aided e.checkKeepAlive := by
  cases h with
  | aided hquiet => exact .aided (beside_checkKeepAlive hquiet).quiet
  | alone hunaided =>
      obtain ⟨hheld, howed, hqueued, hsilent⟩ := hunaided
      have hpolled := e.keepAlive.poll_handler e.now e.outbound.isProtected e.rekey.pending
      unfold Endpoint.checkKeepAlive
      generalize e.keepAlive.poll e.now e.outbound.isProtected e.rekey.pending = polled
        at hpolled ⊢
      obtain ⟨handler?, schedule⟩ := polled
      obtain ⟨hhandler, hinterval, hdue⟩ := hpolled
      have hstill : schedule.handler = some .sendIgnore → schedule.interval = 0 := by
        rw [hhandler, hinterval]
        exact hsilent
      rcases handler? with _ | handler
      · exact .alone ⟨hheld, howed, hqueued, hstill⟩
      · obtain ⟨hset, hlasting⟩ := hdue handler rfl
        cases handler with
        | count | close => exact .alone ⟨hheld, howed, hqueued, hstill⟩
        | sendIgnore => exact absurd (hsilent hset) hlasting

end Company

/-- What a reader works on stays, and so does its company; without company, packets are not
counted. -/
structure Stays (aided : Bool) (e next : Endpoint C) : Prop where
  inbound : next.inbound = e.inbound
  parked : next.parked = e.parked
  reads : next.reads = e.reads
  rekey : aided = false → next.rekey = e.rekey
  company : Company aided next

variable [BlockCipher C] {aided : Bool}

theorem stays_waitUntil {e : Endpoint C} (h : Company aided e) (reader : ReaderState)
    (time : Nat) : Stays aided e (e.waitUntil reader time) := by
  cases h with
  | aided hquiet =>
      have hbeside := beside_waitUntil hquiet reader time
      exact ⟨hbeside.inbound, hbeside.parked, hbeside.reads, nofun, .aided hbeside.quiet⟩
  | alone hunaided =>
      obtain ⟨hheld, howed, hqueued, hhandler⟩ := hunaided
      obtain ⟨turn, hwaited⟩ := Still.waitUntil_eq ⟨hheld, howed, hqueued⟩ reader time
      rw [hwaited]
      exact ⟨rfl, rfl, rfl, fun _ => rfl, .alone ⟨hheld, howed, hqueued, hhandler⟩⟩

/-! ## Two reads -/

/-- What a reader works on is the same on an endpoint and on another, which is the first one
spared as long as that is open. -/
structure Shadow (aided : Bool) (e other : Endpoint C) : Prop where
  config : other.config = e.config
  now : other.now = e.now
  inbound : other.inbound = e.inbound
  parked : other.parked = e.parked
  reads : other.reads = ReadScript.spare e.reads
  rekey : aided = false → other.rekey = e.rekey
  script : aided = false → ReadScript.Unaided e.reads
  company : Company aided e
  companion : Company aided other
  spared : e.closed = false → other = e.spare

namespace Shadow

variable {e other : Endpoint C}

omit [BlockCipher C] in
theorem of_company (h : Company aided e) (hscript : aided = false → ReadScript.Unaided e.reads) :
    Shadow aided e e.spare :=
  ⟨rfl, rfl, rfl, rfl, rfl, fun _ => rfl, hscript, h, h.spare, fun _ => rfl⟩

omit [BlockCipher C] in
theorem opened (h : Shadow aided e other) (hopen : e.closed = false) : other.closed = false := by
  rw [h.spared hopen]
  rfl

theorem waitUntil (h : Shadow aided e other) (reader : ReaderState) (time : Nat) :
    Shadow aided (e.waitUntil reader time) (other.waitUntil reader time) := by
  obtain ⟨hinbound, hparked, hreads, hrekey, hcompany⟩ := stays_waitUntil h.company reader time
  obtain ⟨hinbound', hparked', hreads', hrekey', hcompanion⟩ :=
    stays_waitUntil h.companion reader time
  have hlasts := lasts_waitUntil reader time e
  exact {
    config := by rw [hlasts.config, (lasts_waitUntil reader time other).config, h.config]
    now := by rw [now_waitUntil, now_waitUntil, h.now]
    inbound := by rw [hinbound, hinbound', h.inbound]
    parked := by rw [hparked, hparked', h.parked]
    reads := by rw [hreads, hreads', h.reads]
    rekey := fun halone => by rw [hrekey halone, hrekey' halone, h.rekey halone]
    script := fun halone => by rw [hreads]; exact h.script halone
    company := hcompany
    companion := hcompanion
    spared := fun hopen => by
      rw [h.spared (hlasts.opened hopen)]
      exact spare_waitUntil reader time hopen }

omit [BlockCipher C] in
theorem installOutbound (h : Shadow aided e other) (protection : Protection C) :
    Shadow aided (e.installOutbound protection) (other.installOutbound protection) :=
  { h with
    rekey := fun halone => congrArg Rekey.Policy.installOutbound (h.rekey halone)
    company := h.company.of_attendance rfl
    companion := h.companion.of_attendance rfl
    spared := fun hopen => by rw [h.spared hopen]; rfl }

omit [BlockCipher C] in
theorem close (h : Shadow aided e other) : Shadow aided e.close other :=
  { h with
    company := h.company.of_attendance rfl
    spared := nofun }

omit [BlockCipher C] in
theorem park (h : Shadow aided e other) (protection : Protection C) :
    Shadow aided (e.installInbound .busy protection) (other.installInbound .busy protection) :=
  { h with
    parked := rfl
    company := h.company.of_attendance rfl
    companion := h.companion.of_attendance rfl
    spared := fun hopen => by rw [h.spared hopen]; rfl }

omit [BlockCipher C] in
theorem setKeepAlive (h : Shadow aided e other) {interval : Nat} {handler : Handler}
    (hsilent : aided = false → handler = .sendIgnore → interval = 0) :
    Shadow aided (e.setKeepAlive interval handler)
      (other.setKeepAlive interval handler.spare) :=
  { h with
    company := h.company.setKeepAlive hsilent
    companion := h.companion.setKeepAlive fun halone hignores =>
      hsilent halone (Handler.eq_sendIgnore_of_spare hignores)
    spared := fun hopen => by rw [h.spared hopen]; rfl }

omit [BlockCipher C] in
theorem activateParked (h : Shadow aided e other) :
    Shadow aided e.activateParked other.activateParked := by
  unfold Endpoint.activateParked
  rw [h.parked]
  split
  next => exact h
  next protection _ =>
    exact { h with
      inbound := congrArg (Lane.install protection) h.inbound
      parked := rfl
      rekey := fun halone => congrArg Rekey.Policy.installInbound (h.rekey halone)
      company := h.company.of_attendance rfl
      companion := h.companion.of_attendance rfl
      spared := fun hopen => by rw [h.spared hopen]; rfl }

omit [BlockCipher C] in
/-- Only an open endpoint looks at its keep-alive schedule while it reads. -/
theorem checkKeepAlive (h : Shadow aided e other) (hopen : e.closed = false) :
    Shadow aided e.checkKeepAlive other.checkKeepAlive := by
  rw [h.spared hopen, spare_checkKeepAlive]
  exact .of_company h.company.checkKeepAlive fun halone => by
    rw [reads_checkKeepAlive]
    exact h.script halone

omit [BlockCipher C] in
theorem reread (h : Shadow aided e other) {left : ReadScript (Protection C)}
    (hleft : aided = false → ReadScript.Unaided left) :
    Shadow aided { e with reads := left } { other with reads := ReadScript.spare left } :=
  { h with
    reads := rfl
    script := hleft
    company := h.company.of_attendance rfl
    companion := h.companion.of_attendance rfl
    spared := fun hopen => by rw [h.spared hopen]; rfl }

/-- Two attempts end alike: they bring the same, leave the same of the script, and leave
endpoints on which a reader works on the same. -/
inductive EndsAlike (aided : Bool) : Arrival × ReadScript (Protection C) × Endpoint C →
    Arrival × ReadScript (Protection C) × Endpoint C → Prop where
  | intro {arrival : Arrival} {left : ReadScript (Protection C)} {next companion : Endpoint C}
      (hleft : aided = false → ReadScript.Unaided left) (hnext : Shadow aided next companion) :
      EndsAlike aided (arrival, left, next) (arrival, ReadScript.spare left, companion)

/-- A pause of no time is none. -/
theorem arrive_pause_zero (want deadline : Nat) (items : ReadScript (Protection C))
    (e : Endpoint C) :
    arrive want deadline (.pause 0 :: items) e = arrive want deadline items e := by
  have hstill : e.waitUntil .busy (e.now + 0) = e := by
    rw [Endpoint.waitUntil]
    exact dif_pos (Nat.le_refl _)
  rw [arrive]
  exact (if_pos (Nat.le_max_left e.now deadline)).trans (by rw [hstill])

theorem arrive_alike (want deadline : Nat) {items : ReadScript (Protection C)}
    (hitems : aided = false → ReadScript.Unaided items) (h : Shadow aided e other) :
    EndsAlike aided (arrive want deadline items e)
      (arrive want deadline (ReadScript.spare items) other) := by
  induction items generalizing e other with
  | nil => exact .intro hitems h
  | cons item items ih =>
      have htail (halone : aided = false) := (hitems halone).tail
      change EndsAlike aided _ (arrive want deadline (item.spare :: ReadScript.spare items) other)
      cases item with
      | data bytes =>
          simp only [ReadItem.spare, arrive]
          split
          · exact .intro htail h
          · rw [spare_leftOver]
            exact .intro (fun halone => (htail halone).leftOver want bytes) h
      | eof => exact .intro htail h
      | fail failure => exact .intro htail h
      | pause milliseconds =>
          simp only [ReadItem.spare, arrive, h.now]
          split
          · exact ih htail (h.waitUntil .busy _)
          · exact .intro (fun halone => (htail halone).cons fun _ => by rintro ⟨⟩)
              (h.waitUntil .busy _)
      | resumeAt time =>
          simp only [ReadItem.spare, arrive, h.now]
          split
          · exact ih htail (h.waitUntil .busy _)
          · exact .intro (fun halone => (htail halone).cons fun _ => by rintro ⟨⟩)
              (h.waitUntil .busy _)
      | installOutbound protection => exact ih htail (h.installOutbound protection)
      | act action =>
          cases action with
          | close =>
              rw [ReadItem.spare, arrive_pause_zero]
              exact ih htail h.close
          | installInbound protection => exact ih htail (h.park protection)
          | setKeepAlive interval handler =>
              refine ih htail (h.setKeepAlive fun halone hignores => ?_)
              subst hignores
              exact hitems halone interval List.mem_cons_self

theorem receive {want limit : Nat} {arrival : Arrival} {next : Endpoint C}
    (h : Shadow aided e other) (hattempt : e.receive want limit = (arrival, next)) :
    ∃ companion, other.receive want limit = (arrival, companion) ∧
      Shadow aided next companion := by
  have halike := arrive_alike want (e.now + limit) h.script h
  rw [receive_eq] at hattempt
  rw [receive_eq, h.now, h.reads]
  generalize arrive want (e.now + limit) e.reads e = here at halike hattempt
  generalize arrive want (e.now + limit) (ReadScript.spare e.reads) other = there at halike ⊢
  obtain ⟨hleft, hnext⟩ := halike
  obtain ⟨rfl, rfl⟩ := Prod.mk.inj hattempt
  exact ⟨_, rfl, hnext.reread hleft⟩

end Shadow

/-! ## Stages of a read -/

/-- An operation that gives up, or comes to the same on a shadow. -/
def Act.Follows {α : Type} (aided : Bool) (stop : α) (m : Act C α) : Prop :=
  ∀ e other, Shadow aided e other → (m e).1 = .ok stop ∨
    (m other).1 = (m e).1 ∧ Shadow aided (m e).2 (m other).2

/-- An operation that comes to the same on a shadow. -/
def Act.Tracks {α : Type} (aided : Bool) (m : Act C α) : Prop :=
  ∀ e other, Shadow aided e other → (m other).1 = (m e).1 ∧ Shadow aided (m e).2 (m other).2

namespace Act

variable {α β : Type}

omit [BlockCipher C] in
theorem Tracks.follows {m : Act C α} (hm : m.Tracks aided) (stop : α) : m.Follows aided stop :=
  fun e other h => .inr (hm e other h)

omit [BlockCipher C] in
theorem tracks_pure (a : α) : (pure a : Act C α).Tracks aided :=
  fun _ _ h => ⟨rfl, h⟩

omit [BlockCipher C] in
theorem tracks_ofExcept (result : Except Fault α) : (ofExcept result : Act C α).Tracks aided :=
  fun _ _ h => ⟨rfl, h⟩

omit [BlockCipher C] in
/-- Whoever asks for the state must look at nothing but the inbound lane. -/
theorem Follows.ask {stop : α} {next : Endpoint C → Act C α}
    (hsame : ∀ e other : Endpoint C, other.inbound = e.inbound → next other = next e)
    (hnext : ∀ e, (next e).Follows aided stop) : (Act.ask id >>= next).Follows aided stop := by
  intro e other h
  change (next e e).1 = _ ∨ (next other other).1 = (next e e).1 ∧
    Shadow aided (next e e).2 (next other other).2
  rw [hsame e other h.inbound]
  exact hnext e e other h

omit [BlockCipher C] in
theorem Tracks.bind {stop : β} {m : Act C α} {f : α → Act C β} (hm : m.Tracks aided)
    (hf : ∀ a, (f a).Follows aided stop) : (m >>= f).Follows aided stop := by
  intro e other h
  have hfirst := hm e other h
  rcases houtcome : m e with ⟨fault | a, next⟩
  all_goals
    rcases hother : m other with ⟨result, companion⟩
    rw [houtcome, hother] at hfirst
    obtain ⟨rfl, hnext⟩ := hfirst
  · rw [bind_of_error houtcome, bind_of_error hother]
    exact .inr ⟨rfl, hnext⟩
  · rw [bind_of_ok houtcome, bind_of_ok hother]
    exact hf a next companion hnext

omit [BlockCipher C] in
theorem Follows.bind {halt : α} {stop : β} {m : Act C α} {f : α → Act C β}
    (hm : m.Follows aided halt) (hstop : f halt = pure stop)
    (hf : ∀ a, (f a).Follows aided stop) : (m >>= f).Follows aided stop := by
  intro e other h
  rcases hm e other h with hhalt | hfirst
  · rcases houtcome : m e with ⟨result, next⟩
    rw [houtcome] at hhalt
    obtain rfl : result = .ok halt := hhalt
    rw [bind_of_ok houtcome, hstop]
    exact .inl rfl
  · rcases houtcome : m e with ⟨fault | a, next⟩
    all_goals
      rcases hother : m other with ⟨result, companion⟩
      rw [houtcome, hother] at hfirst
      obtain ⟨rfl, hnext⟩ := hfirst
    · rw [bind_of_error houtcome, bind_of_error hother]
      exact .inr ⟨rfl, hnext⟩
    · rw [bind_of_ok houtcome, bind_of_ok hother]
      exact hf a next companion hnext

end Act

theorem follows_fill (raw : Bytes) (count : Nat) :
    Act.Follows aided none (fill raw count : Act C (Option Bytes)) := by
  intro e other h
  fun_induction fill raw count e generalizing other with
  | case1 raw e =>
      rw [fill, dif_pos rfl]
      exact .inr ⟨rfl, h⟩
  | case2 raw count e hmissing next hattempt
  | case5 raw count e hmissing bytes next hattempt hfew hclosed => exact .inl rfl
  | case3 raw count e hmissing failure next hattempt =>
      obtain ⟨companion, hother, hnext⟩ := h.receive hattempt
      rw [fill_of_missing hmissing, h.config, hother]
      exact .inr ⟨rfl, hnext⟩
  | case4 raw count e hmissing bytes next hattempt hcomplete =>
      obtain ⟨companion, hother, hnext⟩ := h.receive hattempt
      rw [fill_of_missing hmissing, h.config, hother]
      simp only [hcomplete, if_true]
      exact .inr ⟨trivial, hnext⟩
  | case6 raw count e hmissing bytes next hattempt hfew hstill ih =>
      obtain ⟨companion, hother, hnext⟩ := h.receive hattempt
      have hopen : next.closed = false := eq_false_of_ne_true hstill
      rw [fill_of_missing hmissing, h.config, hother]
      simp only [hfew, hnext.opened hopen, Bool.false_eq_true, if_false]
      exact ih _ (hnext.checkKeepAlive hopen)

/-- The attempt of a shadow, by the attempt of the endpoint itself. -/
theorem Shadow.awaitFirstBlock_of_short {raw : Bytes} {arrival : Arrival}
    {e other next : Endpoint C} (h : Shadow aided e other)
    (hshort : ¬e.activateParked.inbound.blockSize ≤ raw.length)
    (hattempt : e.activateParked.receive (e.activateParked.inbound.blockSize - raw.length)
      e.activateParked.config.pollInterval = (arrival, next)) :
    ∃ companion, Shadow aided next companion ∧ awaitFirstBlock raw other =
      match arrival with
      | .finished => (.ok none, companion)
      | .failed failure => (.error (.stream failure), companion)
      | .more bytes =>
          if e.activateParked.inbound.blockSize ≤ (raw ++ bytes).length then
            awaitFirstBlock (raw ++ bytes) companion
          else if companion.closed then (.ok none, companion)
          else awaitFirstBlock (raw ++ bytes) companion.checkKeepAlive := by
  have hready := h.activateParked
  have hlack : ¬other.activateParked.inbound.blockSize ≤ raw.length := by rwa [hready.inbound]
  obtain ⟨companion, hother, hnext⟩ := hready.receive hattempt
  refine ⟨companion, hnext, ?_⟩
  rw [Endpoint.awaitFirstBlock_of_short rfl hlack, hready.inbound, hready.config, hother]
  cases arrival <;> rfl

theorem follows_awaitFirstBlock (raw : Bytes) :
    Act.Follows aided none (awaitFirstBlock raw : Act C (Option Bytes)) := by
  intro e other h
  fun_induction awaitFirstBlock raw e generalizing other with
  | case1 raw e ready hcomplete =>
      have hready : Shadow aided ready other.activateParked := h.activateParked
      rw [← hready.inbound] at hcomplete
      rw [awaitFirstBlock, dif_pos hcomplete]
      exact .inr ⟨rfl, hready⟩
  | case2 raw e ready hshort next hattempt
  | case5 raw e ready hshort bytes next hattempt hfew hclosed => exact .inl rfl
  | case3 raw e ready hshort failure next hattempt =>
      obtain ⟨companion, hnext, hother⟩ := h.awaitFirstBlock_of_short hshort hattempt
      rw [hother]
      exact .inr ⟨rfl, hnext⟩
  | case4 raw e ready hshort bytes next hattempt hcomplete ih =>
      obtain ⟨companion, hnext, hother⟩ := h.awaitFirstBlock_of_short hshort hattempt
      dsimp only at hother
      rw [hother, if_pos hcomplete]
      exact ih companion hnext
  | case6 raw e ready hshort bytes next hattempt hfew hstill ih =>
      obtain ⟨companion, hnext, hother⟩ := h.awaitFirstBlock_of_short hshort hattempt
      have hopen : next.closed = false := eq_false_of_ne_true hstill
      dsimp only at hother
      rw [hother, if_neg hfew, hnext.opened hopen, if_neg Bool.false_ne_true]
      exact ih _ (hnext.checkKeepAlive hopen)

theorem tracks_decipher (data : Bytes) : (decipher data : Act C Bytes).Tracks aided := by
  intro e other h
  unfold decipher
  dsimp only
  rw [h.inbound]
  refine ⟨rfl, ?_⟩
  exact { h with
    inbound := rfl
    company := h.company.of_attendance rfl
    companion := h.companion.of_attendance rfl
    spared := fun hopen => by rw [h.spared hopen]; rfl }

omit [BlockCipher C] in
theorem tracks_dump (direction : Direction) (bytes : Bytes) :
    (Act.update (dump direction bytes) : Act C Unit).Tracks aided := by
  intro e other h
  refine ⟨rfl, ?_⟩
  change Shadow aided (e.dump direction bytes) (other.dump direction bytes)
  unfold dump
  rw [h.config]
  split
  next =>
    exact { h with
      company := h.company.of_attendance rfl
      companion := h.companion.of_attendance rfl
      spared := fun hopen => by rw [h.spared hopen]; rfl }
  next => exact h

omit [BlockCipher C] in
theorem tracks_verify (expected received : Bytes) :
    (verify expected received : Act C Unit).Tracks aided := by
  intro e other h
  unfold verify
  rw [h.inbound]
  split
  · exact ⟨rfl, h⟩
  · exact ⟨rfl, h⟩

theorem follows_authenticate (frame : Bytes) :
    (authenticate frame : Act C Bool).Follows aided false := by
  refine .ask (fun e other hinbound => ?_) fun e => ?_
  · rw [hinbound]
  refine (Act.tracks_ofExcept _).bind fun expected => ?_
  refine (follows_fill [] e.inbound.tagSize).bind rfl fun received? => ?_
  cases received? with
  | none => exact (Act.tracks_pure false).follows false
  | some received =>
      exact (tracks_verify expected received).bind fun _ => (Act.tracks_pure true).follows false

/-- A frame is taken off the stream alike, or the read gives up. -/
theorem follows_takeFrame : (takeFrame : Act C (Option (Header × Bytes))).Follows aided none := by
  have hcheck (header : Header) (frame rest : Bytes) :
      (checkFrame header frame rest : Act C (Option (Header × Bytes))).Follows aided none := by
    refine (follows_authenticate frame).bind rfl fun authentic => ?_
    cases authentic with
    | false => exact (Act.tracks_pure none).follows none
    | true => exact (tracks_dump .inbound rest).bind fun _ => (Act.tracks_pure _).follows none
  have hrest (header : Header) (first carried : Bytes) :
      (takeRest header first carried : Act C (Option (Header × Bytes))).Follows aided none := by
    refine (follows_fill carried _).bind rfl fun body? => ?_
    cases body? with
    | none => exact (Act.tracks_pure none).follows none
    | some body => exact (tracks_decipher body).bind fun rest => hcheck header (first ++ rest) rest
  refine (follows_awaitFirstBlock []).bind rfl fun raw? => ?_
  cases raw? with
  | none => exact (Act.tracks_pure none).follows none
  | some raw =>
      have hblock : (Act.ask fun e : Endpoint C => e.inbound.blockSize).Tracks aided :=
        fun e other h => ⟨congrArg (fun lane : Lane C => Except.ok lane.blockSize) h.inbound, h⟩
      refine hblock.bind fun blockSize => (tracks_decipher _).bind fun first => ?_
      refine (tracks_dump .inbound first).bind fun _ => ?_
      refine (Act.tracks_ofExcept _).bind fun header => ?_
      split
      · exact (Act.tracks_ofExcept (.error _)).follows none
      · exact hrest header first _

/-! ## What comes of it -/

omit [BlockCipher C] in
/-- Without company a packet is delivered alike. -/
theorem Shadow.deliver {e other : Endpoint C} (h : Shadow false e other) (header : Header)
    (frame : Bytes) : (deliver header frame other).1 = (deliver header frame e).1 := by
  obtain ⟨next, hdeliver, -⟩ := deliver_eq header frame e
  obtain ⟨companion, hother, -⟩ := deliver_eq header frame other
  rw [hdeliver, hother, message, message, h.inbound, h.rekey rfl]

/-- A read verifies a packet, and delivers it unless the peer ignores a request for new keys. -/
structure Judges (e : Endpoint C) (packet : Packet) : Prop where
  genuine : ∃ lane octets header frame next, Lane.Genuine (C := C) lane octets header frame next ∧
    verification e = some (lane.sequence.value, frame) ∧
    packet = packetOf (lane.sequence.value, frame)
  result : (read e).1 = .ok (some packet) ∨ ∃ count, (read e).1 = .error (.rekeyIgnored count)

theorem verification_of_taken {e next : Endpoint C} {header : Header} {frame : Bytes}
    (hopen : e.closed = false) (htake : takeFrame e = (.ok (some (header, frame)), next)) :
    verification e = some (next.inbound.sequence.value, frame) := by
  rw [verification, hopen, htake]
  rfl

theorem judges_of_verified {e : Endpoint C} {verified : UInt32 × Bytes}
    (hverified : verification e = some verified) : Judges e (packetOf verified) := by
  refine ⟨?_, read_of_verified hverified⟩
  cases hopen : e.closed with
  | true =>
      rw [verification, hopen] at hverified
      cases hverified
  | false =>
      have htaken := taken_takeFrame e
      have hsame := hverified
      rw [verification, hopen] at hsame
      rcases htake : takeFrame e with ⟨result, next⟩
      rw [htake] at htaken hsame
      cases htaken with
      | missed _ hmissed =>
          rcases result with fault | (_ | taken)
          · cases hsame
          · cases hsame
          · exact absurd rfl (hmissed taken)
      | @whole lane octets frame header _ _ hgenuine =>
          obtain ⟨-, -, hsequence, -⟩ := hgenuine.unfolds.lane_eq
          obtain rfl := Option.some.inj hsame
          rw [hsequence] at hverified ⊢
          exact ⟨lane, octets, header, frame, next.inbound, hgenuine, hverified, rfl⟩

/-- A packet that a read delivers is whole and verified. -/
theorem judges_of_delivered {e : Endpoint C} {packet : Packet}
    (hdelivered : (read e).1 = .ok (some packet)) : Judges e packet := by
  cases hverified : verification e with
  | none => exact absurd hdelivered (read_of_unverified hverified packet)
  | some verified =>
      have hjudges := judges_of_verified hverified
      rcases hjudges.result with hsame | ⟨count, hignored⟩
      · rw [hdelivered] at hsame
        obtain rfl := Option.some.inj (Except.ok.inj hsame)
        exact hjudges
      · rw [hdelivered] at hignored
        cases hignored

/-- A read that is under way when its endpoint is closed gives up or ends as it would have ended
anyway. Beside keep-alive messages, one of the two may find that the peer ignores a request for
new keys where the other one delivers a packet. -/
theorem read_of_company {e : Endpoint C} (hopen : e.closed = false) (hcompany : Company aided e)
    (hscript : aided = false → ReadScript.Unaided e.reads) :
    (read e).1 = .ok none ∨ (read e).1 = (read e.spare).1 ∨
      aided = true ∧ ∃ packet, Judges e packet ∧ Judges e.spare packet := by
  have htaken := follows_takeFrame e e.spare (.of_company hcompany hscript)
  rw [(read_of_open hopen).1, (read_of_open (closed_spare e)).1, readPacket_eq]
  rcases htake : takeFrame e with ⟨result, next⟩
  rcases hother : takeFrame e.spare with ⟨result', companion⟩
  rw [htake, hother] at htaken
  rcases htaken with hnone | ⟨hsame, hnext⟩
  · obtain rfl : result = .ok none := hnone
    rw [Act.bind_of_ok htake]
    exact .inl rfl
  obtain rfl : result' = result := hsame
  rcases result' with fault | (_ | ⟨header, frame⟩)
  · rw [Act.bind_of_error htake, Act.bind_of_error hother]
    exact .inr (.inl rfl)
  · rw [Act.bind_of_ok htake]
    exact .inl rfl
  · cases aided with
    | true =>
        have hverified := verification_of_taken (closed_spare e) hother
        rw [hnext.inbound] at hverified
        exact .inr (.inr ⟨rfl, _, judges_of_verified (verification_of_taken hopen htake),
          judges_of_verified hverified⟩)
    | false =>
        rw [Act.bind_of_ok htake, Act.bind_of_ok hother, deliverTaken, Act.bind_pure_eq,
          Act.bind_pure_eq, hnext.deliver]
        exact .inr (.inl rfl)

end Endpoint

end PacketLayer
