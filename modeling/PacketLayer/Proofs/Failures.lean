import PacketLayer.Proofs.Closing.Writing
import PacketLayer.Proofs.Dependable
import PacketLayer.Proofs.RoundTrip
import PacketLayer.Proofs.Tally

/-! # Engines that do not fail

A frame fills whole blocks, and a reader deciphers whole blocks only: first one, and then what a
well-formed header leaves of the frame, whatever was already there when the protection came into
use. So no engine of a dependable protection is ever at fault.
-/

namespace PacketLayer

variable {C : Type}

namespace Endpoint

/-- No engine is at fault. -/
def Unbroken {α : Type} (result : Except Fault α) : Prop :=
  ∀ fault, result = .error fault → fault.category ≠ .crypto

section

variable {α β : Type}

theorem Unbroken.ok (a : α) : Unbroken (.ok a) := by
  rintro fault ⟨⟩

theorem Unbroken.error {fault : Fault} (hfault : fault.category ≠ .crypto) :
    Unbroken (.error fault : Except Fault α) := by
  rintro _ ⟨⟩
  exact hfault

theorem Unbroken.stream (failure : StreamFailure) :
    Unbroken (.error (.stream failure) : Except Fault α) :=
  .error (by rintro ⟨⟩)

theorem Unbroken.map {result : Except Fault α} (hunbroken : Unbroken result) (f : α → β) :
    Unbroken (result.map f) := by
  rcases result with fault | a
  · exact .error (hunbroken fault rfl)
  · exact .ok _

theorem Unbroken.bind {m : Act C α} {f : α → Act C β} {e : Endpoint C}
    (hm : Unbroken (m e).1) (hf : ∀ a next, m e = (.ok a, next) → Unbroken (f a next).1) :
    Unbroken ((m >>= f) e).1 := by
  rcases houtcome : m e with ⟨fault | a, next⟩
  · rw [Act.bind_of_error houtcome]
    exact .error (hm fault (congrArg Prod.fst houtcome))
  · rw [Act.bind_of_ok houtcome]
    exact hf a next houtcome

theorem Unbroken.noting {m : Act C α} {e : Endpoint C} (hm : Unbroken (m e).1)
    (direction : Direction) : Unbroken (Act.noting direction m e).1 := by
  rcases houtcome : m e with ⟨fault | a, next⟩
  all_goals
    rw [houtcome] at hm
    simp only [Act.noting, houtcome]
    exact hm

end

/-! ## Sending -/

theorem stops_of_sendBefore {attempt : Alarm} {rest : Bytes} {e : Endpoint C} {fault : Fault}
    (hfault : (sendBefore attempt rest e).1 = .error fault) : fault.Stops := by
  fun_induction sendBefore attempt rest e with
  | case1 attempt rest e next houtcome => cases hfault
  | case2 attempt rest e cause next houtcome =>
      obtain rfl := Except.error.inj hfault
      have hreaches := reaches_proceed .idle rest attempt e
      rw [houtcome] at hreaches
      cases hreaches with
      | failed failure => exact .inr ⟨failure, rfl⟩
      | closed => exact .inl rfl
  | case3 attempt rest e shipment next houtcome ih => exact ih hfault

theorem unbroken_sendAll (bytes : Bytes) (e : Endpoint C) : Unbroken (sendAll bytes e).1 := by
  intro fault hfault
  rcases (stops_of_sendBefore hfault).category_eq with hcategory | hcategory <;> simp [hcategory]

theorem unbroken_completePacket (frameLength : Nat) (e : Endpoint C) :
    Unbroken (completePacket frameLength e).1 := by
  refine .bind ?_ fun _ _ _ => .ok ()
  rcases flush_cases e with ⟨failure, flushes, -, hflush⟩ | ⟨flushes, hflush⟩
  · rw [hflush]
    exact .stream failure
  · rw [hflush]
    exact .ok ()

variable [BlockCipher C]

/-- A sound lane seals every message that can be framed. -/
theorem unbroken_sealPacket {e : Endpoint C} (hsound : e.outbound.Sound) (payload : Bytes) :
    Unbroken (sealPacket payload e).1 := by
  unfold sealPacket
  by_cases hfits : framedLength payload.length e.outbound.blockSize ≤ maxPacketLength
  · obtain ⟨plain, hframe, hframed⟩ := frame_of_fits hfits e.padding
    obtain ⟨tag, hsign⟩ := hsound.sign plain
    obtain ⟨enciphered, lane, happly, -⟩ := hsound.apply
      (hframe.dvd_length (Nat.lt_of_lt_of_le (by decide) e.outbound.plaintextBlockSize_le))
    generalize (e.padding.take (paddingLength payload.length e.outbound.blockSize)).2 =
      padding at hframed
    have hframing : frameOutbound payload e = (.ok plain, { e with padding }) := by
      simp [frameOutbound, hframed]
    rw [Act.bind_of_ok hframing, Act.update_bind, Act.update_bind, Act.ask_bind, id]
    generalize hdumped : dump .outbound plain _ = dumped
    have houtbound : dumped.outbound = e.outbound := by
      rw [← hdumped]
      exact (view_of_sight (·.outbound) (fun _ => rfl) (sight_dump .outbound plain _)).trans rfl
    have hencipher :
        encipher plain dumped = (.ok enciphered, { dumped with outbound := lane }) := by
      simp [encipher, houtbound, happly]
    rw [houtbound, hsign, Act.ofExcept_ok_bind, Act.bind_of_ok hencipher]
    exact .ok _
  · have hframing : frameOutbound payload e =
        (.error (.messageTooLong (framedLength payload.length e.outbound.blockSize)
          maxPacketLength), e) := by
      simp [frameOutbound, frame, Nat.not_le.mp hfits]
    rw [Act.bind_of_error hframing]
    exact .error (by rintro ⟨⟩)

theorem unbroken_sendPacket {e : Endpoint C} (hsound : e.outbound.Sound) (payload : Bytes) :
    Unbroken (sendPacket payload e).1 :=
  .bind (unbroken_sealPacket hsound payload) fun packet next _ =>
    .bind (unbroken_sendAll packet.bytes next) fun _ last _ =>
      unbroken_completePacket packet.frameLength last

theorem unbroken_write {e : Endpoint C}
    (hsound : e.closed = false → e.awaitOutbound.outbound.Sound) (payload : Bytes) :
    Unbroken (write payload e).1 := by
  unfold write
  split
  · exact .error (by rintro ⟨⟩)
  next hopen =>
    exact (unbroken_sendPacket (hsound (Bool.of_not_eq_true hopen)) payload).noting .outbound

/-! ## Reading -/

theorem unbroken_fill (raw : Bytes) (count : Nat) (e : Endpoint C) :
    Unbroken (fill raw count e).1 := by
  fun_induction fill raw count e with
  | case1 | case2 | case4 | case5 => exact .ok _
  | case3 raw count e _ failure next _ => exact .stream failure
  | case6 raw count e _ bytes next _ _ _ ih => exact ih

theorem unbroken_awaitFirstBlock (raw : Bytes) (e : Endpoint C) :
    Unbroken (awaitFirstBlock raw e).1 := by
  fun_induction awaitFirstBlock raw e with
  | case1 | case2 | case5 => exact .ok _
  | case3 raw e ready _ failure next _ => exact .stream failure
  | case4 raw e ready _ bytes next _ _ ih => exact ih
  | case6 raw e ready _ bytes next _ _ _ ih => exact ih

omit [BlockCipher C] in
theorem unbroken_deliver (header : Header) (frame : Bytes) (e : Endpoint C) :
    Unbroken (deliver header frame e).1 := by
  obtain ⟨next, hdeliver, -⟩ := deliver_eq header frame e
  rw [hdeliver]
  refine .map ?_ _
  rcases Rekey.Policy.recordReceived_answers e.rekey
    (UInt64.ofNat (header.frameLength + e.inbound.tagSize)) with
    ⟨raised, hanswer⟩ | ⟨count, hanswer⟩
  · rw [hanswer]
    exact .ok raised
  · rw [hanswer]
    exact .error (by rintro ⟨⟩)

theorem unbroken_checkFrame {e : Endpoint C} (hsound : e.inbound.Sound) (header : Header)
    (frame rest : Bytes) : Unbroken (checkFrame header frame rest e).1 := by
  refine .bind ?_ fun authentic next _ => ?_
  · obtain ⟨tag, hsign⟩ := hsound.sign frame
    unfold authenticate
    rw [Act.ask_bind, id, hsign, Act.ofExcept_ok_bind]
    refine .bind (unbroken_fill [] _ e) fun received? next _ => ?_
    cases received? with
    | none => exact .ok false
    | some received =>
        refine .bind ?_ fun _ _ _ => .ok true
        unfold verify
        split
        · exact .ok ()
        · exact .error (by rintro ⟨⟩)
  · cases authentic <;> exact .ok _

/-- A well-formed header leaves whole blocks of its frame, however many octets are already
there. -/
theorem unbroken_takeRest {e : Endpoint C} {header : Header} {first carried : Bytes}
    (hsound : e.inbound.Sound) (hfirst : first.length = e.inbound.blockSize)
    (hformed : header.WellFormed e.inbound.blockSize)
    (hlong : first.length + carried.length ≤ header.frameLength) :
    Unbroken (takeRest header first carried e).1 := by
  refine .bind (unbroken_fill carried _ e) fun body? next hfill => ?_
  cases body? with
  | none => exact .ok none
  | some body =>
      have hlength : body.length = header.frameLength - e.inbound.blockSize := by
        obtain ⟨octets, -, hfilled⟩ := passes_fill e.inbound [] carried
          (header.frameLength - (first.length + carried.length)) e
        obtain ⟨rfl, hoctets⟩ := hfilled body (congrArg Prod.fst hfill)
        rw [List.length_append]
        omega
      have hinbound : next.inbound = e.inbound := by
        have hkept := inbound_fill carried (header.frameLength - (first.length + carried.length)) e
        rwa [hfill] at hkept
      have hwhole : next.inbound.blockSize ∣ body.length := by
        rw [hinbound, hlength]
        exact Nat.dvd_sub hformed.dvd_frameLength (Nat.dvd_refl _)
      rw [← hinbound] at hsound
      obtain ⟨rest, lane, happly, hnext⟩ := hsound.apply hwhole
      have hdecipher : decipher body next = (.ok rest, { next with inbound := lane }) := by
        simp [decipher, happly]
      dsimp only
      rw [Act.bind_of_ok hdecipher]
      exact unbroken_checkFrame hnext header (first ++ rest) rest

theorem unbroken_takeFrom {e : Endpoint C} {raw : Bytes} (hsound : e.inbound.Sound)
    (hblock : e.inbound.blockSize ≤ raw.length) : Unbroken (takeFrom raw e).1 := by
  have hlength : (raw.take e.inbound.blockSize).length = e.inbound.blockSize :=
    List.length_take_of_le hblock
  have hwhole : e.inbound.blockSize ∣ (raw.take e.inbound.blockSize).length :=
    ⟨1, by rw [hlength, Nat.mul_one]⟩
  obtain ⟨first, lane, happly, hnext⟩ := hsound.apply hwhole
  obtain ⟨hsize, -, -, -, hfirst⟩ := Lane.apply_eq happly
  have hdecipher : decipher (raw.take e.inbound.blockSize) e =
      (.ok first, { e with inbound := lane }) := by
    simp [decipher, happly]
  unfold takeFrom
  rw [Act.ask_bind, Act.bind_of_ok hdecipher, Act.update_bind]
  generalize hdumped : dump .inbound first { e with inbound := lane } = dumped
  have hinbound : dumped.inbound = lane := by
    rw [← hdumped]
    exact inbound_dump .inbound first { e with inbound := lane }
  cases hparse : Header.parse first e.inbound.blockSize with
  | error fault =>
      rw [Act.ofExcept_error_bind]
      exact .error (by rw [Header.category_of_parse hparse]; rintro ⟨⟩)
  | ok header =>
      rw [Act.ofExcept_ok_bind]
      split
      · exact .error (by rintro ⟨⟩)
      next hlong =>
        rw [← hinbound] at hsize hnext
        refine unbroken_takeRest hnext ?_ ?_ ?_
        · rw [hfirst first rfl, hlength, hsize]
        · rw [hsize]
          exact Header.wellFormed_of_parse hparse
        · rw [hfirst first rfl, hlength, List.length_drop]
          omega

/-- A read under a sound lane does not fail for an engine, whatever octets come in. -/
theorem unbroken_read {e : Endpoint C}
    (hsound : e.closed = false →
      ∀ raw ready, awaitFirstBlock [] e = (.ok (some raw), ready) → ready.inbound.Sound) :
    Unbroken (read e).1 := by
  unfold read
  split
  · exact .ok none
  next hopen =>
    refine .noting ?_ .inbound
    rw [readPacket_eq]
    refine .bind (.bind (unbroken_awaitFirstBlock [] e) fun raw? ready hawait => ?_)
      fun taken? next _ => ?_
    · cases raw? with
      | none => exact .ok none
      | some raw =>
          have hawaited := awaited_awaitFirstBlock [] e
          rw [hawait] at hawaited
          obtain ⟨-, hnone⟩ | ⟨-, -, hblock⟩ := hawaited
          · exact absurd rfl (hnone raw)
          · exact unbroken_takeFrom (hsound (Bool.of_not_eq_true hopen) raw ready hawait) hblock
    · cases taken? with
      | none => exact .ok none
      | some taken => exact .bind (unbroken_deliver taken.1 taken.2 next) fun _ _ _ => .ok _

theorem unbroken_readLine (deadline : Option Nat) (line : Bytes) (e : Endpoint C) :
    Unbroken (readLine deadline line e).1 := by
  fun_induction readLine deadline line e with
  | case1 | case3 | case6 => exact .ok _
  | case2 line e failure next _ => exact .stream failure
  | case4 | case5 => exact .error (by rintro ⟨⟩)
  | case7 line e bytes next _ _ _ _ _ ih => exact ih

theorem unbroken_writeBanner (text : String) (e : Endpoint C) :
    Unbroken (writeBanner text e).1 := by
  unfold writeBanner
  split
  · exact .error (by rintro ⟨⟩)
  · refine .bind (unbroken_sendAll _ _) fun _ next _ => ?_
    rcases flush_cases next with ⟨failure, flushes, -, hflush⟩ | ⟨flushes, hflush⟩
    · rw [hflush]
      exact .stream failure
    · rw [hflush]
      exact .ok ()

/-! ## Operations -/

/-- The lane on which an operation begins a packet, unless the endpoint is closed: the outbound
lane once it is free, or the inbound lane once a first block is there. -/
def beginsOn? (operation : Operation (Protection C)) (e : Endpoint C) :
    Option (Direction × Lane C) :=
  if e.closed then none
  else match operation with
    | .write _ => some (.outbound, e.countOperation.awaitOutbound.outbound)
    | .read =>
        match awaitFirstBlock [] e.countOperation with
        | (.ok (some _), ready) => some (.inbound, ready.inbound)
        | (.ok none, _) | (.error _, _) => none
    | _ => none

/-- No operation fails for an engine of a sound lane, or without a packet. -/
theorem unbroken_perform {operation : Operation (Protection C)} {e : Endpoint C}
    (hsound : ∀ direction lane, beginsOn? operation e = some (direction, lane) → lane.Sound) :
    Unbroken (perform operation e).1 := by
  have hperform : (perform operation e).1 = (start operation e.countOperation).1 := rfl
  rw [hperform]
  cases operation with
  | write payload =>
      refine .bind (unbroken_write (fun hopen => hsound .outbound _ ?_) payload) fun _ _ _ => .ok _
      have hclosed : ¬e.closed = true := Bool.eq_false_iff.mp hopen
      rw [beginsOn?, if_neg hclosed]
  | read =>
      refine .bind (unbroken_read fun hopen raw ready hawait => hsound .inbound ready.inbound ?_)
        fun _ _ _ => .ok _
      have hclosed : ¬e.closed = true := Bool.eq_false_iff.mp hopen
      rw [beginsOn?, if_neg hclosed]
      simp only [hawait]
  | readBanner milliseconds =>
      exact .bind (unbroken_readLine _ [] e.countOperation) fun _ _ _ => .ok _
  | writeBanner text =>
      exact .bind (unbroken_writeBanner text e.countOperation) fun _ _ _ => .ok _
  | _ => exact .ok _

end Endpoint

/-! ## Runs -/

/-- The protection that a deed installs, at once or to be parked first. -/
def Deed.installed? : Direction → Deed C → Option (Protection C)
  | .outbound, rekeyed _ protection => some protection
  | .outbound, _ => none
  | .inbound, deed => deed.called?

/-- The protection that was installed last in a direction. -/
def lastInstalled (direction : Direction) (deeds : List (Deed C)) : Option (Protection C) :=
  (deeds.filterMap (Deed.installed? direction)).getLast?

def Stage.lane : Direction → Stage C → Lane C
  | .outbound, s => s.endpoint.outbound
  | .inbound, s => s.endpoint.inbound

variable [BlockCipher C]

/-- A lane that signs and transforms without fault declines nothing but what is too long. -/
theorem Lane.Sound.category_of_declines {lane next : Lane C} {payload : Bytes} {fault : Fault}
    (hsound : lane.Sound) (hdeclines : lane.Declines payload fault next) :
    fault.category ≠ .crypto := by
  cases hdeclines with
  | tooLong hlong => rintro ⟨⟩
  | @unsigned frame _ hframe hsign =>
      obtain ⟨tag, htag⟩ := hsound.sign frame
      rw [htag] at hsign
      cases hsign
  | unciphered hframe hsign hencipher =>
      obtain ⟨output, other, happly, -⟩ := hsound.apply
        (hframe.dvd_length (Nat.lt_of_lt_of_le (by decide) lane.plaintextBlockSize_le))
      rw [happly] at hencipher
      cases hencipher

/-- A lane on which a message is declined stays under its protection, as one does that seals. -/
theorem Lane.Declines.under {lane next : Lane C} {payload : Bytes} {fault : Fault}
    {installed : Option (Protection C)} (hdeclines : lane.Declines payload fault next)
    (hunder : lane.Under installed) : next.Under installed := by
  cases hdeclines with
  | tooLong | unsigned => exact hunder
  | @unciphered frame _ _ _ _ _ hencipher =>
      have hafter := hunder.apply frame
      rwa [hencipher] at hafter

theorem Lane.Seals.under {lane next : Lane C} {frame wire : Bytes}
    {installed : Option (Protection C)} (hseals : lane.Seals frame wire next)
    (hunder : lane.Under installed) : next.Under installed := by
  obtain ⟨-, hencipher⟩ := hseals
  have hafter := hunder.apply frame
  rw [hencipher] at hafter
  exact hafter.advance

theorem Does.outbound_under {here there : Stage C} {deed : Deed C}
    {installed : Option (Protection C)} (hdoes : Does here deed there)
    (hunder : here.endpoint.outbound.Under installed) :
    there.endpoint.outbound.Under ((deed.installed? .outbound).or installed) := by
  by_cases houtward : deed.Outward
  swap
  · rw [hdoes.outbound_eq houtward]
    cases deed with
    | rekeyed => exact absurd trivial houtward
    | _ => exact hunder
  cases hdoes with
  | rekeyed | replaced => exact .install _ _
  | declined _ _ hdeclines => exact hdeclines.under hunder
  | sealed _ _ _ hseals => exact hseals.under hunder
  | _ => exact False.elim houtward

/-- The outbound lane runs under the protection that was installed last. -/
theorem Course.outbound_under {s next : Stage C} {deeds : List (Deed C)}
    (hcourse : Course s deeds next) :
    next.endpoint.outbound.Under
      ((lastInstalled .outbound deeds).or s.endpoint.outbound.protection) := by
  induction deeds using List.reverseRecOn generalizing next with
  | nil =>
      cases hcourse
      exact .refl _
  | append_singleton deeds deed ih =>
      obtain ⟨middle, hfirst, hlast⟩ := hcourse.of_append
      obtain - | ⟨hdoes, hdone⟩ := hlast
      cases hdone
      have hunder := hdoes.outbound_under (ih hfirst)
      rw [lastInstalled, List.filterMap_append]
      cases hinstalled : deed.installed? .outbound with
      | none =>
          rw [hinstalled] at hunder
          rwa [List.filterMap_cons_none hinstalled, List.filterMap_nil, List.append_nil]
      | some protection =>
          rw [hinstalled] at hunder
          rwa [List.filterMap_cons_some hinstalled, List.filterMap_nil, List.getLast?_concat]

/-- The inbound lane runs under the protection that was installed last, unless one is still
parked. -/
theorem Course.inbound_under {s next : Stage C} {deeds : List (Deed C)}
    (hcourse : Course s deeds next) (hparked : s.endpoint.parked = none) (hphase : s.phase = .free)
    (hsettled : next.endpoint.parked = none) :
    next.endpoint.inbound.Under
      ((lastInstalled .inbound deeds).or s.endpoint.inbound.protection) := by
  have hstands := hcourse.stands hparked hphase
  have hinbound := hstands.inbound
  rwa [← hstands.settled hsettled] at hinbound

namespace Endpoint

/-- An operation begins a packet in its course. -/
theorem exists_course_of_begins {operation : Operation (Protection C)} {e : Endpoint C}
    {direction : Direction} {lane : Lane C}
    (hbegins : beginsOn? operation e = some (direction, lane)) :
    ∃ own ready, Course (e.during (.ordered operation)) own ready ∧ (∀ deed ∈ own, deed.Inside) ∧
      ready.lane direction = lane ∧ (direction = .inbound → ready.endpoint.parked = none) := by
  have hreaches : ∃ ready tidings, Leads (e.during (.ordered operation)) tidings ready ∧
      ready.lane direction = lane ∧ (direction = .inbound → ready.endpoint.parked = none) := by
    have hcounted : Leads (e.during (.ordered operation)) []
        (e.countOperation.during (.ordered operation)) :=
      .of_does (.aside (s := e.during (.ordered operation)) (e := e.countOperation) rfl) trivial
    unfold beginsOn? at hbegins
    split at hbegins
    · cases hbegins
    next hopen =>
      cases operation with
      | write payload =>
          obtain ⟨hawaited, -⟩ := passes_awaitOutbound
            (s := e.countOperation.during (.ordered (.write payload))) rfl (fun _ => trivial)
            e.countOperation
          cases hbegins
          exact ⟨_, _, hcounted.trans (hawaited.mono fun htends => htends.writes.inside),
            rfl, nofun⟩
      | read =>
          have hreading := leads_reading (e := e.countOperation) (Bool.of_not_eq_true hopen)
          have hawaited := awaited_awaitFirstBlock [] e.countOperation.activateParked
          rw [awaitFirstBlock_activateParked] at hawaited
          rcases hawait : awaitFirstBlock [] e.countOperation with ⟨fault | (_ | raw), ready⟩
          all_goals
            rw [hawait] at hbegins hawaited
            cases hbegins
          cases hawaited with
          | missed _ hnone => exact absurd rfl (hnone raw)
          | begun hleads hparked hblock =>
              exact ⟨_, _, hcounted.trans (hreading.append hleads), rfl, fun _ => hparked⟩
      | _ => cases hbegins
  obtain ⟨ready, tidings, ⟨own, hown, -, hinside⟩, hready⟩ := hreaches
  exact ⟨own, ready, hown, hinside, hready⟩

/-- What a protection does for an endpoint after a run, and within it. -/
structure Serves (protection : Protection C) (operations : List (Operation (Protection C)))
    (e : Endpoint C) : Prop where
  /-- No operation fails for an engine if it begins its packet under the protection. -/
  operation : ∀ operation : Operation (Protection C),
    (∀ direction lane, beginsOn? operation (run operations e).2 = some (direction, lane) →
      lane.Under (some protection)) → Unbroken (perform operation (run operations e).2).1
  /-- The run consists of deeds. -/
  chronicle : ∃ deeds, Chronicle operations e deeds
  /-- A packet begins under the protection that was installed last by then, whichever deeds the
  run may consist of. -/
  installed : ∀ operation direction lane,
    beginsOn? operation (run operations e).2 = some (direction, lane) →
      ∃ own ready, Course ((run operations e).2.during (.ordered operation)) own ready ∧
        (∀ deed ∈ own, deed.Inside) ∧ ready.lane direction = lane ∧
        ∀ deeds, Chronicle operations e deeds → lane.Under (lastInstalled direction (deeds ++ own))
  /-- No message is declined for an engine while the protection is the one installed last,
  whether it was asked for or is sent to keep the connection alive. -/
  message : ∀ deeds request payload fault next,
    Course (e.during .free) (deeds ++ [.declined request payload fault]) next →
    lastInstalled .outbound deeds = some protection → fault.category ≠ .crypto

/-- Negotiated protections never fail, whatever is sent and whatever comes in. -/
theorem negotiated_serves [Crypto.Hosts C] {config : Config} {padding noise : ByteSource}
    {e : Endpoint C} (hmade : make config padding noise = .ok e)
    {cipher : Crypto.CipherAlgorithm} {direction : Direction} {key iv : Bytes}
    {mac : Crypto.MacAlgorithm} {macKey : Bytes} {protection : Protection Crypto.Engine}
    (hnegotiated : Crypto.negotiated cipher direction key iv mac macKey = .ok protection)
    (operations : List (Operation (Protection C))) :
    Serves (Crypto.host protection) operations e := by
  have hdependable : (Crypto.host protection : Protection C).Dependable :=
    Crypto.dependable_host hnegotiated
  have hsound : ∀ {lane : Lane C}, lane.Under (some (Crypto.host protection)) → lane.Sound :=
    fun hunder => .of_under hunder (by rintro _ ⟨⟩; exact hdependable)
  obtain ⟨hinbound, houtbound, hparked⟩ : e.inbound.protection = none ∧
      e.outbound.protection = none ∧ e.parked = none := by
    unfold make at hmade
    split at hmade
    · cases hmade
    · cases hmade
      exact ⟨rfl, rfl, rfl⟩
  refine ⟨fun operation hunder => ?_, exists_chronicle operations e,
    fun operation direction lane hbegins => ?_,
    fun deeds request payload fault next hcourse hlast => ?_⟩
  · exact unbroken_perform fun direction lane hbegins => hsound (hunder direction lane hbegins)
  · obtain ⟨own, ready, hown, hinside, hlane, hsettled⟩ := exists_course_of_begins hbegins
    refine ⟨own, ready, hown, hinside, hlane, fun deeds hchronicle => ?_⟩
    have hcourse : Course (e.during .free) (deeds ++ .asked operation :: own) ready :=
      hchronicle.course.append (.step (.asked (s := (run operations e).2.during .free) _ rfl) hown)
    have hlast : lastInstalled direction (deeds ++ .asked operation :: own) =
        lastInstalled direction (deeds ++ own) := by
      have hnone : (Deed.asked operation : Deed C).installed? direction = none := by
        cases direction <;> rfl
      simp [lastInstalled, hnone]
    rw [← hlast, ← hlane]
    cases direction with
    | outbound =>
        have hunder := hcourse.outbound_under
        rwa [show (e.during .free).endpoint.outbound.protection = none from houtbound,
          Option.or_none] at hunder
    | inbound =>
        have hunder := hcourse.inbound_under hparked rfl (hsettled rfl)
        rwa [show (e.during .free).endpoint.inbound.protection = none from hinbound,
          Option.or_none] at hunder
  · obtain ⟨here, there, hbefore, hdoes, -⟩ := hcourse.of_mem_split
    have hunder := hbefore.outbound_under
    rw [hlast] at hunder
    cases hdoes with
    | declined _ _ hdeclines => exact (hsound hunder).category_of_declines hdeclines

def chainedKeys : Protection Crypto.Engine where
  cipher := .chaining .inbound (.start (List.replicate 32 1) (List.replicate 16 2))
  blockSize := 16
  mac := Crypto.MacKey.mac ⟨.hmacSha1_96, List.replicate 20 3⟩
  tagSize := 12
  minBlockSize_le := by decide
  blockSize_le := by decide
  tagSize_le := by decide

/-- The keys are installed when three octets of a plaintext block are there. -/
def rekeyedWait : List (Operation (Protection Rehearsal.Cipher)) :=
  [.feed [.data [1, 2, 3], .act (.installInbound (Crypto.host chainedKeys)),
    .data (List.replicate 20 4)]]

theorem negotiated_serves_chained :
    make {} .zeros .zeros = .ok newEndpoint ∧
      Crypto.negotiated .aes256Cbc .inbound (List.replicate 32 1) (List.replicate 16 2)
        .hmacSha1_96 (List.replicate 20 3) = .ok chainedKeys ∧
      ((beginsOn? .read (run rekeyedWait newEndpoint).2).map fun begun =>
        (begun.1, begun.2.protection.map (·.cipher))) =
          some (.inbound, some (.engine chainedKeys.cipher)) ∧
      Serves (Crypto.host chainedKeys) rekeyedWait newEndpoint := by
  have hmade : make {} .zeros .zeros = .ok newEndpoint := rfl
  have hnegotiated : Crypto.negotiated .aes256Cbc .inbound (List.replicate 32 1)
      (List.replicate 16 2) .hmacSha1_96 (List.replicate 20 3) = .ok chainedKeys := rfl
  exact ⟨hmade, hnegotiated, by decide +kernel, negotiated_serves hmade hnegotiated rekeyedWait⟩

end Endpoint

end PacketLayer
