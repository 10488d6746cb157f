import PacketLayer.Proofs.Course.Outbound
import PacketLayer.Proofs.Verification

/-! # The course of reading

A read waits for a first block, deciphers it, and takes the rest of the packet on the lane
as it found it. Whatever other parties do meanwhile, no protection comes into use before
the packet is verified or given up.
-/

namespace PacketLayer

variable {C : Type} [BlockCipher C]

/-- A stage leads to another one within an operation, and these tidings of it come to the
outside. -/
def Leads (s : Stage C) (tidings : List Tiding) (next : Stage C) : Prop :=
  Passes Deed.Inside s tidings next

theorem Passes.leads {s next : Stage C} {tidings : List Tiding}
    (hpasses : Passes Deed.Awaits s tidings next) : Leads s tidings next :=
  hpasses.mono Deed.Awaits.inside

namespace Leads

variable {s middle next : Stage C}

theorem refl (s : Stage C) : Leads s [] s :=
  Passes.refl s

theorem of_does {deed : Deed C} (hdoes : Does s deed next) (hinside : deed.Inside) :
    Leads s deed.tiding.toList next :=
  Passes.of_does hdoes hinside

theorem append {first second : List Tiding} (hfirst : Leads s first middle)
    (hsecond : Leads middle second next) : Leads s (first ++ second) next :=
  Passes.append hfirst hsecond

theorem trans {tidings : List Tiding} (hfirst : Leads s [] middle)
    (hsecond : Leads middle tidings next) : Leads s tidings next :=
  hfirst.append hsecond

theorem aside {tidings : List Tiding} {e : Endpoint C} (hleads : Leads s tidings next)
    (hsight : e.sight = next.endpoint.sight) : Leads s tidings { next with endpoint := e } :=
  Passes.aside trivial hleads hsight

end Leads

/-- A packet is being read that began on a lane. -/
def Stage.Opened (lane : Lane C) (s : Stage C) : Prop :=
  ∃ intake, s.phase = .reading intake ∧ intake.packet = some lane

omit [BlockCipher C] in
/-- A protection that is installed while a read is under way does not come into use. -/
theorem Endpoint.inbound_act_busy (action : Action (Protection C)) (e : Endpoint C) :
    (e.act .busy action).inbound = e.inbound := by
  cases action <;> rfl

/-- Waiting for octets touches neither the packet that is being read nor the inbound lane. -/
theorem Does.inbound_eq {here there : Stage C} {deed : Deed C} {lane : Lane C}
    (hawaits : deed.Awaits) (hdoes : Does here deed there) (hopened : here.Opened lane) :
    there.Opened lane ∧ there.endpoint.inbound = here.endpoint.inbound := by
  obtain ⟨intake, hphase, hpacket⟩ := hopened
  refine ⟨?_, ?_⟩
  · by_cases htends : deed.Tends
    · exact ⟨intake, (hdoes.phase_eq htends).trans hphase, hpacket⟩
    cases hdoes with
    | acted hmeets =>
        cases hmeets with
        | operation => exact False.elim hawaits
        | reads | writes => exact ⟨intake, hphase, hpacket⟩
    | attempting _ _ hreading | received hreading | attempted hreading =>
        rw [hphase] at hreading
        obtain rfl := Phase.reading.inj hreading
        exact ⟨_, rfl, hpacket⟩
    | rekeyed | passedRead => exact ⟨intake, hphase, hpacket⟩
    | _ => exact absurd hawaits htends
  · cases deed with
    | acted =>
        have hbusy : here.reader = .busy := by rw [Stage.reader, hphase]
        cases hdoes with
        | acted =>
            rw [hbusy]
            exact Endpoint.inbound_act_busy _ _
    | _ =>
        first
        | exact congrArg Prod.fst (hdoes.inlet_eq id)
        | exact False.elim hawaits

/-- The lengths of a packet stand in its first octets. -/
theorem Header.ofBlock_append {first : Bytes} (hfirst : headerLength ≤ first.length)
    (rest : Bytes) : Header.ofBlock (first ++ rest) = Header.ofBlock first := by
  simp only [headerLength] at hfirst
  rw [Header.ofBlock, Header.ofBlock, List.take_append_of_le_length (by omega),
    List.getD_eq_getElem?_getD, List.getElem?_append_left (by omega),
    ← List.getD_eq_getElem?_getD]

namespace Lane

theorem Unfolds.header_eq {lane next : Lane C} {octets frame : Bytes} {header : Header}
    (hunfolds : lane.Unfolds octets header frame next) : header = Header.ofBlock frame := by
  obtain ⟨hopens, -, -⟩ := hunfolds
  refine (Header.ofBlock_append ?_ _).symm
  rw [hopens.length_eq]
  exact Nat.le_trans (by decide) lane.plaintextBlockSize_le

theorem Opens.append {lane next : Lane C} {octets first : Bytes}
    (hopens : lane.Opens octets first next) (more : Bytes) :
    lane.Opens (octets ++ more) first next := by
  obtain ⟨henough, hdeciphers, hformed⟩ := hopens
  have htake : (octets ++ more).take lane.blockSize = octets.take lane.blockSize :=
    List.take_append_of_le_length henough
  rw [← htake] at hdeciphers
  refine ⟨Nat.le_trans henough ?_, hdeciphers, hformed⟩
  rw [List.length_append]
  exact Nat.le_add_right _ _

/-- Octets that follow a whole frame do not matter for it. -/
theorem Unfolds.append {lane next : Lane C} {octets frame : Bytes} {header : Header}
    (hunfolds : lane.Unfolds octets header frame next) (more : Bytes) :
    lane.Unfolds (octets ++ more) header frame next := by
  obtain @⟨first, _, _, _, hopens, hwhole, hrest⟩ := hunfolds
  have htake : (octets ++ more).take (Header.ofBlock first).frameLength =
      octets.take (Header.ofBlock first).frameLength := List.take_append_of_le_length hwhole
  rw [← htake] at hrest
  refine .intro (hopens.append more) (Nat.le_trans hwhole ?_) hrest
  rw [List.length_append]
  exact Nat.le_add_right _ _

/-- A whole frame and its tag are a genuine packet. -/
theorem Unfolds.genuine {lane next : Lane C} {octets frame tag : Bytes} {header : Header}
    (hunfolds : lane.Unfolds octets header frame next)
    (hlength : octets.length = header.frameLength) (hsign : lane.sign frame = .ok tag)
    (htag : tag.length = lane.tagSize) : lane.Genuine (octets ++ tag) header frame next := by
  refine ⟨hunfolds.append tag, ?_, ?_⟩
  · exact Nat.le_of_eq (by rw [List.length_append, hlength, htag])
  · rw [← hlength, List.drop_left, ← htag, List.take_length]
    exact hsign

end Lane

theorem Passes.inbound_eq {s next : Stage C} {tidings : List Tiding} {lane : Lane C}
    (hpasses : Passes Deed.Awaits s tidings next) (hopened : s.Opened lane) :
    next.endpoint.inbound = s.endpoint.inbound := by
  have hkept := hpasses.relates
    (R := fun s next =>
      s.Opened lane → next.Opened lane ∧ next.endpoint.inbound = s.endpoint.inbound)
    (fun _ hopened => ⟨hopened, rfl⟩) (fun hfirst hsecond hopened =>
      ⟨(hsecond (hfirst hopened).1).1, (hsecond (hfirst hopened).1).2.trans (hfirst hopened).2⟩)
    fun hawaits hdoes => hdoes.inbound_eq hawaits
  exact (hkept hopened).2

namespace Endpoint

/-! ## Attempts to read -/

/-- The octets that an attempt to read brings. -/
def Arrival.octets : Arrival → Bytes
  | more bytes => bytes
  | finished | failed _ => []

/-- An endpoint in the middle of a read, with what is left of its read script. -/
def midway (intake : Intake C) (reads : ReadScript (Protection C)) (e : Endpoint C) : Stage C :=
  ⟨e, .reading intake, reads, e.writes, e.occupying⟩

variable {intake : Intake C}

theorem passes_skipped_reads {items left : ReadScript (Protection C)} {e : Endpoint C}
    (hattempt : intake.attempt ≠ none) (hskips : items.Skips e.now left) :
    Passes Deed.Follows (e.midway intake items) [] (e.midway intake left) :=
  .of_does (.passedRead (s := e.midway intake items) rfl hattempt hskips) trivial

/-- A pause of the read script is waited for, up to its end or to the end of the attempt. -/
theorem passes_pause {time limit : Nat} {items : ReadScript (Protection C)}
    (hattempt : intake.attempt ≠ none) (hwithin : limit ≤ time) (e : Endpoint C) :
    Passes Deed.Follows (e.midway intake (.resumeAt time :: items)) []
      ((e.waitUntil .busy limit).midway intake (.resumeAt time :: items)) :=
  (passes_waitUntil (s := e.midway intake (.resumeAt time :: items)) rfl
    (fun _ hnow => ⟨hattempt, time, items, rfl, Nat.lt_of_lt_of_le hnow hwithin⟩) e).mono
    Deed.Tends.follows

/-- Following the read script lets other parties act and time pass, until octets arrive. -/
theorem passes_arrive {attempt : Attempt C} (hattempt : intake.attempt = some attempt)
    (deadline : Nat) (items : ReadScript (Protection C)) (e : Endpoint C) :
    Passes Deed.Follows (e.midway intake items) []
      ((arrive attempt.want deadline items e).2.2.midway
        { intake with
          received := intake.received ++ (arrive attempt.want deadline items e).1.octets }
        (arrive attempt.want deadline items e).2.1) := by
  have hunder : intake.attempt ≠ none := by simp [hattempt]
  have hnothing : { intake with received := intake.received ++ [] } = intake := by
    rw [List.append_nil]
  induction items generalizing e with
  | nil =>
      simp only [arrive, Arrival.octets, hnothing]
      exact .refl _
  | cons item items ih =>
      -- a pause is waited for to its end, or the attempt ends before
      have hresumed (time : Nat) (e : Endpoint C) :
          Passes Deed.Follows (e.midway intake (.resumeAt time :: items)) []
            ((arrive attempt.want deadline (.resumeAt time :: items) e).2.2.midway
              { intake with
                received := intake.received ++
                  (arrive attempt.want deadline (.resumeAt time :: items) e).1.octets }
              (arrive attempt.want deadline (.resumeAt time :: items) e).2.1) := by
        unfold arrive
        split
        next hreached =>
          have hpassed : time ≤ (e.waitUntil .busy time).now := by
            rw [now_waitUntil]
            exact Nat.le_max_right _ _
          exact (passes_pause hunder (Nat.le_refl _) e).trans
            ((passes_skipped_reads hunder (.resumeAt hpassed items)).trans (ih _))
        next hmissed =>
          simp only [Arrival.octets, hnothing]
          exact passes_pause hunder (by omega) e
      cases item with
      | data bytes =>
          unfold arrive
          split
          next hempty =>
            obtain rfl := List.isEmpty_iff.mp hempty
            simp only [Arrival.octets, hnothing]
            exact passes_skipped_reads hunder (.hollow items)
          next hfull =>
            exact .of_does (.received (s := e.midway intake (.data bytes :: items)) rfl hattempt
              (fun hempty => hfull (List.isEmpty_iff.mpr hempty)) rfl) trivial
      | eof =>
          simp only [arrive, Arrival.octets, hnothing]
          exact passes_skipped_reads hunder (.eof items)
      | fail failure =>
          have hbrings :
              (arrive attempt.want deadline (.fail failure :: items) e).1.octets = [] := by
            unfold arrive
            split <;> rfl
          rw [hbrings, hnothing]
          exact passes_skipped_reads hunder (.fail failure items)
      | pause milliseconds =>
          exact (passes_skipped_reads hunder (.pause milliseconds items)).trans
            (hresumed (e.now + milliseconds) e)
      | resumeAt time => exact hresumed time e
      | installOutbound protection =>
          have hrekeyed : Passes Deed.Follows
              (e.midway intake (.installOutbound protection :: items)) []
              ((e.installOutbound protection).midway intake items) :=
            .of_does (.rekeyed (s := e.midway intake (.installOutbound protection :: items))
              rfl hunder rfl) trivial
          exact hrekeyed.trans (ih _)
      | act action =>
          have hacted : Passes Deed.Follows (e.midway intake (.act action :: items)) []
              ((e.act .busy action).midway intake items) := by
            have hsame : (e.act .busy action).midway intake items =
                { e.midway intake items with endpoint := e.act .busy action } := by
              cases action <;> rfl
            rw [hsame]
            exact .of_does (.acted (.reads (s := e.midway intake (.act action :: items))
              rfl hunder rfl)) trivial
          exact hacted.trans (ih _)

omit [BlockCipher C] in
theorem during_endAttempt (phase : Phase C) (attempt : Attempt C) (e : Endpoint C) :
    (e.endAttempt attempt).during phase =
      ⟨e.endAttempt attempt, phase, attempt.left, e.writes, e.occupying⟩ := by
  unfold endAttempt
  split
  · unfold checkKeepAlive
    dsimp only
    split
    · rfl
    next handler _ => cases handler <;> rfl
  · rfl

variable {reader : Reader} {received : Bytes} {packet : Option (Lane C)}

/-- An attempt to read brings its octets, and the handler may run at its end. -/
theorem passes_receive {want limit : Nat} {arrival : Arrival} {e next : Endpoint C}
    (hborder : reader = .packet → packet = none → e.parked = none)
    (hattempt : e.receive want limit = (arrival, next)) :
    Passes Deed.Awaits (e.during (.reading ⟨reader, none, received, packet⟩)) []
      ((next.endAttempt ⟨reader, want, arrival, next.reads⟩).during
        (.reading ⟨reader, none, received ++ arrival.octets, packet⟩)) := by
  rcases harrive : arrive want (e.now + limit) e.reads e with ⟨arrival', left, middle⟩
  have hbegin : e.beginAttempt reader want limit = ⟨reader, want, arrival', left⟩ := by
    rw [beginAttempt, harrive]
  simp only [receive, harrive, Prod.mk.injEq] at hattempt
  obtain ⟨rfl, rfl⟩ := hattempt
  -- the attempt has its end in store from its beginning on
  have hbegun : Passes Deed.Awaits (e.during (.reading ⟨reader, none, received, packet⟩)) []
      (e.midway ⟨reader, some (e.beginAttempt reader want limit), received, packet⟩ e.reads) :=
    .of_does (.attempting (s := e.during (.reading ⟨reader, none, received, packet⟩)) want limit
      rfl rfl hborder) trivial
  rw [hbegin] at hbegun
  have hinside : Passes Deed.Awaits
      (e.midway ⟨reader, some ⟨reader, want, arrival', left⟩, received, packet⟩ e.reads) [] _ :=
    (passes_arrive rfl (e.now + limit) e.reads e).mono Deed.Follows.awaits
  rw [harrive] at hinside
  rw [during_endAttempt]
  exact hbegun.trans (hinside.trans (.of_does (.attempted (s := middle.midway
    ⟨reader, some ⟨reader, want, arrival', left⟩, received ++ arrival'.octets, packet⟩ left)
    rfl rfl rfl) trivial))

omit [BlockCipher C] in
/-- A reader of packets that is left in want of octets looks after keep-alive. -/
theorem endAttempt_of_short {want : Nat} {bytes : Bytes} {e : Endpoint C}
    (hshort : bytes.length < want) (hopen : ¬e.closed = true) :
    e.endAttempt ⟨.packet, want, .more bytes, e.reads⟩ = e.checkKeepAlive := by
  have hlooks : ((⟨.packet, want, .more bytes, e.reads⟩ : Attempt C).unfinished &&
      !e.closed) = true := by
    simp [Attempt.unfinished, hshort, hopen]
  rw [endAttempt, if_pos hlooks]

/-- An endpoint between two attempts to read a packet. -/
def gathering (packet : Option (Lane C)) (received : Bytes) (e : Endpoint C) : Stage C :=
  e.during (.reading ⟨.packet, none, received, packet⟩)

/-- Nothing follows an attempt that a reader of packets has no more to ask for after, or that
leaves the endpoint closed. -/
theorem passes_over {want limit : Nat} {arrival : Arrival} {e next : Endpoint C}
    (hborder : reader = .packet → packet = none → e.parked = none)
    (hattempt : e.receive want limit = (arrival, next))
    (hover : (⟨reader, want, arrival, next.reads⟩ : Attempt C).unfinished = false ∨
      next.closed = true) :
    Passes Deed.Awaits (e.during (.reading ⟨reader, none, received, packet⟩)) []
      (next.during (.reading ⟨reader, none, received ++ arrival.octets, packet⟩)) := by
  have hpasses : Passes Deed.Awaits
      (e.during (.reading ⟨reader, none, received, packet⟩)) [] _ := passes_receive hborder hattempt
  have hnothing : ¬((⟨reader, want, arrival, next.reads⟩ : Attempt C).unfinished &&
      !next.closed) = true := by
    rcases hover with hover | hclosed <;> simp [*]
  rwa [endAttempt, if_neg hnothing] at hpasses

theorem passes_short {want limit : Nat} {bytes : Bytes} {e next : Endpoint C}
    (hborder : packet = none → e.parked = none)
    (hattempt : e.receive want limit = (.more bytes, next)) (hshort : bytes.length < want)
    (hopen : ¬next.closed = true) :
    Passes Deed.Awaits (e.gathering packet received) []
      (next.checkKeepAlive.gathering packet (received ++ bytes)) := by
  rw [← endAttempt_of_short hshort hopen]
  exact passes_receive (fun _ => hborder) hattempt

theorem length_of_arrive {want deadline : Nat} {items : ReadScript (Protection C)}
    {e : Endpoint C} {bytes : Bytes}
    (harrival : (arrive want deadline items e).1 = .more bytes) : bytes.length ≤ want := by
  induction items generalizing e with
  | nil => cases harrival
  | cons item items ih =>
      cases item with
      | data arriving =>
          simp only [arrive] at harrival
          split at harrival
          · cases harrival
          · obtain rfl := Arrival.more.inj harrival
            exact List.length_take_le want arriving
      | eof => cases harrival
      | fail failure =>
          simp only [arrive] at harrival
          split at harrival
          · obtain rfl := Arrival.more.inj harrival
            exact Nat.zero_le want
          · cases harrival
      | pause milliseconds =>
          simp only [arrive] at harrival
          split at harrival
          · exact ih harrival
          · obtain rfl := Arrival.more.inj harrival
            exact Nat.zero_le want
      | resumeAt time =>
          simp only [arrive] at harrival
          split at harrival
          · exact ih harrival
          · obtain rfl := Arrival.more.inj harrival
            exact Nat.zero_le want
      | installOutbound protection => exact ih harrival
      | act action => exact ih harrival

theorem length_of_receive {want limit : Nat} {bytes : Bytes} {e next : Endpoint C}
    (hattempt : e.receive want limit = (.more bytes, next)) : bytes.length ≤ want :=
  length_of_arrive (congrArg Prod.fst hattempt)

/-- Collecting octets for a packet that is open brings as many as are wanted, or fails. -/
theorem passes_fill (lane : Lane C) (received raw : Bytes) (count : Nat) (e : Endpoint C) :
    ∃ octets,
      Passes Deed.Awaits (e.gathering (some lane) received) []
        ((fill raw count e).2.gathering (some lane) (received ++ octets)) ∧
      ∀ body, (fill raw count e).1 = .ok (some body) →
        body = raw ++ octets ∧ octets.length = count := by
  have hopened {reader : Reader} {e : Endpoint C} :
      reader = .packet → some lane = none → e.parked = none := fun _ => nofun
  fun_induction fill raw count e generalizing received with
  | case1 raw e =>
      refine ⟨[], ?_, ?_⟩
      · rw [List.append_nil]
        exact .refl _
      · rintro body ⟨⟩
        exact ⟨(List.append_nil raw).symm, rfl⟩
  | case2 raw count e _ next hattempt =>
      exact ⟨_, passes_over hopened hattempt (.inl rfl), by rintro body ⟨⟩⟩
  | case3 raw count e _ failure next hattempt =>
      exact ⟨_, passes_over hopened hattempt (.inl rfl), by rintro body ⟨⟩⟩
  | case4 raw count e _ bytes next hattempt hcomplete =>
      refine ⟨bytes, passes_over hopened hattempt (.inl ?_), ?_⟩
      · simpa [Attempt.unfinished] using hcomplete
      · rintro body ⟨⟩
        exact ⟨rfl, Nat.le_antisymm (length_of_receive hattempt) hcomplete⟩
  | case5 raw count e _ bytes next hattempt _ hclosed =>
      exact ⟨_, passes_over hopened hattempt (.inr hclosed), by rintro body ⟨⟩⟩
  | case6 raw count e _ bytes next hattempt hcomplete hclosed ih =>
      obtain ⟨octets, hrest, hbody⟩ := ih (received ++ bytes)
      refine ⟨bytes ++ octets, ?_, fun body hresult => ?_⟩
      · rw [← List.append_assoc]
        exact (passes_short (hopened rfl) hattempt (Nat.lt_of_not_le hcomplete) hclosed).trans hrest
      · obtain ⟨rfl, hlength⟩ := hbody body hresult
        rw [List.append_assoc, List.length_append]
        exact ⟨rfl, by omega⟩

/-- Nothing that goes on while octets are collected for a packet touches its lane. -/
theorem inbound_fill (raw : Bytes) (count : Nat) (e : Endpoint C) :
    (fill raw count e).2.inbound = e.inbound := by
  obtain ⟨octets, hpasses, -⟩ := passes_fill e.inbound [] raw count e
  exact hpasses.inbound_eq ⟨_, rfl, rfl⟩

/-! ## The first block -/

omit [BlockCipher C] in
theorem during_activateParked (phase : Phase C) (e : Endpoint C) :
    e.activateParked.during phase = { e.during phase with endpoint := e.activateParked } := by
  unfold activateParked
  split <;> rfl

theorem leads_activateParked {phase : Phase C} {e : Endpoint C}
    (hborder : (e.during phase).AtBorder) :
    Leads (e.during phase) [] (e.activateParked.during phase) := by
  cases hparked : e.parked with
  | none =>
      have hsame : e.activateParked = e := by rw [activateParked, hparked]
      rw [hsame]
      exact .refl _
  | some protection =>
      rw [during_activateParked]
      exact .of_does (.activated hborder hparked) trivial

/-- How the wait for a first block ends. If there is one, no protection is parked then. -/
inductive Awaited (s : Stage C) : Except Fault (Option Bytes) × Endpoint C → Prop where
  | missed {result : Except Fault (Option Bytes)} {next : Endpoint C} {received : Bytes}
      (hleads : Leads s [] (next.gathering none received))
      (hnone : ∀ raw, result ≠ .ok (some raw)) : Awaited s (result, next)
  | begun {raw : Bytes} {next : Endpoint C} (hleads : Leads s [] (next.gathering none raw))
      (hparked : next.parked = none) (hblock : next.inbound.blockSize ≤ raw.length) :
      Awaited s (.ok (some raw), next)

theorem Awaited.after {s middle : Stage C} {outcome : Except Fault (Option Bytes) × Endpoint C}
    (hbefore : Leads s [] middle) (hawaited : Awaited middle outcome) : Awaited s outcome := by
  cases hawaited with
  | missed hleads hnone => exact .missed (hbefore.trans hleads) hnone
  | begun hleads hparked hblock => exact .begun (hbefore.trans hleads) hparked hblock

theorem awaited_awaitFirstBlock (raw : Bytes) (e : Endpoint C) :
    Awaited (e.gathering none raw) (awaitFirstBlock raw e) := by
  have hbegun (raw : Bytes) (e : Endpoint C) :
      Leads (e.gathering none raw) [] (e.activateParked.gathering none raw) :=
    leads_activateParked (.waiting rfl rfl rfl rfl)
  have hborder {reader : Reader} (e : Endpoint C) :
      reader = .packet → (none : Option (Lane C)) = none → e.activateParked.parked = none :=
    fun _ _ => parked_activateParked e
  -- the block is complete exactly if the attempt brings all that it was asked for
  have hcompletes {raw bytes : Bytes} {blockSize : Nat} (hshort : ¬blockSize ≤ raw.length) :
      blockSize ≤ (raw ++ bytes).length ↔ blockSize - raw.length ≤ bytes.length := by
    rw [List.length_append]
    omega
  fun_induction awaitFirstBlock raw e with
  | case1 raw e ready hcomplete =>
      exact .begun (hbegun raw e) (parked_activateParked e) hcomplete
  | case2 raw e ready _ next hattempt =>
      exact .missed ((hbegun raw e).trans (passes_over (hborder e) hattempt (.inl rfl)).leads)
        (by rintro raw ⟨⟩)
  | case3 raw e ready _ failure next hattempt =>
      exact .missed ((hbegun raw e).trans (passes_over (hborder e) hattempt (.inl rfl)).leads)
        (by rintro raw ⟨⟩)
  | case4 raw e ready hshort bytes next hattempt hcomplete ih =>
      have hover : (⟨.packet, ready.inbound.blockSize - raw.length, .more bytes, next.reads⟩ :
          Attempt C).unfinished = false :=
        decide_eq_false (Nat.not_lt.mpr ((hcompletes hshort).mp hcomplete))
      exact .after ((hbegun raw e).trans
        (passes_over (hborder e) hattempt (.inl hover)).leads) ih
  | case5 raw e ready _ bytes next hattempt _ hclosed =>
      exact .missed ((hbegun raw e).trans (passes_over (hborder e) hattempt (.inr hclosed)).leads)
        (by rintro raw ⟨⟩)
  | case6 raw e ready hshort bytes next hattempt hcomplete hclosed ih =>
      have hlacks := Nat.lt_of_not_le (mt (hcompletes hshort).mpr hcomplete)
      exact .after ((hbegun raw e).trans
        (passes_short (hborder e rfl) hattempt hlacks hclosed).leads) ih

/-! ## The rest of a packet -/

/-- How the taking of a packet ends: the packet is given up, or what was received is genuine
on the lane as it was before its first block. -/
inductive Taken (s : Stage C) : Except Fault (Option (Header × Bytes)) × Endpoint C → Prop where
  | missed {result : Except Fault (Option (Header × Bytes))} {next : Endpoint C}
      (hleads : Leads s [] (next.during .free)) (hnone : ∀ taken, result ≠ .ok (some taken)) :
      Taken s (result, next)
  | whole {lane : Lane C} {octets frame : Bytes} {header : Header} {next : Endpoint C}
      (hleads : Leads s [] (next.gathering (some lane) octets))
      (hgenuine : lane.Genuine octets header frame next.inbound)
      (hwhole : octets.length = header.frameLength + lane.tagSize) :
      Taken s (.ok (some (header, frame)), next)

theorem Taken.after {s middle : Stage C}
    {outcome : Except Fault (Option (Header × Bytes)) × Endpoint C}
    (hbefore : Leads s [] middle) (htaken : Taken middle outcome) : Taken s outcome := by
  cases htaken with
  | missed hleads hnone => exact .missed (hbefore.trans hleads) hnone
  | whole hleads hgenuine hwhole => exact .whole (hbefore.trans hleads) hgenuine hwhole

/-- A packet that is being read is given up. -/
theorem Taken.dropped {s : Stage C} {packet : Option (Lane C)} {received : Bytes}
    {result : Except Fault (Option (Header × Bytes))} {next : Endpoint C}
    (hleads : Leads s [] (next.gathering packet received))
    (hnone : ∀ taken, result ≠ .ok (some taken)) : Taken s (result, next) :=
  .missed (hleads.trans (.of_does (.left (s := next.gathering packet received) rfl rfl) trivial))
    hnone

/-- How the check of a tag ends: it fails, or the tag is the one of the frame. -/
inductive Checked (lane : Lane C) (received frame : Bytes) (e : Endpoint C) :
    Except Fault Bool × Endpoint C → Prop where
  | refused {result : Except Fault Bool} {octets : Bytes} {next : Endpoint C}
      (hpasses : Passes Deed.Awaits (e.gathering (some lane) received) []
        (next.gathering (some lane) (received ++ octets)))
      (hrefused : result ≠ .ok true) : Checked lane received frame e (result, next)
  | authentic {tag : Bytes} {next : Endpoint C}
      (hpasses : Passes Deed.Awaits (e.gathering (some lane) received) []
        (next.gathering (some lane) (received ++ tag)))
      (hsign : e.inbound.sign frame = .ok tag) (htag : tag.length = e.inbound.tagSize) :
      Checked lane received frame e (.ok true, next)

theorem checked_authenticate (lane : Lane C) (received frame : Bytes) (e : Endpoint C) :
    Checked lane received frame e (authenticate frame e) := by
  unfold authenticate
  rw [Act.ask_bind, id]
  cases hsign : e.inbound.sign frame with
  | error fault =>
      rw [Act.ofExcept_error_bind]
      have hstill : Passes Deed.Awaits (e.gathering (some lane) received) []
          (e.gathering (some lane) (received ++ [])) := by
        rw [List.append_nil]
        exact .refl _
      exact .refused hstill (by rintro ⟨⟩)
  | ok expected =>
      rw [Act.ofExcept_ok_bind]
      obtain ⟨octets, hpasses, hbrought⟩ := passes_fill lane received [] e.inbound.tagSize e
      rcases hfill : fill [] e.inbound.tagSize e with ⟨fault | (_ | tag), next⟩
      all_goals rw [hfill] at hpasses hbrought
      · rw [Act.bind_of_error hfill]
        exact .refused hpasses (by rintro ⟨⟩)
      · rw [Act.bind_of_ok hfill]
        exact .refused hpasses (by rintro ⟨⟩)
      · rw [Act.bind_of_ok hfill]
        dsimp only
        obtain ⟨rfl, hlength⟩ := hbrought tag rfl
        by_cases hsame : expected = tag
        · have hverify : verify expected tag next = (.ok (), next) := if_pos hsame
          rw [Act.bind_of_ok hverify]
          exact .authentic hpasses (hsame ▸ hsign) hlength
        · have hverify : verify expected tag next =
              (.error (.tagMismatch next.inbound.sequence.value), next) := if_neg hsame
          rw [Act.bind_of_error hverify]
          exact .refused hpasses (by rintro ⟨⟩)

theorem passes_dump {s : Stage C} {packet : Option (Lane C)} {received : Bytes}
    {e : Endpoint C} (hleads : Leads s [] (e.gathering packet received)) (direction : Direction)
    (bytes : Bytes) : Leads s [] ((e.dump direction bytes).gathering packet received) := by
  have hsame : (e.dump direction bytes).gathering packet received =
      { e.gathering packet received with endpoint := e.dump direction bytes } := by
    unfold dump
    split <;> rfl
  rw [hsame]
  exact hleads.aside (sight_dump direction bytes e)

omit [BlockCipher C] in
theorem inbound_dump (direction : Direction) (bytes : Bytes) (e : Endpoint C) :
    (e.dump direction bytes).inbound = e.inbound :=
  view_of_sight Endpoint.inbound (fun _ => rfl) (sight_dump direction bytes e)

theorem taken_checkFrame {lane : Lane C} {octets frame : Bytes} {header : Header}
    {e : Endpoint C} (hunfolds : lane.Unfolds octets header frame e.inbound)
    (hlength : octets.length = header.frameLength) (rest : Bytes) :
    Taken (e.gathering (some lane) octets) (checkFrame header frame rest e) := by
  obtain ⟨-, htagSize, -, hsame⟩ := hunfolds.lane_eq
  have hchecked := checked_authenticate lane octets frame e
  unfold checkFrame
  rcases hauthenticate : authenticate frame e with ⟨result, next⟩
  rw [hauthenticate] at hchecked
  cases hchecked with
  | refused hpasses hrefused =>
      rcases result with fault | (_ | _)
      · rw [Act.bind_of_error hauthenticate]
        exact .dropped hpasses.leads (by rintro taken ⟨⟩)
      · rw [Act.bind_of_ok hauthenticate]
        exact .dropped hpasses.leads (by rintro taken ⟨⟩)
      · exact absurd rfl hrefused
  | @authentic tag _ hpasses hsign htag =>
      rw [Act.bind_of_ok hauthenticate]
      -- while the tag was awaited, others were at work, but not on the lane of an open packet
      have hinbound : (next.dump .inbound rest).inbound = e.inbound :=
        (inbound_dump .inbound rest next).trans (hpasses.inbound_eq ⟨_, rfl, rfl⟩)
      rw [← hinbound] at hunfolds
      rw [hsame] at hsign
      rw [htagSize] at htag
      refine .whole (passes_dump hpasses.leads .inbound rest)
        (hunfolds.genuine hlength hsign htag) ?_
      rw [List.length_append, hlength, htag]

/-- A packet whose first block was deciphered on a lane is taken on that lane. -/
theorem taken_takeRest {lane : Lane C} {block first carried : Bytes} {e : Endpoint C}
    (hopens : lane.Opens block first e.inbound) (hblock : block.length = lane.blockSize)
    (hlong : first.length + carried.length ≤ (Header.ofBlock first).frameLength) :
    Taken (e.gathering (some lane) (block ++ carried))
      (takeRest (Header.ofBlock first) first carried e) := by
  obtain ⟨octets, hpasses, hbrought⟩ := passes_fill lane (block ++ carried) carried
    ((Header.ofBlock first).frameLength - (first.length + carried.length)) e
  unfold takeRest
  rcases hfill : fill carried
    ((Header.ofBlock first).frameLength - (first.length + carried.length)) e with
    ⟨fault | (_ | body), next⟩
  all_goals rw [hfill] at hpasses hbrought
  · rw [Act.bind_of_error hfill]
    exact .dropped hpasses.leads (by rintro taken ⟨⟩)
  · rw [Act.bind_of_ok hfill]
    exact .dropped hpasses.leads (by rintro taken ⟨⟩)
  · rw [Act.bind_of_ok hfill]
    dsimp only
    obtain ⟨hbody, hlength⟩ := hbrought body rfl
    have hinbound : next.inbound = e.inbound := hpasses.inbound_eq ⟨_, rfl, rfl⟩
    rw [List.append_assoc, ← hbody] at hpasses
    have hwhole : (block ++ body).length = (Header.ofBlock first).frameLength := by
      have hfirst := hopens.length_eq
      rw [hbody, List.length_append, List.length_append]
      omega
    have hdrop : (block ++ body).drop lane.blockSize = body := by rw [← hblock, List.drop_left]
    -- the cipher goes on over the rest even if deciphering fails
    rcases hrest : next.inbound.apply body with ⟨result, last⟩
    have hdecipher : decipher body next = (result, { next with inbound := last }) := by
      simp [decipher, hrest]
    have hunfolded : Leads (next.gathering (some lane) (block ++ body)) []
        ({ next with inbound := last }.gathering (some lane) (block ++ body)) := by
      have hdoes := Does.unfolded (s := next.gathering (some lane) (block ++ body)) rfl rfl rfl
      have hlane : (next.inbound.apply ((block ++ body).drop lane.blockSize)).2 = last := by
        rw [hdrop, hrest]
      exact hlane ▸ .of_does hdoes trivial
    refine .after (hpasses.leads.trans hunfolded) ?_
    cases result with
    | error fault =>
        rw [Act.bind_of_error hdecipher]
        exact .dropped (.refl _) (by rintro taken ⟨⟩)
    | ok rest =>
        rw [Act.bind_of_ok hdecipher]
        have htake : ((block ++ body).take (Header.ofBlock first).frameLength).drop
            lane.blockSize = body := by
          rw [← hwhole, List.take_length, hdrop]
        rw [hinbound, ← htake] at hrest
        exact taken_checkFrame (.intro (hopens.append body) (Nat.le_of_eq hwhole.symm) hrest)
          hwhole rest

/-- A packet that begins with a whole first block is opened, and taken or given up. -/
theorem taken_takeFrom {raw : Bytes} {e : Endpoint C} (hparked : e.parked = none)
    (hblock : e.inbound.blockSize ≤ raw.length) :
    Taken (e.gathering none raw) (takeFrom raw e) := by
  have hlength : (raw.take e.inbound.blockSize).length = e.inbound.blockSize :=
    List.length_take_of_le hblock
  unfold takeFrom
  rw [Act.ask_bind]
  rcases happly : e.inbound.apply (raw.take e.inbound.blockSize) with ⟨result, lane⟩
  have hdecipher : decipher (raw.take e.inbound.blockSize) e =
      (result, { e with inbound := lane }) := by
    simp [decipher, happly]
  have hopened : Leads (e.gathering none raw) []
      ({ e with inbound := lane }.gathering (some e.inbound) raw) := by
    have hdoes := Does.opened (s := e.gathering none raw) rfl rfl rfl rfl hparked hblock
    have hlane : (e.inbound.apply (raw.take e.inbound.blockSize)).2 = lane :=
      congrArg Prod.snd happly
    exact hlane ▸ .of_does hdoes trivial
  cases result with
  | error fault =>
      rw [Act.bind_of_error hdecipher]
      exact .dropped hopened (by rintro taken ⟨⟩)
  | ok first =>
      rw [Act.bind_of_ok hdecipher, Act.update_bind]
      refine .after (passes_dump hopened .inbound first) ?_
      have hinbound := inbound_dump .inbound first { e with inbound := lane }
      generalize dump .inbound first { e with inbound := lane } = dumped at hinbound ⊢
      have hfirst : first.length = e.inbound.blockSize :=
        ((Lane.apply_eq happly).2.2.2.2 first rfl).trans hlength
      cases hparse : Header.parse first e.inbound.blockSize with
      | error fault =>
          rw [Act.ofExcept_error_bind]
          exact .dropped (.refl _) (by rintro taken ⟨⟩)
      | ok header =>
          obtain ⟨rfl, hformed⟩ := (Header.parse_eq_ok_iff e.inbound.plaintextBlockSize_le
            (Nat.le_of_eq hfirst.symm)).mp hparse
          rw [Act.ofExcept_ok_bind]
          split
          next => exact .dropped (.refl _) (by rintro taken ⟨⟩)
          next hlong =>
            have hagain : (raw.take e.inbound.blockSize).take e.inbound.blockSize =
                raw.take e.inbound.blockSize := by
              rw [List.take_take, Nat.min_self]
            rw [← show dumped.inbound = lane from hinbound, ← hagain] at happly
            have hcarried : first.length + (raw.drop e.inbound.blockSize).length ≤
                (Header.ofBlock first).frameLength := by
              rw [hfirst, List.length_drop]
              omega
            have htaken := taken_takeRest ⟨Nat.le_of_eq hlength.symm, happly, hformed⟩ hlength
              hcarried
            rwa [List.take_append_drop] at htaken

theorem taken_takeFrame (e : Endpoint C) : Taken (e.gathering none []) (takeFrame e) := by
  have hawaited := awaited_awaitFirstBlock [] e
  unfold takeFrame
  rcases hawait : awaitFirstBlock [] e with ⟨result, next⟩
  rw [hawait] at hawaited
  cases hawaited with
  | missed hleads hnone =>
      rcases result with fault | (_ | raw)
      · rw [Act.bind_of_error hawait]
        exact .dropped hleads (by rintro taken ⟨⟩)
      · rw [Act.bind_of_ok hawait]
        exact .dropped hleads (by rintro taken ⟨⟩)
      · exact absurd rfl (hnone raw)
  | begun hleads hparked hblock =>
      rw [Act.bind_of_ok hawait]
      exact .after hleads (taken_takeFrom hparked hblock)

theorem takeFrame_activateParked (e : Endpoint C) : takeFrame e.activateParked = takeFrame e :=
  Act.bind_apply_congr (awaitFirstBlock_activateParked [] e)

/-! ## Reads -/

omit [BlockCipher C] in
/-- A note before a packet is counted shows in the journal only. -/
theorem sight_accountReceived {event : Event} (htells : event.tells = false) (bytes : Nat)
    (e : Endpoint C) :
    (accountReceived bytes (e.note event)).2.sight = (accountReceived bytes e).2.sight := by
  have hrekey : (e.note event).rekey = e.rekey := rfl
  unfold accountReceived
  dsimp only
  rw [hrekey]
  split <;> simp [sight, note, publish, moment, List.filter_cons, htells]

omit [BlockCipher C] in
theorem during_accountReceived (phase : Phase C) (bytes : Nat) (e : Endpoint C) :
    (accountReceived bytes e).2.during phase =
      { e.during phase with endpoint := (accountReceived bytes e).2 } := by
  unfold accountReceived
  dsimp only
  split <;> rfl

/-- Delivering a packet that was taken verifies it. -/
theorem leads_deliver {lane : Lane C} {octets frame : Bytes} {header : Header} {e : Endpoint C}
    (hgenuine : lane.Genuine octets header frame e.inbound)
    (hwhole : octets.length = header.frameLength + lane.tagSize) :
    Leads (e.gathering (some lane) octets) [.verified lane.sequence.value frame]
      ((deliver header frame e).2.during .free) := by
  obtain ⟨-, htagSize, -, -⟩ := hgenuine.unfolds.lane_eq
  have hcount : header.packetLength + e.inbound.tagSize + 4 =
      header.frameLength + lane.tagSize := by
    rw [htagSize, Header.frameLength]
    omega
  obtain ⟨event, htells, hdelivered⟩ : ∃ event : Event, event.tells = false ∧
      (deliver header frame e).2 =
        (accountReceived (header.packetLength + e.inbound.tagSize + 4)
          (note event (advanceInbound e))).2 :=
    ⟨_, rfl, congrArg Prod.snd (Act.bind_pure_eq (accountReceived _ : Act C Unit) (fun _ => _) _)⟩
  have hverified : Leads (e.gathering (some lane) octets) [.verified lane.sequence.value frame] _ :=
    .of_does (.verified (s := e.gathering (some lane) octets) rfl rfl rfl hgenuine hwhole) trivial
  rw [hdelivered, hcount, during_accountReceived]
  exact hverified.aside (sight_accountReceived htells _ _)

/-- What the outside learns of a read. -/
def tidingsOfRead (e : Endpoint C) : List Tiding :=
  if e.closed then []
  else .reading :: (verification e).toList.map fun verified => .verified verified.1 verified.2

/-- A read begins once the parked protection is in use. -/
theorem leads_reading {e : Endpoint C} (hopen : e.closed = false) :
    Leads (e.during (.ordered .read)) [.reading] (e.activateParked.gathering none []) := by
  have hopened : e.activateParked.closed = false := by
    rw [← hopen]
    unfold activateParked
    split <;> rfl
  exact (leads_activateParked (.before rfl hopen)).trans (.of_does (.reading
    (s := e.activateParked.during (.ordered .read)) rfl hopened (parked_activateParked e)) trivial)

theorem leads_readPacket {e : Endpoint C} (hopen : e.closed = false) :
    Leads (e.during (.ordered .read)) (tidingsOfRead e) ((readPacket e).2.during .free) := by
  have hbegun := leads_reading hopen
  have htaken := taken_takeFrame e.activateParked
  rw [takeFrame_activateParked] at htaken
  unfold tidingsOfRead verification
  rw [hopen, readPacket_eq]
  rcases htake : takeFrame e with ⟨result, next⟩
  rw [htake] at htaken
  cases htaken with
  | missed hleads hnone =>
      rcases result with fault | (_ | taken)
      · rw [Act.bind_of_error htake]
        exact hbegun.append hleads
      · rw [Act.bind_of_ok htake]
        exact hbegun.append hleads
      · exact absurd rfl (hnone taken)
  | whole hleads hgenuine hwhole =>
      obtain ⟨-, -, hsequence, -⟩ := hgenuine.unfolds.lane_eq
      rw [Act.bind_of_ok htake, deliverTaken, Act.bind_pure_eq]
      dsimp only
      rw [hsequence]
      exact hbegun.append (hleads.append (leads_deliver hgenuine hwhole))

theorem leads_read (e : Endpoint C) :
    Leads (e.during (.ordered .read)) (tidingsOfRead e) ((read e).2.during .free) := by
  unfold read
  split
  next hclosed =>
    rw [tidingsOfRead, if_pos hclosed]
    exact .of_does (.unread (s := e.during (.ordered .read)) rfl hclosed) trivial
  next hopen =>
    have hread := leads_readPacket (Bool.of_not_eq_true hopen)
    unfold Act.noting
    split
    next _ next houtcome =>
      rw [houtcome] at hread
      exact hread
    next fault next houtcome =>
      rw [houtcome] at hread
      exact hread.aside (e := next.note (.failure .inbound fault.message)) (sight_note rfl next)

/-! ## Lines -/

/-- Reading a line takes octets, and nothing else of the inbound side. -/
theorem passes_readLine (received : Bytes) (deadline : Option Nat) (line : Bytes) (e : Endpoint C) :
    ∃ octets, Passes Deed.Awaits (e.during (.reading ⟨.line, none, received, none⟩)) []
      ((readLine deadline line e).2.during
        (.reading ⟨.line, none, received ++ octets, none⟩)) := by
  have hborder {e : Endpoint C} : Reader.line = .packet → (none : Option (Lane C)) = none →
      e.parked = none := nofun
  fun_induction readLine deadline line e generalizing received with
  | case7 line e bytes next hattempt _ _ _ _ ih =>
      obtain ⟨octets, hrest⟩ := ih (received ++ bytes)
      rw [List.append_assoc] at hrest
      exact ⟨bytes ++ octets, (passes_over hborder hattempt (.inl rfl)).trans hrest⟩
  | _ => exact ⟨_, passes_over hborder ‹_› (.inl rfl)⟩

theorem leads_readBanner (milliseconds : Nat) (e : Endpoint C) :
    Leads (e.during (.ordered (.readBanner milliseconds))) []
      ((readBanner milliseconds e).2.during .free) := by
  obtain ⟨octets, hpasses⟩ := passes_readLine []
    (if milliseconds = 0 then none else some (e.now + milliseconds)) [] e
  have hlistening : Leads (e.during (.ordered (.readBanner milliseconds))) []
      (e.during (.reading ⟨.line, none, [], none⟩)) :=
    .of_does (.listening (s := e.during (.ordered (.readBanner milliseconds))) rfl) trivial
  exact hlistening.trans (hpasses.leads.trans (.of_does (.left (s := Endpoint.during
    (.reading ⟨.line, none, [] ++ octets, none⟩) (readBanner milliseconds e).2) rfl rfl) trivial))

end Endpoint

end PacketLayer
