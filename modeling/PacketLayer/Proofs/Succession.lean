import Mathlib.Data.List.Induction
import PacketLayer.Proofs.Course.Runs

/-! # Protections in succession

Other parties may install inbound protections at any time. Each comes into use at once while
no read is under way; else it waits for a packet border and comes into use there, unless
another one is installed before. So a packet is read under one protection from its first octet
to its tag, and that is the latest installed by then.
-/

namespace PacketLayer

variable {C : Type}

namespace Deed

/-- The protection that is installed for the inbound lane. -/
def called? : Deed C → Option (Protection C)
  | acted _ _ (.installInbound protection) => some protection
  | _ => none

/-- The protection that comes into use: one that is no longer parked, or never was. -/
def used? : Deed C → Option (Protection C)
  | activated protection | acted _ .idle (.installInbound protection) => some protection
  | _ => none

/-- The octets that are received. -/
def octets : Deed C → Bytes
  | received octets => octets
  | _ => []

/-- The packet that is found genuine. -/
def packet? : Deed C → Option Packet
  | verified lane _ _ frame => some (Endpoint.packetOf (lane.sequence.value, frame))
  | _ => none

/-- A deed that neither installs a protection nor takes note of the parked one. -/
def Passive : Deed C → Prop
  | acted _ _ (.installInbound _) | activated _ | reading | opened _ => False
  | _ => True

/-- A deed amid a read, which neither begins nor opens a packet nor ends anything. -/
def Amid : Deed C → Prop
  | asked _ | reading | listening | opened _ | verified .. | left => False
  | _ => True

end Deed

variable [BlockCipher C]

/-- A protection in use: its cipher has gone on, and nothing else has changed. -/
inductive Protection.Used (fresh : Protection C) : Protection C → Prop where
  | refl : Used fresh fresh
  | step {worn : Protection C} (data : Bytes) (hworn : Used fresh worn) :
      Used fresh (worn.apply data).2

/-- A lane runs under a protection that was installed, or under none. -/
def Lane.Under (lane : Lane C) (installed : Option (Protection C)) : Prop :=
  Option.Rel Protection.Used installed lane.protection

namespace Lane.Under

variable {lane : Lane C} {installed : Option (Protection C)}

theorem refl (lane : Lane C) : lane.Under lane.protection := by
  unfold Under
  cases lane.protection with
  | none => exact .none
  | some protection => exact .some .refl

theorem install (protection : Protection C) (lane : Lane C) :
    (lane.install protection).Under (some protection) :=
  .some .refl

theorem apply (hunder : lane.Under installed) (data : Bytes) :
    (lane.apply data).2.Under installed := by
  obtain ⟨protection, sequence⟩ := lane
  unfold Under at hunder ⊢
  cases hunder with
  | none => exact .none
  | some hused => exact .some (.step data hused)

theorem advance (hunder : lane.Under installed) : lane.advance.Under installed :=
  hunder

end Lane.Under

/-- The protection that was installed last, or the one in use before. -/
def latest (initial : Option (Protection C)) (deeds : List (Deed C)) : Option (Protection C) :=
  (deeds.filterMap Deed.called?).getLast?.or initial

/-- A protection was installed while a read was under way, and no notice has been taken of it
since. -/
def Waits (deeds : List (Deed C)) (protection : Protection C) : Prop :=
  ∃ earlier origin between,
    deeds = earlier ++ .acted origin .busy (.installInbound protection) :: between ∧
      ∀ deed ∈ between, deed.Passive

/-- A read of a packet goes on that has received these octets. -/
def Gathering (deeds : List (Deed C)) (octets : Bytes) : Prop :=
  ∃ earlier own, deeds = earlier ++ .reading :: own ∧ (∀ deed ∈ own, deed.Amid) ∧
    octets = own.flatMap Deed.octets

/-- A packet was opened with the first of these octets, on a lane under the latest protection.
Then the others were received, and no protection came into use. -/
def Reading (initial : Option (Protection C)) (deeds : List (Deed C)) (octets : Bytes)
    (lane : Lane C) : Prop :=
  ∃ earlier first own,
    deeds = earlier ++ .opened (first.take lane.blockSize) :: own ∧
      Gathering earlier first ∧ lane.blockSize ≤ first.length ∧
      lane.Under (latest initial earlier) ∧
      (∀ deed ∈ own, deed.Amid ∧ deed.used? = none) ∧
      octets = first ++ own.flatMap Deed.octets

/-- How a read comes to be where it is. -/
inductive Intake.After (here : Stage C) : Deed C → Intake C → Prop where
  | reading : After here .reading { reader := .packet }
  | listening : After here .listening { reader := .line }
  | opened {intake : Intake C} (hphase : here.phase = .reading intake)
      (hreader : intake.reader = .packet) (hpacket : intake.packet = none)
      (hparked : here.endpoint.parked = none)
      (henough : here.endpoint.inbound.blockSize ≤ intake.received.length) :
      After here (.opened (intake.received.take here.endpoint.inbound.blockSize))
        { intake with packet := some here.endpoint.inbound }
  | amid {intake : Intake C} {deed : Deed C} (attempt : Option (Attempt C))
      (hphase : here.phase = .reading intake) (hamid : deed.Amid)
      (hborder : intake.packet ≠ none → deed.used? = none) :
      After here deed { intake with attempt, received := intake.received ++ deed.octets }

theorem Does.after {here there : Stage C} {deed : Deed C} {intake : Intake C}
    (hdoes : Does here deed there) (hthere : there.phase = .reading intake) :
    Intake.After here deed intake := by
  have hstill {intake : Intake C} {deed : Deed C} (attempt : Option (Attempt C))
      (hphase : here.phase = .reading intake) (hamid : deed.Amid) (hoctets : deed.octets = [])
      (hborder : intake.packet ≠ none → deed.used? = none) :
      Intake.After here deed { intake with attempt } := by
    have hafter := Intake.After.amid attempt hphase hamid hborder
    rwa [hoctets, List.append_nil] at hafter
  cases hdoes with
  | reading =>
      obtain rfl := Phase.reading.inj hthere
      exact .reading
  | listening =>
      obtain rfl := Phase.reading.inj hthere
      exact .listening
  | opened hphase hreader _ hpacket hparked henough =>
      obtain rfl := Phase.reading.inj hthere
      exact .opened hphase hreader hpacket hparked henough
  | received hphase =>
      obtain rfl := Phase.reading.inj hthere
      exact .amid _ hphase trivial fun _ => rfl
  | attempting _ _ hphase | attempted hphase =>
      obtain rfl := Phase.reading.inj hthere
      exact hstill _ hphase trivial rfl fun _ => rfl
  | @acted _ origin action hmeets =>
      cases hmeets with
      | operation => cases hthere
      | reads hphase | writes hphase =>
          have hbusy : here.reader = .busy := by rw [Stage.reader, show here.phase = _ from hthere]
          rw [hbusy]
          exact hstill intake.attempt hthere trivial rfl fun _ => by cases action <;> rfl
  | activated hborder =>
      refine hstill intake.attempt hthere trivial rfl fun hopened => ?_
      cases hborder with
      | before hphase =>
          rw [show here.phase = _ from hthere] at hphase
          cases hphase
      | waiting hphase _ _ hpacket =>
          rw [show here.phase = _ from hthere] at hphase
          obtain rfl := Phase.reading.inj hphase
          exact absurd hpacket hopened
  | stopped _ _ hbreaks =>
      cases hbreaks <;> exact hstill intake.attempt hthere trivial rfl fun _ => rfl
  | declined _ hdrafts | sealed _ hdrafts =>
      cases hdrafts with
      | own => cases hthere
      | keepAlive => exact hstill intake.attempt hthere trivial rfl fun _ => rfl
  | supplied _ hsupplies => cases hsupplies <;> cases hthere
  | carried | completed | heldBack | resumed | admitted | waited | stalled | rekeyed | unfolded
  | passedRead | passedWrite | aside =>
      exact hstill intake.attempt hthere trivial rfl fun _ => rfl
  | _ => cases hthere

/-- Where the protections stand after some deeds. -/
structure Stands (initial : Option (Protection C)) (deeds : List (Deed C)) (s : Stage C) :
    Prop where
  inbound : s.endpoint.inbound.Under ((deeds.filterMap Deed.used?).getLast?.or initial)
  settled : s.endpoint.parked = none →
    (deeds.filterMap Deed.called?).getLast? = (deeds.filterMap Deed.used?).getLast?
  gathering : ∀ intake, s.phase = .reading intake → intake.reader = .packet →
    intake.packet = none → Gathering deeds intake.received
  packet : ∀ intake, s.phase = .reading intake → ∀ lane, intake.packet = some lane →
    Reading initial deeds intake.received lane

omit [BlockCipher C] in
theorem Waits.snoc {deeds : List (Deed C)} {protection : Protection C} {deed : Deed C}
    (hwaits : Waits deeds protection) (hpassive : deed.Passive) :
    Waits (deeds ++ [deed]) protection := by
  obtain ⟨earlier, origin, between, rfl, hbetween⟩ := hwaits
  refine ⟨earlier, origin, between ++ [deed], by simp, ?_⟩
  simpa [or_imp, forall_and] using ⟨hbetween, hpassive⟩

omit [BlockCipher C] in
theorem Gathering.snoc {deeds : List (Deed C)} {octets : Bytes} {deed : Deed C}
    (hgathering : Gathering deeds octets) (hamid : deed.Amid) :
    Gathering (deeds ++ [deed]) (octets ++ deed.octets) := by
  obtain ⟨earlier, own, rfl, hown, rfl⟩ := hgathering
  refine ⟨earlier, own ++ [deed], by simp, ?_, by simp⟩
  simpa [or_imp, forall_and] using ⟨hown, hamid⟩

theorem Reading.snoc {initial : Option (Protection C)} {deeds : List (Deed C)} {octets : Bytes}
    {lane : Lane C} {deed : Deed C} (hreading : Reading initial deeds octets lane)
    (hamid : deed.Amid) (hused : deed.used? = none) :
    Reading initial (deeds ++ [deed]) (octets ++ deed.octets) lane := by
  obtain ⟨earlier, first, own, rfl, hfirst, henough, hunder, hown, rfl⟩ := hreading
  refine ⟨earlier, first, own ++ [deed], by simp, hfirst, henough, hunder, ?_, by simp⟩
  rw [List.forall_mem_append]
  exact ⟨hown, by simpa using ⟨hamid, hused⟩⟩

omit [BlockCipher C] in
/-- The protection that waits is the one installed last. -/
theorem Waits.getLast?_eq {deeds : List (Deed C)} {protection : Protection C}
    (hwaits : Waits deeds protection) :
    (deeds.filterMap Deed.called?).getLast? = some protection := by
  obtain ⟨earlier, origin, between, rfl, hbetween⟩ := hwaits
  have hnone : between.filterMap Deed.called? = [] := by
    rw [List.filterMap_eq_nil_iff]
    intro deed hmem
    have hpassive := hbetween deed hmem
    cases deed with
    | acted _ _ action => cases action <;> first | rfl | exact hpassive.elim
    | _ => rfl
  rw [List.filterMap_append, List.filterMap_cons_some (f := Deed.called?) rfl, hnone,
    List.getLast?_concat]

theorem Does.parked_eq {here there : Stage C} {deed : Deed C} (hdoes : Does here deed there)
    (hpassive : deed.Passive) : there.endpoint.parked = here.endpoint.parked := by
  by_cases hinward : deed.Inward
  swap
  · exact congrArg Prod.snd (hdoes.inlet_eq hinward)
  cases hdoes with
  | @acted _ _ action =>
      cases action <;> first | exact False.elim hpassive | exact False.elim hinward
  | unfolded => rfl
  | verified => exact Endpoint.view_accountReceived Endpoint.parked (fun _ _ _ _ => rfl) _ _
  | activated | opened => exact False.elim hpassive
  | _ => exact False.elim hinward

/-- A protection that is parked was parked before these deeds, or waits after one of them. -/
theorem Course.waits {s next : Stage C} {deeds : List (Deed C)} (hcourse : Course s deeds next)
    {protection : Protection C} (hparked : next.endpoint.parked = some protection) :
    (s.endpoint.parked = some protection ∧ ∀ deed ∈ deeds, deed.Passive) ∨
      Waits deeds protection := by
  induction deeds using List.reverseRecOn generalizing next with
  | nil =>
      cases hcourse
      exact .inl ⟨hparked, by simp⟩
  | append_singleton deeds deed ih =>
      obtain ⟨middle, hfirst, hlast⟩ := hcourse.of_append
      obtain - | ⟨hdoes, hdone⟩ := hlast
      cases hdone
      by_cases hpassive : deed.Passive
      · rw [hdoes.parked_eq hpassive] at hparked
        rcases ih hfirst hparked with ⟨hbefore, hdeeds⟩ | hwaits
        · refine .inl ⟨hbefore, ?_⟩
          rw [List.forall_mem_append]
          exact ⟨hdeeds, by simpa using hpassive⟩
        · exact .inr (hwaits.snoc hpassive)
      right
      cases hdoes with
      | @acted _ origin action =>
          cases action with
          | close | setKeepAlive => exact absurd trivial hpassive
          | installInbound other =>
              cases hreader : middle.reader with
              | idle =>
                  dsimp only at hparked
                  rw [hreader] at hparked
                  cases hparked
              | busy =>
                  dsimp only at hparked
                  rw [hreader] at hparked
                  obtain rfl := Option.some.inj hparked
                  exact ⟨deeds, origin, [], rfl, by simp⟩
      | activated =>
          dsimp only at hparked
          rw [Endpoint.parked_activateParked] at hparked
          cases hparked
      | reading _ _ hnone | opened _ _ _ _ hnone =>
          rw [show middle.endpoint.parked = _ from hparked] at hnone
          cases hnone
      | _ => exact absurd trivial hpassive

theorem Course.waits_of_none {s next : Stage C} {deeds : List (Deed C)}
    (hcourse : Course s deeds next) (hnone : s.endpoint.parked = none)
    {protection : Protection C} (hparked : next.endpoint.parked = some protection) :
    Waits deeds protection := by
  refine (hcourse.waits hparked).resolve_left ?_
  rw [hnone]
  rintro ⟨⟨⟩, -⟩

section

variable {initial : Option (Protection C)} {deeds : List (Deed C)} {here there : Stage C}
  {deed : Deed C}

/-- What a read under way has received and opened follows from what it had before. -/
theorem Stands.gathers (hstands : Stands initial deeds here) (hdoes : Does here deed there)
    {intake : Intake C} (hphase : there.phase = .reading intake)
    (hreader : intake.reader = .packet) (hpacket : intake.packet = none) :
    Gathering (deeds ++ [deed]) intake.received := by
  cases hdoes.after hphase with
  | reading => exact ⟨deeds, [], rfl, by simp, rfl⟩
  | listening => cases hreader
  | opened => cases hpacket
  | amid _ hbefore hamid => exact (hstands.gathering _ hbefore hreader hpacket).snoc hamid

theorem Stands.reads (hstands : Stands initial deeds here) (hdoes : Does here deed there)
    {intake : Intake C} (hphase : there.phase = .reading intake) {lane : Lane C}
    (hpacket : intake.packet = some lane) :
    Reading initial (deeds ++ [deed]) intake.received lane := by
  cases hdoes.after hphase with
  | reading | listening => cases hpacket
  | opened hbefore hreader hborder hparked henough =>
      obtain rfl := Option.some.inj hpacket
      refine ⟨deeds, _, [], rfl, hstands.gathering _ hbefore hreader hborder, henough, ?_, by simp,
        by simp⟩
      rw [latest, hstands.settled hparked]
      exact hstands.inbound
  | amid _ hbefore hamid hborder =>
      refine (hstands.packet _ hbefore lane hpacket).snoc hamid (hborder ?_)
      rw [hpacket]
      rintro ⟨⟩

/-- A deed that neither installs a protection nor brings one into use. -/
theorem Stands.snoc_of_same (hstands : Stands initial deeds here) (hdoes : Does here deed there)
    (hinbound : there.endpoint.inbound.Under ((deeds.filterMap Deed.used?).getLast?.or initial))
    (hparked : there.endpoint.parked = here.endpoint.parked) (hcalled : deed.called? = none)
    (hused : deed.used? = none) : Stands initial (deeds ++ [deed]) there := by
  have hcalls : (deeds ++ [deed]).filterMap Deed.called? = deeds.filterMap Deed.called? := by
    rw [List.filterMap_append, List.filterMap_cons_none hcalled, List.filterMap_nil,
      List.append_nil]
  have huses : (deeds ++ [deed]).filterMap Deed.used? = deeds.filterMap Deed.used? := by
    rw [List.filterMap_append, List.filterMap_cons_none hused, List.filterMap_nil,
      List.append_nil]
  refine ⟨by rwa [huses], ?_, fun _ => hstands.gathers hdoes,
    fun _ hphase _ => hstands.reads hdoes hphase⟩
  rw [hparked, hcalls, huses]
  exact hstands.settled

/-- A deed that brings the protection installed last into use. -/
theorem Stands.snoc_of_used {protection : Protection C} (hstands : Stands initial deeds here)
    (hdoes : Does here deed there)
    (hinbound : there.endpoint.inbound = here.endpoint.inbound.install protection)
    (hused : deed.used? = some protection)
    (hcalled : ((deeds ++ [deed]).filterMap Deed.called?).getLast? = some protection) :
    Stands initial (deeds ++ [deed]) there := by
  have huses : ((deeds ++ [deed]).filterMap Deed.used?).getLast? = some protection := by
    rw [List.filterMap_append, List.filterMap_cons_some hused, List.filterMap_nil,
      List.getLast?_concat]
  refine ⟨?_, fun _ => hcalled.trans huses.symm, fun _ => hstands.gathers hdoes,
    fun _ hphase _ => hstands.reads hdoes hphase⟩
  rw [hinbound, huses]
  exact Lane.Under.install protection _

theorem Stands.snoc (hstands : Stands initial deeds here) (hdoes : Does here deed there)
    (hwaits : ∀ protection, here.endpoint.parked = some protection → Waits deeds protection) :
    Stands initial (deeds ++ [deed]) there := by
  have hinbound := hstands.inbound
  by_cases hinward : deed.Inward
  swap
  · obtain ⟨hlane, hparked⟩ := Prod.mk.inj (hdoes.inlet_eq hinward)
    refine hstands.snoc_of_same hdoes (hlane ▸ hinbound) hparked ?_ ?_
    · cases deed with
      | acted _ _ action => cases action <;> first | rfl | exact absurd trivial hinward
      | _ => rfl
    · cases deed with
      | acted _ reader action =>
          cases action <;> cases reader <;> first | rfl | exact absurd trivial hinward
      | activated => exact absurd trivial hinward
      | _ => rfl
  have hkept := hdoes
  cases hdoes with
  | @acted struck origin action hmeets =>
      cases action with
      | close | setKeepAlive => exact False.elim hinward
      | installInbound protection =>
          have hcalled (reader : ReaderState) : ((deeds ++
              [Deed.acted origin reader (.installInbound protection)]).filterMap
                Deed.called?).getLast? = some protection := by
            rw [List.filterMap_append, List.filterMap_cons_some (f := Deed.called?) rfl,
              List.filterMap_nil, List.getLast?_concat]
          generalize hreader : here.reader = reader at hkept
          cases reader with
          | idle => exact hstands.snoc_of_used hkept rfl rfl (hcalled .idle)
          | busy =>
              refine ⟨?_, by rintro ⟨⟩, fun _ => hstands.gathers hkept,
                fun _ hphase _ => hstands.reads hkept hphase⟩
              rw [List.filterMap_append, List.filterMap_cons_none rfl, List.filterMap_nil,
                List.append_nil]
              exact hinbound
  | @activated protection _ hparked =>
      -- it was parked, so nothing was installed after it: both records end with it again
      have hinstalled : here.endpoint.activateParked.inbound =
          here.endpoint.inbound.install protection := by
        rw [Endpoint.activateParked_eq hparked]
        rfl
      refine hstands.snoc_of_used hkept hinstalled rfl ?_
      rw [List.filterMap_append]
      simpa [Deed.called?] using (hwaits protection hparked).getLast?_eq
  | opened | unfolded => exact hstands.snoc_of_same hkept (hinbound.apply _) rfl rfl rfl
  | @verified _ lane header =>
      obtain ⟨hlane, hparked⟩ := Prod.mk.inj (Endpoint.view_accountReceived Endpoint.inlet
        (fun _ _ _ _ => rfl) (header.frameLength + lane.tagSize) here.endpoint.advanceInbound)
      exact hstands.snoc_of_same hkept (hlane ▸ hinbound.advance) hparked rfl rfl
  | _ => exact False.elim hinward

end

/-- Every course keeps account of where the protections stand. -/
theorem Course.stands {s next : Stage C} {deeds : List (Deed C)} (hcourse : Course s deeds next)
    (hparked : s.endpoint.parked = none) (hphase : s.phase = .free) :
    Stands s.endpoint.inbound.protection deeds next := by
  induction deeds using List.reverseRecOn generalizing next with
  | nil =>
      cases hcourse
      refine ⟨Lane.Under.refl _, fun _ => rfl, ?_, ?_⟩
      · rw [hphase]
        rintro intake ⟨⟩
      · rw [hphase]
        rintro intake ⟨⟩
  | append_singleton deeds deed ih =>
      obtain ⟨middle, hfirst, hlast⟩ := hcourse.of_append
      obtain - | ⟨hdoes, hdone⟩ := hlast
      cases hdone
      exact (ih hfirst).snoc hdoes fun _ => hfirst.waits_of_none hparked

/-- What becomes of a protection that was parked, if these deeds follow: the next one that
concerns it brings it into use or replaces it, or it waits to the end and no read begins. -/
inductive Fate (protection : Protection C) (deeds : List (Deed C)) :
    Option (Protection C) → Prop where
  | activated {parked : Option (Protection C)} (between later : List (Deed C))
      (hdeeds : deeds = between ++ .activated protection :: later)
      (hbetween : ∀ deed ∈ between, deed.Passive) : Fate protection deeds parked
  | superseded {parked : Option (Protection C)} (between later : List (Deed C)) (origin : Origin)
      (reader : ReaderState) (other : Protection C)
      (hdeeds : deeds = between ++ .acted origin reader (.installInbound other) :: later)
      (hbetween : ∀ deed ∈ between, deed.Passive) : Fate protection deeds parked
  | waits (hdeeds : ∀ deed ∈ deeds, deed.Passive) : Fate protection deeds (some protection)

theorem Course.fate {s next : Stage C} {deeds : List (Deed C)} (hcourse : Course s deeds next)
    {protection : Protection C} (hparked : s.endpoint.parked = some protection) :
    Fate protection deeds next.endpoint.parked := by
  induction hcourse with
  | done s =>
      rw [hparked]
      exact .waits (by simp)
  | @step s middle next deed deeds hdoes _ ih =>
      by_cases hpassive : deed.Passive
      · have hfate := ih ((hdoes.parked_eq hpassive).trans hparked)
        generalize next.endpoint.parked = parked at hfate ⊢
        cases hfate with
        | activated between later hdeeds hbetween =>
            exact .activated (deed :: between) later (by rw [hdeeds, List.cons_append])
              (List.forall_mem_cons.mpr ⟨hpassive, hbetween⟩)
        | superseded between later origin reader other hdeeds hbetween =>
            exact .superseded (deed :: between) later origin reader other
              (by rw [hdeeds, List.cons_append]) (List.forall_mem_cons.mpr ⟨hpassive, hbetween⟩)
        | waits hdeeds => exact .waits (List.forall_mem_cons.mpr ⟨hpassive, hdeeds⟩)
      · cases hdoes with
        | @acted _ origin action =>
            cases action with
            | installInbound other => exact .superseded [] deeds origin _ other rfl (by simp)
            | close | setKeepAlive => exact absurd trivial hpassive
        | @activated other _ hother =>
            rw [hparked] at hother
            obtain rfl := Option.some.inj hother
            exact .activated [] deeds rfl (by simp)
        | reading _ _ hfree | opened _ _ _ _ hfree =>
            rw [hparked] at hfree
            cases hfree
        | _ => exact absurd trivial hpassive

omit [BlockCipher C] in
theorem Deed.packet?_eq (deed : Deed C) :
    deed.packet? = (deed.tiding.bind Tiding.verified?).map Endpoint.packetOf := by
  cases deed with
  | declined request | ended request => cases request <;> rfl
  | _ => rfl

omit [BlockCipher C] in
theorem Deed.inboundInstalled_mem_iff (deed : Deed C) :
    .inboundInstalled ∈ deed.rekeySteps ↔ deed.used? ≠ none := by
  cases deed with
  | ended request frameLength result =>
      cases frameLength <;> cases result <;> simp [rekeySteps, used?]
  | acted origin reader action => cases reader <;> cases action <;> simp [rekeySteps, used?]
  | _ => simp [rekeySteps, used?]

namespace Endpoint

/-- Deeds of a run in which no inbound protection is lost or comes into use within a packet. -/
structure Orderly (operations : List (Operation (Protection C))) (e : Endpoint C)
    (deeds : List (Deed C)) : Prop where
  /-- Protections are installed where operations and scripts have them, among the octets that
  are received. -/
  accords : Accords operations e deeds
  /-- Whatever is delivered was found genuine. -/
  delivered : ((run operations e).1.filterMap packet?).Sublist (deeds.filterMap Deed.packet?)
  /-- A packet is genuine on the lane on which it was opened, under the protection that was
  the latest then. It consists of the octets that its read has received. -/
  single : ∀ before after lane octets header frame,
    deeds = before ++ .verified lane octets header frame :: after →
      (∃ next, lane.Genuine octets header frame next) ∧
        octets.length = header.frameLength + lane.tagSize ∧
        Reading e.inbound.protection before octets lane
  /-- A protection that was parked and comes into use is the one that was installed last. -/
  activated : ∀ before after protection,
    deeds = before ++ .activated protection :: after → Waits before protection
  /-- A protection that is installed while a read is under way is parked. Any other is in use
  at once. -/
  fates : ∀ before after origin protection,
    deeds = before ++ .acted origin .busy (.installInbound protection) :: after →
      Fate protection after (run operations e).2.parked
  /-- In the end the protection that came into use last is in use. -/
  inbound : (run operations e).2.inbound.Under
    ((deeds.filterMap Deed.used?).getLast?.or e.inbound.protection)
  /-- The rekey policy takes note of inbound protections as they come into use. -/
  rekey : (run operations e).2.rekey = e.rekey.after (deeds.flatMap Deed.rekeySteps) ∧
    ∀ deed ∈ deeds, .inboundInstalled ∈ deed.rekeySteps ↔ deed.used? ≠ none

theorem Chronicle.orderly {operations : List (Operation (Protection C))} {e : Endpoint C}
    {deeds : List (Deed C)} (hparked : e.parked = none)
    (hchronicle : Chronicle operations e deeds) : Orderly operations e deeds := by
  have hcourse := hchronicle.course
  refine ⟨hchronicle.accords, ?_, ?_, ?_, ?_, (hcourse.stands hparked rfl).inbound,
    hcourse.rekey_eq, fun deed _ => deed.inboundInstalled_mem_iff⟩
  · have hpackets := List.filterMap_congr fun deed (_ : deed ∈ deeds) => deed.packet?_eq
    have hdelivered := delivered_sublist operations e
    rw [verifiedOfRun, ← hchronicle.tidings, List.filterMap_filterMap, List.map_filterMap]
      at hdelivered
    rwa [hpackets]
  · rintro before after lane octets header frame rfl
    obtain ⟨here, there, hbefore, hdoes, -⟩ := hcourse.of_mem_split
    cases hdoes with
    | verified hphase _ hpacket hgenuine hwhole =>
        exact ⟨⟨_, hgenuine⟩, hwhole, (hbefore.stands hparked rfl).packet _ hphase lane hpacket⟩
  · rintro before after protection rfl
    obtain ⟨here, there, hbefore, hdoes, -⟩ := hcourse.of_mem_split
    have hwaiting : here.endpoint.parked = some protection := by
      cases hdoes with
      | activated _ hwaiting => exact hwaiting
    exact hbefore.waits_of_none hparked hwaiting
  · rintro before after origin protection rfl
    obtain ⟨here, there, -, hdoes, hafter⟩ := hcourse.of_mem_split
    refine hafter.fate ?_
    generalize hreader : ReaderState.busy = reader at hdoes
    cases hdoes with
    | acted =>
        dsimp only
        rw [← hreader]
        rfl

/-- Inbound protections change between packets only, and none is lost: each comes into use
once, or gives way to a later one, or waits for the next read. It is so whichever deeds the run
may consist of. -/
theorem run_orderly {e : Endpoint C} (hparked : e.parked = none)
    (operations : List (Operation (Protection C))) :
    (∃ deeds, Chronicle operations e deeds) ∧
      ∀ deeds, Chronicle operations e deeds → Orderly operations e deeds :=
  ⟨exists_chronicle operations e, fun _ hchronicle => hchronicle.orderly hparked⟩

/-- A protection is installed while three octets of a packet are there, and one after it. -/
def interrupted : List (Operation (Protection Rehearsal.Cipher)) :=
  [.feed [.data (maskedOctets.take 3), .act (.installInbound (maskedProtection 0)),
    .data (maskedOctets.drop 3)], .read, .installInbound (maskedProtection 1)]

theorem run_orderly_interrupted :
    newEndpoint.parked = none ∧ (∃ deeds, Chronicle interrupted newEndpoint deeds) ∧
      ∀ deeds, Chronicle interrupted newEndpoint deeds → Orderly interrupted newEndpoint deeds :=
  ⟨rfl, run_orderly rfl interrupted⟩

end Endpoint

end PacketLayer
