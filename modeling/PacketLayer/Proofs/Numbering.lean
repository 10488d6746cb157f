import PacketLayer.Proofs.Channel
import PacketLayer.Proofs.Lasting

/-! # Sequence numbers in use

Each lane counts its packets, and nothing but its packets. An outbound packet takes its
number when it is sealed, before the stream has accepted any of it, and an inbound packet
when it is verified. No number comes again before all others have been taken.
-/

namespace PacketLayer

variable {C : Type}

namespace SequenceNumber

/-- Two places of which the second is fewer than `2 ^ 32` behind the first bear different
numbers. -/
theorem ne_of_numbered {α : Type} {key : α → UInt32} {number : SequenceNumber} {list : List α}
    (hnumbered : list.map key = number.numbers list.length) {first second : Nat}
    (hbefore : first < second) (hnear : second < first + 2 ^ 32) {x y : α}
    (hfirst : list[first]? = some x) (hsecond : list[second]? = some y) : key x ≠ key y := by
  have hat {place : Nat} {z : α} (hplace : list[place]? = some z) :
      key z = number.value + UInt32.ofNat place := by
    obtain ⟨hbound, -⟩ := List.getElem?_eq_some_iff.mp hplace
    have hnumber := getElem?_numbers hbound number
    rw [← hnumbered, List.getElem?_map, hplace] at hnumber
    exact Option.some.inj hnumber
  rw [hat hfirst, hat hsecond]
  intro hsame
  have hplaces := congrArg UInt32.toNat ((UInt32.add_right_inj number.value).mp hsame)
  rw [UInt32.toNat_ofNat', UInt32.toNat_ofNat'] at hplaces
  omega

/-- To take one number and then some more is to take one more. -/
theorem value_next_add (number : SequenceNumber) (count : Nat) :
    number.next.value + UInt32.ofNat count = number.value + UInt32.ofNat (count + 1) := by
  rw [value_next, UInt32.ofNat_add, UInt32.add_assoc, UInt32.add_comm 1]
  rfl

end SequenceNumber

variable [BlockCipher C]

namespace Outgoing

/-- The number of the next packet tells how many have been sealed. -/
theorem Follow.counts {lane next : Lane C} {history : List (Outgoing C)}
    (hfollow : Follow lane history next) :
    next.sequence.value = lane.sequence.value + UInt32.ofNat (emissions history).length := by
  induction hfollow with
  | done lane => exact (UInt32.add_zero _).symm
  | @step lane middle next outgoing history hon _ ih =>
      have hemits := hon.emits
      unfold emissions at ih ⊢
      rw [List.filterMap_cons, ih]
      generalize outgoing.emission? = emission? at hemits ⊢
      cases hemits with
      | nothing hsequence => rw [hsequence]
      | sealed _ _ hsequence =>
          rw [hsequence, SequenceNumber.value_next_add]
          rfl

/-- Everything in a history was made after what stands before it, and before what stands after
it. -/
theorem Follow.split {lane next : Lane C} {before after : List (Outgoing C)}
    {outgoing : Outgoing C} (hfollow : Follow lane (before ++ outgoing :: after) next) :
    ∃ here there, Follow lane before here ∧ outgoing.On here there ∧ Follow there after next := by
  induction before generalizing lane with
  | nil =>
      obtain - | ⟨hon, hafter⟩ := hfollow
      exact ⟨lane, _, .done lane, hon, hafter⟩
  | cons first before ih =>
      obtain - | ⟨hfirst, hrest⟩ := hfollow
      obtain ⟨here, there, hbefore, hon, hafter⟩ := ih hrest
      exact ⟨here, there, .step hfirst hbefore, hon, hafter⟩

/-- A packet takes the number of the lane that signs it, whatever becomes of it. Nothing else
takes a number. -/
inductive Takes (here there : Lane C) : Outgoing C → Prop where
  | number {request : Option Request} {payload frame wire : Bytes} {passage : Passage}
      (hseals : here.Seals frame wire there)
      (hnext : there.sequence.value = here.sequence.value + 1) :
      Takes here there (.packet request payload here.sequence.value frame wire passage)
  | nothing {outgoing : Outgoing C} (hnone : outgoing.emission? = none)
      (hstill : there.sequence = here.sequence) : Takes here there outgoing

theorem On.takes {here there : Lane C} {outgoing : Outgoing C} (hon : outgoing.On here there) :
    Takes here there outgoing := by
  have hemits := hon.emits
  cases hon with
  | packet _ _ hseals _ =>
      obtain - | ⟨-, -, hsequence⟩ := hemits
      exact .number hseals (congrArg SequenceNumber.value hsequence)
  | turnedAway | declined | line | rekeyed =>
      obtain ⟨hstill⟩ := hemits
      exact .nothing rfl hstill

/-- A history takes the numbers of a lane, each for one packet, which is signed under it by the
lane as what stands before has left it. All that the stream accepts belongs to these packets
and to lines. -/
structure Numbered (lane : Lane C) (history : List (Outgoing C)) (next : Lane C) : Prop where
  takes : ∀ before outgoing after, history = before ++ outgoing :: after →
    ∃ here there, Follow lane before here ∧ Takes here there outgoing ∧
      Follow there after next ∧
      here.sequence.value = lane.sequence.value + UInt32.ofNat (emissions before).length
  consumed : ∀ outgoing ∈ history, outgoing.carried ≠ [] →
    outgoing.emission? ≠ none ∨ ∃ text passage, outgoing = .line text passage
  distinct : ∀ first second, first < second → second < first + 2 ^ 32 →
    ∀ emission later, (emissions history)[first]? = some emission →
      (emissions history)[second]? = some later →
        emission.packet.sequence ≠ later.packet.sequence
  next : next.sequence.value = lane.sequence.value + UInt32.ofNat (emissions history).length

theorem Follow.numbers {lane next : Lane C} {history : List (Outgoing C)}
    (hfollow : Follow lane history next) : Numbered lane history next where
  takes := by
    rintro before outgoing after rfl
    obtain ⟨here, there, hbefore, hon, hafter⟩ := hfollow.split
    exact ⟨here, there, hbefore, hon.takes, hafter, hbefore.counts⟩
  consumed := by
    intro outgoing _ hcarried
    cases outgoing with
    | packet => exact .inl (by rintro ⟨⟩)
    | line text passage => exact .inr ⟨text, passage, rfl⟩
    | turnedAway | declined | rekeyed => exact absurd rfl hcarried
  distinct := fun _ _ hbefore hnear _ _ =>
    SequenceNumber.ne_of_numbered hfollow.numbered hbefore hnear
  next := hfollow.counts

end Outgoing

/-- The number of the next packet tells how many have been verified. -/
theorem Course.counts {s next : Stage C} {deeds : List (Deed C)} (hcourse : Course s deeds next) :
    next.endpoint.inbound.sequence.value = s.endpoint.inbound.sequence.value +
      UInt32.ofNat (deeds.filterMap Deed.verified?).length := by
  induction hcourse with
  | done s => exact (UInt32.add_zero _).symm
  | step hdoes _ ih =>
      rcases hdoes.counts with ⟨hnone, hsequence⟩ | ⟨frame, hsome, hsequence⟩
      · rw [List.filterMap_cons_none hnone, ih, hsequence]
      · rw [List.filterMap_cons_some hsome, ih, hsequence, SequenceNumber.value_next_add]
        rfl

namespace Endpoint

theorem inbound_run (operations : List (Operation (Protection C))) (e : Endpoint C) :
    (run operations e).2.inbound.sequence.value =
      e.inbound.sequence.value + UInt32.ofNat (verifiedOfRun operations e).length := by
  obtain ⟨deeds, hchronicle⟩ := exists_chronicle operations e
  rw [verifiedOfRun, ← hchronicle.tidings, List.filterMap_filterMap]
  exact hchronicle.course.counts

/-- An operation takes numbers for nothing but a message that it is asked to write, keep-alive
messages that are made meanwhile, and a packet that it delivers or refuses because the peer
ignores a request for new keys. -/
structure Counts (operation : Operation (Protection C)) (e : Endpoint C) : Prop where
  outbound : Lasts (taken operation e) e (perform operation e).2
  inbound : (perform operation e).2.inbound.sequence.value = e.inbound.sequence.value ∨
    (perform operation e).2.inbound.sequence.value = e.inbound.sequence.value + 1 ∧
      ((∃ payload, (perform operation e).1 =
          .ok (.packet (some ⟨payload, e.inbound.sequence.value⟩))) ∨
        ∃ count, (perform operation e).1 = .error (.rekeyIgnored count))

theorem counts_perform (operation : Operation (Protection C)) (e : Endpoint C) :
    Counts operation e := by
  refine ⟨lasts_perform operation e, ?_⟩
  obtain ⟨deeds, hcourse, htidings, -⟩ := leads_perform operation e
  have hcounts := hcourse.counts
  have hnumbered := hcourse.numbered
  have hjudged := judged_perform operation e
  rw [← htidings, List.filterMap_filterMap] at hjudged
  change Judged (deeds.filterMap Deed.verified?) _ at hjudged
  generalize deeds.filterMap Deed.verified? = verified at hcounts hnumbered hjudged
  generalize (perform operation e).1 = result at hjudged ⊢
  have hnumber {one : UInt32 × Bytes}
      (hone : [one].map Prod.fst = e.inbound.sequence.numbers 1) :
      one.1 = e.inbound.sequence.value := List.head_eq_of_cons_eq hone
  cases hjudged with
  | nothing => exact .inl (hcounts.trans (UInt32.add_zero _))
  | delivered one => exact .inr ⟨hcounts, .inl ⟨_, by rw [packetOf, hnumber hnumbered]⟩⟩
  | ignored one count => exact .inr ⟨hcounts, .inr ⟨count, rfl⟩⟩

/-- Where the numbers of a run go: those of the outbound lane to the messages that are sealed,
whichever deeds the run may consist of, and those of the inbound lane to the packets that are
verified. -/
structure Numbering (operations : List (Operation (Protection C))) (e : Endpoint C) : Prop where
  taken : Lasts (takenByRun operations e) e (run operations e).2
  chronicle : ∃ deeds, Chronicle operations e deeds
  history : ∀ deeds, Chronicle operations e deeds → Accords operations e deeds ∧
    ∃ history, Retells operations e deeds history ∧
      Outgoing.Numbered e.outbound history (run operations e).2.outbound
  verified : (run operations e).2.inbound.sequence.value =
    e.inbound.sequence.value + UInt32.ofNat (verifiedOfRun operations e).length
  next : ∀ operation, Counts operation (run operations e).2

/-- No number is taken for two packets, and none is left out. -/
theorem run_numbered {e : Endpoint C} (hfree : e.held = none)
    (operations : List (Operation (Protection C))) : Numbering operations e where
  taken := lasts_run operations e
  chronicle := exists_chronicle operations e
  history := by
    intro deeds hchronicle
    obtain ⟨history, hretells⟩ := hchronicle.exists_retells hfree
    exact ⟨hchronicle.accords, history, hretells, hretells.follow.numbers⟩
  verified := inbound_run operations e
  next := fun operation => counts_perform operation _

/-- A message whose sending fails after three octets has taken its number, and nothing that
fails later takes one. -/
theorem run_numbered_faltering : newEndpoint.held = none ∧ Numbering faltering newEndpoint ∧
    (run faltering newEndpoint).2.outbound.sequence.value = 1 :=
  ⟨rfl, run_numbered rfl faltering, by decide +kernel⟩

end Endpoint

end PacketLayer
