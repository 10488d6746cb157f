import Mathlib.Data.List.Nodup
import Mathlib.Data.Nat.Basic
import Mathlib.Order.Basic
import PacketLayer.Proofs.Outflow
import PacketLayer.Proofs.RoundTrip

/-! # An authentic channel

Suppose that a tag is found right only for a number and a frame that the sending end has
sealed. Then it does not matter what happens to the octets on their way: the receiving end
delivers nothing but messages of the sending end, each under its own number and in order,
and up to the first refusal to go on without new keys it leaves none out.
-/

namespace PacketLayer

variable {C D : Type}

namespace SequenceNumber

/-- The numbers of the next packets, as many as given. -/
def numbers (count : Nat) (number : SequenceNumber) : List UInt32 :=
  (advances count number).map Prod.fst

@[simp] theorem numbers_succ (count : Nat) (number : SequenceNumber) :
    number.numbers (count + 1) = number.value :: number.next.numbers count := rfl

@[simp] theorem length_numbers (count : Nat) (number : SequenceNumber) :
    (number.numbers count).length = count := by
  induction count generalizing number with
  | zero => rfl
  | succ count ih => rw [numbers_succ, List.length_cons, ih]

theorem getElem?_numbers {count index : Nat} (hindex : index < count) (number : SequenceNumber) :
    (number.numbers count)[index]? = some (number.value + UInt32.ofNat index) := by
  induction count generalizing index number with
  | zero => cases hindex
  | succ count ih =>
      cases index with
      | zero => simp
      | succ index =>
          rw [numbers_succ, List.getElem?_cons_succ, ih (Nat.lt_of_succ_lt_succ hindex),
            value_next, UInt32.ofNat_add, UInt32.add_assoc, UInt32.add_comm 1]
          rfl

/-- The distance of a number from the first one tells its place. -/
theorem toNat_add_sub (start : UInt32) {index : Nat} (hindex : index < 2 ^ 32) :
    (start + UInt32.ofNat index - start).toNat = index := by
  rw [UInt32.add_comm, UInt32.add_sub_cancel, UInt32.toNat_ofNat', Nat.mod_eq_of_lt hindex]

/-- What holds of two places holds of the numbers at them. -/
theorem pairwise_numbers {R : UInt32 → UInt32 → Prop} {count : Nat} {number : SequenceNumber}
    (hplaces : ∀ first second, first < second → second < count →
      R (number.value + UInt32.ofNat first) (number.value + UInt32.ofNat second)) :
    (number.numbers count).Pairwise R := by
  have hat {index : Nat} (hindex : index < (number.numbers count).length) :
      (number.numbers count)[index] = number.value + UInt32.ofNat index := by
    refine Option.some.inj ((List.getElem?_eq_getElem hindex).symm.trans ?_)
    exact getElem?_numbers (length_numbers count number ▸ hindex) number
  rw [List.pairwise_iff_getElem]
  intro first second hfirst hsecond hbefore
  rw [hat, hat]
  exact hplaces first second hbefore (length_numbers count number ▸ hsecond)

/-- Fewer than `2 ^ 32` numbers in a row ascend, counted from the first of them. -/
theorem ascending_numbers {count : Nat} (hfew : count < 2 ^ 32) (number : SequenceNumber) :
    (number.numbers count).Pairwise fun first second =>
      first - number.value < second - number.value := by
  refine pairwise_numbers fun first second hbefore hsecond => ?_
  rw [UInt32.lt_iff_toNat_lt, toNat_add_sub _ ((hbefore.trans hsecond).trans hfew),
    toNat_add_sub _ (hsecond.trans hfew)]
  exact hbefore

/-- Numbers in a row increase up to the largest one. -/
theorem increasing_numbers {count : Nat} {number : SequenceNumber}
    (hunwrapped : number.value.toNat + count ≤ 2 ^ 32) :
    (number.numbers count).Pairwise (· < ·) := by
  refine pairwise_numbers fun first second hbefore hsecond => ?_
  have hsum {index : Nat} (hindex : index < count) :
      (number.value + UInt32.ofNat index).toNat = number.value.toNat + index := by
    rw [UInt32.toNat_add, UInt32.toNat_ofNat', Nat.mod_eq_of_lt (by omega),
      Nat.mod_eq_of_lt (by omega)]
  rw [UInt32.lt_iff_toNat_lt, hsum (hbefore.trans hsecond), hsum hsecond]
  omega

/-- Two lists that are numbered from the same number on agree as far as the first one goes,
if it holds nothing that is not in the second one. -/
theorem prefix_of_numbered {α : Type} {key : α → UInt32} {number : SequenceNumber}
    {first second : List α} (hfirst : first.map key = number.numbers first.length)
    (hsecond : second.map key = number.numbers second.length)
    (hfew : second.length < 2 ^ 32) (hsubset : first ⊆ second) : first <+: second := by
  have hplace {index : Nat} (hindex : index < first.length) (hsmall : index < 2 ^ 32) :
      second[index]? = some first[index] := by
    have hmem : first[index] ∈ second := hsubset (List.getElem_mem hindex)
    obtain ⟨place, hbound, hsame⟩ := List.getElem_of_mem hmem
    have hnumber : number.value + UInt32.ofNat place = number.value + UInt32.ofNat index := by
      have hleft : (second.map key)[place]? = some (number.value + UInt32.ofNat place) :=
        hsecond ▸ getElem?_numbers hbound number
      have hright : (first.map key)[index]? = some (number.value + UInt32.ofNat index) :=
        hfirst ▸ getElem?_numbers hindex number
      rw [List.getElem?_map, List.getElem?_eq_getElem hbound, hsame] at hleft
      rw [List.getElem?_map, List.getElem?_eq_getElem hindex] at hright
      exact Option.some.inj (hleft.symm.trans hright)
    have hindices : place = index := by
      rw [← toNat_add_sub number.value (hbound.trans hfew), hnumber,
        toNat_add_sub number.value hsmall]
    subst place
    rw [List.getElem?_eq_getElem hbound, hsame]
  -- a list of `2 ^ 32` elements or more would have one at a place that the second has not
  have hlength : first.length < 2 ^ 32 := by
    by_contra hlong
    have hlast : 2 ^ 32 - 1 < first.length := by omega
    obtain ⟨hbound, -⟩ := List.getElem?_eq_some_iff.mp (hplace hlast (by decide))
    omega
  rw [List.prefix_iff_getElem?]
  exact fun index hindex => hplace hindex (hindex.trans hlength)

end SequenceNumber

/-- A message that an endpoint has sealed, whether or not all of it goes out. -/
structure Emission where
  packet : Packet
  frame : Bytes

/-- What the tag of a message is made for. -/
def Emission.signed (emission : Emission) : UInt32 × Bytes :=
  (emission.packet.sequence, emission.frame)

namespace Outgoing

def emission? : Outgoing C → Option Emission
  | packet _ payload sequence frame _ _ => some ⟨⟨payload, sequence⟩, frame⟩
  | turnedAway _ | declined .. | line .. | rekeyed _ => none

/-- The messages in a history of what goes out, in order. -/
def emissions (history : List (Outgoing C)) : List Emission :=
  history.filterMap emission?

end Outgoing

/-- The payload of a frame is read back from it. -/
theorem IsFrame.packetOf_eq {payload frame : Bytes} {blockSize : Nat} (sequence : UInt32)
    (hframe : IsFrame payload blockSize frame) (hmin : minBlockSize ≤ blockSize)
    (hmax : blockSize ≤ maxBlockSize) :
    Endpoint.packetOf (sequence, frame) = ⟨payload, sequence⟩ := by
  have hpositive : 0 < blockSize := Nat.lt_of_lt_of_le (by decide) hmin
  have hblock : headerLength ≤ (frame.take blockSize).length := by
    rw [List.length_take, Nat.min_eq_left (hframe.blockSize_le hpositive)]
    exact Nat.le_trans (by decide) hmin
  have hheader := Header.ofBlock_append hblock (frame.drop blockSize)
  rw [List.take_append_drop, hframe.ofBlock_take hmin hmax] at hheader
  have hlength : (Header.ofBlock frame).payloadLength = payload.length := by
    rw [hheader]
    simp only [Header.payloadLength, framedLength]
    omega
  rw [Endpoint.packetOf, hlength, hframe.payload_eq]

variable [BlockCipher C] [BlockCipher D]

/-- Whether a message is sealed on a lane, and how the lane counts it. -/
inductive Lane.Emits (lane next : Lane C) : Option Emission → Prop where
  | nothing (hsequence : next.sequence = lane.sequence) : Emits lane next none
  | sealed {emission : Emission} (hnumber : emission.packet.sequence = lane.sequence.value)
      (hpacket : Endpoint.packetOf emission.signed = emission.packet)
      (hsequence : next.sequence = lane.sequence.next) : Emits lane next (some emission)

namespace Outgoing

theorem On.emits {lane next : Lane C} {outgoing : Outgoing C} (hon : outgoing.On lane next) :
    lane.Emits next outgoing.emission? := by
  cases hon with
  | turnedAway request => exact .nothing rfl
  | declined _ hdeclines => exact .nothing hdeclines.sequence_eq
  | packet _ hframe hseals =>
      exact .sealed rfl
        (hframe.packetOf_eq _ lane.plaintextBlockSize_le lane.blockSize_le_max) hseals.sequence_eq
  | line => exact .nothing rfl
  | rekeyed => exact .nothing rfl

/-- The messages of an endpoint bear consecutive numbers, whatever becomes of them. -/
theorem Follow.numbered {lane next : Lane C} {history : List (Outgoing C)}
    (hfollow : Follow lane history next) :
    (emissions history).map (·.packet.sequence) =
      lane.sequence.numbers (emissions history).length := by
  induction hfollow with
  | done lane => rfl
  | @step lane middle next outgoing history hon _ ih =>
      have hemits := hon.emits
      unfold emissions at ih ⊢
      rw [List.filterMap_cons]
      generalize outgoing.emission? = emission? at hemits ⊢
      cases hemits with
      | nothing hsequence => exact hsequence ▸ ih
      | sealed hnumber _ hsequence =>
          rw [List.map_cons, List.length_cons, SequenceNumber.numbers_succ, hnumber, ih, hsequence]

/-- The messages are read back from the frames that were signed. -/
theorem Follow.packets_eq {lane next : Lane C} {history : List (Outgoing C)}
    (hfollow : Follow lane history next) :
    ((emissions history).map Emission.signed).map Endpoint.packetOf =
      (emissions history).map Emission.packet := by
  rw [List.map_map]
  refine List.map_congr_left fun emission hmem => ?_
  obtain ⟨outgoing, hmem, hemission⟩ := List.mem_filterMap.mp hmem
  obtain ⟨before, after, hon⟩ := hfollow.on_of_mem hmem
  have hemits := hon.emits
  rw [hemission] at hemits
  cases hemits with
  | sealed _ hpacket _ => exact hpacket

end Outgoing

omit [BlockCipher C] in
theorem Tiding.verified?_of_answered (request : Option Request) (answer : Request → Answer) :
    (request.map fun request => answered (answer request)).bind verified? = none := by
  cases request <;> rfl

/-- The inbound lane counts what is verified, and nothing else. -/
theorem Does.counts {here there : Stage C} {deed : Deed C} (hdoes : Does here deed there) :
    (deed.verified? = none ∧
        there.endpoint.inbound.sequence = here.endpoint.inbound.sequence) ∨
      ∃ frame, deed.verified? = some (here.endpoint.inbound.sequence.value, frame) ∧
        there.endpoint.inbound.sequence = here.endpoint.inbound.sequence.next := by
  have hsame (hinward : ¬deed.Inward) :
      there.endpoint.inbound.sequence = here.endpoint.inbound.sequence :=
    congrArg (·.1.sequence) (hdoes.inlet_eq hinward)
  cases hdoes with
  | @verified intake lane header plain _ _ _ hgenuine =>
      obtain ⟨signal, journal, hcounted⟩ := Endpoint.accountReceived_keeps
        (header.frameLength + lane.tagSize) here.endpoint.advanceInbound
      have hsequence := hgenuine.unfolds.lane_eq.2.2.1
      dsimp only
      rw [hcounted]
      exact .inr ⟨plain, by rw [hsequence]; rfl, rfl⟩
  | declined | completed | stopped => exact .inl ⟨Tiding.verified?_of_answered _ _, hsame id⟩
  | opened | unfolded => exact .inl ⟨rfl, (Lane.apply_eq rfl).2.2.1⟩
  | activated _ hparked =>
      refine .inl ⟨rfl, ?_⟩
      dsimp only
      rw [Endpoint.activateParked_eq hparked]
      rfl
  | @acted _ _ action => exact .inl ⟨rfl, by cases action <;> cases here.reader <;> rfl⟩
  | _ => exact .inl ⟨rfl, hsame id⟩

theorem Course.numbered {s next : Stage C} {deeds : List (Deed C)}
    (hcourse : Course s deeds next) :
    (deeds.filterMap Deed.verified?).map Prod.fst =
      s.endpoint.inbound.sequence.numbers (deeds.filterMap Deed.verified?).length := by
  induction hcourse with
  | done s => rfl
  | step hdoes _ ih =>
      rcases hdoes.counts with ⟨hnone, hsequence⟩ | ⟨frame, hsome, hsequence⟩
      · rw [List.filterMap_cons_none hnone, ih, hsequence]
      · rw [List.filterMap_cons_some hsome, List.map_cons, List.length_cons,
          SequenceNumber.numbers_succ, ih, hsequence]

namespace Endpoint

/-- What is verified in a run bears consecutive numbers. -/
theorem numbered_verifiedOfRun (operations : List (Operation (Protection C))) (e : Endpoint C) :
    (verifiedOfRun operations e).map Prod.fst =
      e.inbound.sequence.numbers (verifiedOfRun operations e).length := by
  obtain ⟨deeds, hchronicle⟩ := exists_chronicle operations e
  rw [verifiedOfRun, ← hchronicle.tidings, List.filterMap_filterMap]
  exact hchronicle.course.numbered

/-- An operation is refused because the peer ignores a request for new keys. -/
def refusesToGoOn : Except Fault Reply → Bool
  | .error (.rekeyIgnored _) => true
  | .ok _ | .error _ => false

/-- Up to the first refusal to go on, a run delivers all that it verifies. -/
theorem verified_of_going_on (operations : List (Operation (Protection C))) (e : Endpoint C) :
    ((run operations e).1.takeWhile fun result => !refusesToGoOn result).filterMap packet? <+:
      (verifiedOfRun operations e).map packetOf := by
  induction operations generalizing e with
  | nil => exact List.nil_prefix
  | cons operation operations ih =>
      have hrest := ih (perform operation e).2
      have hjudged := judged_perform operation e
      rw [run_cons, verifiedOfRun_cons, List.map_append, List.takeWhile_cons]
      generalize (tidingsOf operation e).filterMap Tiding.verified? = verified at hjudged
      generalize (perform operation e).1 = result at hjudged
      cases hjudged with
      | nothing hnone =>
          split
          · rw [List.filterMap_cons_none hnone]
            exact hrest
          · exact List.nil_prefix
      | delivered verified => exact List.cons_prefix_cons.mpr ⟨rfl, hrest⟩
      | ignored verified count => exact List.nil_prefix

/-- What comes of messages that bear numbers from a first one on: whatever is delivered is
one of them, the only one of its number, they come in order, and up to the first refusal
to go on none is left out. -/
structure Faithful (first : UInt32) (messages : List Packet)
    (results : List (Except Fault Reply)) : Prop where
  genuine : ∀ packet ∈ results.filterMap packet?, packet ∈ messages ∧
    ∀ message ∈ messages, message.sequence = packet.sequence → message.payload = packet.payload
  /-- The numbers increase, counted from the first one. -/
  ascending : (results.filterMap packet?).Pairwise fun packet later =>
    packet.sequence - first < later.sequence - first
  /-- They increase as they stand, unless the messages go beyond the largest number. -/
  increasing : first.toNat + messages.length ≤ 2 ^ 32 →
    (results.filterMap packet?).Pairwise fun packet later => packet.sequence < later.sequence
  complete :
    ((results.takeWhile fun result => !refusesToGoOn result).filterMap packet?).map
      (·.payload) <+: messages.map (·.payload)

theorem faithful_of_numbered {number : SequenceNumber} {messages : List Packet}
    {results : List (Except Fault Reply)}
    (hnumbered : messages.map (·.sequence) = number.numbers messages.length)
    (hfew : messages.length < 2 ^ 32)
    (hdelivered : (results.filterMap packet?).Sublist messages)
    (hcomplete : (results.takeWhile fun result => !refusesToGoOn result).filterMap packet? <+:
      messages) :
    Faithful number.value messages results := by
  have hascending := SequenceNumber.ascending_numbers hfew number
  rw [← hnumbered] at hascending
  have hdistinct : (messages.map (·.sequence)).Nodup := by
    refine hascending.imp fun hless => ?_
    rintro rfl
    exact UInt32.lt_irrefl _ hless
  refine ⟨?_, ?_, ?_, hcomplete.map _⟩
  · intro packet hmem
    have hsent := hdelivered.subset hmem
    refine ⟨hsent, fun message hmessage hsequence => ?_⟩
    rw [List.inj_on_of_nodup_map hdistinct hmessage hsent hsequence]
  · exact (List.pairwise_map.mp hascending).sublist hdelivered
  · intro hunwrapped
    have hincreasing := SequenceNumber.increasing_numbers hunwrapped
    rw [← hnumbered] at hincreasing
    exact (List.pairwise_map.mp hincreasing).sublist hdelivered

/-- Whatever reaches a receiving end, and whatever it does, it delivers what the other end
has sealed, if it finds no tag right but those of messages that the other end has sealed. -/
theorem run_faithful {sender : Endpoint C} {writes : List (Operation (Protection C))}
    {history : List (Outgoing C)} (hrecounts : Recounts writes sender history)
    (hfew : (Outgoing.emissions history).length < 2 ^ 32) {receiver : Endpoint D}
    (hsame : receiver.inbound.sequence = sender.outbound.sequence)
    {reads : List (Operation (Protection D))}
    (hunforged : verifiedOfRun reads receiver ⊆
      (Outgoing.emissions history).map Emission.signed) :
    Faithful sender.outbound.sequence.value ((Outgoing.emissions history).map Emission.packet)
      (run reads receiver).1 := by
  have hnumbered := hrecounts.follow.numbered
  -- both ends count from the same number on, so what is verified begins what was sealed
  have hverified := SequenceNumber.prefix_of_numbered
    (hsame ▸ numbered_verifiedOfRun reads receiver)
    (by rw [List.map_map, List.length_map]; exact hnumbered) (by rwa [List.length_map]) hunforged
  have hpackets : (verifiedOfRun reads receiver).map packetOf <+:
      (Outgoing.emissions history).map Emission.packet := by
    rw [← hrecounts.follow.packets_eq]
    exact hverified.map packetOf
  refine faithful_of_numbered ?_ ?_ ?_ ?_
  · rw [List.map_map, List.length_map]
    exact hnumbered
  · rwa [List.length_map]
  · exact (delivered_sublist reads receiver).trans hpackets.sublist
  · exact (verified_of_going_on reads receiver).trans hpackets

def maskedLane (number : UInt32) : Lane Rehearsal.Cipher :=
  ⟨some (maskedProtection 0), ⟨number⟩⟩

/-- A message that goes out masked, all of it. -/
def maskedMessage (payload : Bytes) (number : UInt32) (frame : Bytes) :
    Outgoing Rehearsal.Cipher :=
  let wire := frame.map (· ^^^ 32) ++ [7, 8]
  .packet (some (.message payload)) payload number frame wire ⟨wire, some (.ok ())⟩

theorem maskedLane_seals (number : UInt32) (frame : Bytes) :
    (maskedLane number).Seals frame (frame.map (· ^^^ 32) ++ [7, 8]) (maskedLane (number + 1)) :=
  (.intro rfl rfl : (maskedLane number).Seals frame _ (maskedLane number).advance)

theorem maskedMessage_on {payload frame : Bytes} (number : UInt32)
    (hframe : IsFrame payload minBlockSize frame) :
    (maskedMessage payload number frame).On (maskedLane number) (maskedLane (number + 1)) :=
  .packet rfl hframe (maskedLane_seals number frame)
    ⟨List.prefix_rfl, fun _ => rfl, by rintro fault ⟨⟩⟩

def maskedSender : Endpoint Rehearsal.Cipher :=
  { newEndpoint with outbound := maskedLane 0 }

/-- Both messages of a masked sender, padded with zeros. -/
def maskedHistory : List (Outgoing Rehearsal.Cipher) :=
  [maskedMessage [1] 0 ([0, 0, 0, 12, 10, 1] ++ List.replicate 10 0),
    maskedMessage [] 1 ([0, 0, 0, 12, 11] ++ List.replicate 11 0)]

/-- A reader whom somebody sends a copy of the first message, with another tag, before the
second one arrives. -/
def meddledReader : Endpoint Rehearsal.Cipher :=
  { newEndpoint with
    inbound := maskedLane 0
    reads := [.data ([32, 32, 32, 44, 42, 33] ++ List.replicate 10 32 ++ [7, 8] ++
      [32, 32, 32, 44, 42, 33] ++ List.replicate 10 32 ++ [7, 9] ++
      [32, 32, 32, 44, 43] ++ List.replicate 11 32 ++ [7, 8])] }

/-- One frame after the other is sealed, and nothing else happens to the lane. -/
theorem outbound_maskedSender :
    (run [.write [1], .write []] maskedSender).2.outbound = maskedLane 2 := by
  have hready : maskedSender.Ready :=
    ⟨rfl, rfl, rfl, rfl, by rintro _ ⟨⟩, by rintro _ ⟨⟩⟩
  have hframe : frame [1] minBlockSize .zeros =
      (.ok ([0, 0, 0, 12, 10, 1] ++ List.replicate 10 0), (frame [1] minBlockSize .zeros).2) :=
    Prod.ext (by decide +kernel) rfl
  obtain ⟨middle, hfirst, -, hlane, hmiddle⟩ :=
    perform_write hready hframe (maskedLane_seals 0 _)
  obtain rfl : (perform (.write [1]) maskedSender).2 = middle := congrArg Prod.snd hfirst
  have hnext : frame [] minBlockSize (perform (.write [1]) maskedSender).2.padding =
      (.ok ([0, 0, 0, 12, 11] ++ List.replicate 11 0),
        (frame [] minBlockSize (perform (.write [1]) maskedSender).2.padding).2) :=
    Prod.ext (by decide +kernel) rfl
  have hblocks : (perform (.write [1]) maskedSender).2.outbound.blockSize = minBlockSize := by
    rw [hlane]
    rfl
  rw [← hblocks] at hnext
  obtain ⟨last, hsecond, -, hlast, -⟩ :=
    perform_write hmiddle hnext (hlane ▸ maskedLane_seals 1 _)
  rw [run_cons, run_cons, hsecond]
  exact hlast

theorem recounts_maskedHistory :
    Recounts [.write [1], .write []] maskedSender maskedHistory where
  follow := by
    rw [outbound_maskedSender]
    refine .step (maskedMessage_on 0 ?_) (.step (maskedMessage_on 1 ?_) (.done _))
    · exact .intro (List.replicate 10 0) (by decide) (by decide)
    · exact .intro (List.replicate 11 0) (by decide) (by decide)
  octets := by decide +kernel
  answers := by decide +kernel
  refused := by
    intro outgoing hmem answer hanswer hrefused
    simp only [maskedHistory, List.mem_cons, List.not_mem_nil, or_false] at hmem
    rcases hmem with rfl | rfl <;> cases hanswer <;> simp at hrefused
  under := by
    intro outgoing hmem request hunder
    simp only [maskedHistory, List.mem_cons, List.not_mem_nil, or_false] at hmem
    rcases hmem with rfl | rfl <;> cases hunder.1

theorem run_faithful_meddled :
    Faithful 0 [⟨[1], 0⟩, ⟨[], 1⟩] [.ok (.packet (some ⟨[1], 0⟩)), .error (.tagMismatch 1),
      .ok (.packet (some ⟨[], 1⟩))] := by
  have hresults : (run [.read, .read, .read] meddledReader).1 =
      [.ok (.packet (some ⟨[1], 0⟩)), .error (.tagMismatch 1),
        .ok (.packet (some ⟨[], 1⟩))] := by
    decide +kernel
  have hunforged : verifiedOfRun [.read, .read, .read] meddledReader ⊆
      (Outgoing.emissions maskedHistory).map Emission.signed := by
    decide +kernel
  rw [← hresults]
  exact run_faithful recounts_maskedHistory (by decide) rfl hunforged

end Endpoint

end PacketLayer
