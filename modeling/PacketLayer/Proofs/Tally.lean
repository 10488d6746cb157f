import PacketLayer.Proofs.Channel
import PacketLayer.Proofs.Rekey.Totals
import PacketLayer.Proofs.RoundTrip
import PacketLayer.Proofs.Trace

/-! # What is counted

The counts of a direction are those of the protection in use: of the frames that were sent
whole, or of the packets that were verified, each with its tag. An operation that fails adds
nothing to them, save that a packet counts which is verified and then refused because the peer
ignores a request for new keys.
-/

namespace PacketLayer

variable {C : Type}

namespace Deed

/-- A deed brings a protection of the direction into use: an outbound one at once, an inbound
one when it is no longer parked or never was. -/
def installs : Direction → Deed C → Bool
  | .outbound, rekeyed .. => true
  | .inbound, activated _ | .inbound, acted _ .idle (.installInbound _) => true
  | _, _ => false

/-- The octets that count with a deed: a frame that is sent whole, or a verified packet
together with its tag. -/
def length? : Direction → Deed C → Option Nat
  | .outbound, ended _ frameLength (.ok ()) => frameLength
  | .inbound, verified lane _ header _ => some (header.frameLength + lane.tagSize)
  | _, _ => none

/-- The message that is sent for a request. -/
def sent? : Deed C → Option Bytes
  | ended (some (.message payload)) _ (.ok ()) => some payload
  | _ => none

end Deed

/-- The lengths that count in a direction, since its protection came into use. -/
def lengthsSince (direction : Direction) (deeds : List (Deed C)) : List Nat :=
  (deeds.rtakeWhile fun deed => !deed.installs direction).filterMap (Deed.length? direction)

theorem lengthsSince_concat (direction : Direction) (deeds : List (Deed C)) (deed : Deed C) :
    lengthsSince direction (deeds ++ [deed]) =
      if deed.installs direction then []
      else lengthsSince direction deeds ++ (deed.length? direction).toList := by
  unfold lengthsSince
  rw [List.rtakeWhile_concat]
  cases deed.installs direction <;> cases hlength : deed.length? direction <;> simp [hlength]

/-- A deed means for the policy what it adds to the lengths. -/
theorem carried_append_rekeySteps (direction : Direction) (steps : List Rekey.Step)
    (deed : Deed C) :
    Rekey.carried direction (steps ++ deed.rekeySteps) =
      if deed.installs direction then []
      else Rekey.carried direction steps ++
        ((deed.length? direction).map UInt64.ofNat).toList := by
  have hstill : Rekey.carried direction (steps ++ []) =
      Rekey.carried direction steps ++ [] := by
    rw [List.append_nil, List.append_nil]
  cases deed with
  | ended request frameLength result =>
      rcases result with fault | ⟨⟨⟩⟩
      · cases direction <;> exact hstill
      · cases frameLength with
        | none => cases direction <;> exact hstill
        | some length =>
            refine (Rekey.carried_concat direction steps (.sent (UInt64.ofNat length))).trans ?_
            cases direction <;> rfl
  | rekeyed origin protection =>
      refine (Rekey.carried_concat direction steps .outboundInstalled).trans ?_
      cases direction <;> rfl
  | activated protection =>
      refine (Rekey.carried_concat direction steps .inboundInstalled).trans ?_
      cases direction <;> rfl
  | acted origin reader action =>
      cases action with
      | installInbound protection =>
          cases reader with
          | idle =>
              refine (Rekey.carried_concat direction steps .inboundInstalled).trans ?_
              cases direction <;> rfl
          | busy => cases direction <;> exact hstill
      | close | setKeepAlive => cases reader <;> cases direction <;> exact hstill
  | verified lane octets header frame =>
      refine (Rekey.carried_concat direction steps
        (.received (UInt64.ofNat (header.frameLength + lane.tagSize)))).trans ?_
      cases direction <;> rfl
  | _ => cases direction <;> exact hstill

theorem carried_flatMap_rekeySteps (direction : Direction) (deeds : List (Deed C)) :
    Rekey.carried direction (deeds.flatMap Deed.rekeySteps) =
      (lengthsSince direction deeds).map UInt64.ofNat := by
  induction deeds using List.reverseRecOn with
  | nil => rfl
  | append_singleton deeds deed ih =>
      rw [List.flatMap_append, List.flatMap_singleton, carried_append_rekeySteps, ih,
        lengthsSince_concat]
      split
      · rfl
      · cases deed.length? direction <;> simp

/-- The counts of lengths, each count as far as it goes. -/
structure Rekey.Traffic.Counts (traffic : Traffic) (lengths : List Nat) : Prop where
  packets : traffic.packets.toNat = min lengths.length (2 ^ 64 - 1)
  /-- A length is a 64-bit number. -/
  bytes : (∀ length ∈ lengths, length < 2 ^ 64) →
    traffic.bytes.toNat = min lengths.sum (2 ^ 64 - 1)

theorem Rekey.Traffic.counts_ofPackets (lengths : List Nat) :
    (ofPackets (lengths.map UInt64.ofNat)).Counts lengths := by
  refine ⟨?_, fun hfit => ?_⟩
  · rw [toNat_packets_ofPackets, List.length_map]
  · rw [toNat_bytes_ofPackets, List.map_map]
    congr 2
    have hsame : ∀ length ∈ lengths, (UInt64.toNat ∘ UInt64.ofNat) length = length :=
      fun length hmem => UInt64.toNat_ofNat_of_lt' (hfit length hmem)
    rw [List.map_congr_left hsame, List.map_id']

variable [BlockCipher C]

/-- The counts of a policy are those of the deeds since the protections came into use. -/
theorem Course.counts_traffic {s next : Stage C} {deeds : List (Deed C)}
    (hcourse : Course s deeds next) {limits : Rekey.Limits}
    (hfresh : s.endpoint.rekey = .fresh limits) (direction : Direction) :
    (next.endpoint.rekey.traffic direction).Counts (lengthsSince direction deeds) := by
  rw [hcourse.rekey_eq, hfresh, Rekey.Policy.traffic_after, carried_flatMap_rekeySteps]
  exact Rekey.Traffic.counts_ofPackets _

/-! ## Frames under way -/

/-- A packet with a frame of some length was sealed for a request, and since then the stream has
accepted its octets but for the rest. -/
def Loaded (deeds : List (Deed C)) (request : Option Request) (length : Nat) (rest : Bytes) :
    Prop :=
  ∃ earlier payload blockSize frame wire between,
    deeds = earlier ++ .sealed request payload frame wire :: between ∧
      Request.Asks request payload ∧ IsFrame payload blockSize frame ∧ frame.length = length ∧
      wire = between.flatMap Deed.piece ++ rest

/-- What is under way as a packet was loaded as one. -/
def Laden (deeds : List (Deed C)) (s : Stage C) : Prop :=
  ∀ request rest length, s.sending = some ⟨request, rest, some length⟩ →
    Loaded deeds request length rest

omit [BlockCipher C] in
theorem Loaded.snoc {deeds : List (Deed C)} {request : Option Request} {length : Nat}
    {rest left : Bytes} (hloaded : Loaded deeds request length rest) (deed : Deed C)
    (hpiece : rest = deed.piece ++ left) : Loaded (deeds ++ [deed]) request length left := by
  obtain ⟨earlier, payload, blockSize, frame, wire, between, rfl, hasks, hframe, hlength, hwire⟩ :=
    hloaded
  refine ⟨earlier, payload, blockSize, frame, wire, between ++ [deed], ?_, hasks, hframe, hlength,
    ?_⟩
  · rw [List.append_assoc, List.cons_append]
  · rw [hwire, hpiece, List.flatMap_append, List.flatMap_singleton, List.append_assoc]

theorem Laden.snoc {deeds : List (Deed C)} {s next : Stage C} {deed : Deed C}
    (hladen : Laden deeds s) (hdoes : Does s deed next) : Laden (deeds ++ [deed]) next := by
  have hstill (hsending : next.sending = s.sending) (hpiece : deed.piece = []) :
      Laden (deeds ++ [deed]) next := by
    intro request rest length hnext
    exact (hladen request rest length (hsending ▸ hnext)).snoc deed (by rw [hpiece]; rfl)
  cases hdoes with
  | @sealed drafted request payload frame wire lane _ hdrafts hframe _ =>
      rintro _ _ _ ⟨⟩
      exact ⟨deeds, payload, _, frame, wire, [], rfl, hdrafts.asks, isFrame_of_frame hframe, rfl,
        rfl⟩
  | lined | completed | stopped => rintro _ _ _ ⟨⟩
  | carried _ hsending =>
      rintro request rest length ⟨⟩
      exact (hladen _ _ _ hsending).snoc _ rfl
  | declined _ hdrafts => cases hdrafts <;> exact hstill rfl rfl
  | acted hmeets => cases hmeets <;> exact hstill rfl rfl
  | supplied _ hsupplies => cases hsupplies <;> exact hstill rfl rfl
  | _ => exact hstill rfl rfl

theorem Course.laden {earlier deeds : List (Deed C)} {s next : Stage C}
    (hcourse : Course s deeds next) (hladen : Laden earlier s) : Laden (earlier ++ deeds) next := by
  induction hcourse generalizing earlier with
  | done s => rwa [List.append_nil]
  | step hdoes _ ih =>
      rw [List.append_cons]
      exact ih (hladen.snoc hdoes)

/-- A frame is sent whole when the stream has accepted all of its packet. -/
theorem Course.loaded_of_ended {s next : Stage C} {before after : List (Deed C)}
    {request : Option Request} {length : Nat}
    (hcourse : Course s (before ++ .ended request (some length) (.ok ()) :: after) next)
    (hfree : s.sending = none) : Loaded before request length [] := by
  obtain ⟨here, there, hbefore, hended, -⟩ := hcourse.of_mem_split
  have hladen : Laden ([] : List (Deed C)) s := by
    intro request rest length hsending
    rw [hfree] at hsending
    cases hsending
  cases hended with
  | completed _ hsending => exact hbefore.laden hladen request [] length hsending

omit [BlockCipher C] in
theorem Loaded.length_le {deeds : List (Deed C)} {request : Option Request} {length : Nat}
    {rest : Bytes} (hloaded : Loaded deeds request length rest) :
    length ≤ 4 + maxPacketLength := by
  obtain ⟨-, payload, blockSize, frame, -, -, -, -, hframe, rfl, -⟩ := hloaded
  rw [hframe.length_eq]
  obtain ⟨-, -, hfits⟩ := hframe
  exact Nat.add_le_add_left hfits 4

omit [BlockCipher C] in
theorem ended_of_mem_lengthsSince {deeds : List (Deed C)} {length : Nat}
    (hmem : length ∈ lengthsSince .outbound deeds) :
    ∃ request, .ended request (some length) (.ok ()) ∈ deeds := by
  obtain ⟨deed, hdeed, hlength⟩ := List.mem_filterMap.mp hmem
  have hdeed := (List.rtakeWhile_suffix _ deeds).subset hdeed
  cases deed with
  | ended request frameLength result =>
      rcases result with fault | ⟨⟨⟩⟩
      · cases hlength
      · obtain rfl : frameLength = some length := hlength
        exact ⟨request, hdeed⟩
  | _ => cases hlength

/-! ## What operations contribute -/

def Tiding.sent? : Tiding → Option Bytes
  | answered ⟨.message payload, _, .ok ()⟩ => some payload
  | _ => none

omit [BlockCipher C] in
theorem Deed.sent?_eq (deed : Deed C) : deed.sent? = deed.tiding.bind Tiding.sent? := by
  cases deed with
  | turnedAway request => cases request <;> rfl
  | declined request payload fault => rcases request with _ | _ | _ <;> rfl
  | ended request frameLength result =>
      rcases request with _ | _ | _ <;> rcases result with fault | ⟨⟨⟩⟩ <;> rfl
  | _ => rfl

namespace Endpoint

/-- The message that an operation sends, if it is asked to send one and succeeds. -/
def sentBy : Operation (Protection C) → Except Fault Reply → List Bytes
  | .write payload, .ok _ => [payload]
  | _, _ => []

/-- What an operation contributes to what counts: the message that it sends, and a packet that
it delivers or refuses because the peer ignores a request for new keys. -/
structure Contributes (operation : Operation (Protection C)) (e : Endpoint C)
    (deeds : List (Deed C)) : Prop where
  sent : deeds.filterMap Deed.sent? = sentBy operation (perform operation e).1
  verified : Judged (deeds.filterMap Deed.verified?) (perform operation e).1

theorem sent_tidingsOf (operation : Operation (Protection C)) (e : Endpoint C) :
    (tidingsOf operation e).filterMap Tiding.sent? = sentBy operation (perform operation e).1 := by
  cases operation with
  | write payload =>
      rw [tidingsOf]
      cases (perform (.write payload) e).1 <;> rfl
  | read =>
      rw [tidingsOf, tidingsOfRead]
      split
      · rfl
      · cases verification e.countOperation <;> rfl
  | _ => rfl

theorem contributes_of_tidings {operation : Operation (Protection C)} {e : Endpoint C}
    {deeds : List (Deed C)} (htidings : deeds.filterMap Deed.tiding = tidingsOf operation e) :
    Contributes operation e deeds := by
  constructor
  · rw [← sent_tidingsOf, ← htidings, List.filterMap_filterMap]
    exact List.filterMap_congr fun deed _ => deed.sent?_eq
  · have hjudged := judged_perform operation e
    rwa [← htidings, List.filterMap_filterMap] at hjudged

/-- The deeds of each operation follow those of the operations before it. -/
theorem Chronicle.contributes {before after : List (Operation (Protection C))}
    {operation : Operation (Protection C)} {e : Endpoint C} {deeds : List (Deed C)}
    (hchronicle : Chronicle (before ++ operation :: after) e deeds) :
    ∃ earlier own later, deeds = earlier ++ .asked operation :: (own ++ later) ∧
      earlier.filterMap Deed.tiding = tidingsOfRun before e ∧
      Contributes operation (run before e).2 own := by
  induction before generalizing e deeds with
  | nil =>
      obtain - | @⟨_, _, _, own, later, -, htidings, -, -⟩ := hchronicle
      exact ⟨[], own, later, rfl, rfl, contributes_of_tidings htidings⟩
  | cons first before ih =>
      obtain - | @⟨_, _, _, opening, _, -, htidings, -, hrest⟩ := hchronicle
      obtain ⟨earlier, own, later, rfl, hearlier, hown⟩ := ih hrest
      refine ⟨.asked first :: (opening ++ earlier), own, later, ?_, ?_, hown⟩
      · simp
      · rw [List.filterMap_cons_none rfl, List.filterMap_append, htidings, hearlier, tidingsOfRun]

/-- The counts of an endpoint after operations, by the deeds of these. Whatever was sent was
sealed and accepted by the stream, whatever was verified is genuine, and new keys came as they
were installed. -/
structure Tallied (operations : List (Operation (Protection C))) (e : Endpoint C)
    (deeds : List (Deed C)) : Prop where
  accords : Accords operations e deeds
  sent : (run operations e).2.rekey.sent.Counts (lengthsSince .outbound deeds)
  received : (run operations e).2.rekey.received.Counts (lengthsSince .inbound deeds)
  loaded : ∀ before request length after,
    deeds = before ++ .ended request (some length) (.ok ()) :: after →
      Loaded before request length []
  fits : ∀ length ∈ lengthsSince .outbound deeds, length ≤ 4 + maxPacketLength
  genuine : ∀ lane octets header frame, .verified lane octets header frame ∈ deeds →
    frame.length = header.frameLength ∧ ∃ next, lane.Genuine octets header frame next
  contributes : ∀ before operation after, operations = before ++ operation :: after →
    ∃ earlier own later, deeds = earlier ++ .asked operation :: (own ++ later) ∧
      earlier.filterMap Deed.tiding = tidingsOfRun before e ∧
      Contributes operation (run before e).2 own

theorem Chronicle.tallied {config : Config} {padding noise : ByteSource} {e : Endpoint C}
    (hmade : make config padding noise = .ok e) {operations : List (Operation (Protection C))}
    {deeds : List (Deed C)} (hchronicle : Chronicle operations e deeds) :
    Tallied operations e deeds := by
  have hcourse := hchronicle.course
  have hfresh : e.rekey = .fresh config.rekey := congrArg Watch.rekey (watch_make hmade)
  have hfree : (e.during .free).sending = none := by
    change e.occupying = none
    rw [occupying, (make_eq hmade).2.2.2.2.1]
    rfl
  refine ⟨hchronicle.accords, hcourse.counts_traffic hfresh .outbound,
    hcourse.counts_traffic hfresh .inbound, ?_, ?_, ?_, ?_⟩
  · rintro before request length after rfl
    exact hcourse.loaded_of_ended hfree
  · intro length hmem
    obtain ⟨request, hended⟩ := ended_of_mem_lengthsSince hmem
    obtain ⟨before, after, rfl⟩ := List.append_of_mem hended
    exact (hcourse.loaded_of_ended hfree).length_le
  · intro lane octets header frame hmem
    obtain ⟨before, after, rfl⟩ := List.append_of_mem hmem
    obtain ⟨here, there, -, hverified, -⟩ := hcourse.of_mem_split
    cases hverified with
    | verified _ _ _ hgenuine => exact ⟨hgenuine.unfolds.length_eq, _, hgenuine⟩
  · rintro before operation after rfl
    exact hchronicle.contributes

/-- Whatever is done with a new endpoint, it counts what it has sent and verified since its
protections came into use, to the octet and the packet. Whichever deeds the run may consist of,
protections come into use with them as operations and scripts install them, and never else. -/
theorem run_tallied {config : Config} {padding noise : ByteSource} {e : Endpoint C}
    (hmade : make config padding noise = .ok e) (operations : List (Operation (Protection C))) :
    (∃ deeds, Chronicle operations e deeds) ∧
      ∀ deeds, Chronicle operations e deeds → Tallied operations e deeds :=
  ⟨exists_chronicle operations e, fun _ hchronicle => hchronicle.tallied hmade⟩

/-- One message is sent before new keys and one with them, and another one breaks off after
three octets. A masked packet is verified, and octets in the clear after it are not. -/
def counting : List (Operation (Protection Rehearsal.Cipher)) :=
  [.write [1], .installOutbound (maskedProtection 0), .write [2],
    .scriptWrites [.accept 3, .accept 0], .write [3], .installInbound (maskedProtection 0),
    .feed [.data (maskedOctets ++ [0, 0, 0, 12, 10, 1, 0, 0]), .eof], .read, .read]

theorem run_tallied_counting :
    make {} .zeros .zeros = .ok newEndpoint ∧
      (run counting newEndpoint).2.rekey.sent = ⟨16, 1⟩ ∧
      (run counting newEndpoint).2.rekey.received = ⟨18, 1⟩ ∧
      (∃ deeds, Chronicle counting newEndpoint deeds) ∧
      ∀ deeds, Chronicle counting newEndpoint deeds → Tallied counting newEndpoint deeds := by
  have hmade : make {} .zeros .zeros = .ok newEndpoint := rfl
  exact ⟨hmade, by decide +kernel, by decide +kernel, run_tallied hmade counting⟩

end Endpoint

end PacketLayer
