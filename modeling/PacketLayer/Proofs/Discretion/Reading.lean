import PacketLayer.Proofs.Closing.Reading
import PacketLayer.Proofs.Discretion.Receiving

/-! # Discretion in reading

Two readers that are akin each find a packet on their streams that their lanes call genuine,
with payloads of one length and label. They take it in the same stages, note the same, and
stay akin, whether or not all of it has come.
-/

namespace PacketLayer

variable {C : Type} [BlockCipher C]

/-- The stages in which a genuine packet is taken, as far as its octets have come. -/
structure Lane.Stages (lane : Lane C) (octets : Bytes) (header : Header) (first rest : Bytes)
    (middle last : Lane C) : Prop where
  block : lane.apply (octets.take lane.blockSize) = (.ok first, middle)
  length_eq : first.length = lane.blockSize
  parse : Header.parse first lane.blockSize = .ok header
  body : header.frameLength ≤ octets.length →
    middle.apply ((octets.take header.frameLength).drop lane.blockSize) = (.ok rest, last)
  tag : ∃ tag, last.sign (first ++ rest) = .ok tag ∧
    (header.frameLength + last.tagSize ≤ octets.length →
      (octets.drop header.frameLength).take last.tagSize = tag)

/-- A genuine packet is taken in these stages, also when not all of it has come. -/
theorem Lane.Genuine.stages {lane last : Lane C} {whole frame : Bytes} {header : Header}
    (hgenuine : lane.Genuine whole header frame last) {octets : Bytes} (hpart : octets <+: whole)
    (henough : lane.blockSize ≤ octets.length) :
    ∃ first rest middle, frame = first ++ rest ∧
      lane.Stages octets header first rest middle last := by
  obtain ⟨more, rfl⟩ := hpart
  obtain ⟨hunfolds, -, hsigned⟩ := hgenuine
  obtain ⟨-, htagSize, -, hsign⟩ := hunfolds.lane_eq
  obtain @⟨first, rest, middle, _, hopens, -, hrest⟩ := hunfolds
  have hparse : Header.parse first lane.blockSize = .ok (Header.ofBlock first) :=
    (Header.parse_eq_ok_iff lane.plaintextBlockSize_le hopens.length_eq.ge).mpr ⟨rfl, hopens.formed⟩
  have hblock := hopens.deciphers
  rw [List.take_append_of_le_length henough] at hblock
  refine ⟨first, rest, middle, rfl, hblock, hopens.length_eq, hparse, fun hcome => ?_, _,
    (hsign _).trans hsigned, fun hcome => ?_⟩
  · rwa [List.take_append_of_le_length hcome] at hrest
  · rw [htagSize] at hcome ⊢
    rw [List.drop_append_of_le_length (by omega), List.take_append_of_le_length]
    rw [List.length_drop]
    omega

namespace Endpoint

variable {octets others : Bytes} {e other : Endpoint C}

theorem Akin.relane (hakin : Akin octets others e other) {lane laneOther : Lane C}
    (hlanes : lane.Akin laneOther) :
    Akin octets others { e with inbound := lane } { other with inbound := laneOther } := by
  obtain ⟨hidden, hsilent, hhidden⟩ := hakin
  exact .intro { hidden with inbound := laneOther } hsilent { hhidden with inbound := hlanes }

/-- Both endpoints come through a stage that takes a number of octets, or both end in it. -/
inductive Clears {α : Type} (octets others : Bytes) (count : Nat) (lane laneOther : Lane C)
    (yes yesOther no : α) : Except Fault α × Endpoint C → Except Fault α × Endpoint C → Prop where
  | done {next nextOther : Endpoint C} (henough : count ≤ octets.length)
      (hinbound : next.inbound = lane) (hinboundOther : nextOther.inbound = laneOther)
      (hakin : Akin (octets.drop count) (others.drop count) next nextOther) :
      Clears octets others count lane laneOther yes yesOther no (.ok yes, next)
        (.ok yesOther, nextOther)
  | ended (taken : Nat) {next nextOther : Endpoint C}
      (hakin : Akin (octets.drop taken) (others.drop taken) next nextOther) :
      Clears octets others count lane laneOther yes yesOther no (.ok no, next) (.ok no, nextOther)
  | failed (taken : Nat) {next nextOther : Endpoint C} (fault : Fault)
      (hakin : Akin (octets.drop taken) (others.drop taken) next nextOther) :
      Clears octets others count lane laneOther yes yesOther no (.error fault, next)
        (.error fault, nextOther)

namespace Clears

variable {α β : Type} {count : Nat} {lane laneOther : Lane C} {yes yesOther no : α}
  {last lastOther : Lane C} {more : Nat} {final finalOther stop : β}

/-- Octets that were taken before count as well. -/
theorem after (hcount : count ≤ octets.length)
    {outcome outcomeOther : Except Fault β × Endpoint C}
    (hclears : Clears (octets.drop count) (others.drop count) more last lastOther final finalOther
      stop outcome outcomeOther) :
    Clears octets others (count + more) last lastOther final finalOther stop outcome
      outcomeOther := by
  cases hclears with
  | done henough hinbound hinboundOther hakin =>
      rw [List.drop_drop, List.drop_drop] at hakin
      rw [List.length_drop] at henough
      exact .done (by omega) hinbound hinboundOther hakin
  | ended taken hakin =>
      rw [List.drop_drop, List.drop_drop] at hakin
      exact .ended _ hakin
  | failed taken fault hakin =>
      rw [List.drop_drop, List.drop_drop] at hakin
      exact .failed _ fault hakin

/-- A stage that wants more octets than are to come has no result. -/
theorem of_excess (hexcess : octets.length < count)
    {outcome outcomeOther : Except Fault α × Endpoint C}
    (hclears : Clears octets others count lane laneOther yes yesOther no outcome outcomeOther)
    (span : Nat) :
    Clears octets others span lane laneOther yes yesOther no outcome outcomeOther := by
  cases hclears with
  | done henough => exact absurd henough (Nat.not_le.mpr hexcess)
  | ended taken hakin => exact .ended taken hakin
  | failed taken fault hakin => exact .failed taken fault hakin

/-- One stage after another. Where the first ends without a result, the second has none
either. -/
theorem bind {m n : Act C α} {f g : α → Act C β}
    (hm : Clears octets others count lane laneOther yes yesOther no (m e) (n other))
    (hstop : f no = pure stop) (hstopOther : g no = pure stop)
    (hnext : ∀ next nextOther, count ≤ octets.length → next.inbound = lane →
      nextOther.inbound = laneOther →
      Akin (octets.drop count) (others.drop count) next nextOther →
      Clears (octets.drop count) (others.drop count) more last lastOther final finalOther stop
        (f yes next) (g yesOther nextOther)) :
    Clears octets others (count + more) last lastOther final finalOther stop ((m >>= f) e)
      ((n >>= g) other) := by
  rcases hfirst : m e with ⟨result, middle⟩
  rcases hsecond : n other with ⟨resultOther, middleOther⟩
  rw [hfirst, hsecond] at hm
  cases hm with
  | done henough hinbound hinboundOther hakin =>
      rw [Act.bind_of_ok hfirst, Act.bind_of_ok hsecond]
      exact (hnext _ _ henough hinbound hinboundOther hakin).after henough
  | ended taken hakin =>
      rw [Act.bind_of_ok hfirst, Act.bind_of_ok hsecond, hstop, hstopOther]
      exact .ended taken hakin
  | failed taken fault hakin =>
      rw [Act.bind_of_error hfirst, Act.bind_of_error hsecond]
      exact .failed taken fault hakin

end Clears

theorem clears_fill (raw rawOther : Bytes) (count : Nat) (hakin : Akin octets others e other) :
    Clears octets others count e.inbound other.inbound (some (raw ++ octets.take count))
      (some (rawOther ++ others.take count)) none (fill raw count e)
      (fill rawOther count other) := by
  have hcollected := collected_fill raw rawOther count hakin
  have hinbound := inbound_fill raw count e
  have hinboundOther := inbound_fill rawOther count other
  generalize fill raw count e = outcome at hcollected hinbound ⊢
  generalize fill rawOther count other = outcomeOther at hcollected hinboundOther ⊢
  cases hcollected with
  | complete taken hcount henough hnext =>
      subst hcount
      exact .done henough hinbound hinboundOther hnext
  | nothing taken hnext => exact .ended taken hnext
  | failed taken fault hnext => exact .failed taken fault hnext

/-- Right tags are read alike. -/
theorem clears_authenticate {frame frameOther tag tagOther : Bytes}
    (hakin : Akin octets others e other) (hsign : e.inbound.sign frame = .ok tag)
    (hsignOther : other.inbound.sign frameOther = .ok tagOther)
    (htag : e.inbound.tagSize ≤ octets.length → octets.take e.inbound.tagSize = tag)
    (htagOther : e.inbound.tagSize ≤ octets.length → others.take e.inbound.tagSize = tagOther) :
    Clears octets others e.inbound.tagSize e.inbound other.inbound true true false
      (authenticate frame e) (authenticate frameOther other) := by
  have hsize : e.inbound.tagSize = other.inbound.tagSize := hakin.hidden.inbound.tagSize_eq
  unfold authenticate
  rw [Act.ask_bind, Act.ask_bind, id, id, hsign, hsignOther, Act.ofExcept_ok_bind,
    Act.ofExcept_ok_bind, ← hsize]
  change Clears octets others (e.inbound.tagSize + 0) _ _ _ _ _ _ _
  refine .bind (clears_fill [] [] _ hakin) rfl rfl
    fun next nextOther henough hinbound hinboundOther hnext => ?_
  have hverify (tag : Bytes) (next : Endpoint C) :
      (verify tag tag >>= fun _ => (pure true : Act C Bool)) next = (.ok true, next) :=
    Act.bind_of_ok (if_pos rfl)
  rw [htag henough, htagOther henough]
  dsimp only [List.nil_append]
  rw [hverify, hverify]
  exact .done (Nat.zero_le _) hinbound hinboundOther hnext

theorem clears_checkFrame {frame frameOther tag tagOther : Bytes} (header : Header)
    (rest restOther : Bytes) (hakin : Akin octets others e other)
    (hsign : e.inbound.sign frame = .ok tag)
    (hsignOther : other.inbound.sign frameOther = .ok tagOther)
    (htag : e.inbound.tagSize ≤ octets.length → octets.take e.inbound.tagSize = tag)
    (htagOther : e.inbound.tagSize ≤ octets.length → others.take e.inbound.tagSize = tagOther) :
    Clears octets others e.inbound.tagSize e.inbound other.inbound (some (header, frame))
      (some (header, frameOther)) none (checkFrame header frame rest e)
      (checkFrame header frameOther restOther other) := by
  change Clears octets others (e.inbound.tagSize + 0) _ _ _ _ _ _ _
  refine .bind (clears_authenticate hakin hsign hsignOther htag htagOther) rfl rfl
    fun next nextOther henough hinbound hinboundOther hnext => ?_
  exact .done (Nat.zero_le _) ((inbound_dump _ _ next).trans hinbound)
    ((inbound_dump _ _ nextOther).trans hinboundOther) (hnext.dump .inbound rest restOther)

theorem Akin.decipher (hakin : Akin octets others e other) {data dataOther : Bytes}
    {result resultOther : Except Fault Bytes} {lane laneOther : Lane C}
    (happly : e.inbound.apply data = (result, lane))
    (happlyOther : other.inbound.apply dataOther = (resultOther, laneOther)) :
    Endpoint.decipher data e = (result, { e with inbound := lane }) ∧
      Endpoint.decipher dataOther other = (resultOther, { other with inbound := laneOther }) ∧
      Akin octets others { e with inbound := lane } { other with inbound := laneOther } := by
  have hlanes := hakin.hidden.inbound.apply data dataOther
  change (e.inbound.apply data).2.Akin (other.inbound.apply dataOther).2 at hlanes
  rw [happly, happlyOther] at hlanes
  refine ⟨?_, ?_, hakin.relane hlanes⟩
  · simp [Endpoint.decipher, happly]
  · simp [Endpoint.decipher, happlyOther]

omit [BlockCipher C] in
/-- What is at hand behind the first block, and what is to come. -/
theorem body_of_raw {raw : Bytes} {blockSize frameLength : Nat} (more : Bytes)
    (hraw : blockSize ≤ raw.length) (hlong : raw.length ≤ frameLength) :
    raw.drop blockSize ++ more.take (frameLength - raw.length) =
        ((raw ++ more).take frameLength).drop blockSize ∧
      (raw ++ more).drop frameLength = more.drop (frameLength - raw.length) := by
  have hlength : blockSize + (raw.drop blockSize).length = raw.length := by
    rw [List.length_drop]
    omega
  obtain ⟨hbody, hbehind⟩ := take_drop_of_carried (List.drop_append_of_le_length hraw)
    (hlength ▸ hlong : blockSize + (raw.drop blockSize).length ≤ frameLength)
  rw [hlength] at hbody hbehind
  exact ⟨hbody.symm, hbehind⟩

/-- What follows the first block is taken alike. -/
theorem clears_takeRest {raw rawOther first firstOther rest restOther : Bytes} {header : Header}
    {lane laneOther last lastOther : Lane C} (hakin : Akin octets others e other)
    (hstages : lane.Stages (raw ++ octets) header first rest e.inbound last)
    (hstagesOther : laneOther.Stages (rawOther ++ others) header firstOther restOther other.inbound
      lastOther)
    (hlength : raw.length = rawOther.length) (hraw : lane.blockSize ≤ raw.length)
    (hrawOther : laneOther.blockSize ≤ rawOther.length) (hlong : raw.length ≤ header.frameLength) :
    Clears octets others (header.frameLength - raw.length + last.tagSize) last lastOther
      (some (header, first ++ rest)) (some (header, firstOther ++ restOther)) none
      (takeRest header first (raw.drop lane.blockSize) e)
      (takeRest header firstOther (rawOther.drop laneOther.blockSize) other) := by
  have hcount : first.length + (raw.drop lane.blockSize).length = raw.length := by
    rw [hstages.length_eq, List.length_drop]
    omega
  have hcountOther : firstOther.length + (rawOther.drop laneOther.blockSize).length =
      raw.length := by
    rw [hstagesOther.length_eq, List.length_drop]
    omega
  unfold takeRest
  rw [hcount, hcountOther]
  refine .bind (clears_fill _ _ _ hakin) rfl rfl
    fun next nextOther henough hinbound hinboundOther hnext => ?_
  obtain ⟨hbody, hbehind⟩ := body_of_raw octets hraw hlong
  obtain ⟨hbodyOther, hbehindOther⟩ := body_of_raw others hrawOther (hlength ▸ hlong)
  have hcome : header.frameLength ≤ (raw ++ octets).length := by
    rw [List.length_append]
    omega
  have hcomeOther : header.frameLength ≤ (rawOther ++ others).length := by
    rw [List.length_append, ← hlength, ← hakin.length_eq]
    omega
  have happly := hstages.body hcome
  have happlyOther := hstagesOther.body hcomeOther
  rw [← hbody, ← hinbound] at happly
  rw [← hbodyOther, ← hinboundOther, ← hlength] at happlyOther
  obtain ⟨hdecipher, hdecipherOther, hlast⟩ := hnext.decipher happly happlyOther
  dsimp only
  rw [Act.bind_of_ok hdecipher, Act.bind_of_ok hdecipherOther]
  obtain ⟨tag, hsign, htag⟩ := hstages.tag
  obtain ⟨tagOther, hsignOther, htagOther⟩ := hstagesOther.tag
  have hsize : last.tagSize = lastOther.tagSize := hlast.hidden.inbound.tagSize_eq
  rw [hbehind] at htag
  rw [hbehindOther, ← hlength, ← hsize] at htagOther
  have hlengths := hakin.length_eq
  refine clears_checkFrame header rest restOther hlast hsign hsignOther (fun hleft => htag ?_)
    (fun hleft => htagOther ?_)
  all_goals
    rw [List.length_append]
    rw [List.length_drop] at hleft
    dsimp only at hleft
    omega

/-- Two readers that have a first block at hand each take a genuine packet alike. They give
it up if more is at hand than its frame. -/
theorem clears_takeFrom {raw rawOther frame frameOther : Bytes} {header : Header} {count : Nat}
    {last lastOther : Lane C} (hakin : Akin octets others e other)
    (hlength : raw.length = rawOther.length) (hraw : e.inbound.blockSize ≤ raw.length)
    (hcount : raw.length ≤ header.frameLength →
      raw.length + count = header.frameLength + last.tagSize)
    {whole wholeOther : Bytes} (hpart : raw ++ octets <+: whole)
    (hgenuine : e.inbound.Genuine whole header frame last)
    (hpartOther : rawOther ++ others <+: wholeOther)
    (hgenuineOther : other.inbound.Genuine wholeOther header frameOther lastOther) :
    Clears octets others count last lastOther (some (header, frame))
      (some (header, frameOther)) none (takeFrom raw e) (takeFrom rawOther other) := by
  have hsize : e.inbound.blockSize = other.inbound.blockSize := hakin.hidden.inbound.blockSize_eq
  have hrawOther : other.inbound.blockSize ≤ rawOther.length := hsize ▸ hlength ▸ hraw
  obtain ⟨first, rest, middle, rfl, hstages⟩ := hgenuine.stages hpart (by
    rw [List.length_append]
    omega)
  obtain ⟨firstOther, restOther, middleOther, rfl, hstagesOther⟩ := hgenuineOther.stages
    hpartOther (by
      rw [List.length_append]
      omega)
  have hblock := hstages.block
  have hblockOther := hstagesOther.block
  rw [List.take_append_of_le_length hraw] at hblock
  rw [List.take_append_of_le_length hrawOther] at hblockOther
  obtain ⟨hdecipher, hdecipherOther, hopened⟩ := hakin.decipher hblock hblockOther
  have hdumped := hopened.dump .inbound first firstOther
  unfold takeFrom
  rw [Act.ask_bind, Act.ask_bind, Act.bind_of_ok hdecipher, Act.bind_of_ok hdecipherOther,
    Act.update_bind, Act.update_bind, hstages.parse, hstagesOther.parse, Act.ofExcept_ok_bind,
    Act.ofExcept_ok_bind, ← hlength]
  split
  · exact .failed 0 _ hdumped
  next hlong =>
    have hfits := Nat.le_of_not_lt hlong
    obtain rfl : count = header.frameLength - raw.length + last.tagSize := by
      have hspan := hcount hfits
      omega
    refine clears_takeRest hdumped ?_ ?_ hlength hraw hrawOther hfits
    · rw [inbound_dump]
      exact hstages
    · rw [inbound_dump]
      exact hstagesOther

/-! ## Whole reads -/

/-- The lane on which a read opens a packet, if it gets as far as a first block. -/
def opened? (e : Endpoint C) : Option (Lane C) :=
  if e.closed then none
  else
    match awaitFirstBlock [] e with
    | (.ok (some _), ready) => some ready.inbound
    | _ => none

theorem agree_accountReceived (bytes : Nat) (hakin : Akin octets others e other) :
    Agree octets others Eq (accountReceived bytes e) (accountReceived bytes other) := by
  refine agree_outside hakin (fun hidden e => ?_) fun e => ?_
  · unfold accountReceived
    dsimp only [withHidden]
    split <;> rfl
  · unfold accountReceived
    dsimp only
    split <;> rfl

/-- Packets with payloads of one length and label are delivered alike. -/
theorem agree_deliver {frame frameOther : Bytes} {header : Header}
    (hpayload : Bytes.Akin ((frame.drop headerLength).take header.payloadLength)
      ((frameOther.drop headerLength).take header.payloadLength))
    (hakin : Akin octets others e other) :
    Agree octets others (fun _ _ => True) (deliver header frame e)
      (deliver header frameOther other) := by
  have hsize : e.inbound.tagSize = other.inbound.tagSize := hakin.hidden.inbound.tagSize_eq
  have hadvanced : Akin octets others e.advanceInbound other.advanceInbound :=
    hakin.relane hakin.hidden.inbound.advance
  have hlabel : MessageType.describePayload ((frame.drop headerLength).take header.payloadLength) =
      MessageType.describePayload ((frameOther.drop headerLength).take header.payloadLength) :=
    hpayload.describePayload_eq
  unfold deliver
  simp only [Act.ask_bind, Act.update_bind, id]
  rw [Packet.describe, Packet.describe, hlabel, hpayload.length_eq, hsize]
  exact .bind (agree_accountReceived _ (hadvanced.note _)) fun _ _ _ _ _ hnext => .ok trivial hnext

theorem read_eq_noting (hopen : e.closed = false) : read e = Act.noting .inbound readPacket e := by
  rw [read, hopen]
  rfl

theorem inbound_read (hopen : e.closed = false) : (read e).2.inbound = (readPacket e).2.inbound :=
  congrArg Prod.fst (read_of_open hopen).2

/-- Both readers open a packet, with as many octets at hand, or neither does. -/
inductive BeginsAlike (octets others : Bytes) (e other : Endpoint C) : Prop where
  | neither (hnone : opened? e = none) (hnoneOther : opened? other = none) (taken : Nat)
      (hread : Akin (octets.drop taken) (others.drop taken) (read e).2 (read other).2)
  | both (hopen : e.closed = false) (hopenOther : other.closed = false) (count : Nat)
      (ready readyOther : Endpoint C) (henough : count ≤ octets.length)
      (hblock : ready.inbound.blockSize ≤ count)
      (hawaited : awaitFirstBlock [] e = (.ok (some (octets.take count)), ready))
      (hawaitedOther : awaitFirstBlock [] other = (.ok (some (others.take count)), readyOther))
      (hready : Akin (octets.drop count) (others.drop count) ready readyOther)

theorem begins_read (hakin : Akin octets others e other) : BeginsAlike octets others e other := by
  have hsame := hakin.closed_eq
  cases hopen : e.closed with
  | true =>
      have hclosed : other.closed = true := hsame ▸ hopen
      refine .neither (if_pos hopen) (if_pos hclosed) 0 ?_
      rw [read, read, if_pos hopen, if_pos hclosed]
      exact hakin
  | false =>
      have hopenOther : other.closed = false := hsame ▸ hopen
      have hunread (taken : Nat) {result : Except Fault (Option Bytes)}
          {next nextOther : Endpoint C}
          (hawaited : awaitFirstBlock [] e = (result, next))
          (hawaitedOther : awaitFirstBlock [] other = (result, nextOther))
          (hresult : ∀ raw, result ≠ .ok (some raw))
          (hnext : Akin (octets.drop taken) (others.drop taken) next nextOther) :
          BeginsAlike octets others e other := by
        have hagree : Agree (octets.drop taken) (others.drop taken) (fun _ _ => True)
            (readPacket e) (readPacket other) := by
          unfold readPacket
          rcases result with fault | (_ | raw)
          · rw [Act.bind_of_error hawaited, Act.bind_of_error hawaitedOther]
            exact .error fault hnext
          · rw [Act.bind_of_ok hawaited, Act.bind_of_ok hawaitedOther]
            exact .ok trivial hnext
          · exact absurd rfl (hresult raw)
        have hunopened {e next : Endpoint C} (hawaited : awaitFirstBlock [] e = (result, next)) :
            opened? e = none := by
          unfold opened?
          rw [hawaited]
          rcases result with fault | (_ | raw)
          · simp
          · simp
          · exact absurd rfl (hresult raw)
        refine .neither (hunopened hawaited) (hunopened hawaitedOther) taken ?_
        rw [read_eq_noting hopen, read_eq_noting hopenOther]
        exact (hagree.noting .inbound).akin
      have hcollected := collected_awaitFirstBlock (rfl : ([] : Bytes).length = ([] : Bytes).length)
        hakin
      rcases hawaited : awaitFirstBlock [] e with ⟨result, next⟩
      rcases hawaitedOther : awaitFirstBlock [] other with ⟨resultOther, nextOther⟩
      rw [hawaited, hawaitedOther] at hcollected
      cases hcollected with
      | complete count hblock henough hnext =>
          rw [List.length_nil, Nat.zero_add] at hblock
          exact .both hopen hopenOther count _ _ henough hblock hawaited hawaitedOther hnext
      | nothing taken hnext =>
          exact hunread taken hawaited hawaitedOther (fun raw hraw => by cases hraw) hnext
      | failed taken fault hnext =>
          exact hunread taken hawaited hawaitedOther (fun raw hraw => by cases hraw) hnext

/-- What two readers make of genuine packets that they have opened: both verify them and have
taken all of their octets, or neither verifies anything. -/
inductive ReadsAlike (octets others : Bytes) (span : Nat) (last lastOther : Lane C)
    (e other : Endpoint C) : Prop where
  | verified (hverified : verification e ≠ none) (hverifiedOther : verification other ≠ none)
      (henough : span ≤ octets.length) (hinbound : (read e).2.inbound = last.advance)
      (hinboundOther : (read other).2.inbound = lastOther.advance)
      (hread : Akin (octets.drop span) (others.drop span) (read e).2 (read other).2)
  | unverified (hnone : verification e = none) (hnoneOther : verification other = none)
      (taken : Nat)
      (hread : Akin (octets.drop taken) (others.drop taken) (read e).2 (read other).2)

theorem inbound_of_taken {next : Endpoint C} {header : Header} {frame : Bytes}
    (hopen : e.closed = false) (htake : takeFrame e = (.ok (some (header, frame)), next)) :
    (read e).2.inbound = next.inbound.advance := by
  obtain ⟨last, hdeliver, hlast, -⟩ := deliver_eq header frame next
  rw [inbound_read hopen, readPacket_eq, Act.bind_of_ok htake, deliverTaken, Act.bind_pure_eq,
    hdeliver]
  exact hlast

theorem Clears.readsAlike {frame frameOther : Bytes} {header : Header} {span : Nat}
    {last lastOther : Lane C} (hopen : e.closed = false) (hopenOther : other.closed = false)
    (hclears : Clears octets others span last lastOther (some (header, frame))
      (some (header, frameOther)) none (takeFrame e) (takeFrame other))
    (hpayload : Bytes.Akin ((frame.drop headerLength).take header.payloadLength)
      ((frameOther.drop headerLength).take header.payloadLength)) :
    ReadsAlike octets others span last lastOther e other := by
  have hread {left leftOther : Bytes} (hagree : Agree left leftOther (fun _ _ => True)
      (readPacket e) (readPacket other)) : Akin left leftOther (read e).2 (read other).2 := by
    rw [read_eq_noting hopen, read_eq_noting hopenOther]
    exact (hagree.noting .inbound).akin
  rw [readPacket_eq] at hread
  rcases htake : takeFrame e with ⟨result, next⟩
  rcases htakeOther : takeFrame other with ⟨resultOther, nextOther⟩
  rw [htake, htakeOther] at hclears
  cases hclears with
  | done henough hinbound hinboundOther hnext =>
      refine .verified ?_ ?_ henough (hinbound ▸ inbound_of_taken hopen htake)
        (hinboundOther ▸ inbound_of_taken hopenOther htakeOther) (hread ?_)
      · rw [verification_of_taken hopen htake]
        exact nofun
      · rw [verification_of_taken hopenOther htakeOther]
        exact nofun
      · rw [Act.bind_of_ok htake, Act.bind_of_ok htakeOther]
        exact .bind (agree_deliver hpayload hnext) fun _ _ _ _ _ hlast => .ok trivial hlast
  | ended taken hnext =>
      refine .unverified ?_ ?_ taken (hread ?_)
      · rw [verification, hopen, htake]
        rfl
      · rw [verification, hopenOther, htakeOther]
        rfl
      · rw [Act.bind_of_ok htake, Act.bind_of_ok htakeOther]
        exact .ok trivial hnext
  | failed taken fault hnext =>
      refine .unverified ?_ ?_ taken (hread ?_)
      · rw [verification, hopen, htake]
        rfl
      · rw [verification, hopenOther, htakeOther]
        rfl
      · rw [Act.bind_of_error htake, Act.bind_of_error htakeOther]
        exact .error fault hnext

theorem reads_genuine {whole wholeOther frame frameOther : Bytes} {header : Header}
    {lane laneOther last lastOther : Lane C} (hakin : Akin octets others e other)
    (hopened : opened? e = some lane) (hopenedOther : opened? other = some laneOther)
    (hpart : octets <+: whole) (hgenuine : lane.Genuine whole header frame last)
    (hpartOther : others <+: wholeOther)
    (hgenuineOther : laneOther.Genuine wholeOther header frameOther lastOther)
    (hpayload : Bytes.Akin ((frame.drop headerLength).take header.payloadLength)
      ((frameOther.drop headerLength).take header.payloadLength)) :
    ReadsAlike octets others (header.frameLength + last.tagSize) last lastOther e other := by
  cases begins_read hakin with
  | neither hnone => cases hnone.symm.trans hopened
  | both hopen hopenOther count ready readyOther henough hblock hawaited hawaitedOther hready =>
      have hlane : lane = ready.inbound := by
        simpa [opened?, hopen, hawaited] using hopened.symm
      have hlaneOther : laneOther = readyOther.inbound := by
        simpa [opened?, hopenOther, hawaitedOther] using hopenedOther.symm
      subst hlane hlaneOther
      have hraw : (octets.take count).length = count := List.length_take_of_le henough
      have htakes {left : Nat} (hleft : count ≤ header.frameLength →
          count + left = header.frameLength + last.tagSize) :
          Clears (octets.drop count) (others.drop count) left last lastOther (some (header, frame))
            (some (header, frameOther)) none (takeFrame e) (takeFrame other) := by
        unfold takeFrame
        rw [Act.bind_of_ok hawaited, Act.bind_of_ok hawaitedOther]
        refine clears_takeFrom hready (hakin.length_take_eq count) (by rwa [hraw])
          (by rwa [hraw]) ?_ hgenuine ?_ hgenuineOther
        · rwa [List.take_append_drop]
        · rwa [List.take_append_drop]
      by_cases hfits : count ≤ header.frameLength
      · obtain ⟨left, hleft⟩ : ∃ left, count + left = header.frameLength + last.tagSize :=
          ⟨header.frameLength + last.tagSize - count, by omega⟩
        have hclears := (htakes fun _ => hleft).after henough
        rw [hleft] at hclears
        exact hclears.readsAlike hopen hopenOther hpayload
      · have hnever : Clears _ _ (octets.length + 1) last lastOther _ _ _ _ _ :=
          htakes fun hshort => absurd hshort hfits
        have hclears := hnever.after henough
        exact (hclears.of_excess (by omega) _).readsAlike hopen hopenOther hpayload

end Endpoint

end PacketLayer
