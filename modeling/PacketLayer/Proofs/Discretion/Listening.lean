import Mathlib.Data.List.Infix
import PacketLayer.Proofs.Discretion.Reading
import PacketLayer.Proofs.Discretion.Runs

/-! # Readers that listen

A reader listens if it takes up what a writer has put on the stream as it was put there: each
packet from its beginning, under the keys that belong to it, and nothing more after a packet
that broke off. Two readers that listen to writers that are akin stay akin.
-/

namespace PacketLayer

variable {C : Type} [BlockCipher C]

namespace Lane

/-- Between two packets both ends of a direction keep their keys, or both change to new ones
that match. -/
inductive Border (outbound inbound : Lane C) : Lane C → Lane C → Prop where
  | kept : Border outbound inbound outbound inbound
  | renewed {fresh peer : Protection C} (hmatched : fresh.Matched peer) :
      Border outbound inbound (outbound.install fresh) (inbound.install peer)

theorem InStep.border {outbound inbound next peer : Lane C} (hstep : outbound.InStep inbound)
    (hborder : Border outbound inbound next peer) : next.InStep peer := by
  cases hborder with
  | kept => exact hstep
  | renewed hmatched => exact .of_install hmatched hstep.sequence_eq

theorem Seals.unique {lane next other : Lane C} {packet wire octets : Bytes}
    (hseals : lane.Seals packet wire next) (hother : lane.Seals packet octets other) :
    wire = octets ∧ next = other := by
  obtain ⟨hsign, hencipher⟩ := hseals
  obtain ⟨hsign', hencipher'⟩ := hother
  obtain rfl := Except.ok.inj (hsign.symm.trans hsign')
  obtain ⟨hdata, rfl⟩ := Prod.mk.inj (hencipher.symm.trans hencipher')
  obtain rfl := Except.ok.inj hdata
  exact ⟨rfl, rfl⟩

end Lane

/-- A frame declares the lengths that it was laid out with. -/
theorem IsFrame.ofBlock_eq {payload frame : Bytes} {blockSize : Nat}
    (hframe : IsFrame payload blockSize frame) (hmin : minBlockSize ≤ blockSize)
    (hmax : blockSize ≤ maxBlockSize) :
    Header.ofBlock frame =
      ⟨framedLength payload.length blockSize, paddingLength payload.length blockSize⟩ := by
  have hpositive : 0 < blockSize := Nat.lt_of_lt_of_le (by decide) hmin
  have hblock : headerLength ≤ (frame.take blockSize).length := by
    rw [List.length_take, Nat.min_eq_left (hframe.blockSize_le hpositive)]
    exact Nat.le_trans (by decide) hmin
  have hheader := Header.ofBlock_append hblock (frame.drop blockSize)
  rwa [List.take_append_drop, hframe.ofBlock_take hmin hmax] at hheader

/-- The header of a parcel, as its frame was laid out. -/
def Parcel.header (parcel : Parcel C) : Header :=
  ⟨framedLength parcel.payload.length parcel.lane.blockSize,
    paddingLength parcel.payload.length parcel.lane.blockSize⟩

/-- A parcel is genuine at the other end if the ends are in step. -/
theorem Parcel.genuine (parcel : Parcel C) {inbound : Lane C} (hstep : parcel.lane.InStep inbound) :
    ∃ frame last, (∀ more, inbound.Genuine (parcel.wire ++ more) parcel.header frame last) ∧
      parcel.wire.length = parcel.header.frameLength + last.tagSize ∧
      (frame.drop headerLength).take parcel.header.payloadLength = parcel.payload ∧
      parcel.next.InStep last.advance := by
  obtain ⟨frame, hframe, hseals⟩ := parcel.sealed
  obtain ⟨header, wire, next, last, hsealed, hgenuine, hlength, hpayload, hafter⟩ :=
    hstep.genuine_of_frame hframe
  obtain ⟨rfl, rfl⟩ := hseals.unique hsealed
  have hunfolds := (hgenuine []).unfolds
  obtain rfl : header = parcel.header :=
    hunfolds.header_eq.trans (hframe.ofBlock_eq parcel.lane.plaintextBlockSize_le
      parcel.lane.blockSize_le_max)
  exact ⟨frame, last, hgenuine, hunfolds.lane_eq.2.1 ▸ hlength, hpayload, hafter⟩

namespace Endpoint

variable {octets others : Bytes} {e other : Endpoint C}

/-- What is to arrive while operations are carried out. -/
def fedOctets (operations : List (Operation (Protection C))) : Bytes :=
  operations.flatMap Operation.fed

/-- A reader takes up portions as they were sent, from two ends that have last been in step on
the given lanes: packet by packet, each on a lane that matches the one on which it was sealed,
and lines with nothing but lines. After a read that breaks off it reads no more. -/
inductive Listens : Lane C → Lane C → List (Portion C) → List (Operation (Protection C)) →
    Endpoint C → Prop where
  | deaf {outbound inbound : Lane C} {portions : List (Portion C)}
      {operations : List (Operation (Protection C))} {e : Endpoint C}
      (hdeaf : ∀ operation ∈ operations, operation.Deaf e.closed) :
      Listens outbound inbound portions operations e
  | aside {outbound inbound : Lane C} {portions : List (Portion C)}
      {operation : Operation (Protection C)} {operations : List (Operation (Protection C))}
      {e : Endpoint C} (hdeaf : operation.Deaf false)
      (hrest : Listens outbound inbound portions operations (perform operation e).2) :
      Listens outbound inbound portions (operation :: operations) e
  | nothing {outbound inbound : Lane C} {portions : List (Portion C)}
      {operations : List (Operation (Protection C))} {e : Endpoint C}
      (hnone : opened? e.countOperation = none)
      (hrest : ReadScript.unread (read e.countOperation).2.reads = ReadScript.unread e.reads →
        Listens outbound inbound portions operations (perform .read e).2)
      (hbroken : ReadScript.unread (read e.countOperation).2.reads ≠ ReadScript.unread e.reads →
        ∀ operation ∈ operations, operation.Deaf (perform .read e).2.closed) :
      Listens outbound inbound portions (.read :: operations) e
  | packet {outbound inbound lane : Lane C} {parcel : Parcel C} {portions : List (Portion C)}
      {operations : List (Operation (Protection C))} {e : Endpoint C}
      (hopened : opened? e.countOperation = some lane)
      (hborder : Lane.Border outbound inbound parcel.lane lane)
      (hrest : verification e.countOperation ≠ none →
        Listens parcel.next (read e.countOperation).2.inbound portions operations
          (perform .read e).2)
      (hbroken : verification e.countOperation = none →
        ∀ operation ∈ operations, operation.Deaf (perform .read e).2.closed) :
      Listens outbound inbound (.packet parcel :: portions) (.read :: operations) e
  | line {outbound inbound : Lane C} {letters portions : List (Portion C)} {milliseconds : Nat}
      {operations : List (Operation (Protection C))} {e : Endpoint C}
      (hletters : ∀ portion ∈ letters, portion.IsLetter)
      (hunread : ReadScript.unread e.reads =
        ReadScript.unread (readBanner milliseconds e.countOperation).2.reads + letters.length)
      (hrest : Listens outbound inbound portions operations
        (perform (.readBanner milliseconds) e).2) :
      Listens outbound inbound (letters ++ portions) (.readBanner milliseconds :: operations) e

/-! ## One read -/

theorem akin_perform_read {left leftOther : Bytes}
    (hread : Akin left leftOther (read e.countOperation).2 (read other.countOperation).2) :
    Akin left leftOther (perform .read e).2 (perform .read other).2 := by
  rw [perform_read_eq, perform_read_eq]
  exact akin_upkeep .idle hread

/-- Readers that are akin open packets on lanes that are akin, or neither opens any. -/
theorem akin_opened (hakin : Akin octets others e other) :
    Option.Rel Lane.Akin (opened? e) (opened? other) := by
  cases begins_read hakin with
  | neither hnone hnoneOther =>
      rw [hnone, hnoneOther]
      exact .none
  | both hopen hopenOther count ready readyOther henough hblock hawaited hawaitedOther hready =>
      simp only [opened?, hopen, hopenOther, hawaited, hawaitedOther]
      exact .some hready.hidden.inbound

theorem akin_read_unopened (hakin : Akin octets others e other) (hnone : opened? e = none) :
    ∃ taken, Akin (octets.drop taken) (others.drop taken) (read e).2 (read other).2 := by
  cases begins_read hakin with
  | neither _ _ taken hread => exact ⟨taken, hread⟩
  | both hopen hopenOther count ready readyOther henough hblock hawaited =>
      simp [opened?, hopen, hawaited] at hnone

/-- Readers that are akin open the parcels of writers that are akin, each in step with the
lane on which it was sealed. -/
theorem reads_parcels {parcel parcelOther : Parcel C} {lane laneOther : Lane C}
    (hakin : Akin octets others e other) (hopened : opened? e = some lane)
    (hopenedOther : opened? other = some laneOther) (hstep : parcel.lane.InStep lane)
    (hstepOther : parcelOther.lane.InStep laneOther)
    (hpayload : parcel.payload.Akin parcelOther.payload) {more moreOther : Bytes}
    (hpart : octets <+: parcel.wire ++ more)
    (hpartOther : others <+: parcelOther.wire ++ moreOther) :
    ∃ last lastOther, parcel.next.InStep last.advance ∧
      parcelOther.next.InStep lastOther.advance ∧ parcel.wire.length = parcelOther.wire.length ∧
      ReadsAlike octets others parcel.wire.length last lastOther e other := by
  obtain ⟨frame, last, hgenuine, hlength, hcontent, hnext⟩ := parcel.genuine hstep
  obtain ⟨frameOther, lastOther, hgenuineOther, hlengthOther, hcontentOther, hnextOther⟩ :=
    parcelOther.genuine hstepOther
  have hlanes := akin_opened hakin
  rw [hopened, hopenedOther] at hlanes
  obtain ⟨hlanes⟩ := hlanes
  have hblock : parcel.lane.blockSize = parcelOther.lane.blockSize := by
    rw [← hstep.blockSize_eq, ← hstepOther.blockSize_eq, hlanes.blockSize_eq]
  have hheader : parcel.header = parcelOther.header := by
    rw [Parcel.header, Parcel.header, hpayload.length_eq, hblock]
  have htag : last.tagSize = lastOther.tagSize := by
    rw [(hgenuine []).unfolds.lane_eq.2.1, (hgenuineOther []).unfolds.lane_eq.2.1,
      hlanes.tagSize_eq]
  refine ⟨last, lastOther, hnext, hnextOther, by rw [hlength, hlengthOther, hheader, htag], ?_⟩
  rw [hlength]
  refine reads_genuine hakin hopened hopenedOther hpart (hgenuine more) hpartOther
    (hheader ▸ hgenuineOther moreOther) ?_
  rw [hcontent]
  rw [← hheader] at hcontentOther
  rwa [hcontentOther]

/-! ## Lines -/

theorem allOctets_append (portions more : List (Portion C)) :
    Portion.allOctets (portions ++ more) = Portion.allOctets portions ++ Portion.allOctets more :=
  List.flatMap_append

theorem length_allOctets_of_letters {letters : List (Portion C)}
    (hletters : ∀ portion ∈ letters, portion.IsLetter) :
    (Portion.allOctets letters).length = letters.length := by
  induction letters with
  | nil => rfl
  | cons portion letters ih =>
      rw [List.forall_mem_cons] at hletters
      obtain ⟨hletter, hletters⟩ := hletters
      cases portion with
      | packet => exact hletter.elim
      | letter octet => exact congrArg (· + 1) (ih hletters)

/-- Where one writer puts letters, a writer that is akin puts the same. -/
theorem akin_letters {letters portions all : List (Portion C)}
    (hletters : ∀ portion ∈ letters, portion.IsLetter)
    (hakin : List.Forall₂ Portion.Akin (letters ++ portions) all) :
    ∃ rest, all = letters ++ rest ∧ List.Forall₂ Portion.Akin portions rest := by
  induction letters generalizing all with
  | nil => exact ⟨all, rfl, hakin⟩
  | cons portion letters ih =>
      rw [List.forall_mem_cons] at hletters
      obtain ⟨hletter, hletters⟩ := hletters
      cases hakin with
      | cons hportion hakin =>
          obtain ⟨rest, rfl, hrest⟩ := ih hletters hakin
          cases hportion with
          | packet => exact hletter.elim
          | letter octet => exact ⟨rest, rfl, hrest⟩

theorem akin_readBanner (milliseconds : Nat) (hakin : Akin octets others e other)
    {common more moreOther : Bytes} (hpart : octets <+: common ++ more)
    (hpartOther : others <+: common ++ moreOther)
    (hunread : ReadScript.unread e.reads =
      ReadScript.unread (readBanner milliseconds e).2.reads + common.length) :
    Akin (octets.drop common.length) (others.drop common.length) (readBanner milliseconds e).2
      (readBanner milliseconds other).2 := by
  have hwithin : octets.length ≤
      ReadScript.unread (readBanner milliseconds e).2.reads + common.length := by
    rw [← hakin.unread_eq, hunread]
  have hcommon : octets.take common.length = others.take common.length := by
    have hleft := hpart.take common.length
    have hright := hpartOther.take common.length
    rw [List.take_left] at hleft hright
    refine (List.prefix_of_prefix_length_le hleft hright ?_).eq_of_length ?_
    · rw [hakin.length_take_eq]
    · exact hakin.length_take_eq _
  obtain ⟨taken, htaken, hnext⟩ := agree_readLine _ [] hakin hcommon hwithin
  have hlast : ReadScript.unread (readBanner milliseconds e).2.reads = _ := hnext.unread_eq
  rw [hakin.unread_eq, hlast, List.length_drop] at hunread
  obtain rfl : taken = common.length := by omega
  have hsame : readBanner milliseconds other =
      readLine (if milliseconds = 0 then none else some (e.now + milliseconds)) [] other := by
    rw [readBanner, hakin.now_eq]
  rw [hsame]
  exact hnext

/-! ## Runs of reads -/

/-- Two readers are at the same place of their sessions. -/
structure Abreast (octets others : Bytes) (portions portionsOther : List (Portion C))
    (operations operationsOther : List (Operation (Protection C))) (e other : Endpoint C) :
    Prop where
  akin : Akin octets others e other
  akinPortions : List.Forall₂ Portion.Akin portions portionsOther
  akinOperations : List.Forall₂ Operation.Akin operations operationsOther
  part : octets ++ fedOctets operations <+: Portion.allOctets portions
  partOther : others ++ fedOctets operationsOther <+: Portion.allOctets portionsOther

namespace Abreast

variable {portions portionsOther : List (Portion C)}
  {operation operationOther : Operation (Protection C)}
  {operations operationsOther : List (Operation (Protection C))}

/-- If nothing is read any more, the readers stay akin. -/
theorem run (habreast : Abreast octets others portions portionsOther operations operationsOther e
    other) (hdeaf : ∀ operation ∈ operations, operation.Deaf e.closed) :
    ∃ left leftOther, Akin left leftOther (run operations e).2 (run operationsOther other).2 :=
  habreast.akin.run habreast.akinOperations hdeaf

/-- If the second reads nothing any more, then neither does the first. -/
theorem run_of_other (habreast : Abreast octets others portions portionsOther operations
    operationsOther e other) (hdeaf : ∀ operation ∈ operationsOther, operation.Deaf other.closed) :
    ∃ left leftOther, Akin left leftOther (Endpoint.run operations e).2
      (Endpoint.run operationsOther other).2 :=
  habreast.run (deaf_other habreast.akin habreast.akinOperations hdeaf)

theorem aside (habreast : Abreast octets others portions portionsOther (operation :: operations)
    (operationOther :: operationsOther) e other) (hdeaf : operation.Deaf false) :
    Abreast (octets ++ operation.fed) (others ++ operationOther.fed) portions portionsOther
      operations operationsOther (perform operation e).2 (perform operationOther other).2 := by
  obtain ⟨hakin, hportions, hoperations, hpart, hpartOther⟩ := habreast
  obtain ⟨hoperation, hoperations⟩ := List.forall₂_cons.mp hoperations
  refine ⟨hakin.perform hoperation (hdeaf.of_closed nofun), hportions, hoperations, ?_, ?_⟩
  · rw [List.append_assoc]
    exact hpart
  · rw [List.append_assoc]
    exact hpartOther

/-- After a read that takes nothing the readers are where they were. -/
theorem nothing (habreast : Abreast octets others portions portionsOther (.read :: operations)
    (.read :: operationsOther) e other) (hnone : opened? e.countOperation = none)
    (hunread : ReadScript.unread (read e.countOperation).2.reads = ReadScript.unread e.reads) :
    ReadScript.unread (read other.countOperation).2.reads = ReadScript.unread other.reads ∧
      Abreast octets others portions portionsOther operations operationsOther (perform .read e).2
        (perform .read other).2 := by
  obtain ⟨hakin, hportions, hoperations, hpart, hpartOther⟩ := habreast
  obtain ⟨-, hoperations⟩ := List.forall₂_cons.mp hoperations
  obtain ⟨taken, hread⟩ := akin_read_unopened hakin.count hnone
  rw [hread.unread_eq, hakin.unread_eq] at hunread
  have hdrop : octets.drop taken = octets := (List.drop_suffix _ _).eq_of_length hunread
  have hdropOther : others.drop taken = others := by
    refine (List.drop_suffix _ _).eq_of_length ?_
    rw [← hread.length_eq, hunread, hakin.length_eq]
  rw [hdrop, hdropOther] at hread
  refine ⟨?_, akin_perform_read hread, hportions, hoperations, hpart, hpartOther⟩
  rw [hread.unread_other_eq, hakin.unread_other_eq]

omit [BlockCipher C] in
/-- What is left of octets that begin with a part, and of what comes after them. -/
theorem part_drop {octets fed front all : Bytes} (hpart : octets ++ fed <+: front ++ all)
    (henough : front.length ≤ octets.length) : octets.drop front.length ++ fed <+: all := by
  have hdrop := hpart.drop front.length
  rwa [List.drop_append_of_le_length henough, List.drop_left] at hdrop

/-- Both readers take the next packet as a whole, or both break off. -/
theorem packet {parcel parcelOther : Parcel C} {lane laneOther : Lane C}
    (habreast : Abreast octets others (.packet parcel :: portions)
      (.packet parcelOther :: portionsOther) (.read :: operations) (.read :: operationsOther) e
      other)
    (hopened : opened? e.countOperation = some lane)
    (hopenedOther : opened? other.countOperation = some laneOther)
    (hstep : parcel.lane.InStep lane) (hstepOther : parcelOther.lane.InStep laneOther) :
    (verification e.countOperation ≠ none ∧ verification other.countOperation ≠ none ∧
      parcel.next.InStep (read e.countOperation).2.inbound ∧
      parcelOther.next.InStep (read other.countOperation).2.inbound ∧
      Abreast (octets.drop parcel.wire.length) (others.drop parcelOther.wire.length) portions
        portionsOther operations operationsOther (perform .read e).2 (perform .read other).2) ∨
    (verification e.countOperation = none ∧
      ∃ taken, Akin (octets.drop taken) (others.drop taken) (perform .read e).2
        (perform .read other).2) := by
  obtain ⟨hakin, hportions, hoperations, hpart, hpartOther⟩ := habreast
  obtain ⟨-, hoperations⟩ := List.forall₂_cons.mp hoperations
  obtain ⟨hparcels, hportions⟩ := List.forall₂_cons.mp hportions
  change octets ++ fedOctets operations <+: parcel.wire ++ Portion.allOctets portions at hpart
  change others ++ fedOctets operationsOther <+:
    parcelOther.wire ++ Portion.allOctets portionsOther at hpartOther
  obtain ⟨last, lastOther, hnext, hnextOther, hlength, hreads⟩ :=
    reads_parcels hakin.count hopened hopenedOther hstep hstepOther hparcels.payload
      ((List.prefix_append _ _).trans hpart) ((List.prefix_append _ _).trans hpartOther)
  cases hreads with
  | unverified hnone _ taken hread => exact .inr ⟨hnone, taken, akin_perform_read hread⟩
  | verified hverified hverifiedOther henough hinbound hinboundOther hread =>
      refine .inl ⟨hverified, hverifiedOther, hinbound ▸ hnext, hinboundOther ▸ hnextOther, ?_,
        hportions, hoperations, part_drop hpart henough, part_drop hpartOther ?_⟩
      · rw [← hlength]
        exact akin_perform_read hread
      · rw [← hlength, ← hakin.length_eq]
        exact henough

/-- Both readers take the same octets of lines. -/
theorem line {letters : List (Portion C)} {milliseconds : Nat}
    (habreast : Abreast octets others (letters ++ portions) (letters ++ portionsOther)
      (.readBanner milliseconds :: operations) (.readBanner milliseconds :: operationsOther) e
      other)
    (hletters : ∀ portion ∈ letters, portion.IsLetter)
    (hakinPortions : List.Forall₂ Portion.Akin portions portionsOther)
    (hunread : ReadScript.unread e.reads =
      ReadScript.unread (readBanner milliseconds e.countOperation).2.reads + letters.length) :
    ReadScript.unread other.reads =
        ReadScript.unread (readBanner milliseconds other.countOperation).2.reads + letters.length ∧
      ∃ left leftOther, Abreast left leftOther portions portionsOther operations operationsOther
        (perform (.readBanner milliseconds) e).2 (perform (.readBanner milliseconds) other).2 := by
  obtain ⟨hakin, -, hoperations, hpart, hpartOther⟩ := habreast
  obtain ⟨-, hoperations⟩ := List.forall₂_cons.mp hoperations
  rw [allOctets_append] at hpart hpartOther
  change octets ++ fedOctets operations <+: _ at hpart
  change others ++ fedOctets operationsOther <+: _ at hpartOther
  have hlength := length_allOctets_of_letters hletters
  have henough : letters.length ≤ octets.length := by
    rw [← hakin.unread_eq, hunread]
    exact Nat.le_add_left _ _
  have hread := akin_readBanner milliseconds hakin.count
    ((List.prefix_append _ _).trans hpart) ((List.prefix_append _ _).trans hpartOther)
    (hlength.symm ▸ hunread)
  refine ⟨?_, _, _, ?_, hakinPortions, hoperations, part_drop hpart (hlength ▸ henough),
    part_drop hpartOther (hlength ▸ hakin.length_eq ▸ henough)⟩
  · rw [hread.unread_other_eq, hakin.unread_other_eq, List.length_drop, hlength,
      ← hakin.length_eq, Nat.sub_add_cancel henough]
  · rw [perform_readBanner, perform_readBanner]
    exact akin_upkeep .idle hread

end Abreast

/-- Two readers that take up portions of the same kinds as they were sent stay akin. -/
theorem Listens.akin_run {outbound inbound outboundOther inboundOther : Lane C}
    {portions portionsOther : List (Portion C)}
    {operations operationsOther : List (Operation (Protection C))}
    (hlistens : Listens outbound inbound portions operations e)
    (hlistensOther : Listens outboundOther inboundOther portionsOther operationsOther other)
    (hstep : outbound.InStep inbound) (hstepOther : outboundOther.InStep inboundOther)
    (habreast : Abreast octets others portions portionsOther operations operationsOther e other) :
    ∃ left leftOther, Akin left leftOther (run operations e).2 (run operationsOther other).2 := by
  induction hlistens generalizing octets others other outboundOther inboundOther portionsOther
    operationsOther with
  | deaf hdeaf => exact habreast.run hdeaf
  | aside hdeaf hrest ih =>
      cases hlistensOther with
      | deaf hdeafOther => exact habreast.run_of_other hdeafOther
      | aside hdeafOther hrestOther =>
          rw [run_cons, run_cons]
          exact ih hrestOther hstep hstepOther (habreast.aside hdeaf)
      | _ =>
          obtain ⟨⟨⟩, -⟩ := List.forall₂_cons.mp habreast.akinOperations
          cases hdeaf
  | @nothing outbound inbound portions operations e hnone hrest hbroken ih =>
      have hsame := akin_opened habreast.akin.count
      cases hlistensOther with
      | deaf hdeafOther => exact habreast.run_of_other hdeafOther
      | nothing hnoneOther hrestOther hbrokenOther =>
          rw [run_cons, run_cons]
          by_cases hunread : ReadScript.unread (read e.countOperation).2.reads =
              ReadScript.unread e.reads
          · obtain ⟨hunreadOther, hnext⟩ := habreast.nothing hnone hunread
            exact ih hunread (hrestOther hunreadOther) hstep hstepOther hnext
          · obtain ⟨taken, hread⟩ := akin_read_unopened habreast.akin.count hnone
            exact (akin_perform_read hread).run (List.forall₂_cons.mp habreast.akinOperations).2
              (hbroken hunread)
      | packet hopenedOther =>
          rw [hnone, hopenedOther] at hsame
          cases hsame
      | aside hdeafOther =>
          obtain ⟨⟨⟩, -⟩ := List.forall₂_cons.mp habreast.akinOperations
          cases hdeafOther
      | line => nomatch (List.forall₂_cons.mp habreast.akinOperations).1
  | packet hopened hborder hrest hbroken ih =>
      have hsame := akin_opened habreast.akin.count
      cases hlistensOther with
      | deaf hdeafOther => exact habreast.run_of_other hdeafOther
      | nothing hnoneOther =>
          rw [hopened, hnoneOther] at hsame
          cases hsame
      | packet hopenedOther hborderOther hrestOther hbrokenOther =>
          rw [run_cons, run_cons]
          rcases habreast.packet hopened hopenedOther (hstep.border hborder)
              (hstepOther.border hborderOther) with
            ⟨hverified, hverifiedOther, hnext, hnextOther, hrestAbreast⟩ | ⟨hnone, taken, hread⟩
          · exact ih hverified (hrestOther hverifiedOther) hnext hnextOther hrestAbreast
          · exact hread.run (List.forall₂_cons.mp habreast.akinOperations).2 (hbroken hnone)
      | aside hdeafOther =>
          obtain ⟨⟨⟩, -⟩ := List.forall₂_cons.mp habreast.akinOperations
          cases hdeafOther
      | line => nomatch (List.forall₂_cons.mp habreast.akinOperations).1
  | line hletters hunread hrest ih =>
      cases hlistensOther with
      | deaf hdeafOther => exact habreast.run_of_other hdeafOther
      | aside hdeafOther =>
          obtain ⟨⟨⟩, -⟩ := List.forall₂_cons.mp habreast.akinOperations
          exact hdeafOther.elim
      | line hlettersOther hunreadOther hrestOther =>
          obtain ⟨rest, hall, hrestAkin⟩ := akin_letters hletters habreast.akinPortions
          cases (List.forall₂_cons.mp habreast.akinOperations).1
          rw [hall] at habreast
          obtain ⟨hcount, left, leftOther, hnext⟩ := habreast.line hletters hrestAkin hunread
          obtain ⟨rfl, rfl⟩ := List.append_inj hall (by omega)
          rw [run_cons, run_cons]
          exact ih hrestOther hstep hstepOther hnext
      | _ => nomatch (List.forall₂_cons.mp habreast.akinOperations).1

/-! ## Sessions -/

/-- One end writes, and the other reads what the stream has accepted of it. -/
structure Session (writes : List (Operation (Protection C))) (sender : Endpoint C)
    (reads : List (Operation (Protection C))) (receiver : Endpoint C) : Prop where
  /-- The stream accepts one portion after the other, each as a whole but for the last. -/
  whole : (run writes sender).2.acceptedBytes <+: Portion.allOctets (portions writes sender)
  unmodified : fedOctets reads <+: (run writes sender).2.acceptedBytes
  listens : Listens sender.outbound receiver.inbound (portions writes sender) reads receiver

end Endpoint

end PacketLayer
