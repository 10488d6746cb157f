import PacketLayer.Proofs.Discretion.Receiving
import PacketLayer.Proofs.Lockstep

/-! # What a writer puts on its stream

Message by message and line by line, an endpoint that does not read puts portions of octets on
its stream. Two endpoints that are akin and are asked for messages of one length and label put
the same portions there, but for their content.
-/

namespace PacketLayer

variable {P C : Type} [BlockCipher C]

/-- A sealed message: the octets for the wire, and the lane before and after it. -/
structure Parcel (C : Type) [BlockCipher C] where
  payload : Bytes
  lane : Lane C
  wire : Bytes
  next : Lane C
  sealed : ∃ frame, IsFrame payload lane.blockSize frame ∧ lane.Seals frame wire next

/-- What goes onto a stream as a whole: an octet of a line, or a sealed message. -/
inductive Portion (C : Type) [BlockCipher C] where
  | letter (octet : UInt8)
  | packet (parcel : Parcel C)

namespace Portion

def octets : Portion C → Bytes
  | letter octet => [octet]
  | packet parcel => parcel.wire

/-- All octets of some portions, one after another. -/
def allOctets (portions : List (Portion C)) : Bytes :=
  portions.flatMap octets

def IsLetter : Portion C → Prop
  | letter _ => True
  | packet _ => False

/-- The same octet of a line, or messages of one length and label. -/
inductive Akin : Portion C → Portion C → Prop where
  | letter (octet : UInt8) : Akin (.letter octet) (.letter octet)
  | packet {parcel other : Parcel C} (hpayload : parcel.payload.Akin other.payload) :
      Akin (.packet parcel) (.packet other)

theorem Akin.payload {parcel other : Parcel C} :
    Akin (.packet parcel) (.packet other) → parcel.payload.Akin other.payload
  | packet hpayload => hpayload

end Portion

namespace Operation

/-- The same operation, but for the content of messages and of what arrives. Outbound
protections are dependable. -/
inductive Akin : Operation (Protection C) → Operation (Protection C) → Prop where
  | write {payload other : Bytes} (hpayload : payload.Akin other) :
      Akin (.write payload) (.write other)
  | read : Akin .read .read
  | readBanner (milliseconds : Nat) : Akin (.readBanner milliseconds) (.readBanner milliseconds)
  | writeBanner (line : String) : Akin (.writeBanner line) (.writeBanner line)
  | installOutbound {protection : Protection C} (hdependable : protection.Dependable) :
      Akin (.installOutbound protection) (.installOutbound protection)
  | installInbound (protection : Protection C) :
      Akin (.installInbound protection) (.installInbound protection)
  | feed {items others : ReadScript (Protection C)}
      (hitems : List.Forall₂ ReadItem.Akin items others) : Akin (.feed items) (.feed others)
  | scriptWrites (items : WriteScript (Protection C)) :
      Akin (.scriptWrites items) (.scriptWrites items)
  | scriptFlushes (items : List (FlushItem (Protection C))) :
      Akin (.scriptFlushes items) (.scriptFlushes items)
  | setKeepAlive (interval : Nat) (handler : Handler) :
      Akin (.setKeepAlive interval handler) (.setKeepAlive interval handler)
  | advance (milliseconds : Nat) : Akin (.advance milliseconds) (.advance milliseconds)
  | close : Akin .close .close

/-- The octets that an operation adds to those that are to arrive. -/
def fed : Operation P → Bytes
  | feed items => ReadScript.octets items
  | _ => []

/-- An operation takes nothing from the stream of an endpoint that is closed or not. -/
def Deaf (closed : Bool) : Operation P → Prop
  | read => closed = true
  | readBanner _ => False
  | _ => True

omit [BlockCipher C] in
theorem Deaf.of_closed {closed : Bool} {operation : Operation P} (hdeaf : operation.Deaf closed)
    {later : Bool} (hlater : closed = true → later = true) : operation.Deaf later := by
  cases operation with
  | read => exact hlater hdeaf
  | readBanner => exact hdeaf
  | _ => trivial

end Operation

namespace Endpoint

variable {octets others : Bytes} {e other : Endpoint C}

/-! ## Sealed messages -/

/-- What sealing makes is a sealed frame. -/
theorem seals_of_sealPacket {payload : Bytes} {packet : SealedPacket} {next : Endpoint C}
    (hsealed : sealPacket payload e = (.ok packet, next)) :
    ∃ frame, IsFrame payload e.outbound.blockSize frame ∧
      e.outbound.Seals frame packet.bytes next.outbound := by
  by_cases hfits : framedLength payload.length e.outbound.blockSize ≤ maxPacketLength
  · obtain ⟨plain, hframe, hframed⟩ := frameOutbound_of_fits hfits
    rw [sealPacket, Act.bind_of_ok hframed] at hsealed
    simp only [Act.update_bind, Act.ask_bind, id] at hsealed
    generalize hdumped : dump .outbound plain _ = dumped at hsealed
    have houtbound : dumped.outbound = e.outbound := by
      rw [← hdumped, outbound_dump]
      rfl
    refine ⟨plain, hframe, ?_⟩
    rw [← houtbound]
    cases hsign : dumped.outbound.sign plain with
    | error fault =>
        rw [hsign, Act.ofExcept_error_bind] at hsealed
        cases hsealed
    | ok tag =>
        rcases happly : dumped.outbound.apply plain with ⟨result, lane⟩
        have hencipher : encipher plain dumped = (result, { dumped with outbound := lane }) := by
          simp [encipher, happly]
        rw [hsign, Act.ofExcept_ok_bind] at hsealed
        cases result with
        | error fault =>
            rw [Act.bind_of_error hencipher] at hsealed
            cases hsealed
        | ok enciphered =>
            rw [Act.bind_of_ok hencipher] at hsealed
            cases hsealed
            exact .intro hsign happly
  · rw [sealPacket, Act.bind_of_error (frameOutbound_of_long (Nat.not_le.mp hfits))] at hsealed
    cases hsealed

/-- What a message puts on the stream if it is sealed now. -/
def sealedPortions (payload : Bytes) (e : Endpoint C) : List (Portion C) :=
  match _hsealed : sealPacket payload e with
  | (.ok packet, next) =>
      [.packet ⟨payload, e.outbound, packet.bytes, next.outbound, seals_of_sealPacket _hsealed⟩]
  | (.error _, _) => []

/-- What keep-alive messages that queue put on the stream, up to `count` of them. -/
def queuedPortions (reader : ReaderState) (turn : Nat → Turn) : Nat → Endpoint C → List (Portion C)
  | 0, _ => []
  | count + 1, e =>
      if e.held.isSome then []
      else
        let e := { e with queued := count, turn := turn count }
        sealedPortions (keepAliveMessage keepAliveDataLength e.noise).1
            { e with noise := (keepAliveMessage keepAliveDataLength e.noise).2 } ++
          queuedPortions reader turn count (e.beginKeepAlive reader)

/-- What keep-alive messages put on the stream at the current time. -/
def upkeepPortions (reader : ReaderState) (e : Endpoint C) : List (Portion C) :=
  let next := (e.resumeKeepAlive reader).admitKeepAlives
  queuedPortions reader (e.turnOfQueued next.queued) next.queued next

/-- What keep-alive messages put on the stream until the outbound lane is free. -/
def awaitPortions (e : Endpoint C) : List (Portion C) :=
  let ready := e.upkeep .idle
  match _hoccupied : ready.held with
  | none => upkeepPortions .idle e
  | some message =>
      upkeepPortions .idle e ++ awaitPortions (ready.advanceTo message.shipment.wake.time)
  termination_by e.writeCost
  decreasing_by
    have htended := tended_upkeep .idle e
    exact Nat.lt_of_lt_of_le (htended.steady message _hoccupied).writeCost_advanceTo_lt
      htended.cost_le

theorem awaitPortions_of_free (hfree : (e.upkeep .idle).held = none) :
    awaitPortions e = upkeepPortions .idle e := by
  rw [awaitPortions]
  split
  next => rfl
  next message hheld => cases hfree.symm.trans hheld

theorem awaitPortions_of_held {message : HeldMessage}
    (hheld : (e.upkeep .idle).held = some message) : awaitPortions e = upkeepPortions .idle e ++
      awaitPortions ((e.upkeep .idle).advanceTo message.shipment.wake.time) := by
  rw [awaitPortions]
  split
  next hfree => cases hfree.symm.trans hheld
  next _ hsame =>
    obtain rfl := Option.some.inj (hheld.symm.trans hsame)
    rfl

/-- What an operation puts on the stream before its own result, unless it reads. -/
def startPortions : Operation (Protection C) → Endpoint C → List (Portion C)
  | .write payload, e =>
      if e.closed then [] else awaitPortions e ++ sealedPortions payload e.awaitOutbound
  | .writeBanner line, e =>
      if e.closed then [] else awaitPortions e ++ (Text.Utf8.encode line).map .letter
  | .installOutbound _, e => awaitPortions e
  | _, _ => []

/-- What an endpoint that does not read puts on its stream while it carries out operations. -/
def portions : List (Operation (Protection C)) → Endpoint C → List (Portion C)
  | [], _ => []
  | operation :: operations, e =>
      startPortions operation e.countOperation ++
        upkeepPortions .idle (start operation e.countOperation).2 ++
        portions operations (perform operation e).2

/-! ## The portions of two writers -/

theorem akin_sealedPortions {payload payloadOther : Bytes} (hpayload : payload.Akin payloadOther)
    (hakin : Akin octets others e other) :
    List.Forall₂ Portion.Akin (sealedPortions payload e) (sealedPortions payloadOther other) := by
  have hagree := agree_sealPacket hpayload hakin
  unfold sealedPortions
  split
  next packet next hsealed =>
    split
    next packetOther nextOther hsealedOther => exact .cons (.packet hpayload) .nil
    next fault nextOther hfailed =>
      rw [hsealed, hfailed] at hagree
      cases hagree
  next fault next hfailed =>
    split
    next packetOther nextOther hsealedOther =>
      rw [hfailed, hsealedOther] at hagree
      cases hagree
    next => exact .nil

theorem akin_queuedPortions (reader : ReaderState) (turn : Nat → Turn) (count : Nat)
    (hakin : Akin octets others e other) :
    List.Forall₂ Portion.Akin (queuedPortions reader turn count e)
      (queuedPortions reader turn count other) := by
  induction count generalizing e other with
  | zero => exact .nil
  | succ count ih =>
      have hturned := hakin.queue count (turn count)
      rw [queuedPortions, queuedPortions]
      rcases hakin.held_cases with
        ⟨hfree, hfreeOther⟩ | ⟨message, messageOther, hheld, hheldOther, -⟩
      · rw [if_neg (by simp [hfree]), if_neg (by simp [hfreeOther])]
        refine List.rel_append ?_ (ih (akin_beginKeepAlive reader hturned))
        rw [← hturned.noise_eq]
        exact akin_sealedPortions (.refl _) (hturned.renoise _)
      · rw [if_pos (by simp [hheld]), if_pos (by simp [hheldOther])]
        exact .nil

theorem akin_upkeepPortions (reader : ReaderState) (hakin : Akin octets others e other) :
    List.Forall₂ Portion.Akin (upkeepPortions reader e) (upkeepPortions reader other) := by
  have hnext := akin_admitKeepAlives (akin_resumeKeepAlive reader hakin)
  unfold upkeepPortions
  dsimp only
  rw [← hnext.queued_eq, ← hakin.turnOfQueued_eq]
  exact akin_queuedPortions reader _ _ hnext

theorem akin_awaitPortions (hakin : Akin octets others e other) :
    List.Forall₂ Portion.Akin (awaitPortions e) (awaitPortions other) := by
  fun_induction awaitPortions e generalizing other with
  | case1 e ready =>
      rename_i hfree
      have hready := akin_upkeep .idle hakin
      rcases hready.held_cases with ⟨-, hfreeOther⟩ | ⟨message, messageOther, hheld, -⟩
      · rw [awaitPortions_of_free hfreeOther]
        exact akin_upkeepPortions .idle hakin
      · cases hfree.symm.trans hheld
  | case2 e ready message =>
      rename_i hheld ih
      have hready := akin_upkeep .idle hakin
      rcases hready.held_cases with ⟨hfree, -⟩ | ⟨_, messageOther, hsame, hheldOther, hmessage⟩
      · cases hfree.symm.trans hheld
      · obtain rfl := Option.some.inj (hsame.symm.trans hheld)
        rw [awaitPortions_of_held hheldOther, ← hmessage.shipment.wake_eq]
        exact List.rel_append (akin_upkeepPortions .idle hakin) (ih (hready.advanceTo _))

theorem akin_startPortions {operation operationOther : Operation (Protection C)}
    (hoperation : operation.Akin operationOther) (hakin : Akin octets others e other) :
    List.Forall₂ Portion.Akin (startPortions operation e) (startPortions operationOther other) := by
  cases hoperation with
  | write hpayload =>
      rw [startPortions, startPortions, ← hakin.closed_eq]
      split
      · exact .nil
      · exact List.rel_append (akin_awaitPortions hakin)
          (akin_sealedPortions hpayload (akin_awaitOutbound hakin))
  | writeBanner line =>
      rw [startPortions, startPortions, ← hakin.closed_eq]
      split
      · exact .nil
      · refine List.rel_append (akin_awaitPortions hakin) ?_
        exact List.forall₂_same.mpr fun portion hmem => by
          obtain ⟨octet, -, rfl⟩ := List.mem_map.mp hmem
          exact .letter octet
  | installOutbound => exact akin_awaitPortions hakin
  | _ => exact .nil

end Endpoint

end PacketLayer
