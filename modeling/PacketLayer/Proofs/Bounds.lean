import Mathlib.Data.Nat.Basic
import Mathlib.Order.Basic
import PacketLayer.Proofs.Acceptance
import PacketLayer.Proofs.Bounds.Buffers

/-! # Bounds on a read

Nothing that arrives makes a reader with fixed buffers reach outside of them, and one read
takes no more from the stream than the largest frame and its tag. Both hold whatever the
script of the stream says, and whatever protections come into use on the way.
-/

namespace PacketLayer

variable {P C : Type}

theorem ReadScript.unread_leftOver (want : Nat) (bytes : Bytes)
    (items : ReadScript (Protection C)) :
    unread (Endpoint.leftOver want bytes items) = bytes.length - want + unread items := by
  rw [← List.length_drop]
  unfold Endpoint.leftOver
  split
  next hnone => rw [hnone, List.length_nil, Nat.zero_add]
  next byte rest hsome =>
    rw [hsome]
    rfl

namespace Endpoint

open ReadScript

variable [BlockCipher C]

/-- The number of octets that an attempt brings. -/
def Arrival.length : Arrival → Nat
  | .more bytes => bytes.length
  | _ => 0

/-- What an attempt brings is taken from the script. -/
theorem unread_arrive (want deadline : Nat) (items : ReadScript (Protection C))
    (e : Endpoint C) :
    unread items = unread (arrive want deadline items e).2.1 +
      (arrive want deadline items e).1.length := by
  induction items generalizing e with
  | nil => rfl
  | cons item items ih =>
      have hpassed (next : Endpoint C) (hempty : item.unread = 0) :
          unread (item :: items) = unread (arrive want deadline items next).2.1 +
            (arrive want deadline items next).1.length := by
        rw [unread, hempty, Nat.zero_add]
        exact ih next
      cases item with
      | data bytes =>
          unfold arrive
          split
          next hnone =>
            obtain rfl := List.isEmpty_iff.mp hnone
            exact Nat.zero_add _
          · rw [unread_leftOver, unread, ReadItem.unread, Arrival.length, List.length_take]
            omega
      | eof => exact Nat.zero_add _
      | fail failure =>
          unfold arrive
          split <;> exact Nat.zero_add _
      | pause milliseconds =>
          simp only [arrive]
          split
          · exact hpassed _ rfl
          · rfl
      | resumeAt time =>
          simp only [arrive]
          split
          · exact hpassed _ rfl
          · rfl
      | installOutbound protection => exact hpassed _ rfl
      | act action => exact hpassed _ rfl

theorem unread_receive {want limit : Nat} {arrival : Arrival} {e next : Endpoint C}
    (hattempt : e.receive want limit = (arrival, next)) :
    unread e.reads = unread next.reads + arrival.length := by
  have hunread := unread_arrive want (e.now + limit) e.reads e
  rw [receive_eq] at hattempt
  obtain ⟨rfl, rfl⟩ := Prod.mk.inj hattempt
  exact hunread

omit [BlockCipher C] in
theorem reads_activateParked (e : Endpoint C) : e.activateParked.reads = e.reads := by
  unfold activateParked
  split <;> rfl

/-- Collecting octets takes no more than are wanted. -/
theorem unread_fill (raw : Bytes) (count : Nat) (e : Endpoint C) :
    unread e.reads ≤ unread (fill raw count e).2.reads + count := by
  fun_induction fill raw count e with
  | case1 raw e => exact Nat.le_add_right _ _
  | case2 raw count e _ next hattempt =>
      exact (unread_receive hattempt).trans_le (Nat.le_add_right _ _)
  | case3 raw count e _ failure next hattempt =>
      exact (unread_receive hattempt).trans_le (Nat.le_add_right _ _)
  | case4 raw count e _ bytes next hattempt _ =>
      rw [unread_receive hattempt]
      exact Nat.add_le_add_left (length_of_receive hattempt) _
  | case5 raw count e _ bytes next hattempt _ _ =>
      rw [unread_receive hattempt]
      exact Nat.add_le_add_left (length_of_receive hattempt) _
  | case6 raw count e _ bytes next hattempt _ _ ih =>
      have hlength := length_of_receive hattempt
      rw [reads_checkKeepAlive] at ih
      rw [unread_receive hattempt, Arrival.length]
      omega

/-- Waiting for a first block takes no more than the largest block, and keeps what it takes
unless it gives up. -/
theorem unread_awaitFirstBlock (raw : Bytes) (hraw : raw.length ≤ maxBlockSize)
    (e : Endpoint C) :
    unread e.reads + raw.length ≤ unread (awaitFirstBlock raw e).2.reads + maxBlockSize ∧
      ∀ final, (awaitFirstBlock raw e).1 = .ok (some final) →
        unread e.reads + raw.length =
          unread (awaitFirstBlock raw e).2.reads + final.length := by
  have hattempted {raw : Bytes} {e next : Endpoint C} {arrival : Arrival}
      (hattempt : e.activateParked.receive (e.activateParked.inbound.blockSize - raw.length)
        e.activateParked.config.pollInterval = (arrival, next)) :
      unread e.reads = unread next.reads + arrival.length := by
    rw [← reads_activateParked e]
    exact unread_receive hattempt
  have hfits {raw bytes : Bytes} {e next : Endpoint C}
      (hshort : ¬e.activateParked.inbound.blockSize ≤ raw.length)
      (hattempt : e.activateParked.receive (e.activateParked.inbound.blockSize - raw.length)
        e.activateParked.config.pollInterval = (.more bytes, next)) :
      (raw ++ bytes).length ≤ maxBlockSize := by
    have hblock := e.activateParked.inbound.blockSize_le_max
    have hlength := length_of_receive hattempt
    rw [List.length_append]
    omega
  -- both by one induction: a further attempt starts from what the one before it kept
  fun_induction awaitFirstBlock raw e with
  | case1 raw e ready _ =>
      refine ⟨?_, ?_⟩
      · rw [reads_activateParked]
        omega
      · rintro final ⟨⟩
        rw [reads_activateParked]
  | case2 raw e ready _ next hattempt =>
      refine ⟨?_, fun final hfinal => by cases hfinal⟩
      rw [hattempted hattempt]
      exact Nat.add_le_add_left hraw _
  | case3 raw e ready _ failure next hattempt =>
      refine ⟨?_, fun final hfinal => by cases hfinal⟩
      rw [hattempted hattempt]
      exact Nat.add_le_add_left hraw _
  | case4 raw e ready hshort bytes next hattempt _ ih =>
      obtain ⟨hmost, hkept⟩ := ih (hfits hshort hattempt)
      rw [List.length_append] at hmost hkept
      rw [hattempted hattempt, Arrival.length, Nat.add_assoc, Nat.add_comm bytes.length]
      exact ⟨hmost, hkept⟩
  | case5 raw e ready hshort bytes next hattempt _ _ =>
      have hlength := hfits hshort hattempt
      refine ⟨?_, fun final hfinal => by cases hfinal⟩
      rw [List.length_append] at hlength
      rw [hattempted hattempt, Arrival.length]
      dsimp only
      omega
  | case6 raw e ready hshort bytes next hattempt _ _ ih =>
      obtain ⟨hmost, hkept⟩ := ih (hfits hshort hattempt)
      rw [List.length_append, reads_checkKeepAlive] at hmost hkept
      rw [hattempted hattempt, Arrival.length, Nat.add_assoc, Nat.add_comm bytes.length]
      exact ⟨hmost, hkept⟩

/-- An operation takes at most so many octets from the stream on an inbound lane with tags
of the given size, and leaves the size of tags alone. -/
def Act.Draws {α : Type} (tagSize bound : Nat) (m : Act C α) : Prop :=
  ∀ e, e.inbound.tagSize = tagSize →
    unread e.reads ≤ unread (m e).2.reads + bound ∧ (m e).2.inbound.tagSize = tagSize

namespace Act.Draws

variable {α β : Type} {tagSize bound more : Nat}

omit [BlockCipher C] in
theorem of_keeps {m : Act C α} (hreads : m.Keeps reads)
    (htagSize : m.Keeps (·.inbound.tagSize)) : m.Draws tagSize 0 :=
  fun e htag => ⟨(congrArg unread (hreads e)).ge, (htagSize e).trans htag⟩

omit [BlockCipher C] in
theorem mono {m : Act C α} (hm : m.Draws tagSize bound) (hle : bound ≤ more) :
    m.Draws tagSize more :=
  fun e htag => ⟨(hm e htag).1.trans (Nat.add_le_add_left hle _), (hm e htag).2⟩

omit [BlockCipher C] in
theorem bind {m : Act C α} {f : α → Act C β} (hm : m.Draws tagSize bound)
    (hf : ∀ a e next, m e = (.ok a, next) → (f a).Draws tagSize more) :
    (m >>= f).Draws tagSize (bound + more) := by
  intro e htag
  obtain ⟨hdrawn, hnext⟩ := hm e htag
  rcases houtcome : m e with ⟨fault | a, next⟩
  all_goals rw [houtcome] at hdrawn hnext
  · rw [Act.bind_of_error houtcome]
    exact ⟨hdrawn.trans (Nat.add_le_add_left (Nat.le_add_right bound more) _), hnext⟩
  · rw [Act.bind_of_ok houtcome]
    obtain ⟨hrest, hlast⟩ := hf a e next houtcome next hnext
    dsimp only at hdrawn
    exact ⟨by omega, hlast⟩

omit [BlockCipher C] in
/-- A beginning that takes nothing does not count. -/
theorem after {m : Act C α} {f : α → Act C β} (hm : m.Draws tagSize 0)
    (hf : ∀ a e next, m e = (.ok a, next) → (f a).Draws tagSize bound) :
    (m >>= f).Draws tagSize bound :=
  (hm.bind hf).mono (Nat.zero_add bound).le

omit [BlockCipher C] in
theorem before {m : Act C α} {f : α → Act C β} (hm : m.Draws tagSize bound)
    (hf : ∀ a e next, m e = (.ok a, next) → (f a).Draws tagSize 0) :
    (m >>= f).Draws tagSize bound :=
  (hm.bind hf).mono (Nat.add_zero bound).le

omit [BlockCipher C] in
theorem pure (a : α) : (Pure.pure a : Act C α).Draws tagSize bound :=
  .mono (.of_keeps (fun _ => rfl) fun _ => rfl) (Nat.zero_le _)

omit [BlockCipher C] in
theorem ofExcept (result : Except Fault α) : (Act.ofExcept result : Act C α).Draws tagSize 0 :=
  .of_keeps (fun _ => rfl) fun _ => rfl

end Act.Draws

theorem draws_fill (tagSize : Nat) (raw : Bytes) (count : Nat) :
    Act.Draws tagSize count (fill raw count : Act C (Option Bytes)) := by
  intro e htag
  exact ⟨unread_fill raw count e, (congrArg Lane.tagSize (inbound_fill raw count e)).trans htag⟩

theorem draws_decipher (tagSize : Nat) (data : Bytes) :
    (decipher data : Act C Bytes).Draws tagSize 0 := by
  refine .of_keeps (fun _ => rfl) fun e => ?_
  rcases happly : e.inbound.apply data with ⟨result, inbound⟩
  simp only [decipher, happly]
  exact (Lane.apply_eq happly).2.1

omit [BlockCipher C] in
theorem draws_dump (tagSize : Nat) (direction : Direction) (bytes : Bytes) :
    (Act.update (dump direction bytes) : Act C Unit).Draws tagSize 0 := by
  refine .of_keeps (fun e => ?_) fun e => ?_ <;>
  · unfold Act.update dump
    split <;> rfl

omit [BlockCipher C] in
theorem draws_verify (tagSize : Nat) (expected received : Bytes) :
    (verify expected received : Act C Unit).Draws tagSize 0 := by
  refine .of_keeps (fun e => ?_) fun e => ?_ <;>
  · unfold verify
    split <;> rfl

omit [BlockCipher C] in
theorem draws_deliver (tagSize : Nat) (header : Header) (frame : Bytes) :
    (deliver header frame : Act C Packet).Draws tagSize 0 := by
  refine .of_keeps (fun e => ?_) fun e => ?_
  all_goals
    obtain ⟨next, hdeliver, hinbound, -, hreads, -⟩ := deliver_eq header frame e
    rw [hdeliver]
  · exact hreads
  · exact (congrArg Lane.tagSize hinbound).trans rfl

/-- Reading a tag takes no more than its size. -/
theorem draws_authenticate (tagSize : Nat) (frame : Bytes) :
    (authenticate frame : Act C Bool).Draws tagSize tagSize := by
  intro e htag
  unfold authenticate
  rw [Act.ask_bind, id, htag]
  -- once the endpoint asked is out of sight, the rest is an operation of its own
  generalize e.inbound.sign frame = signed
  revert e htag
  refine (Act.Draws.ofExcept signed).after fun expected _ _ _ => ?_
  refine .before (draws_fill tagSize [] tagSize) fun received? _ _ _ => ?_
  cases received? with
  | none => exact .pure false
  | some received => exact (draws_verify tagSize expected received).after fun _ _ _ _ => .pure true

theorem draws_finishPacket (tagSize : Nat) (header : Header) (frame rest : Bytes) :
    (finishPacket header frame rest : Act C (Option Packet)).Draws tagSize tagSize := by
  refine .before (draws_authenticate tagSize frame) fun authentic _ _ _ => ?_
  cases authentic with
  | false => exact .pure none
  | true =>
      refine (draws_dump tagSize .inbound rest).after fun _ _ _ _ => ?_
      exact (draws_deliver tagSize header frame).after fun packet _ _ _ => .pure (some packet)

theorem draws_readRest (tagSize : Nat) (header : Header) (first carried : Bytes) :
    (readRest header first carried : Act C (Option Packet)).Draws tagSize
      (header.frameLength - (first.length + carried.length) + tagSize) := by
  refine .bind (draws_fill tagSize carried _) fun body? _ _ _ => ?_
  cases body? with
  | none => exact .pure none
  | some body =>
      exact (draws_decipher tagSize body).after fun rest _ _ _ =>
        draws_finishPacket tagSize header _ rest

/-- Once a first block is at hand, no more is taken than completes the largest frame, and
its tag. -/
theorem draws_readFrom (tagSize : Nat) (raw : Bytes) :
    (readFrom raw : Act C (Option Packet)).Draws tagSize
      (4 + maxPacketLength - raw.length + tagSize) := by
  refine .after (.of_keeps (fun _ => rfl) fun _ => rfl) fun blockSize _ _ _ => ?_
  refine (draws_decipher tagSize _).after fun first _ _ hfirst => ?_
  refine (draws_dump tagSize .inbound first).after fun _ _ _ _ => ?_
  refine (Act.Draws.ofExcept _).after fun header _ _ hparse => ?_
  have hcarried : first.length + (raw.drop blockSize).length = raw.length := by
    rw [Buffered.length_of_decipher hfirst, ← List.length_append, List.take_append_drop]
  -- only an accepted header bounds the frame that is to be completed
  have hlength := (Header.wellFormed_of_parse (congrArg Prod.fst hparse)).packetLength_le
  split
  · exact .mono (.of_keeps (fun _ => rfl) fun _ => rfl) (Nat.zero_le _)
  · refine (draws_readRest tagSize header first _).mono ?_
    rw [hcarried, Header.frameLength]
    omega

theorem unread_readPacket (e : Endpoint C) :
    unread e.reads ≤ unread (readPacket e).2.reads +
      (4 + maxPacketLength + (readPacket e).2.inbound.tagSize) := by
  obtain ⟨hmost, hkept⟩ := unread_awaitFirstBlock [] (Nat.zero_le _) e
  rw [List.length_nil, Nat.add_zero] at hmost hkept
  have hchunk : maxBlockSize ≤ 4 + maxPacketLength := by decide
  unfold readPacket
  rcases houtcome : awaitFirstBlock [] e with ⟨fault | raw?, next⟩
  all_goals rw [houtcome] at hmost hkept
  · rw [Act.bind_of_error houtcome]
    dsimp only at hmost ⊢
    omega
  · rw [Act.bind_of_ok houtcome]
    cases raw? with
    | none =>
        change _ ≤ unread next.reads + (4 + maxPacketLength + next.inbound.tagSize)
        dsimp only at hmost
        omega
    | some raw =>
        obtain ⟨hdrawn, htag⟩ := draws_readFrom next.inbound.tagSize raw next rfl
        have hraw := hkept raw rfl
        dsimp only at hmost hraw ⊢
        rw [htag]
        omega

/-- A read with fixed buffers stays within them and does what a read does, whatever is to
come on the stream and whatever protections come into use meanwhile. It takes no more from
the stream than the largest frame and its tag. -/
theorem read_within_bounds (e : Endpoint C) :
    Buffered.read e = some (read e) ∧
      unread e.reads ≤ unread (read e).2.reads +
        (4 + maxPacketLength + (read e).2.inbound.tagSize) := by
  refine ⟨Buffered.read_eq e, ?_⟩
  unfold read
  split
  · exact Nat.le_add_right _ _
  · have hpacket := unread_readPacket e
    unfold Act.noting
    split
    next hread => rwa [hread] at hpacket
    next hread =>
      rw [hread] at hpacket
      exact hpacket

end Endpoint

end PacketLayer
