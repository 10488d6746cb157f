import PacketLayer.Endpoint.Read
import PacketLayer.Proofs.Lanes

/-! # Taking and delivering

Reading a packet is taking a frame off the stream, up to the check of its tag, and then
delivering what was taken. The number and the frame for which the tag is found right are
the verification of the read.
-/

namespace PacketLayer.Endpoint

variable {C : Type}

namespace Act

variable {α β γ : Type}

theorem bind_assoc (m : Act C α) (f : α → Act C β) (g : β → Act C γ) :
    m >>= f >>= g = m >>= fun a => f a >>= g := by
  funext e
  rcases houtcome : m e with ⟨fault | a, next⟩
  · rw [bind_of_error (bind_of_error houtcome), bind_of_error houtcome]
  · rw [bind_of_ok houtcome]
    rcases hnext : f a next with ⟨fault | b, last⟩
    · rw [bind_of_error ((bind_of_ok houtcome).trans hnext), bind_of_error hnext]
    · rw [bind_of_ok ((bind_of_ok houtcome).trans hnext), bind_of_ok hnext]

/-- A step that cannot fail in the end changes nothing but the result. -/
theorem bind_pure_eq (m : Act C α) (f : α → β) (e : Endpoint C) :
    (m >>= fun a => pure (f a)) e = ((m e).1.map f, (m e).2) := by
  rcases houtcome : m e with ⟨fault | a, next⟩
  · exact bind_of_error houtcome
  · exact bind_of_ok houtcome

theorem bind_apply_congr {m n : Act C α} {f : α → Act C β} {e other : Endpoint C}
    (h : m e = n other) : (m >>= f) e = (n >>= f) other := by
  rcases houtcome : n other with ⟨fault | a, next⟩
  · rw [bind_of_error houtcome, bind_of_error (h.trans houtcome)]
  · rw [bind_of_ok houtcome, bind_of_ok (h.trans houtcome)]

theorem bind_congr {m : Act C α} {f g : α → Act C β} (h : ∀ a, f a = g a) :
    m >>= f = m >>= g :=
  congrArg (m >>= ·) (funext h)

end Act

variable [BlockCipher C]

omit [BlockCipher C] in
theorem activateParked_of_none {e : Endpoint C} (hparked : e.parked = none) :
    e.activateParked = e := by
  unfold activateParked
  rw [hparked]

omit [BlockCipher C] in
theorem parked_activateParked (e : Endpoint C) : e.activateParked.parked = none := by
  unfold activateParked
  split
  next hnone => exact hnone
  next protection _ => rfl

theorem awaitFirstBlock_activateParked (raw : Bytes) (e : Endpoint C) :
    awaitFirstBlock raw e.activateParked = awaitFirstBlock raw e := by
  rw [awaitFirstBlock, activateParked_of_none (parked_activateParked e), ← awaitFirstBlock]

/-- Checks the tag of a deciphered frame; `rest` is the frame without its first block. -/
def checkFrame (header : Header) (frame rest : Bytes) : Act C (Option (Header × Bytes)) := do
  if ← authenticate frame then
    Act.update (dump .inbound rest)
    return some (header, frame)
  else return none

/-- Takes what follows the deciphered first block of a packet. -/
def takeRest (header : Header) (first carried : Bytes) : Act C (Option (Header × Bytes)) := do
  let some body ← fill carried (header.frameLength - (first.length + carried.length))
    | return none
  let rest ← decipher body
  checkFrame header (first ++ rest) rest

/-- Takes the packet that begins with the given octets, at least a first block. -/
def takeFrom (raw : Bytes) : Act C (Option (Header × Bytes)) := do
  let blockSize ← Act.ask (·.inbound.blockSize)
  let first ← decipher (raw.take blockSize)
  Act.update (dump .inbound first)
  let header ← Act.ofExcept (Header.parse first blockSize)
  if header.frameLength < raw.length then
    Act.fail (.shorterThanFirstRead header.frameLength)
  else takeRest header first (raw.drop blockSize)

/-- Takes one packet off the stream, and delivers nothing yet. -/
def takeFrame : Act C (Option (Header × Bytes)) := do
  let some raw ← awaitFirstBlock [] | return none
  takeFrom raw

/-- Delivers a packet that was taken. -/
def deliverTaken : Option (Header × Bytes) → Act C (Option Packet)
  | none => return none
  | some (header, frame) => do
      let packet ← deliver header frame
      return some packet

theorem finishPacket_eq (header : Header) (frame rest : Bytes) :
    (finishPacket header frame rest : Act C (Option Packet)) =
      checkFrame header frame rest >>= deliverTaken := by
  rw [finishPacket, checkFrame, Act.bind_assoc]
  refine Act.bind_congr fun authentic => ?_
  cases authentic <;> rfl

theorem readRest_eq (header : Header) (first carried : Bytes) :
    (readRest header first carried : Act C (Option Packet)) =
      takeRest header first carried >>= deliverTaken := by
  refine (Act.bind_congr fun body? => ?_).trans (Act.bind_assoc _ _ _).symm
  cases body? with
  | none => rfl
  | some body =>
      dsimp only
      rw [Act.bind_assoc]
      exact Act.bind_congr fun rest => finishPacket_eq header (first ++ rest) rest

theorem readFrom_eq (raw : Bytes) :
    (readFrom raw : Act C (Option Packet)) = takeFrom raw >>= deliverTaken := by
  simp only [readFrom, takeFrom, Act.bind_assoc]
  refine Act.bind_congr fun blockSize => Act.bind_congr fun first =>
    Act.bind_congr fun _ => Act.bind_congr fun header => ?_
  split
  · rfl
  · exact readRest_eq header first _

theorem readPacket_eq : (readPacket : Act C (Option Packet)) = takeFrame >>= deliverTaken := by
  refine (Act.bind_congr fun raw? => ?_).trans (Act.bind_assoc _ _ _).symm
  cases raw? with
  | none => rfl
  | some raw => exact readFrom_eq raw

/-- The number and the frame whose tag a read finds right, if it comes to that. -/
def verification (e : Endpoint C) : Option (UInt32 × Bytes) :=
  if e.closed then none
  else
    match takeFrame e with
    | (.ok (some (_, frame)), next) => some (next.inbound.sequence.value, frame)
    | _ => none

/-- The packet that a frame carries which is verified under a number. -/
def packetOf (verified : UInt32 × Bytes) : Packet :=
  ⟨(verified.2.drop headerLength).take (Header.ofBlock verified.2).payloadLength, verified.1⟩

end PacketLayer.Endpoint
