import PacketLayer.Endpoint.Act

/-!
# Sealing packets

A message is framed, noted, signed and enciphered, in this order, and takes the
next outbound sequence number. Once the stream has accepted the sealed packet,
the stream is flushed and the packet is counted.
-/

namespace PacketLayer.Endpoint

variable {C : Type}

/-- A packet as it goes to the stream: its enciphered frame and its tag. -/
structure SealedPacket where
  bytes : Bytes
  /-- The length of the frame alone. -/
  frameLength : Nat
  deriving DecidableEq, Repr

/-- Frames a payload for the outbound lane. -/
def frameOutbound (payload : Bytes) : Act C Bytes := fun e =>
  let (result, padding) := frame payload e.outbound.blockSize e.padding
  (result, { e with padding })

/-- Enciphers the octets of a packet. -/
def encipher [BlockCipher C] (packet : Bytes) : Act C Bytes := fun e =>
  let (result, outbound) := e.outbound.apply packet
  (result, { e with outbound })

/-- Consumes the outbound sequence number. -/
def advanceOutbound (e : Endpoint C) : Endpoint C :=
  { e with outbound := e.outbound.advance }

/-- Makes the packet that carries a message. -/
def sealPacket [BlockCipher C] (payload : Bytes) : Act C SealedPacket := do
  let packet ← frameOutbound payload
  Act.update (note (.packet .outbound (MessageType.describePayload payload) packet.length))
  Act.update (dump .outbound packet)
  let e ← Act.ask id
  let tag ← Act.ofExcept (e.outbound.sign packet)
  let enciphered ← encipher packet
  Act.update advanceOutbound
  return ⟨enciphered ++ tag, packet.length⟩

/-- Flushes the stream once. -/
def flush : Act C Unit := fun e =>
  match e.flushes with
  | .fail failure :: flushes => (.error (.stream failure), { e with flushes })
  | _ => (.ok (), { e with flushes := e.flushes.tail })

/-- Ends the sending of a packet whose frame has the given length. -/
def completePacket (frameLength : Nat) : Act C Unit := do
  flush
  Act.update (accountSent frameLength)

/-- The clock, the write script and the message set aside, which only sending and
waiting touch. -/
def outlet (e : Endpoint C) : Nat × WriteScript (Protection C) × Option HeldMessage :=
  (e.now, e.writes, e.held)

theorem outlet_dump (direction : Direction) (bytes : Bytes) (e : Endpoint C) :
    (e.dump direction bytes).outlet = e.outlet := by
  unfold dump
  split <;> rfl

theorem outlet_accountSent (bytes : Nat) (e : Endpoint C) :
    (e.accountSent bytes).outlet = e.outlet := by
  unfold accountSent
  dsimp only
  split <;> rfl

/-- Sealing a packet takes no time and leaves the stream alone. -/
theorem keeps_sealPacket [BlockCipher C] (payload : Bytes) :
    (sealPacket payload : Act C SealedPacket).Keeps outlet := by
  refine .bind (fun _ => rfl) fun packet => ?_
  refine .bind (fun _ => rfl) fun _ => ?_
  refine .bind (outlet_dump _ _) fun _ => ?_
  refine .bind (fun _ => rfl) fun state => ?_
  refine .bind (fun _ => rfl) fun tag => ?_
  refine .bind (fun _ => rfl) fun enciphered => ?_
  exact .bind (fun _ => rfl) fun _ _ => rfl

theorem keeps_flush : (flush : Act C Unit).Keeps outlet := by
  intro e
  unfold flush
  split <;> rfl

/-- Ending a packet takes no time and leaves the write script alone. -/
theorem keeps_completePacket (frameLength : Nat) :
    (completePacket frameLength : Act C Unit).Keeps outlet :=
  .bind keeps_flush fun _ => outlet_accountSent frameLength

end PacketLayer.Endpoint
