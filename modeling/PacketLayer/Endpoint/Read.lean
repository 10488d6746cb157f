import PacketLayer.Endpoint.Receive
import PacketLayer.Header
import PacketLayer.Packet

/-!
# Reading

A packet is read in stages: its first block, whose header gives its length, the
rest of its frame, and its tag. Only a packet whose header and tag pass every
check is delivered, numbered and counted. A read that meets the end of the
stream, or finds the endpoint closed, delivers nothing.
-/

namespace PacketLayer.Endpoint

variable {C : Type} [BlockCipher C]

/-- Reads until a whole first block is at hand, in addition to the octets already
read. A parked protection comes into use on every turn, and with it its block
size; so there may be more octets than one block in the end. -/
def awaitFirstBlock (raw : Bytes) (e : Endpoint C) : Except Fault (Option Bytes) × Endpoint C :=
  let ready := e.activateParked
  if _hcomplete : ready.inbound.blockSize ≤ raw.length then (.ok (some raw), ready)
  else
    match _hattempt : ready.receive (ready.inbound.blockSize - raw.length)
        ready.config.pollInterval with
    | (.finished, next) => (.ok none, next)
    | (.failed failure, next) => (.error (.stream failure), next)
    | (.more bytes, next) =>
        if ready.inbound.blockSize ≤ (raw ++ bytes).length then
          awaitFirstBlock (raw ++ bytes) next
        else if next.closed then (.ok none, next)
        else awaitFirstBlock (raw ++ bytes) next.checkKeepAlive
  termination_by e.readCost
  decreasing_by
    · rw [← readCost_activateParked e]
      exact readCost_of_more (Nat.sub_ne_zero_of_lt (Nat.lt_of_not_le _hcomplete))
        ready.valid.pollInterval _hattempt
    · rw [← readCost_activateParked e, readCost_checkKeepAlive]
      exact readCost_of_more (Nat.sub_ne_zero_of_lt (Nat.lt_of_not_le _hcomplete))
        ready.valid.pollInterval _hattempt

/-- Reads `count` octets in addition to those already read. -/
def fill (raw : Bytes) (count : Nat) (e : Endpoint C) :
    Except Fault (Option Bytes) × Endpoint C :=
  if _hcomplete : count = 0 then (.ok (some raw), e)
  else
    match _hattempt : e.receive count e.config.pollInterval with
    | (.finished, next) => (.ok none, next)
    | (.failed failure, next) => (.error (.stream failure), next)
    | (.more bytes, next) =>
        if count ≤ bytes.length then (.ok (some (raw ++ bytes)), next)
        else if next.closed then (.ok none, next)
        else fill (raw ++ bytes) (count - bytes.length) next.checkKeepAlive
  termination_by e.readCost
  decreasing_by
    rw [readCost_checkKeepAlive]
    exact readCost_of_more _hcomplete e.valid.pollInterval _hattempt

/-- Deciphers the next octets of a packet. -/
def decipher (data : Bytes) : Act C Bytes := fun e =>
  let (result, inbound) := e.inbound.apply data
  (result, { e with inbound })

/-- Consumes the inbound sequence number. -/
def advanceInbound (e : Endpoint C) : Endpoint C :=
  { e with inbound := e.inbound.advance }

/-- Refuses a tag that differs from the expected one. -/
def verify (expected received : Bytes) : Act C Unit := fun e =>
  if expected = received then (.ok (), e)
  else (.error (.tagMismatch e.inbound.sequence.value), e)

/-- Numbers, notes and counts a packet that passed every check. -/
def deliver (header : Header) (frame : Bytes) : Act C Packet := do
  let e ← Act.ask id
  let payload := (frame.drop headerLength).take header.payloadLength
  let packet : Packet := ⟨payload, e.inbound.sequence.value⟩
  Act.update advanceInbound
  Act.update (note (.packet .inbound packet.describe payload.length))
  accountReceived (header.packetLength + e.inbound.tagSize + 4)
  return packet

/-- Reads the tag of a deciphered frame and refuses a wrong one. There is none if
the stream ends. -/
def authenticate (frame : Bytes) : Act C Bool := do
  let e ← Act.ask id
  let expected ← Act.ofExcept (e.inbound.sign frame)
  let some received ← fill [] e.inbound.tagSize | return false
  verify expected received
  return true

/-- Ends the reading of a packet whose frame is deciphered; `rest` is the frame without
its first block. -/
def finishPacket (header : Header) (frame rest : Bytes) : Act C (Option Packet) := do
  if ← authenticate frame then
    Act.update (dump .inbound rest)
    let packet ← deliver header frame
    return some packet
  else return none

/-- Reads what follows the deciphered first block of a packet, of which some octets
may be there already. -/
def readRest (header : Header) (first carried : Bytes) : Act C (Option Packet) := do
  let some body ← fill carried (header.frameLength - (first.length + carried.length))
    | return none
  let rest ← decipher body
  finishPacket header (first ++ rest) rest

/-- Reads the packet that begins with the given octets, at least a first block. -/
def readFrom (raw : Bytes) : Act C (Option Packet) := do
  let blockSize ← Act.ask (·.inbound.blockSize)
  let first ← decipher (raw.take blockSize)
  Act.update (dump .inbound first)
  let header ← Act.ofExcept (Header.parse first blockSize)
  if header.frameLength < raw.length then
    Act.fail (.shorterThanFirstRead header.frameLength)
  else readRest header first (raw.drop blockSize)

/-- Reads one packet. -/
def readPacket : Act C (Option Packet) := do
  let some raw ← awaitFirstBlock [] | return none
  readFrom raw

/-- Reads one message. Nothing is read once the endpoint is closed. -/
def read : Act C (Option Packet) := fun e =>
  if e.closed then (.ok none, e) else Act.noting .inbound readPacket e

end PacketLayer.Endpoint
