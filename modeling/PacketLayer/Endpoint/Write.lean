import PacketLayer.Endpoint.Wait
import PacketLayer.Text.Utf8

/-!
# Writing

Messages and banner lines are written once the outbound lane is free of
keep-alive messages. Nothing is written on an endpoint that was closed before.
-/

namespace PacketLayer.Endpoint

variable {C : Type} [BlockCipher C]

/-- Seals one message and sends it. -/
def sendPacket (payload : Bytes) : Act C Unit := do
  let packet ← sealPacket payload
  sendAll packet.bytes
  completePacket packet.frameLength

/-- Writes one message. -/
def write (payload : Bytes) : Act C Unit := fun e =>
  if e.closed then (.error .closed, e)
  else Act.noting .outbound (sendPacket payload) e.awaitOutbound

/-- Sends a line as it stands, without framing. -/
def sendLine (line : String) : Act C Unit := do
  sendAll (Text.Utf8.encode line)
  flush

/-- Writes a banner line. -/
def writeBanner (line : String) : Act C Unit := fun e =>
  if e.closed then (.error .closed, e) else sendLine line e.awaitOutbound

/-- Brings an outbound protection into use, once the outbound lane is free. -/
def replaceOutbound (protection : Protection C) (e : Endpoint C) : Endpoint C :=
  e.awaitOutbound.installOutbound protection

end PacketLayer.Endpoint
