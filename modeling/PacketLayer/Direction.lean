/-!
# Traffic directions

A connection carries two independent packet streams. Each has its own
protection, its own sequence numbers and its own label in the journal.
-/

namespace PacketLayer

/-- The side of the connection that a packet or a protection belongs to. -/
inductive Direction where
  /-- From the peer to this endpoint. -/
  | inbound
  /-- From this endpoint to the peer. -/
  | outbound
  deriving DecidableEq, Repr

/-- The label written into journal entries. -/
def Direction.label : Direction → String
  | .inbound => "IN"
  | .outbound => "OUT"

end PacketLayer
