import PacketLayer.Proofs.Announcement
import PacketLayer.Proofs.Bounds
import PacketLayer.Proofs.Cadence
import PacketLayer.Proofs.Chunks
import PacketLayer.Proofs.Closing
import PacketLayer.Proofs.Deadlines
import PacketLayer.Proofs.Discretion
import PacketLayer.Proofs.Engines
import PacketLayer.Proofs.Failures
import PacketLayer.Proofs.Handover
import PacketLayer.Proofs.Idleness
import PacketLayer.Proofs.Interludes
import PacketLayer.Proofs.Layout
import PacketLayer.Proofs.Numbering
import PacketLayer.Proofs.Pieces
import PacketLayer.Proofs.Refusals
import PacketLayer.Proofs.Rekey.Epochs
import PacketLayer.Proofs.Rekey.Grace
import PacketLayer.Proofs.Rekey.Limits
import PacketLayer.Proofs.Rekey.Overrun
import PacketLayer.Proofs.Succession
import PacketLayer.Proofs.Tally
import PacketLayer.Proofs.Turns
import PacketLayer.Proofs.Unsent
import PacketLayer.Rehearsal.Session
import PacketLayer.Version
