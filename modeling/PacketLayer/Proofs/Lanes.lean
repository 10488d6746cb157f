import PacketLayer.Lane
import PacketLayer.Packet
import PacketLayer.Proofs.Framing

/-! # Packets on a lane

The octets to come on a lane begin with a genuine packet, or the lane refuses them
for one of a few reasons. Both are stated of the octets as a whole, without the
stages in which a reader takes them.
-/

namespace PacketLayer.Lane

variable {C : Type} [BlockCipher C]

omit [BlockCipher C] in
theorem blockSize_le_max (lane : Lane C) : lane.blockSize ≤ maxBlockSize := by
  cases lane with
  | mk protection sequence =>
      cases protection with
      | none => exact (by decide : plaintextBlockSize ≤ maxBlockSize)
      | some protection => exact protection.blockSize_le

theorem isProtected_apply (lane : Lane C) (data : Bytes) :
    (lane.apply data).2.isProtected = lane.isProtected := by
  obtain ⟨_ | protection, sequence⟩ := lane <;> rfl

/-- Using the cipher of a lane changes no length, and leaves alone everything that
framing and signing depend on. -/
theorem apply_eq {lane next : Lane C} {data : Bytes} {result : Except Fault Bytes}
    (happly : lane.apply data = (result, next)) :
    next.blockSize = lane.blockSize ∧ next.tagSize = lane.tagSize ∧
      next.sequence = lane.sequence ∧ (∀ packet, next.sign packet = lane.sign packet) ∧
      ∀ output, result = .ok output → output.length = data.length := by
  cases lane with
  | mk protection sequence =>
      cases protection with
      | none =>
          obtain ⟨rfl, rfl⟩ := Prod.mk.inj happly
          refine ⟨rfl, rfl, rfl, fun _ => rfl, ?_⟩
          rintro output ⟨⟩
          rfl
      | some protection =>
          obtain ⟨rfl, rfl⟩ := Prod.mk.inj happly
          exact ⟨rfl, rfl, rfl, fun _ => rfl, fun _ => BlockCipher.length_eq⟩

/-- The octets begin with a whole first block, which the lane deciphers and which holds a
well-formed header. -/
structure Opens (lane : Lane C) (octets first : Bytes) (next : Lane C) : Prop where
  enough : lane.blockSize ≤ octets.length
  deciphers : lane.apply (octets.take lane.blockSize) = (.ok first, next)
  formed : (Header.ofBlock first).WellFormed lane.blockSize

theorem Opens.length_eq {lane next : Lane C} {octets first : Bytes}
    (hopens : lane.Opens octets first next) :
    first.length = lane.blockSize := by
  obtain ⟨-, -, -, -, hlength⟩ := apply_eq hopens.deciphers
  rw [hlength first rfl, List.length_take, Nat.min_eq_left hopens.enough]

/-- The octets begin with a whole frame, which the lane deciphers. -/
inductive Unfolds (lane : Lane C) (octets : Bytes) : Header → Bytes → Lane C → Prop where
  | intro {first rest : Bytes} {middle next : Lane C} (hopens : lane.Opens octets first middle)
      (henough : (Header.ofBlock first).frameLength ≤ octets.length)
      (hrest : middle.apply ((octets.take (Header.ofBlock first).frameLength).drop
        lane.blockSize) = (.ok rest, next)) :
      Unfolds lane octets (Header.ofBlock first) (first ++ rest) next

theorem Unfolds.length_eq {lane next : Lane C} {octets frame : Bytes} {header : Header}
    (hunfolds : lane.Unfolds octets header frame next) : frame.length = header.frameLength := by
  obtain ⟨hopens, henough, hrest⟩ := hunfolds
  obtain ⟨-, -, -, -, hlength⟩ := apply_eq hrest
  have hblock := hopens.formed.blockSize_le
  rw [List.length_append, hopens.length_eq, hlength _ rfl, List.length_drop, List.length_take,
    Nat.min_eq_left henough]
  omega

theorem Unfolds.lane_eq {lane next : Lane C} {octets frame : Bytes} {header : Header}
    (hunfolds : lane.Unfolds octets header frame next) :
    header.frameLength ≤ octets.length ∧ next.tagSize = lane.tagSize ∧
      next.sequence = lane.sequence ∧ ∀ packet, next.sign packet = lane.sign packet := by
  obtain ⟨hopens, henough, hrest⟩ := hunfolds
  obtain ⟨-, htagSize, hsequence, hsign, -⟩ := apply_eq hopens.deciphers
  obtain ⟨-, htagSize', hsequence', hsign', -⟩ := apply_eq hrest
  exact ⟨henough, htagSize'.trans htagSize, hsequence'.trans hsequence,
    fun packet => (hsign' packet).trans (hsign packet)⟩

theorem Opens.unique {lane next other : Lane C} {octets first block : Bytes}
    (hopens : lane.Opens octets first next) (hother : lane.Opens octets block other) :
    first = block ∧ next = other := by
  have hsame := hopens.deciphers.symm.trans hother.deciphers
  simp only [Prod.mk.injEq, Except.ok.injEq] at hsame
  exact hsame

theorem Unfolds.unique {lane next other : Lane C} {octets frame packet : Bytes}
    {header declared : Header} (hunfolds : lane.Unfolds octets header frame next)
    (hother : lane.Unfolds octets declared packet other) :
    header = declared ∧ frame = packet ∧ next = other := by
  obtain ⟨hopens, -, hrest⟩ := hunfolds
  obtain ⟨hopens', -, hrest'⟩ := hother
  obtain ⟨rfl, rfl⟩ := hopens.unique hopens'
  have hsame := hrest.symm.trans hrest'
  simp only [Prod.mk.injEq, Except.ok.injEq] at hsame
  obtain ⟨rfl, rfl⟩ := hsame
  exact ⟨rfl, rfl, rfl⟩

theorem Unfolds.opens {lane next : Lane C} {octets frame : Bytes} {header : Header}
    (hunfolds : lane.Unfolds octets header frame next) :
    ∃ first middle, lane.Opens octets first middle ∧ header = .ofBlock first := by
  obtain ⟨hopens, -, -⟩ := hunfolds
  exact ⟨_, _, hopens, rfl⟩

/-- The octets begin with a packet that passes every check: a frame and its tag. -/
structure Genuine (lane : Lane C) (octets : Bytes) (header : Header) (frame : Bytes)
    (next : Lane C) : Prop where
  unfolds : lane.Unfolds octets header frame next
  enough : header.frameLength + lane.tagSize ≤ octets.length
  signed : lane.sign frame = .ok ((octets.drop header.frameLength).take lane.tagSize)

/-- Why octets are refused, and with what result: they end too early, an engine fails, the
header is malformed, or the tag differs. -/
inductive Refuses (lane : Lane C) (octets : Bytes) : Except Fault (Option Packet) → Prop where
  | shortBlock (hshort : octets.length < lane.blockSize) : Refuses lane octets (.ok none)
  | blockFault {fault : Fault} {next : Lane C} (henough : lane.blockSize ≤ octets.length)
      (hfault : lane.apply (octets.take lane.blockSize) = (.error fault, next)) :
      Refuses lane octets (.error fault)
  | malformed {first : Bytes} {next : Lane C} {fault : Fault}
      (henough : lane.blockSize ≤ octets.length)
      (hblock : lane.apply (octets.take lane.blockSize) = (.ok first, next))
      (hmalformed : ¬(Header.ofBlock first).WellFormed lane.blockSize)
      (hframing : fault.category = .framing) : Refuses lane octets (.error fault)
  | shortFrame {first : Bytes} {next : Lane C} (hopens : lane.Opens octets first next)
      (hshort : octets.length < (Header.ofBlock first).frameLength) :
      Refuses lane octets (.ok none)
  | restFault {first : Bytes} {fault : Fault} {middle next : Lane C}
      (hopens : lane.Opens octets first middle)
      (henough : (Header.ofBlock first).frameLength ≤ octets.length)
      (hfault : middle.apply ((octets.take (Header.ofBlock first).frameLength).drop
        lane.blockSize) = (.error fault, next)) : Refuses lane octets (.error fault)
  | tagFault {header : Header} {frame : Bytes} {next : Lane C} {fault : Fault}
      (hunfolds : lane.Unfolds octets header frame next)
      (hfault : lane.sign frame = .error fault) : Refuses lane octets (.error fault)
  | shortTag {header : Header} {frame tag : Bytes} {next : Lane C}
      (hunfolds : lane.Unfolds octets header frame next) (hsign : lane.sign frame = .ok tag)
      (hshort : octets.length < header.frameLength + lane.tagSize) :
      Refuses lane octets (.ok none)
  | mismatch {header : Header} {frame tag : Bytes} {next : Lane C}
      (hunfolds : lane.Unfolds octets header frame next) (hsign : lane.sign frame = .ok tag)
      (henough : header.frameLength + lane.tagSize ≤ octets.length)
      (hdiffers : tag ≠ (octets.drop header.frameLength).take lane.tagSize) :
      Refuses lane octets (.error (.tagMismatch lane.sequence.value))

/-- Octets are not both genuine and refused. -/
theorem Genuine.not_refuses {lane next : Lane C} {octets frame : Bytes} {header : Header}
    {result : Except Fault (Option Packet)} (hgenuine : lane.Genuine octets header frame next) :
    ¬lane.Refuses octets result := by
  obtain ⟨hunfolds, henough, hsigned⟩ := hgenuine
  have hsame {declared : Header} {packet : Bytes} {other : Lane C}
      (hother : lane.Unfolds octets declared packet other) :
      declared = header ∧ packet = frame :=
    ⟨(hother.unique hunfolds).1, (hother.unique hunfolds).2.1⟩
  intro hrefuses
  -- every defect contradicts one of the stages that a genuine packet has passed
  cases hrefuses with
  | shortBlock hshort =>
      obtain ⟨hopens, -, -⟩ := hunfolds
      exact absurd hopens.enough (Nat.not_le.mpr hshort)
  | blockFault _ hfault =>
      obtain ⟨hopens, -, -⟩ := hunfolds
      rw [hopens.deciphers] at hfault
      cases hfault
  | malformed _ hblock hmalformed _ =>
      obtain ⟨hopens, -, -⟩ := hunfolds
      rw [hopens.deciphers] at hblock
      cases hblock
      exact hmalformed hopens.formed
  | shortFrame hopens hshort =>
      obtain ⟨hopens', hwhole, -⟩ := hunfolds
      obtain ⟨rfl, rfl⟩ := hopens.unique hopens'
      exact absurd hwhole (Nat.not_le.mpr hshort)
  | restFault hopens _ hfault =>
      obtain ⟨hopens', -, hrest⟩ := hunfolds
      obtain ⟨rfl, rfl⟩ := hopens.unique hopens'
      rw [hrest] at hfault
      cases hfault
  | tagFault hother hfault =>
      obtain ⟨rfl, rfl⟩ := hsame hother
      rw [hsigned] at hfault
      cases hfault
  | shortTag hother _ hshort =>
      obtain ⟨rfl, rfl⟩ := hsame hother
      exact absurd henough (Nat.not_le.mpr hshort)
  | mismatch hother hsign _ hdiffers =>
      obtain ⟨rfl, rfl⟩ := hsame hother
      rw [hsigned] at hsign
      exact hdiffers (Except.ok.inj hsign).symm

end PacketLayer.Lane
