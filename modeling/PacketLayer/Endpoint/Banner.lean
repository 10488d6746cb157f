import PacketLayer.Endpoint.Receive
import PacketLayer.Text.Utf8

/-!
# Banner lines

Before any packet, the two sides exchange lines of text. A line is read octet by
octet, so that nothing after its end is taken from the stream, and it may have
to arrive before a deadline.
-/

namespace PacketLayer.Endpoint

variable {C : Type}

/-- The octet that ends a line. -/
def lineFeed : UInt8 := 10

/-- Drops one carriage return from the end of a line given backwards. -/
def dropCarriageReturn : Bytes → Bytes
  | [] => []
  | byte :: earlier => if byte = 13 then earlier else byte :: earlier

/-- The longest time that an attempt may take now. -/
def bannerLimit (deadline : Option Nat) (e : Endpoint C) : Nat :=
  match deadline with
  | none => e.config.pollInterval
  | some time => min e.config.pollInterval (time - e.now)

/-- Whether a deadline has passed. -/
def expired (deadline : Option Nat) (e : Endpoint C) : Bool :=
  match deadline with
  | none => false
  | some time => time ≤ e.now

/-- Time is left for an attempt if the deadline has not passed by its end. -/
theorem bannerLimit_ne_zero {deadline : Option Nat} {e next : Endpoint C}
    (hmoved : e.now ≤ next.now) (hearly : ¬next.expired deadline = true) :
    e.bannerLimit deadline ≠ 0 := by
  have hpositive := e.valid.pollInterval
  cases deadline with
  | none => exact hpositive
  | some time =>
      simp only [expired, decide_eq_true_eq] at hearly
      simp only [bannerLimit]
      omega

/-- Reads the rest of a line whose octets so far are given backwards. -/
def readLine [BlockCipher C] (deadline : Option Nat) (line : Bytes) (e : Endpoint C) :
    Except Fault (Option String) × Endpoint C :=
  match _hattempt : e.receive 1 (e.bannerLimit deadline) with
  | (.finished, next) => (.ok none, next)
  | (.failed failure, next) => (.error (.stream failure), next)
  | (.more bytes, next) =>
      if bytes = [lineFeed] then
        (.ok (some (Text.Utf8.read (dropCarriageReturn line).reverse)), next)
      else if bytes ≠ [] ∧ next.config.maxBannerLine ≤ line.length then
        (.error (.bannerTooLong next.config.maxBannerLine), next)
      else if _hearly : next.expired deadline then (.error .bannerDeadline, next)
      else if next.closed then
        (.ok (some (Text.Utf8.read (bytes.reverse ++ line).reverse)), next)
      else readLine deadline (bytes.reverse ++ line) next
  termination_by e.readCost
  decreasing_by
    exact readCost_of_more Nat.one_ne_zero
      (bannerLimit_ne_zero (now_le_receive _hattempt) _hearly) _hattempt

/-- Reads one line, within the given time unless that is zero. -/
def readBanner [BlockCipher C] (milliseconds : Nat) : Act C (Option String) := fun e =>
  readLine (if milliseconds = 0 then none else some (e.now + milliseconds)) [] e

end PacketLayer.Endpoint
