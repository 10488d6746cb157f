import PacketLayer.Endpoint.Wait

/-!
# Receiving octets

Octets are taken from the stream in attempts. An attempt ends when octets
arrive, when the stream ends or fails, or when its time has passed. Each attempt
that asks to be repeated lowers the cost of the read script.
-/

namespace PacketLayer.Endpoint

variable {C : Type}

/-- How an attempt to read ends. -/
inductive Arrival where
  /-- These octets arrived; there are none if the time passed or the stream
  failed for the moment only. -/
  | more (bytes : Bytes)
  /-- The stream is at its end. -/
  | finished
  /-- The stream failed for good. -/
  | failed (failure : StreamFailure)
  deriving DecidableEq, Repr

/-- What is left of arriving octets when `want` of them have been taken. -/
def leftOver (want : Nat) (bytes : Bytes) (items : ReadScript (Protection C)) :
    ReadScript (Protection C) :=
  match bytes.drop want with
  | [] => items
  | byte :: rest => .data (byte :: rest) :: items

/-- Follows the read script through one attempt to read up to `want` octets. A
pause that outlasts the attempt ends it at its deadline and stays in the script.
An outbound protection that comes in force during the attempt takes effect at
once: scripts place it where the outbound lane is free, which is where the lane's
lock lets the installing call through. -/
def arrive [BlockCipher C] (want deadline : Nat) :
    ReadScript (Protection C) → Endpoint C → Arrival × ReadScript (Protection C) × Endpoint C
  | [], e => (.finished, [], e)
  | .data bytes :: items, e =>
      if bytes.isEmpty then (.finished, items, e)
      else (.more (bytes.take want), leftOver want bytes items, e)
  | .eof :: items, e => (.finished, items, e)
  | .fail failure :: items, e =>
      (if failure.kind.isTransient then .more [] else .failed failure, items, e)
  | .pause milliseconds :: items, e =>
      let time := e.now + milliseconds
      if time ≤ max e.now deadline then arrive want deadline items (e.waitUntil .busy time)
      else (.more [], .resumeAt time :: items, e.waitUntil .busy deadline)
  | .resumeAt time :: items, e =>
      if time ≤ max e.now deadline then arrive want deadline items (e.waitUntil .busy time)
      else (.more [], .resumeAt time :: items, e.waitUntil .busy deadline)
  | .installOutbound protection :: items, e =>
      arrive want deadline items (e.installOutbound protection)
  | .act action :: items, e => arrive want deadline items (e.act .busy action)

/-- One attempt to read up to `want` octets within `limit` milliseconds. -/
def receive [BlockCipher C] (want limit : Nat) (e : Endpoint C) : Arrival × Endpoint C :=
  match arrive want (e.now + limit) e.reads e with
  | (arrival, reads, e) => (arrival, { e with reads })

/-- A bound on the attempts to read that the script allows. -/
def readCost (e : Endpoint C) : Nat :=
  ReadScript.cost e.now e.reads

/-- An attempt never moves the clock backwards. -/
theorem now_le_arrive [BlockCipher C] (want deadline : Nat) (items : ReadScript (Protection C))
    (e : Endpoint C) : e.now ≤ (arrive want deadline items e).2.2.now := by
  induction items generalizing e with
  | nil => exact Nat.le_refl _
  | cons item items ih =>
      cases item with
      | data bytes => unfold arrive; split <;> exact Nat.le_refl _
      | eof => exact Nat.le_refl _
      | fail failure => exact Nat.le_refl _
      | pause milliseconds =>
          unfold arrive
          dsimp only
          split
          · exact Nat.le_trans (now_le_waitUntil _ _ _) (ih _)
          · exact now_le_waitUntil _ _ _
      | resumeAt time =>
          unfold arrive
          split
          · exact Nat.le_trans (now_le_waitUntil _ _ _) (ih _)
          · exact now_le_waitUntil _ _ _
      | installOutbound protection =>
          have hmoved := ih (e.installOutbound protection)
          exact hmoved
      | act action =>
          have hmoved := ih (e.act .busy action)
          rw [now_act] at hmoved
          exact hmoved

theorem cost_leftOver_le (now want : Nat) (bytes : Bytes) (items : ReadScript (Protection C)) :
    ReadScript.cost now (leftOver want bytes items) ≤
      bytes.length - want + 1 + ReadScript.cost now items := by
  unfold leftOver
  split
  · exact Nat.le_add_left _ _
  next byte rest hremaining =>
    have hlength := congrArg List.length hremaining
    rw [List.length_drop] at hlength
    simp only [ReadScript.cost, ReadItem.cost, ← hlength]
    omega

/-- What an attempt leaves of a script does not cost more than the script. -/
theorem cost_arrive_le [BlockCipher C] (want deadline : Nat) (items : ReadScript (Protection C))
    (e : Endpoint C) :
    ReadScript.cost (arrive want deadline items e).2.2.now (arrive want deadline items e).2.1 ≤
      ReadScript.cost e.now items := by
  induction items generalizing e with
  | nil => exact Nat.le_refl _
  | cons item items ih =>
      have hshrunk : ∀ later, e.now ≤ later →
          ReadScript.cost later items ≤ ReadScript.cost e.now items :=
        fun later hlater => ReadScript.cost_anti hlater items
      cases item with
      | data bytes =>
          have hleft := cost_leftOver_le e.now want bytes items
          unfold arrive
          split
          · exact Nat.le_add_left _ _
          · simp only [ReadScript.cost, ReadItem.cost]
            omega
      | eof => exact Nat.le_add_left _ _
      | fail failure => exact Nat.le_add_left _ _
      | pause milliseconds =>
          unfold arrive
          dsimp only
          split
          next hreached =>
            exact Nat.le_trans (ih _) (Nat.le_trans (hshrunk _ (now_le_waitUntil _ _ _))
              (Nat.le_add_left _ _))
          next hmissed =>
            have htail := hshrunk (max e.now deadline) (Nat.le_max_left _ _)
            simp only [ReadScript.cost, ReadItem.cost, now_waitUntil]
            omega
      | resumeAt time =>
          unfold arrive
          split
          next hreached =>
            exact Nat.le_trans (ih _) (Nat.le_trans (hshrunk _ (now_le_waitUntil _ _ _))
              (Nat.le_add_left _ _))
          next hmissed =>
            have htail := hshrunk (max e.now deadline) (Nat.le_max_left _ _)
            simp only [ReadScript.cost, ReadItem.cost, now_waitUntil]
            omega
      | installOutbound protection =>
          have hless := ih (e.installOutbound protection)
          exact Nat.le_trans hless (Nat.le_add_left _ _)
      | act action =>
          have hless := ih (e.act .busy action)
          rw [now_act] at hless
          exact Nat.le_trans hless (Nat.le_add_left _ _)

/-- An attempt that wants octets and has time to wait costs something, unless the
script is at its end. -/
theorem cost_arrive_lt [BlockCipher C] (want deadline : Nat) (item : ReadItem (Protection C))
    (items : ReadScript (Protection C)) (e : Endpoint C) (hwants : want ≠ 0)
    (htime : e.now < deadline) :
    ReadScript.cost (arrive want deadline (item :: items) e).2.2.now
        (arrive want deadline (item :: items) e).2.1 <
      ReadScript.cost e.now (item :: items) := by
  have hshrunk : ∀ later, e.now ≤ later →
      ReadScript.cost later items ≤ ReadScript.cost e.now items :=
    fun later hle => ReadScript.cost_anti hle items
  have hbelow : ∀ {n : Nat}, n ≤ ReadScript.cost e.now items →
      n < ReadScript.cost e.now (item :: items) :=
    fun hle => Nat.lt_of_le_of_lt hle (Nat.lt_add_of_pos_left (item.cost_pos e.now))
  cases item with
  | data bytes =>
      have hleft := cost_leftOver_le e.now want bytes items
      unfold arrive
      split
      · exact hbelow (Nat.le_refl _)
      next hnonempty =>
        have hlength : bytes.length ≠ 0 := fun hempty =>
          hnonempty (List.isEmpty_iff.2 (List.length_eq_zero_iff.1 hempty))
        simp only [ReadScript.cost, ReadItem.cost]
        omega
  | eof => exact hbelow (Nat.le_refl _)
  | fail failure => exact hbelow (Nat.le_refl _)
  | pause milliseconds =>
      unfold arrive
      dsimp only
      split
      next hreached =>
        exact hbelow (Nat.le_trans (cost_arrive_le _ _ _ _) (hshrunk _ (now_le_waitUntil _ _ _)))
      next hmissed =>
        have htail := hshrunk (max e.now deadline) (Nat.le_max_left _ _)
        simp only [ReadScript.cost, ReadItem.cost, now_waitUntil]
        omega
  | resumeAt moment =>
      unfold arrive
      split
      next hreached =>
        exact hbelow (Nat.le_trans (cost_arrive_le _ _ _ _) (hshrunk _ (now_le_waitUntil _ _ _)))
      next hmissed =>
        have htail := hshrunk (max e.now deadline) (Nat.le_max_left _ _)
        simp only [ReadScript.cost, ReadItem.cost, now_waitUntil]
        omega
  | installOutbound protection =>
      exact hbelow (cost_arrive_le want deadline items (e.installOutbound protection))
  | act action =>
      have hless := cost_arrive_le want deadline items (e.act .busy action)
      rw [now_act] at hless
      exact hbelow hless

/-- An attempt never moves the clock backwards. -/
theorem now_le_receive [BlockCipher C] {want limit : Nat} {arrival : Arrival} {e next : Endpoint C}
    (hattempt : e.receive want limit = (arrival, next)) : e.now ≤ next.now := by
  have hmoved := now_le_arrive want (e.now + limit) e.reads e
  obtain rfl : (e.receive want limit).2 = next := congrArg Prod.snd hattempt
  exact hmoved

/-- An attempt that asks to be repeated lowers the cost of the script. -/
theorem readCost_of_more [BlockCipher C] {want limit : Nat} {bytes : Bytes} {e next : Endpoint C}
    (hwants : want ≠ 0) (htime : limit ≠ 0)
    (hattempt : e.receive want limit = (.more bytes, next)) : next.readCost < e.readCost := by
  obtain rfl : (e.receive want limit).2 = next := congrArg Prod.snd hattempt
  cases hscript : e.reads with
  | nil =>
      have hended : (e.receive want limit).1 = .finished := by
        unfold receive
        rw [hscript]
        rfl
      rw [hattempt] at hended
      cases hended
  | cons item items =>
      have hless := cost_arrive_lt want (e.now + limit) item items e hwants (by omega)
      rw [← hscript] at hless
      exact hless

@[simp] theorem readCost_activateParked (e : Endpoint C) :
    e.activateParked.readCost = e.readCost := by
  unfold activateParked
  split <;> rfl

@[simp] theorem now_activateParked (e : Endpoint C) : e.activateParked.now = e.now := by
  unfold activateParked
  split <;> rfl

@[simp] theorem readCost_checkKeepAlive (e : Endpoint C) :
    e.checkKeepAlive.readCost = e.readCost := by
  unfold checkKeepAlive
  dsimp only
  split
  · rfl
  next handler _ => cases handler <;> rfl

end PacketLayer.Endpoint
