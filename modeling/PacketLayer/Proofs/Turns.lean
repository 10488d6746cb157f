import PacketLayer.Endpoint.Banner
import PacketLayer.Proofs.Delivery
import PacketLayer.Proofs.Departures

/-! # Loops that end

A reader or a writer goes round until a turn settles the matter. A turn that does not has a
price: an item of the script, octets of it, or time that was to be waited. A turn that only
waits is no exception, since an attempt has time to wait under every valid configuration. So
no loop takes more turns than the script costs, and one to settle the matter.
-/

namespace PacketLayer

section Loops

variable {State Result : Type}

/-- A loop, each turn of which comes to a result or to another state, takes so many turns. -/
inductive Loops (turn : State → Result ⊕ State) : Nat → State → Result → Prop where
  | settled {state : State} {result : Result} (hturn : turn state = .inl result) :
      Loops turn 1 state result
  | again {turns : Nat} {state next : State} {result : Result} (hturn : turn state = .inr next)
      (hrest : Loops turn turns next result) : Loops turn (turns + 1) state result

/-- Every turn after which a loop goes on lowers a cost. The loop comes to the given result, and
takes at most one turn more than it costs. -/
structure Ends (turn : State → Result ⊕ State) (cost : State → Nat) (result : State → Result) :
    Prop where
  lowers {state next : State} : turn state = .inr next → cost next < cost state
  loops (state : State) : ∃ turns, turns ≤ cost state + 1 ∧ Loops turn turns state (result state)

theorem ends_of_turns {turn : State → Result ⊕ State} {cost : State → Nat}
    {result : State → Result}
    (hlowers : ∀ {state next}, turn state = .inr next → cost next < cost state)
    (hresult : ∀ state, result state = (turn state).elim id result) : Ends turn cost result := by
  refine ⟨hlowers, fun state => ?_⟩
  induction hcost : cost state using Nat.strongRecOn generalizing state with
  | ind count ih =>
      rw [hresult]
      cases hturn : turn state with
      | inl outcome => exact ⟨1, Nat.le_add_left 1 count, .settled hturn⟩
      | inr next =>
          have hless := hcost ▸ hlowers hturn
          obtain ⟨turns, hturns, hloops⟩ := ih _ hless next rfl
          exact ⟨turns + 1, by omega, .again hturn hloops⟩

end Loops

namespace Endpoint

variable {C : Type}

/-- What comes of a turn by how its attempt to read ends. What follows octets, or none for the
moment, is given. -/
def readTurn {Value State : Type} (outcome : Arrival × Endpoint C)
    (further : Bytes → Endpoint C → (Except Fault (Option Value) × Endpoint C) ⊕ State) :
    (Except Fault (Option Value) × Endpoint C) ⊕ State :=
  match outcome with
  | (.finished, next) => .inl (.ok none, next)
  | (.failed failure, next) => .inl (.error (.stream failure), next)
  | (.more bytes, next) => further bytes next

theorem more_of_readTurn {Value State : Type} {outcome : Arrival × Endpoint C}
    {further : Bytes → Endpoint C → (Except Fault (Option Value) × Endpoint C) ⊕ State}
    {state : State} (hturn : readTurn outcome further = .inr state) :
    ∃ bytes next, outcome = (.more bytes, next) ∧ further bytes next = .inr state := by
  obtain ⟨arrival, next⟩ := outcome
  cases arrival with
  | more bytes => exact ⟨bytes, next, rfl, hturn⟩
  | finished => cases hturn
  | failed failure => cases hturn

variable [BlockCipher C]

/-! ## First blocks -/

/-- One turn of a reader that waits for a first block. -/
def awaitTurn : Bytes × Endpoint C →
    (Except Fault (Option Bytes) × Endpoint C) ⊕ (Bytes × Endpoint C)
  | (raw, e) =>
      let ready := e.activateParked
      if ready.inbound.blockSize ≤ raw.length then .inl (.ok (some raw), ready)
      else
        readTurn (ready.receive (ready.inbound.blockSize - raw.length) ready.config.pollInterval)
          fun bytes next =>
            if ready.inbound.blockSize ≤ (raw ++ bytes).length then .inr (raw ++ bytes, next)
            else if next.closed then .inl (.ok none, next)
            else .inr (raw ++ bytes, next.checkKeepAlive)

theorem readCost_of_awaitTurn {state next : Bytes × Endpoint C}
    (hturn : awaitTurn state = .inr next) : next.2.readCost < state.2.readCost := by
  obtain ⟨raw, e⟩ := state
  rw [awaitTurn] at hturn
  split at hturn
  · cases hturn
  next hmissing =>
    obtain ⟨bytes, later, hattempt, hfurther⟩ := more_of_readTurn hturn
    have hless := readCost_of_more (Nat.sub_ne_zero_of_lt (Nat.lt_of_not_le hmissing))
      e.activateParked.valid.pollInterval hattempt
    rw [readCost_activateParked] at hless
    split at hfurther
    · cases hfurther
      exact hless
    split at hfurther
    · cases hfurther
    · cases hfurther
      rw [readCost_checkKeepAlive]
      exact hless

theorem awaitFirstBlock_eq_turn (raw : Bytes) (e : Endpoint C) :
    awaitFirstBlock raw e =
      (awaitTurn (raw, e)).elim id fun state => awaitFirstBlock state.1 state.2 := by
  by_cases hcomplete : e.activateParked.inbound.blockSize ≤ raw.length
  · rw [awaitFirstBlock, dif_pos hcomplete, awaitTurn, if_pos hcomplete]
    rfl
  · rw [awaitFirstBlock_of_short rfl hcomplete, awaitTurn, if_neg hcomplete]
    generalize e.activateParked.receive (e.activateParked.inbound.blockSize - raw.length)
      e.activateParked.config.pollInterval = outcome
    obtain ⟨arrival, next⟩ := outcome
    cases arrival with
    | more bytes =>
        dsimp only [readTurn]
        split
        · rfl
        split <;> rfl
    | finished => rfl
    | failed failure => rfl

/-! ## Numbers of octets -/

/-- One turn of a reader that wants a number of octets. -/
def fillTurn : Bytes × Nat × Endpoint C →
    (Except Fault (Option Bytes) × Endpoint C) ⊕ (Bytes × Nat × Endpoint C)
  | (raw, count, e) =>
      if count = 0 then .inl (.ok (some raw), e)
      else
        readTurn (e.receive count e.config.pollInterval) fun bytes next =>
          if count ≤ bytes.length then .inl (.ok (some (raw ++ bytes)), next)
          else if next.closed then .inl (.ok none, next)
          else .inr (raw ++ bytes, count - bytes.length, next.checkKeepAlive)

theorem readCost_of_fillTurn {state next : Bytes × Nat × Endpoint C}
    (hturn : fillTurn state = .inr next) : next.2.2.readCost < state.2.2.readCost := by
  obtain ⟨raw, count, e⟩ := state
  rw [fillTurn] at hturn
  split at hturn
  · cases hturn
  next hwant =>
    obtain ⟨bytes, later, hattempt, hfurther⟩ := more_of_readTurn hturn
    have hless := readCost_of_more hwant e.valid.pollInterval hattempt
    split at hfurther
    · cases hfurther
    split at hfurther
    · cases hfurther
    · cases hfurther
      rw [readCost_checkKeepAlive]
      exact hless

theorem fill_eq_turn (raw : Bytes) (count : Nat) (e : Endpoint C) :
    fill raw count e =
      (fillTurn (raw, count, e)).elim id fun state => fill state.1 state.2.1 state.2.2 := by
  by_cases hcomplete : count = 0
  · rw [fill, dif_pos hcomplete, fillTurn, if_pos hcomplete]
    rfl
  · rw [fill_of_missing hcomplete, fillTurn, if_neg hcomplete]
    generalize e.receive count e.config.pollInterval = outcome
    obtain ⟨arrival, next⟩ := outcome
    cases arrival with
    | more bytes =>
        dsimp only [readTurn]
        split
        · rfl
        split <;> rfl
    | finished => rfl
    | failed failure => rfl

/-! ## Lines -/

/-- One turn of a reader of a line, whose octets so far are given backwards. -/
def lineTurn (deadline : Option Nat) : Bytes × Endpoint C →
    (Except Fault (Option String) × Endpoint C) ⊕ (Bytes × Endpoint C)
  | (line, e) =>
      readTurn (e.receive 1 (e.bannerLimit deadline)) fun bytes next =>
        if bytes = [lineFeed] then
          .inl (.ok (some (Text.Utf8.read (dropCarriageReturn line).reverse)), next)
        else if bytes ≠ [] ∧ next.config.maxBannerLine ≤ line.length then
          .inl (.error (.bannerTooLong next.config.maxBannerLine), next)
        else if next.expired deadline then .inl (.error .bannerDeadline, next)
        else if next.closed then
          .inl (.ok (some (Text.Utf8.read (bytes.reverse ++ line).reverse)), next)
        else .inr (bytes.reverse ++ line, next)

theorem readCost_of_lineTurn {deadline : Option Nat} {state next : Bytes × Endpoint C}
    (hturn : lineTurn deadline state = .inr next) : next.2.readCost < state.2.readCost := by
  obtain ⟨line, e⟩ := state
  obtain ⟨bytes, later, hattempt, hfurther⟩ := more_of_readTurn hturn
  split at hfurther
  · cases hfurther
  split at hfurther
  · cases hfurther
  split at hfurther
  · cases hfurther
  next hearly =>
    have hlimit := bannerLimit_ne_zero (now_le_receive hattempt) hearly
    split at hfurther
    · cases hfurther
    · cases hfurther
      exact readCost_of_more Nat.one_ne_zero hlimit hattempt

theorem readLine_eq_turn (deadline : Option Nat) (line : Bytes) (e : Endpoint C) :
    readLine deadline line e =
      (lineTurn deadline (line, e)).elim id fun state => readLine deadline state.1 state.2 := by
  rw [readLine, lineTurn]
  split
  next next hattempt =>
    rw [hattempt]
    rfl
  next failure next hattempt =>
    rw [hattempt]
    rfl
  next bytes next hattempt =>
    rw [hattempt]
    dsimp only [readTurn]
    split
    · rfl
    split
    · rfl
    split
    · rfl
    split <;> rfl

/-- The loops of a reader and of a writer end, whatever the scripts of the stream say and
whatever other parties do in the middle of an attempt. -/
theorem loops_end :
    Ends (awaitTurn (C := C)) (fun state => state.2.readCost)
        (fun state => awaitFirstBlock state.1 state.2) ∧
      Ends (fillTurn (C := C)) (fun state => state.2.2.readCost)
        (fun state => fill state.1 state.2.1 state.2.2) ∧
      (∀ deadline, Ends (lineTurn (C := C) deadline) (fun state => state.2.readCost)
        (fun state => readLine deadline state.1 state.2)) ∧
      Ends (sendTurn (C := C)) (fun state => state.2.writeCost)
        (fun state => sendAll state.1 state.2) := by
  refine ⟨?_, ?_, ?_, ?_⟩
  · exact ends_of_turns readCost_of_awaitTurn fun state => awaitFirstBlock_eq_turn state.1 state.2
  · exact ends_of_turns readCost_of_fillTurn fun state =>
      fill_eq_turn state.1 state.2.1 state.2.2
  · exact fun deadline => ends_of_turns readCost_of_lineTurn fun state =>
      readLine_eq_turn deadline state.1 state.2
  · exact ends_of_turns writeCost_of_sendTurn fun state => sendAll_eq_turn state.1 state.2

end Endpoint

end PacketLayer
