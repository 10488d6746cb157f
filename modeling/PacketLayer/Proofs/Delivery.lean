import PacketLayer.Proofs.Inlet
import PacketLayer.Proofs.Verification

/-! # Delivery of octets

However a stream cuts its octets into pieces and delays them, a reader that wants
a number of them gets the next ones, as many as it wants. Only the end of the
stream leaves it with fewer.
-/

namespace PacketLayer

variable {P C : Type}

namespace ReadScript

/-- A script delivers octets and then goes on as another script. On the way it neither
ends nor fails for good, and nobody installs a protection. -/
inductive Flow : ReadScript P → Bytes → ReadScript P → Prop where
  | done (tail : ReadScript P) : Flow tail [] tail
  | data {items tail : ReadScript P} {octets bytes : Bytes} (hbytes : bytes ≠ [])
      (hflow : Flow items octets tail) : Flow (.data bytes :: items) (bytes ++ octets) tail
  | fail {items tail : ReadScript P} {octets : Bytes} {failure : StreamFailure}
      (htransient : failure.kind.isTransient = true) (hflow : Flow items octets tail) :
      Flow (.fail failure :: items) octets tail
  | pause {items tail : ReadScript P} {octets : Bytes} (milliseconds : Nat)
      (hflow : Flow items octets tail) : Flow (.pause milliseconds :: items) octets tail
  | resumeAt {items tail : ReadScript P} {octets : Bytes} (time : Nat)
      (hflow : Flow items octets tail) : Flow (.resumeAt time :: items) octets tail
  | act {items tail : ReadScript P} {octets : Bytes} {action : Action P}
      (haction : action.Quiet) (hflow : Flow items octets tail) :
      Flow (.act action :: items) octets tail

/-- The next thing on the stream is its end, which may pass. -/
inductive AtEnd : ReadScript P → Prop where
  | nil : AtEnd []
  | eof (items : ReadScript P) : AtEnd (.eof :: items)
  | empty (items : ReadScript P) : AtEnd (.data [] :: items)

/-- A script delivers octets, and no more before the end of the stream. -/
def Delivers (script : ReadScript P) (octets : Bytes) : Prop :=
  ∃ tail, Flow script octets tail ∧ AtEnd tail

theorem Flow.leftOver {items tail : ReadScript (Protection C)} {octets bytes : Bytes}
    (hflow : Flow items octets tail) (want : Nat) :
    Flow (Endpoint.leftOver want bytes items) (bytes.drop want ++ octets) tail := by
  unfold Endpoint.leftOver
  split
  next hdrop =>
    rw [hdrop]
    exact hflow
  next byte rest hdrop =>
    rw [hdrop]
    exact .data (by simp) hflow

/-- Octets from one piece arrive as that piece, or as no piece at all. -/
theorem delivers_data (bytes : Bytes) : Delivers ([.data bytes] : ReadScript P) bytes := by
  cases bytes with
  | nil => exact ⟨_, .done _, .empty []⟩
  | cons byte bytes =>
      have hflow : Flow ([.data (byte :: bytes)] : ReadScript P) ((byte :: bytes) ++ []) [] :=
        .data (by simp) (.done [])
      rw [List.append_nil] at hflow
      exact ⟨[], hflow, .nil⟩

end ReadScript

namespace Endpoint

open ReadScript

variable [BlockCipher C]

/-- How an attempt on a flowing stream ends: it brings some of the next octets, or it
goes on where the flow ends. -/
inductive Arrives (want deadline : Nat) (octets : Bytes) (tail : ReadScript (Protection C))
    (e : Endpoint C) : Arrival × ReadScript (Protection C) × Endpoint C → Prop where
  | brought {bytes more : Bytes} {left : ReadScript (Protection C)} {next : Endpoint C}
      (hoctets : octets = bytes ++ more) (hlength : bytes.length ≤ want)
      (hflow : Flow left more tail) (hnext : Undisturbed e next) :
      Arrives want deadline octets tail e (.more bytes, left, next)
  | passed {next : Endpoint C} (hnone : octets = []) (hnext : Undisturbed e next) :
      Arrives want deadline octets tail e (arrive want deadline tail next)

theorem Arrives.after {want deadline : Nat} {octets : Bytes} {tail : ReadScript (Protection C)}
    {e middle : Endpoint C} {result : Arrival × ReadScript (Protection C) × Endpoint C}
    (hmiddle : Undisturbed e middle) (harrives : Arrives want deadline octets tail middle result) :
    Arrives want deadline octets tail e result := by
  cases harrives with
  | brought hoctets hlength hflow hnext =>
      exact .brought hoctets hlength hflow (hmiddle.trans hnext)
  | passed hnone hnext => exact .passed hnone (hmiddle.trans hnext)

theorem arrive_of_flow {items tail : ReadScript (Protection C)} {octets : Bytes}
    (hflow : Flow items octets tail) {e : Endpoint C} (hquiet : WriteScript.Quiet e.writes)
    (want deadline : Nat) :
    Arrives want deadline octets tail e (arrive want deadline items e) := by
  induction hflow generalizing e with
  | done tail => exact .passed rfl (.refl hquiet)
  | @data items tail octets bytes hbytes hflow ih =>
      have harrive : arrive want deadline (.data bytes :: items) e =
          (.more (bytes.take want), leftOver want bytes items, e) := by
        simp [arrive, hbytes]
      rw [harrive]
      refine .brought ?_ (List.length_take_le want bytes) (hflow.leftOver want) (.refl hquiet)
      rw [← List.append_assoc, List.take_append_drop]
  | @fail items tail octets failure htransient hflow ih =>
      have harrive : arrive want deadline (.fail failure :: items) e = (.more [], items, e) := by
        simp [arrive, htransient]
      rw [harrive]
      exact .brought rfl (Nat.zero_le _) hflow (.refl hquiet)
  | @pause items tail octets milliseconds hflow ih =>
      -- the pause ends within the attempt, or outlasts it and stays in the script
      have hwaited (time : Nat) := (beside_waitUntil hquiet .busy time).toUndisturbed
      simp only [arrive]
      split
      · exact .after (hwaited _) (ih (hwaited _).quiet)
      · exact .brought rfl (Nat.zero_le _) (hflow.resumeAt _) (hwaited deadline)
  | @resumeAt items tail octets time hflow ih =>
      have hwaited (time : Nat) := (beside_waitUntil hquiet .busy time).toUndisturbed
      simp only [arrive]
      split
      · exact .after (hwaited _) (ih (hwaited _).quiet)
      · exact .brought rfl (Nat.zero_le _) (hflow.resumeAt _) (hwaited deadline)
  | @act items tail octets action haction hflow ih =>
      have hacted := (beside_act hquiet .busy haction).toUndisturbed
      exact .after hacted (ih hacted.quiet)

/-- What an attempt has left of the script stays with the endpoint. -/
def leaving (outcome : Arrival × ReadScript (Protection C) × Endpoint C) : Arrival × Endpoint C :=
  (outcome.1, { outcome.2.2 with reads := outcome.2.1 })

theorem receive_eq (want limit : Nat) (e : Endpoint C) :
    e.receive want limit = leaving (arrive want (e.now + limit) e.reads e) :=
  rfl

/-- An attempt on a flowing stream brings some of its octets, or there are none and it
goes on where the flow ends. -/
theorem receive_of_flow {e : Endpoint C} {octets : Bytes} {tail : ReadScript (Protection C)}
    (hquiet : WriteScript.Quiet e.writes) (hflow : Flow e.reads octets tail) (want limit : Nat) :
    (∃ bytes more next, e.receive want limit = (.more bytes, next) ∧ octets = bytes ++ more ∧
      bytes.length ≤ want ∧ Flow next.reads more tail ∧ Undisturbed e next) ∨
    (octets = [] ∧ ∃ next, Undisturbed e next ∧
      e.receive want limit = leaving (arrive want (e.now + limit) tail next)) := by
  have harrives := arrive_of_flow hflow hquiet want (e.now + limit)
  rw [receive_eq]
  generalize arrive want (e.now + limit) e.reads e = result at harrives
  cases harrives with
  | brought hoctets hlength hleft hnext =>
      exact .inl ⟨_, _, _, rfl, hoctets, hlength, hleft, hnext.reread _⟩
  | passed hnone hnext => exact .inr ⟨hnone, _, hnext, rfl⟩

/-- An attempt finds the end of a stream that is at its end. -/
theorem arrive_of_atEnd {items : ReadScript (Protection C)} (hend : AtEnd items)
    (want deadline : Nat) (e : Endpoint C) :
    ∃ left, arrive want deadline items e = (.finished, left, e) := by
  cases hend with
  | nil => exact ⟨[], rfl⟩
  | eof items => exact ⟨items, rfl⟩
  | empty items => exact ⟨items, rfl⟩

/-- As long as octets are to come, an attempt brings some of them. -/
theorem receive_of_nonempty {e next : Endpoint C} {octets : Bytes}
    {tail : ReadScript (Protection C)} {want limit : Nat} {arrival : Arrival}
    (hquiet : WriteScript.Quiet e.writes) (hflow : Flow e.reads octets tail)
    (hoctets : octets ≠ []) (hattempt : e.receive want limit = (arrival, next)) :
    ∃ bytes more, arrival = .more bytes ∧ octets = bytes ++ more ∧ bytes.length ≤ want ∧
      Flow next.reads more tail ∧ Undisturbed e next := by
  rcases receive_of_flow hquiet hflow want limit with
    ⟨bytes, more, middle, hmore, hrest⟩ | ⟨hnone, -⟩
  · rw [hmore] at hattempt
    obtain ⟨rfl, rfl⟩ := Prod.mk.inj hattempt
    exact ⟨bytes, more, rfl, hrest⟩
  · exact absurd hnone hoctets

/-- An attempt on a stream that ends brings some of its octets, or finds the end. -/
theorem receive_to_end {e next : Endpoint C} {octets : Bytes}
    {tail : ReadScript (Protection C)} {want limit : Nat} {arrival : Arrival}
    (hquiet : WriteScript.Quiet e.writes) (hflow : Flow e.reads octets tail)
    (hend : AtEnd tail) (hattempt : e.receive want limit = (arrival, next)) :
    Undisturbed e next ∧ (arrival = .finished ∨
      ∃ bytes more, arrival = .more bytes ∧ octets = bytes ++ more ∧
        Flow next.reads more tail) := by
  rcases receive_of_flow hquiet hflow want limit with
    ⟨bytes, more, middle, hmore, hoctets, -, hleft, hnext⟩ | ⟨-, middle, hmiddle, hrest⟩
  · rw [hmore] at hattempt
    obtain ⟨rfl, rfl⟩ := Prod.mk.inj hattempt
    exact ⟨hnext, .inr ⟨bytes, more, rfl, hoctets, hleft⟩⟩
  · obtain ⟨left, hfinished⟩ := arrive_of_atEnd hend want (e.now + limit) middle
    rw [hfinished, hattempt] at hrest
    obtain ⟨rfl, rfl⟩ := Prod.mk.inj hrest
    exact ⟨hmiddle.reread _, .inl rfl⟩

/-- Octets that are to come are collected, unless the endpoint is closed meanwhile. -/
theorem fill_of_flow {raw octets : Bytes} {tail : ReadScript (Protection C)} {count : Nat}
    {e : Endpoint C} (hquiet : WriteScript.Quiet e.writes) (hflow : Flow e.reads octets tail)
    (henough : count ≤ octets.length) :
    (∃ next, fill raw count e = (.ok (some (raw ++ octets.take count)), next) ∧
      Flow next.reads (octets.drop count) tail ∧ Undisturbed e next) ∨
    (∃ next, fill raw count e = (.ok none, next) ∧ next.closed = true ∧ Undisturbed e next) := by
  have hnonempty {count : Nat} {octets : Bytes} (henough : count ≤ octets.length)
      (hmissing : ¬count = 0) : octets ≠ [] := by
    rintro rfl
    exact hmissing (Nat.le_zero.mp henough)
  -- one case for each way an attempt ends; only the last one goes round the loop
  fun_induction fill raw count e generalizing octets with
  | case1 raw e => exact .inl ⟨e, by simp, hflow, .refl hquiet⟩
  | case2 raw count e hmissing next hattempt =>
      obtain ⟨_, _, hmore, -⟩ :=
        receive_of_nonempty hquiet hflow (hnonempty henough hmissing) hattempt
      cases hmore
  | case3 raw count e hmissing failure next hattempt =>
      obtain ⟨_, _, hmore, -⟩ :=
        receive_of_nonempty hquiet hflow (hnonempty henough hmissing) hattempt
      cases hmore
  | case4 raw count e hmissing bytes next hattempt hcomplete =>
      obtain ⟨_, more, ⟨⟩, rfl, hlength, hleft, hnext⟩ :=
        receive_of_nonempty hquiet hflow (hnonempty henough hmissing) hattempt
      have hexact : count = bytes.length := Nat.le_antisymm hcomplete hlength
      refine .inl ⟨next, ?_, ?_, hnext⟩
      · rw [hexact, List.take_left]
      · rw [hexact, List.drop_left]
        exact hleft
  | case5 raw count e hmissing bytes next hattempt hcomplete hclosed =>
      obtain ⟨_, _, -, -, -, -, hnext⟩ :=
        receive_of_nonempty hquiet hflow (hnonempty henough hmissing) hattempt
      exact .inr ⟨next, rfl, hclosed, hnext⟩
  | case6 raw count e hmissing bytes next hattempt hcomplete hclosed ih =>
      obtain ⟨_, more, ⟨⟩, rfl, hlength, hleft, hnext⟩ :=
        receive_of_nonempty hquiet hflow (hnonempty henough hmissing) hattempt
      have hreads := (beside_checkKeepAlive hnext.quiet).reads
      have hchecked := hnext.trans (beside_checkKeepAlive hnext.quiet).toUndisturbed
      rw [List.length_append] at henough
      rcases ih hchecked.quiet (hreads.symm ▸ hleft) (by omega) with
        ⟨last, hfill, hrest, hlast⟩ | ⟨last, hfill, hclosed, hlast⟩
      · refine .inl ⟨last, ?_, ?_, hchecked.trans hlast⟩
        · rw [hfill, List.append_assoc, List.take_append, List.take_of_length_le hlength]
        · rw [List.drop_append, List.drop_of_length_le hlength]
          exact hrest
      · exact .inr ⟨last, hfill, hclosed, hchecked.trans hlast⟩

/-- Octets that a stream does not deliver before its end are not collected. -/
theorem fill_of_short {raw octets : Bytes} {tail : ReadScript (Protection C)} {count : Nat}
    {e : Endpoint C} (hquiet : WriteScript.Quiet e.writes) (hflow : Flow e.reads octets tail)
    (hend : AtEnd tail) (hshort : octets.length < count) :
    ∃ next, fill raw count e = (.ok none, next) ∧ Undisturbed e next := by
  fun_induction fill raw count e generalizing octets with
  | case1 raw e => exact absurd hshort (Nat.not_lt_zero _)
  | case2 raw count e hmissing next hattempt =>
      exact ⟨next, rfl, (receive_to_end hquiet hflow hend hattempt).1⟩
  | case3 raw count e hmissing failure next hattempt =>
      obtain ⟨-, hfinished | ⟨_, _, hmore, -⟩⟩ := receive_to_end hquiet hflow hend hattempt
      · cases hfinished
      · cases hmore
  | case4 raw count e hmissing bytes next hattempt hcomplete =>
      obtain ⟨-, hfinished | ⟨_, more, ⟨⟩, rfl, -⟩⟩ := receive_to_end hquiet hflow hend hattempt
      · cases hfinished
      · rw [List.length_append] at hshort
        omega
  | case5 raw count e hmissing bytes next hattempt hcomplete hclosed =>
      exact ⟨next, rfl, (receive_to_end hquiet hflow hend hattempt).1⟩
  | case6 raw count e hmissing bytes next hattempt hcomplete hclosed ih =>
      obtain ⟨hnext, hfinished | ⟨_, more, ⟨⟩, rfl, hleft⟩⟩ :=
        receive_to_end hquiet hflow hend hattempt
      · cases hfinished
      · have hreads := (beside_checkKeepAlive hnext.quiet).reads
        have hchecked := hnext.trans (beside_checkKeepAlive hnext.quiet).toUndisturbed
        rw [List.length_append] at hshort
        obtain ⟨last, hfill, hlast⟩ :=
          ih hchecked.quiet (hreads.symm ▸ hleft) (by omega)
        exact ⟨last, hfill, hchecked.trans hlast⟩

/-- How the collection of octets ends on a stream that delivers octets and then ends. -/
inductive Collects (raw octets : Bytes) (count : Nat) (e : Endpoint C) :
    Except Fault (Option Bytes) × Endpoint C → Prop where
  | stopped {next : Endpoint C} (hclosed : next.closed = true) (hnext : Undisturbed e next) :
      Collects raw octets count e (.ok none, next)
  | short {next : Endpoint C} (hshort : octets.length < count) (hnext : Undisturbed e next) :
      Collects raw octets count e (.ok none, next)
  | complete {next : Endpoint C} (henough : count ≤ octets.length)
      (hrest : Delivers next.reads (octets.drop count)) (hnext : Undisturbed e next) :
      Collects raw octets count e (.ok (some (raw ++ octets.take count)), next)

theorem collects_fill {e : Endpoint C} {octets : Bytes} (hquiet : WriteScript.Quiet e.writes)
    (hdelivers : Delivers e.reads octets) (raw : Bytes) (count : Nat) :
    Collects raw octets count e (fill raw count e) := by
  obtain ⟨tail, hflow, hend⟩ := hdelivers
  by_cases henough : count ≤ octets.length
  · rcases fill_of_flow hquiet hflow henough with
      ⟨next, hfill, hrest, hnext⟩ | ⟨next, hfill, hclosed, hnext⟩
    · rw [hfill]
      exact .complete henough ⟨tail, hrest, hend⟩ hnext
    · rw [hfill]
      exact .stopped hclosed hnext
  · obtain ⟨next, hfill, hnext⟩ := fill_of_short hquiet hflow hend (Nat.lt_of_not_le henough)
    rw [hfill]
    exact .short (Nat.lt_of_not_le henough) hnext

/-- One attempt of a reader that waits for a first block, with nothing parked. -/
theorem awaitFirstBlock_of_missing {raw : Bytes} {e : Endpoint C} (hparked : e.parked = none)
    (hmissing : raw.length < e.inbound.blockSize) :
    awaitFirstBlock raw e =
      match e.receive (e.inbound.blockSize - raw.length) e.config.pollInterval with
      | (.finished, next) => (.ok none, next)
      | (.failed failure, next) => (.error (.stream failure), next)
      | (.more bytes, next) =>
          if e.inbound.blockSize ≤ (raw ++ bytes).length then awaitFirstBlock (raw ++ bytes) next
          else if next.closed then (.ok none, next)
          else awaitFirstBlock (raw ++ bytes) next.checkKeepAlive := by
  rw [awaitFirstBlock, dif_neg (by rw [activateParked_of_none hparked]; omega)]
  split
  next next hattempt =>
    rw [activateParked_of_none hparked] at hattempt
    rw [hattempt]
  next failure next hattempt =>
    rw [activateParked_of_none hparked] at hattempt
    rw [hattempt]
  next bytes next hattempt =>
    rw [activateParked_of_none hparked] at hattempt ⊢
    rw [hattempt]

/-- One attempt of a reader that waits for a first block, once what was parked is in use. -/
theorem awaitFirstBlock_of_short {raw : Bytes} {e ready : Endpoint C}
    (hready : e.activateParked = ready) (hshort : ¬ready.inbound.blockSize ≤ raw.length) :
    awaitFirstBlock raw e =
      match ready.receive (ready.inbound.blockSize - raw.length) ready.config.pollInterval with
      | (.finished, next) => (.ok none, next)
      | (.failed failure, next) => (.error (.stream failure), next)
      | (.more bytes, next) =>
          if ready.inbound.blockSize ≤ (raw ++ bytes).length then
            awaitFirstBlock (raw ++ bytes) next
          else if next.closed then (.ok none, next)
          else awaitFirstBlock (raw ++ bytes) next.checkKeepAlive := by
  subst hready
  rw [← awaitFirstBlock_activateParked]
  exact awaitFirstBlock_of_missing (parked_activateParked e) (Nat.lt_of_not_le hshort)

/-- One attempt of a reader that still misses octets. -/
theorem fill_of_missing {raw : Bytes} {count : Nat} {e : Endpoint C} (hmissing : count ≠ 0) :
    fill raw count e =
      match e.receive count e.config.pollInterval with
      | (.finished, next) => (.ok none, next)
      | (.failed failure, next) => (.error (.stream failure), next)
      | (.more bytes, next) =>
          if count ≤ bytes.length then (.ok (some (raw ++ bytes)), next)
          else if next.closed then (.ok none, next)
          else fill (raw ++ bytes) (count - bytes.length) next.checkKeepAlive := by
  rw [fill, dif_neg hmissing]
  split
  next next hattempt => rw [hattempt]
  next failure next hattempt => rw [hattempt]
  next bytes next hattempt => rw [hattempt]

theorem receive_of_settled {e next : Endpoint C} {octets bytes : Bytes}
    {tail : ReadScript (Protection C)} {want limit : Nat}
    (hquiet : WriteScript.Quiet e.writes) (hflow : Flow e.reads octets tail)
    (hsettled : octets ≠ [] ∨ AtEnd tail) (hattempt : e.receive want limit = (.more bytes, next)) :
    ∃ more, octets = bytes ++ more ∧ Flow next.reads more tail ∧ Undisturbed e next := by
  rcases hsettled with hoctets | hend
  · obtain ⟨_, more, ⟨⟩, hsplit, -, hleft, hnext⟩ :=
      receive_of_nonempty hquiet hflow hoctets hattempt
    exact ⟨more, hsplit, hleft, hnext⟩
  · obtain ⟨hnext, hfinished | ⟨_, more, ⟨⟩, hsplit, hleft⟩⟩ :=
      receive_to_end hquiet hflow hend hattempt
    · cases hfinished
    · exact ⟨more, hsplit, hleft, hnext⟩

/-- As long as no protection is parked, a first block is collected like any octets. -/
theorem awaitFirstBlock_eq_fill {raw octets : Bytes} {tail : ReadScript (Protection C)}
    {e : Endpoint C} (hparked : e.parked = none) (hquiet : WriteScript.Quiet e.writes)
    (hflow : Flow e.reads octets tail)
    (hsettled : e.inbound.blockSize ≤ raw.length + octets.length ∨ AtEnd tail) :
    awaitFirstBlock raw e = fill raw (e.inbound.blockSize - raw.length) e := by
  have hstill {raw octets : Bytes} {e : Endpoint C} (hmissing : ¬e.inbound.blockSize ≤ raw.length)
      (hsettled : e.inbound.blockSize ≤ raw.length + octets.length ∨ AtEnd tail) :
      octets ≠ [] ∨ AtEnd tail := by
    refine hsettled.imp_left fun henough => ?_
    rintro rfl
    exact hmissing henough
  -- with nothing parked, `ready` is the endpoint itself on every turn
  fun_induction awaitFirstBlock raw e generalizing octets with
  | case1 raw e ready =>
      rename_i hcomplete
      have hready : ready = e := activateParked_of_none hparked
      rw [hready] at hcomplete ⊢
      rw [fill, dif_pos (Nat.sub_eq_zero_of_le hcomplete)]
  | case2 raw e ready hmissing next =>
      rename_i hattempt
      have hready : ready = e := activateParked_of_none hparked
      rw [hready] at hmissing hattempt
      rw [fill_of_missing (by omega), hattempt]
  | case3 raw e ready hmissing failure next =>
      rename_i hattempt
      have hready : ready = e := activateParked_of_none hparked
      rw [hready] at hmissing hattempt
      rw [fill_of_missing (by omega), hattempt]
  | case4 raw e ready hmissing bytes next hattempt hcomplete =>
      rename_i ih
      have hready : ready = e := activateParked_of_none hparked
      rw [hready] at hmissing hattempt hcomplete
      obtain ⟨more, rfl, hleft, hnext⟩ :=
        receive_of_settled hquiet hflow (hstill hmissing hsettled) hattempt
      have hblock := congrArg Lane.blockSize hnext.inbound
      rw [ih (hnext.parked.trans hparked) hnext.quiet hleft (.inl (by omega)), hblock,
        Nat.sub_eq_zero_of_le hcomplete, fill, dif_pos rfl, fill_of_missing (by omega), hattempt]
      rw [List.length_append] at hcomplete
      exact (if_pos (by omega)).symm
  | case5 raw e ready hmissing bytes next hattempt hcomplete =>
      rename_i hclosed
      have hready : ready = e := activateParked_of_none hparked
      rw [hready] at hmissing hattempt hcomplete
      rw [List.length_append] at hcomplete
      rw [fill_of_missing (by omega), hattempt]
      simp only [hclosed, if_true]
      exact (if_neg (by omega)).symm
  | case6 raw e ready hmissing bytes next hattempt hcomplete hclosed =>
      rename_i ih
      have hready : ready = e := activateParked_of_none hparked
      rw [hready] at hmissing hattempt hcomplete
      obtain ⟨more, rfl, hleft, hnext⟩ :=
        receive_of_settled hquiet hflow (hstill hmissing hsettled) hattempt
      have hreads := (beside_checkKeepAlive hnext.quiet).reads
      have hchecked := hnext.trans (beside_checkKeepAlive hnext.quiet).toUndisturbed
      have hblock := congrArg Lane.blockSize hchecked.inbound
      have hcount : e.inbound.blockSize - raw.length ≠ 0 := by omega
      simp only [List.length_append, ← Nat.add_assoc] at hcomplete hsettled ih
      rw [ih (hchecked.parked.trans hparked) hchecked.quiet
        (hreads.symm ▸ hleft) (by rwa [hblock]), hblock,
        fill_of_missing hcount, hattempt]
      simp only [hclosed, Bool.false_eq_true, if_false, Nat.sub_sub]
      exact (if_neg (by omega)).symm

end Endpoint

end PacketLayer
