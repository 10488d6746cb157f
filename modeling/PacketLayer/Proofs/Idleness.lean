import PacketLayer.Proofs.Schedule
import PacketLayer.Proofs.Verification

/-! # When keep-alive is looked after

The keep-alive handler runs at the end of attempts to read, and then exactly if a packet is
left in want of octets, the endpoint is open, and the schedule is due. An attempt that brings
some of the octets is no exception, although the connection has not been idle then.
-/

namespace PacketLayer

variable {C : Type}

theorem Attempt.unfinished_iff (attempt : Attempt C) : attempt.unfinished = true ↔
    attempt.reader = .packet ∧
      ∃ bytes, attempt.arrival = .more bytes ∧ bytes.length < attempt.want := by
  obtain ⟨reader, want, arrival, left⟩ := attempt
  cases reader <;> cases arrival <;> simp [unfinished]

variable [BlockCipher C]

open Endpoint

/-- An attempt to read that began in the course of incidents and is still under way. Its end
is the one that the stream had in store for it when it began. -/
structure UnderWay (e : Endpoint C) (told : List (Incident C)) (attempt : Attempt C)
    (here : Endpoint C) : Prop where
  begun : ∃ earlier inside start limit,
    told = earlier ++ .attempting attempt.reader attempt.want limit :: inside ∧
      Trace ⟨none, e⟩ earlier ⟨none, start⟩ ∧
      attempt = start.beginAttempt attempt.reader attempt.want limit ∧
      Trace ⟨some attempt, start⟩ inside ⟨some attempt, here⟩

theorem UnderWay.trace {e here next : Endpoint C} {told more : List (Incident C)}
    {attempt : Attempt C} (hunderWay : UnderWay e told attempt here)
    (htrace : Trace ⟨some attempt, here⟩ more ⟨some attempt, next⟩) :
    UnderWay e (told ++ more) attempt next := by
  obtain ⟨earlier, inside, start, limit, rfl, hearlier, hbegin, hinside⟩ := hunderWay
  exact ⟨earlier, inside ++ more, start, limit, by simp, hearlier, hbegin, hinside.append htrace⟩

/-- No attempt is under way that has not begun. -/
theorem Trace.underWay {scene last : Scene C} {e : Endpoint C} {told incidents : List (Incident C)}
    {attempt : Attempt C} (htrace : Trace scene incidents last)
    (hbefore : Trace ⟨none, e⟩ told scene)
    (hscene : ∀ attempt, scene.attempt = some attempt → UnderWay e told attempt scene.endpoint)
    (hattempt : last.attempt = some attempt) :
    UnderWay e (told ++ incidents) attempt last.endpoint := by
  induction htrace generalizing told with
  | done scene =>
      rw [List.append_nil]
      exact hscene attempt hattempt
  | @aside under e' middle last incidents hwatch _ ih =>
      have haside {attempt : Option (Attempt C)} : Trace ⟨attempt, e'⟩ [] ⟨attempt, middle⟩ :=
        .aside hwatch (.done _)
      have hmiddle := hbefore.append haside
      rw [List.append_nil] at hmiddle
      refine ih hmiddle ?_ hattempt
      -- an attempt that is under way goes on
      rintro attempt rfl
      have hunderWay := (hscene attempt rfl).trace haside
      rwa [List.append_nil] at hunderWay
  | @step scene middle last incident incidents hhappens _ ih =>
      rw [List.append_cons]
      refine ih (hbefore.append (.single hhappens)) ?_ hattempt
      intro attempt hmiddle
      cases hhappens with
      | attempting reader want limit e' =>
          obtain rfl := Option.some.inj hmiddle
          refine ⟨⟨told, [], e', limit, ?_, hbefore, ?_, .done _⟩⟩
          · rfl
          · rfl
      | attempted | fed => cases hmiddle
      | _ =>
          obtain rfl := hmiddle
          exact (hscene attempt rfl).trace (.single (by constructor))

namespace Endpoint

/-- The handler runs at the end of an attempt exactly if a packet is left in want of octets,
the endpoint is open, and the schedule is due. The journal tells of each run. -/
theorem run_fires_iff (operations : List (Operation (Protection C))) (e : Endpoint C) :
    (∃ incidents, Traced operations e incidents) ∧
      ∀ incidents, Traced operations e incidents →
        (run operations e).2.firings = (Incident.firings incidents).reverse ++ e.firings ∧
          ∀ before attempt firing? after,
            incidents = before ++ .attempted attempt firing? :: after →
            ∃ here there, UnderWay e before attempt here ∧
              Trace there after ⟨none, (run operations e).2⟩ ∧
              (firing?.isSome = true ↔ attempt.reader = .packet ∧
                (∃ bytes, attempt.arrival = .more bytes ∧ bytes.length < attempt.want) ∧
                here.closed = false ∧ here.keepAliveDue = true) := by
  refine ⟨exists_traced operations e, ?_⟩
  intro incidents htraced
  refine ⟨htraced.trace.firings_eq, ?_⟩
  rintro before attempt firing? after rfl
  obtain ⟨here, there, hbefore, hhappens, hafter⟩ := htraced.trace.of_split
  cases hhappens with
  | attempted attempt here =>
      have hunderWay := hbefore.underWay (.done ⟨none, e⟩) nofun rfl
      refine ⟨here, _, hunderWay, hafter, ?_⟩
      rw [← and_assoc, ← attempt.unfinished_iff]
      simp [firingAfter, firesAfter, and_assoc]

/-- A read whose next attempt brings too few octets looks after keep-alive before it goes
on. -/
theorem continueRead_of_short {raw bytes : Bytes} {e ready next : Endpoint C}
    (hready : e.activateParked = ready) (hshort : ¬ready.inbound.blockSize ≤ (raw ++ bytes).length)
    (hattempt : ready.receive (ready.inbound.blockSize - raw.length) ready.config.pollInterval =
      (.more bytes, next)) (hopen : next.closed = false) :
    continueRead raw e = continueRead (raw ++ bytes) next.checkKeepAlive := by
  have hmissing : ¬ready.inbound.blockSize ≤ raw.length := by
    rw [List.length_append] at hshort
    omega
  have hawaits : awaitFirstBlock raw e = awaitFirstBlock (raw ++ bytes) next.checkKeepAlive := by
    rw [awaitFirstBlock_of_short hready hmissing, hattempt]
    simp only [hshort, hopen, if_false, Bool.false_eq_true]
  exact Act.bind_apply_congr hawaits

/-- If the first attempt of a read brings too few octets when the schedule is due, the
handler runs at the end of that attempt. -/
theorem read_fires_of_short {e ready next : Endpoint C} {bytes : Bytes}
    (hopen : e.closed = false) (hready : e.countOperation.activateParked = ready)
    (hattempt : ready.receive ready.inbound.blockSize ready.config.pollInterval =
      (.more bytes, next)) (hshort : bytes.length < ready.inbound.blockSize)
    (hstill : next.closed = false) (hdue : next.keepAliveDue = true) :
    ∃ before after, Traced [.read] e (before ++ .attempted
      ⟨.packet, ready.inbound.blockSize, .more bytes, next.reads⟩
      (some ⟨next.now, next.keepAlive.interval⟩) :: after) := by
  have hbegun : Evolves none e ready := by
    have hcounted : Evolves none e e.countOperation := .of_watch rfl
    exact hcounted.trans (hready ▸ evolves_activateParked _)
  obtain ⟨before, hbegun⟩ := hbegun
  obtain ⟨inside, hreceived⟩ := trace_receive .packet hattempt
  rw [endAttempt_of_short hshort (by simp [hstill])] at hreceived
  have hfiring : next.firingAfter
      ⟨.packet, ready.inbound.blockSize, .more bytes, next.reads⟩ =
        some ⟨next.now, next.keepAlive.interval⟩ := by
    simp [firingAfter, firesAfter, Attempt.unfinished, hshort, hstill, hdue]
  -- what follows the first attempt is a read that has these octets already
  have hread : (perform .read e).2 =
      (Act.noting .inbound (continueRead bytes) next.checkKeepAlive).2.upkeep .idle := by
    have hcontinues : continueRead [] e.countOperation = continueRead bytes next.checkKeepAlive :=
      continueRead_of_short hready (Nat.not_le_of_lt hshort) hattempt hstill
    have hstart : start .read e.countOperation = _ :=
      Act.bind_pure_eq read Reply.packet e.countOperation
    have hnoted : read e.countOperation =
        Act.noting .inbound (continueRead bytes) next.checkKeepAlive := by
      rw [read, if_neg (by simpa [countOperation] using hopen)]
      simp only [Act.noting, ← hcontinues]
      rfl
    rw [perform, hstart, hnoted]
  have hrest : Evolves none next.checkKeepAlive (perform .read e).2 := by
    rw [hread]
    exact (evolves_continueRead bytes _).trans (evolves_upkeep _)
  obtain ⟨after, hrest⟩ := hrest
  have htrace := hbegun.append (hreceived.append hrest)
  rw [hfiring] at htrace
  refine ⟨before ++ inside, after, ?_⟩
  have htraced := Traced.step htrace (.done _)
  simpa using htraced

/-- A connection on which the first octets of a packet arrive when the handler has become
due, and the others at the same time. -/
def busyConnection : List (Operation (Protection Rehearsal.Cipher)) :=
  [.installOutbound (maskedProtection 0), .setKeepAlive 10 .count,
    .feed [.pause 50, .data [0, 0, 0, 12, 10], .data ([1] ++ List.replicate 10 0)]]

/-- The handler does not run only at the end of attempts that bring nothing. It runs while a
packet arrives without a break. -/
theorem run_fires_busy :
    (run (busyConnection ++ [.read]) newEndpoint).1.getLast? =
        some (.ok (.packet (some ⟨[1], 0⟩))) ∧
      (run (busyConnection ++ [.read]) newEndpoint).2.fired = 1 ∧
      ¬∀ operations incidents, Traced operations newEndpoint incidents →
        ∀ attempt firing, .attempted attempt (some firing) ∈ incidents →
          attempt.arrival = .more [] := by
  refine ⟨by decide +kernel, by decide +kernel, ?_⟩
  intro hidle
  -- the read asks for a block of eight octets, and its first attempt brings five
  let reader : Endpoint Rehearsal.Cipher :=
    (run busyConnection newEndpoint).2.countOperation.activateParked
  rcases hattempt : reader.receive reader.inbound.blockSize reader.config.pollInterval with
    ⟨arrival, next⟩
  obtain rfl : arrival = .more [0, 0, 0, 12, 10] :=
    (congrArg Prod.fst hattempt).symm.trans (by decide +kernel)
  have hnext : (reader.receive reader.inbound.blockSize reader.config.pollInterval).2 = next :=
    congrArg Prod.snd hattempt
  obtain ⟨before, after, hread⟩ := read_fires_of_short (by decide +kernel) rfl hattempt
    (by decide +kernel) (hnext ▸ by decide +kernel) (hnext ▸ by decide +kernel)
  obtain ⟨setting, hset⟩ := exists_traced busyConnection newEndpoint
  have hsilent := hidle _ _ (hset.append hread) _ _
    (List.mem_append_right setting (List.mem_append_right before List.mem_cons_self))
  cases hsilent

end Endpoint

end PacketLayer
