import PacketLayer.Proofs.Pieces

/-! # Timetables

A read script, and the time at which a reader begins to wait, settle what the reader finds on
the stream and when it is there. How the reader divides its waiting into attempts makes no
difference, and neither do failures that pass.
-/

namespace PacketLayer

variable {P C : Type}

namespace ReadScript

open Endpoint (Arrival)

/-- What there is to find from a time on, each with the time at which it is there: single
octets, ends of the stream, and failures that last. -/
def timetable (now : Nat) : ReadScript P → List (Nat × Arrival)
  | [] => []
  | .data bytes :: items =>
      if bytes.isEmpty then (now, .finished) :: timetable now items
      else (bytes.map fun byte => (now, .more [byte])) ++ timetable now items
  | .eof :: items => (now, .finished) :: timetable now items
  | .fail failure :: items =>
      if failure.kind.isTransient then timetable now items
      else (now, .failed failure) :: timetable now items
  | .pause milliseconds :: items => timetable (now + milliseconds) items
  | .resumeAt time :: items => timetable (max now time) items
  | .installOutbound _ :: items | .act _ :: items => timetable now items

theorem le_of_mem_timetable {now : Nat} {items : ReadScript P} {entry : Nat × Arrival}
    (hentry : entry ∈ timetable now items) : now ≤ entry.1 := by
  induction items generalizing now with
  | nil => cases hentry
  | cons item items ih =>
      cases item with
      | data bytes =>
          unfold timetable at hentry
          split at hentry
          · rcases List.mem_cons.mp hentry with rfl | hmem
            · exact Nat.le_refl now
            · exact ih hmem
          · rcases List.mem_append.mp hentry with hmem | hmem
            · obtain ⟨byte, -, rfl⟩ := List.mem_map.mp hmem
              exact Nat.le_refl now
            · exact ih hmem
      | eof =>
          rcases List.mem_cons.mp hentry with rfl | hmem
          · exact Nat.le_refl now
          · exact ih hmem
      | fail failure =>
          unfold timetable at hentry
          split at hentry
          · exact ih hentry
          · rcases List.mem_cons.mp hentry with rfl | hmem
            · exact Nat.le_refl now
            · exact ih hmem
      | pause milliseconds => exact Nat.le_trans (Nat.le_add_right _ _) (ih hentry)
      | resumeAt time => exact Nat.le_trans (Nat.le_max_left _ _) (ih hentry)
      | installOutbound protection => exact ih hentry
      | act action => exact ih hentry

/-- Octets as they are found one by one, each at a time. -/
def arrivals (stamped : List (Nat × UInt8)) : List (Nat × Arrival) :=
  stamped.map fun entry => (entry.1, .more [entry.2])

/-- Octets that are delivered in pieces are found one after another, before anything else. -/
theorem Cuts.timetable {items : ReadScript P} {octets : Bytes} (hcuts : Cuts items octets)
    (now : Nat) : ∃ stamped ends, ReadScript.timetable now items = arrivals stamped ++ ends ∧
      stamped.map Prod.snd = octets := by
  induction hcuts generalizing now with
  | nil => exact ⟨[], [], rfl, rfl⟩
  | @data items octets bytes hbytes _ ih =>
      obtain ⟨stamped, ends, htable, rfl⟩ := ih now
      refine ⟨bytes.map (now, ·) ++ stamped, ends, ?_, by simp [Function.comp_def]⟩
      rw [ReadScript.timetable, if_neg (by simpa using hbytes), htable]
      simp [arrivals]
  | fail htransient _ ih =>
      rw [ReadScript.timetable, if_pos htransient]
      exact ih now
  | pause milliseconds _ ih => exact ih (now + milliseconds)
  | resumeAt time _ ih => exact ih (max now time)
  | eof => exact ⟨[], _, rfl, rfl⟩
  | empty => exact ⟨[], _, rfl, rfl⟩

end ReadScript

namespace Endpoint

open ReadScript (arrivals)

/-- What there is to find on the stream of an endpoint that reads from now on. -/
def timetable (e : Endpoint C) : List (Nat × Arrival) :=
  ReadScript.timetable e.now e.reads

theorem now_le_of_mem {e : Endpoint C} {entry : Nat × Arrival} (hentry : entry ∈ e.timetable) :
    e.now ≤ entry.1 :=
  ReadScript.le_of_mem_timetable hentry

theorem timetable_leftOver (now : Nat) (byte : UInt8) (bytes : Bytes)
    (items : ReadScript (Protection C)) :
    ReadScript.timetable now (leftOver 1 (byte :: bytes) items) =
      (bytes.map fun byte => (now, .more [byte])) ++ ReadScript.timetable now items := by
  cases bytes with
  | nil => rfl
  | cons next bytes => simp [leftOver, ReadScript.timetable]

/-- What an attempt to read one octet makes of a timetable, by the time at which it ends: it
has waited for nothing, or it catches what comes first, or there is nothing to come. -/
inductive Catches (now : Nat) :
    List (Nat × Arrival) → Arrival → List (Nat × Arrival) → Prop where
  | waited (table : List (Nat × Arrival)) : Catches now table (.more []) table
  | caught (arrival : Arrival) (left : List (Nat × Arrival)) :
      Catches now ((now, arrival) :: left) arrival left
  | ended : Catches now [] .finished []

variable [BlockCipher C]

theorem now_arrive_le (want deadline : Nat) (items : ReadScript (Protection C))
    (e : Endpoint C) : (arrive want deadline items e).2.2.now ≤ max e.now deadline := by
  induction items generalizing e with
  | nil => exact Nat.le_max_left _ _
  | cons item items ih =>
      cases item with
      | data bytes =>
          unfold arrive
          split <;> exact Nat.le_max_left _ _
      | eof => exact Nat.le_max_left _ _
      | fail failure => exact Nat.le_max_left _ _
      | pause milliseconds =>
          simp only [arrive]
          split
          next hreached =>
            have hlater := ih (e.waitUntil .busy (e.now + milliseconds))
            rw [now_waitUntil] at hlater
            omega
          next => exact Nat.le_of_eq (now_waitUntil .busy deadline e)
      | resumeAt time =>
          simp only [arrive]
          split
          next hreached =>
            have hlater := ih (e.waitUntil .busy time)
            rw [now_waitUntil] at hlater
            omega
          next => exact Nat.le_of_eq (now_waitUntil .busy deadline e)
      | installOutbound protection => exact ih (e.installOutbound protection)
      | act action =>
          have hlater := ih (e.act .busy action)
          rw [now_act] at hlater
          exact hlater

theorem catches_arrive (deadline : Nat) (items : ReadScript (Protection C)) (e : Endpoint C) :
    Catches (arrive 1 deadline items e).2.2.now (ReadScript.timetable e.now items)
      (arrive 1 deadline items e).1
      (ReadScript.timetable (arrive 1 deadline items e).2.2.now
        (arrive 1 deadline items e).2.1) := by
  induction items generalizing e with
  | nil => exact .ended
  | cons item items ih =>
      cases item with
      | data bytes =>
          cases bytes with
          | nil => exact .caught .finished _
          | cons byte bytes =>
              have harrive : arrive 1 deadline (.data (byte :: bytes) :: items) e =
                  (.more [byte], leftOver 1 (byte :: bytes) items, e) := rfl
              rw [harrive, timetable_leftOver]
              exact .caught (.more [byte]) _
      | eof => exact .caught .finished _
      | fail failure =>
          simp only [arrive, ReadScript.timetable]
          split
          · exact .waited _
          · exact .caught (.failed failure) _
      | pause milliseconds =>
          simp only [arrive, ReadScript.timetable]
          split
          next hreached =>
            have hcatches := ih (e.waitUntil .busy (e.now + milliseconds))
            rwa [now_waitUntil, Nat.max_eq_right (Nat.le_add_right _ _)] at hcatches
          next hmissed =>
            simp only [now_waitUntil, ReadScript.timetable,
              Nat.max_eq_right (Nat.le_of_not_le hmissed)]
            exact .waited _
      | resumeAt time =>
          simp only [arrive, ReadScript.timetable]
          split
          next hreached =>
            have hcatches := ih (e.waitUntil .busy time)
            rwa [now_waitUntil] at hcatches
          next hmissed =>
            have hlater : e.now ≤ time := by omega
            simp only [now_waitUntil, ReadScript.timetable, Nat.max_eq_right hlater,
              Nat.max_eq_right (Nat.le_of_not_le hmissed)]
            exact .waited _
      | installOutbound protection => exact ih (e.installOutbound protection)
      | act action =>
          have hcatches := ih (e.act .busy action)
          rwa [now_act] at hcatches

section

variable {want limit : Nat} {arrival : Arrival} {e next : Endpoint C}

/-- An attempt ends within its limit. -/
theorem now_receive_le (hattempt : e.receive want limit = (arrival, next)) :
    next.now ≤ e.now + limit := by
  have hnow := now_arrive_le want (e.now + limit) e.reads e
  rw [Nat.max_eq_right (Nat.le_add_right _ _)] at hnow
  obtain ⟨rfl, rfl⟩ := Prod.mk.inj hattempt
  exact hnow

theorem catches_receive (hattempt : e.receive 1 limit = (arrival, next)) :
    Catches next.now e.timetable arrival next.timetable := by
  have hcatches := catches_arrive (e.now + limit) e.reads e
  obtain ⟨rfl, rfl⟩ := Prod.mk.inj hattempt
  exact hcatches

/-- What an attempt finds when octets are to come and then one more. -/
inductive Finds (time : Nat) (octet : UInt8) (rest : List (Nat × Arrival)) (next : Endpoint C) :
    List (Nat × UInt8) → Arrival → Prop where
  | nothing {stamped : List (Nat × UInt8)}
      (hleft : next.timetable = arrivals stamped ++ (time, .more [octet]) :: rest) :
      Finds time octet rest next stamped (.more [])
  | first {byte : UInt8} {stamped : List (Nat × UInt8)}
      (hleft : next.timetable = arrivals stamped ++ (time, .more [octet]) :: rest) :
      Finds time octet rest next ((next.now, byte) :: stamped) (.more [byte])
  | last (hnow : next.now = time) (hleft : next.timetable = rest) :
      Finds time octet rest next [] (.more [octet])

theorem finds_receive {stamped : List (Nat × UInt8)} {time : Nat} {octet : UInt8}
    {rest : List (Nat × Arrival)}
    (htable : e.timetable = arrivals stamped ++ (time, .more [octet]) :: rest)
    (hattempt : e.receive 1 limit = (arrival, next)) :
    Finds time octet rest next stamped arrival := by
  have hcatches := catches_receive hattempt
  rw [htable] at hcatches
  generalize hlater : next.timetable = later at hcatches
  cases stamped with
  | nil =>
      generalize hnow : next.now = now at hcatches
      cases hcatches with
      | waited => exact .nothing hlater
      | caught => exact .last hnow hlater
  | cons entry stamped =>
      obtain ⟨now, byte⟩ := entry
      cases hcatches with
      | waited => exact .nothing hlater
      | caught => exact .first hlater

/-- What an attempt takes off the timetable is there when it ends. -/
theorem exists_taken_receive (hattempt : e.receive 1 limit = (arrival, next)) :
    ∃ taken, e.timetable = taken ++ next.timetable ∧ ∀ entry ∈ taken, entry.1 = next.now := by
  have hcatches := catches_receive hattempt
  generalize e.timetable = table, next.timetable = left at hcatches
  cases hcatches with
  | waited => exact ⟨[], rfl, by simp⟩
  | caught => exact ⟨[(next.now, arrival)], rfl, by simp⟩
  | ended => exact ⟨[], rfl, by simp⟩

/-- An attempt does not outlast what comes first. -/
theorem now_le_of_receive (hattempt : e.receive 1 limit = (arrival, next))
    {entry : Nat × Arrival} (hentry : entry ∈ e.timetable) : next.now ≤ entry.1 := by
  obtain ⟨taken, htable, htaken⟩ := exists_taken_receive hattempt
  rw [htable] at hentry
  rcases List.mem_append.mp hentry with hmem | hmem
  · exact Nat.le_of_eq (htaken entry hmem).symm
  · exact now_le_of_mem hmem

end

end Endpoint

end PacketLayer
