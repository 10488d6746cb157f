import PacketLayer.Proofs.Lines

/-! # Deadlines

A reading that has a deadline ends by it, takes nothing that comes later, and gives up at no
other time. What it has taken by then is gone: the reading after it begins in the middle of
the line.
-/

namespace PacketLayer.Endpoint

open ReadScript (arrivals)

variable {C : Type}

/-- A reading ends by a time, and has taken nothing that comes after its end. It runs out of
time at that time only. -/
structure InTime (limit : Nat) (e : Endpoint C)
    (outcome : Except Fault (Option String) × Endpoint C) : Prop where
  now_le : outcome.2.now ≤ limit
  taken : ∃ taken, e.timetable = taken ++ outcome.2.timetable ∧
    ∀ entry ∈ taken, entry.1 ≤ outcome.2.now
  timedOut {fault : Fault} :
    outcome.1 = .error fault → fault.category = .timeout → outcome.2.now = limit

variable [BlockCipher C]

/-- An attempt with a deadline ends by it. -/
theorem now_le_of_bannerLimit {limit : Nat} {arrival : Arrival} {e next : Endpoint C}
    (hearly : e.now ≤ limit)
    (hattempt : e.receive 1 (e.bannerLimit (some limit)) = (arrival, next)) :
    next.now ≤ limit := by
  have hnow := now_receive_le hattempt
  simp only [bannerLimit] at hnow
  omega

theorem InTime.of_receive {limit : Nat} {arrival : Arrival} {e next : Endpoint C}
    {result : Except Fault (Option String)} (hearly : e.now ≤ limit)
    (hattempt : e.receive 1 (e.bannerLimit (some limit)) = (arrival, next))
    (htimedOut : ∀ fault, result = .error fault → fault.category = .timeout → next.now = limit) :
    InTime limit e (result, next) := by
  obtain ⟨taken, htable, htaken⟩ := exists_taken_receive hattempt
  exact ⟨now_le_of_bannerLimit hearly hattempt,
    ⟨taken, htable, fun entry hmem => Nat.le_of_eq (htaken entry hmem)⟩, htimedOut _⟩

theorem now_le_readLine (deadline : Option Nat) (line : Bytes) (e : Endpoint C) :
    e.now ≤ (readLine deadline line e).2.now := by
  fun_induction readLine deadline line e with
  | case7 line e bytes next hattempt _ _ _ _ ih =>
      exact Nat.le_trans (now_le_receive hattempt) ih
  | _ => exact now_le_receive ‹_›

theorem inTime_readLine {limit : Nat} {e : Endpoint C} (hearly : e.now ≤ limit) (line : Bytes) :
    InTime limit e (readLine (some limit) line e) := by
  generalize hdeadline : some limit = deadline
  fun_induction readLine deadline line e with
  | case1 line e next hattempt | case3 line e next hattempt
  | case6 line e bytes next hattempt =>
      subst hdeadline
      refine .of_receive hearly hattempt fun fault hfault _ => ?_
      cases hfault
  | case2 line e failure next hattempt | case4 line e bytes next hattempt =>
      subst hdeadline
      refine .of_receive hearly hattempt fun fault hfault htimeout => ?_
      cases hfault
      cases htimeout
  | case5 line e bytes next hattempt _ _ hlate =>
      subst hdeadline
      refine .of_receive hearly hattempt fun _ _ _ => ?_
      have hnow := now_le_of_bannerLimit hearly hattempt
      simp only [expired, decide_eq_true_eq] at hlate
      omega
  | case7 line e bytes next hattempt _ _ hspare _ ih =>
      subst hdeadline
      obtain ⟨shed, htable, hshed⟩ := exists_taken_receive hattempt
      have hlater := now_le_readLine (some limit) (bytes.reverse ++ line) next
      obtain ⟨hnow, ⟨taken, hrest, htaken⟩, htimedOut⟩ :=
        ih (now_le_of_bannerLimit hearly hattempt)
      refine ⟨hnow, ⟨shed ++ taken, ?_, fun entry hmem => ?_⟩, htimedOut⟩
      · rw [htable, hrest, List.append_assoc]
      · rcases List.mem_append.mp hmem with hmem | hmem
        · exact hshed entry hmem ▸ hlater
        · exact htaken entry hmem

/-! ## On time -/

/-- How the reading of a line keeps to its deadline. -/
structure Punctual (milliseconds : Nat) (e : Endpoint C) : Prop extends
    InTime (e.now + milliseconds) e (readBanner milliseconds e) where
  /-- A line that is there before the deadline is read at the time of its line feed. -/
  line {stamped : List (Nat × UInt8)} {time : Nat} {rest : List (Nat × Arrival)} :
    e.OpenThroughout milliseconds →
    e.timetable = arrivals stamped ++ (time, .more [lineFeed]) :: rest →
    lineFeed ∉ stamped.map Prod.snd → stamped.length ≤ e.config.maxBannerLine →
    time < e.now + milliseconds →
      (readBanner milliseconds e).1 =
        .ok (some (Text.Utf8.read (withoutReturn (stamped.map Prod.snd)))) ∧
      (readBanner milliseconds e).2.now = time ∧
      (readBanner milliseconds e).2.timetable = rest

theorem readBanner_punctual {milliseconds : Nat} (hdeadline : milliseconds ≠ 0)
    (e : Endpoint C) : Punctual milliseconds e := by
  have hreads : readBanner milliseconds e = readLine (some (e.now + milliseconds)) [] e := by
    rw [readBanner, if_neg hdeadline]
  refine ⟨hreads ▸ inTime_readLine (Nat.le_add_right _ _) [], ?_⟩
  intro stamped time rest hopen htable hline hfits hearly
  rw [OpenThroughout, hreads] at hopen
  rw [hreads]
  exact readLine_of_verdict htable hline (by simpa using hfits) (if_pos rfl)
    (by rintro _ ⟨⟩; exact hearly) hopen

/-- Octets of a line trickle in, and the attempts are shorter than the pauses between them. -/
def trickledReader : Endpoint Rehearsal.Cipher :=
  { newEndpoint with
    config := { pollInterval := 7 }
    valid := (Config.violation?_eq_none_iff _).mp rfl
    reads := [.data [104], .pause 30, .fail ⟨.interrupted, "again"⟩, .data [105], .pause 40,
      .data [13, lineFeed]] }

theorem readBanner_punctual_trickled :
    (readBanner 71 trickledReader).1 =
      .ok (some (Text.Utf8.read (withoutReturn [104, 105, 13]))) ∧
    (readBanner 71 trickledReader).2.now = 70 := by
  have hstays : trickledReader.StaysOpen := staysOpen_of_reads (by simp)
  have htable : trickledReader.timetable =
      arrivals [(0, 104), (30, 105), (70, 13)] ++ [(70, .more [lineFeed])] := rfl
  have hread := (readBanner_punctual (by decide) trickledReader).line (hstays.openThroughout 71)
    htable (by decide) (by decide) (by decide)
  exact ⟨hread.1, hread.2.1⟩

/-! ## Out of time -/

/-- What is left of the octets of a line when a reading of it has run out of time. All that
came before the deadline is lost, and perhaps one octet that came just then. -/
inductive CutShort (limit : Nat) : List (Nat × UInt8) → List (Nat × UInt8) → Prop where
  | left {kept : List (Nat × UInt8)} (hlater : ∀ entry ∈ kept, limit ≤ entry.1) :
      CutShort limit kept kept
  | last {octet : UInt8} {kept : List (Nat × UInt8)} (hlater : ∀ entry ∈ kept, limit ≤ entry.1) :
      CutShort limit ((limit, octet) :: kept) kept
  | lost {entry : Nat × UInt8} {stamped kept : List (Nat × UInt8)} (hearly : entry.1 < limit)
      (hrest : CutShort limit stamped kept) : CutShort limit (entry :: stamped) kept

namespace CutShort

variable {limit : Nat} {stamped kept : List (Nat × UInt8)}

omit [BlockCipher C] in
theorem suffix (hcut : CutShort limit stamped kept) : kept <:+ stamped := by
  induction hcut with
  | left => exact List.suffix_rfl
  | last => exact List.suffix_cons _ _
  | lost _ _ ih => exact ih.trans (List.suffix_cons _ _)

/-- An octet that came before the deadline is lost. -/
theorem length_lt (hcut : CutShort limit stamped kept) {entry : Nat × UInt8}
    (hentry : entry ∈ stamped) (hearly : entry.1 < limit) : kept.length < stamped.length := by
  cases hcut with
  | left hlater => exact absurd (hlater entry hentry) (Nat.not_le_of_lt hearly)
  | last => exact Nat.lt_succ_self _
  | lost _ hrest => exact Nat.lt_succ_of_le hrest.suffix.length_le

end CutShort

omit [BlockCipher C] in
/-- Nothing that is still to come is there before its time. -/
theorem le_of_mem_kept {e : Endpoint C} {limit : Nat} {kept : List (Nat × UInt8)}
    {rest : List (Nat × Arrival)} (hnow : limit ≤ e.now)
    (htable : e.timetable = arrivals kept ++ rest) :
    ∀ entry ∈ kept, limit ≤ entry.1 := by
  intro entry hmem
  have hlisted : (entry.1, Arrival.more [entry.2]) ∈ e.timetable := by
    rw [htable]
    exact List.mem_append_left _ (List.mem_map_of_mem hmem)
  exact Nat.le_trans hnow (now_le_of_mem hlisted)

/-- A reading that runs out of time leaves the rest of the line on the stream. -/
theorem cutShort_readLine {limit : Nat} {line : Bytes} {e : Endpoint C}
    {stamped : List (Nat × UInt8)} {time : Nat} {rest : List (Nat × Arrival)} {fault : Fault}
    (hearly : e.now ≤ limit)
    (htable : e.timetable = arrivals stamped ++ (time, .more [lineFeed]) :: rest)
    (hfault : (readLine (some limit) line e).1 = .error fault)
    (htimeout : fault.category = .timeout) :
    ∃ kept, CutShort limit stamped kept ∧
      (readLine (some limit) line e).2.timetable =
        arrivals kept ++ (time, .more [lineFeed]) :: rest := by
  generalize hdeadline : some limit = deadline at hfault
  fun_induction readLine deadline line e generalizing stamped with
  | case1 | case3 | case6 => cases hfault
  | case2 | case4 =>
      cases hfault
      cases htimeout
  | case5 line e bytes next hattempt hfeed _ hlate =>
      -- the attempt at whose end the deadline has come may still have taken an octet
      subst hdeadline
      have hnow : next.now = limit := by
        have hwithin := now_le_of_bannerLimit hearly hattempt
        simp only [expired, decide_eq_true_eq] at hlate
        omega
      cases finds_receive htable hattempt with
      | nothing hleft => exact ⟨_, .left (le_of_mem_kept (Nat.le_of_eq hnow.symm) hleft), hleft⟩
      | first hleft =>
          rw [hnow]
          exact ⟨_, .last (le_of_mem_kept (Nat.le_of_eq hnow.symm) hleft), hleft⟩
      | last => exact absurd rfl hfeed
  | case7 line e bytes next hattempt hfeed _ hspare _ ih =>
      subst hdeadline
      have hnow : next.now < limit := by
        simp only [expired, decide_eq_true_eq] at hspare
        omega
      cases finds_receive htable hattempt with
      | nothing hleft => exact ih (Nat.le_of_lt hnow) hleft hfault
      | first hleft =>
          obtain ⟨kept, hcut, hlast⟩ := ih (Nat.le_of_lt hnow) hleft hfault
          exact ⟨kept, .lost hnow hcut, hlast⟩
      | last => exact absurd rfl hfeed

/-! ## The reading after -/

theorem timetable_upkeep (reader : ReaderState) (e : Endpoint C) :
    (e.upkeep reader).timetable = e.timetable := by
  rw [timetable, timetable, (tended_upkeep reader e).now_eq, reads_upkeep reader e]

omit [BlockCipher C] in
theorem StaysOpen.countOperation {e : Endpoint C} (hopen : e.StaysOpen) :
    e.countOperation.StaysOpen :=
  ⟨hopen.toGuarded.of_same rfl rfl rfl rfl rfl, hopen.reads⟩

/-- A reading that runs out of time takes part of the line away, and the next reading returns
the rest of it as if it were a line of its own. -/
theorem line_after_timeout {milliseconds : Nat} {e : Endpoint C}
    {stamped : List (Nat × UInt8)} {time : Nat} {rest : List (Nat × Arrival)} {fault : Fault}
    {second : Except Fault Reply} {last : Endpoint C} (hdeadline : milliseconds ≠ 0)
    (hopen : e.StaysOpen)
    (htable : e.timetable = arrivals stamped ++ (time, .more [lineFeed]) :: rest)
    (hline : lineFeed ∉ stamped.map Prod.snd) (hfits : stamped.length ≤ e.config.maxBannerLine)
    (hrun : run [.readBanner milliseconds, .readBanner 0] e = ([.error fault, second], last))
    (htimeout : fault.category = .timeout) :
    ∃ kept, CutShort (e.now + milliseconds) stamped kept ∧
      second = .ok (.line (some (Text.Utf8.read (withoutReturn (kept.map Prod.snd))))) ∧
      ((∃ entry ∈ stamped, entry.1 < e.now + milliseconds) → kept.length < stamped.length) := by
  have hreads : readBanner milliseconds e.countOperation =
      readLine (some (e.now + milliseconds)) [] e.countOperation := by
    rw [readBanner, if_neg hdeadline]
    rfl
  simp only [run, perform_readBanner, Prod.mk.injEq, List.cons.injEq, and_true] at hrun
  obtain ⟨⟨hfirst, hsecond⟩, -⟩ := hrun
  have hfault : (readBanner milliseconds e.countOperation).1 = .error fault := by
    cases hresult : (readBanner milliseconds e.countOperation).1 with
    | error other =>
        rw [hresult] at hfirst
        exact congrArg _ (Except.error.inj hfirst)
    | ok line? =>
        rw [hresult] at hfirst
        cases hfirst
  rw [hreads] at hfault hsecond
  obtain ⟨kept, hcut, hleft⟩ : ∃ kept, CutShort (e.now + milliseconds) stamped kept ∧ _ :=
    cutShort_readLine (Nat.le_add_right _ _) (e := e.countOperation) htable hfault htimeout
  -- between the readings the endpoint stays open, with its settings and its timetable
  have hstays := ((hopen.countOperation.readLine (some (e.now + milliseconds)) []).upkeep
    .idle).countOperation
  have hconfig := ((lasts_readLine (some (e.now + milliseconds)) [] e.countOperation).after
    (lasts_upkeep .idle _)).config
  have hsuffix := hcut.suffix.map Prod.snd
  have hshort : (kept.map Prod.snd).length ≤ e.config.maxBannerLine := by
    have hwithin := hcut.suffix.length_le
    rw [List.length_map]
    omega
  have hread := readBanner_of_line (hstays.openThroughout 0)
    (fun hmem => hline (hsuffix.subset hmem)) (hconfig ▸ hshort)
    (offers_of_timetable ((timetable_upkeep .idle _).trans hleft))
  refine ⟨kept, hcut, ?_, ?_⟩
  · rw [← hsecond, hread.1]
    rfl
  · rintro ⟨entry, hentry, hearly⟩
    exact hcut.length_lt hentry hearly

/-- The end of a line comes long after its first two octets. -/
def haltingReader : Endpoint Rehearsal.Cipher :=
  { newEndpoint with reads := [.data [97, 98], .pause 20, .data [99, 13, lineFeed]] }

theorem line_after_timeout_halting :
    ∃ kept, CutShort 10 [(0, 97), (0, 98), (20, 99), (20, 13)] kept ∧
      (.ok (.line (some "c")) : Except Fault Reply) =
        .ok (.line (some (Text.Utf8.read (withoutReturn (kept.map Prod.snd))))) ∧
      kept.length < 4 := by
  have hstays : haltingReader.StaysOpen := staysOpen_of_reads (by simp)
  have htable : haltingReader.timetable =
      arrivals [(0, 97), (0, 98), (20, 99), (20, 13)] ++ [(20, .more [lineFeed])] := rfl
  have hresults : (run [.readBanner 10, .readBanner 0] haltingReader).1 =
      [.error .bannerDeadline, .ok (.line (some "c"))] := by decide +kernel
  obtain ⟨kept, hcut, hsecond, hlost⟩ := line_after_timeout (by decide) hstays htable (by decide)
    (by decide) (Prod.ext hresults rfl) rfl
  exact ⟨kept, hcut, hsecond, hlost ⟨(0, 97), by decide, by decide⟩⟩

theorem line_lost_halting :
    (run [.readBanner 10, .readBanner 0] haltingReader).1 =
      [.error .bannerDeadline, .ok (.line (some "c"))] ∧
    (run [.readBanner 10, .readBanner 0] haltingReader).1 ≠
      [.error .bannerDeadline,
        .ok (.line (some (Text.Utf8.read (withoutReturn [97, 98, 99, 13]))))] := by
  decide +kernel

end PacketLayer.Endpoint
