import PacketLayer.Proofs.Acceptance
import PacketLayer.Proofs.Lasting
import PacketLayer.Proofs.Lettering
import PacketLayer.Proofs.Openness
import PacketLayer.Proofs.Sending
import PacketLayer.Proofs.Timetable

/-! # Lines

A reader of lines takes octets one by one until one of them settles the matter: a line feed,
or an octet for which the line has no room. What comes behind that octet is left on the
stream, however the octets arrive.
-/

namespace PacketLayer.Endpoint

open ReadScript (arrivals)

variable {C : Type}

/-- A line without the carriage return that may end it. -/
def withoutReturn (line : Bytes) : Bytes :=
  if line.getLast? = some 13 then line.dropLast else line

theorem withoutReturn_reverse (line : Bytes) :
    withoutReturn line.reverse = (dropCarriageReturn line).reverse := by
  cases line with
  | nil => rfl
  | cons byte earlier =>
      simp only [withoutReturn, dropCarriageReturn, List.getLast?_reverse, List.head?_cons,
        Option.some_inj, List.dropLast_reverse, List.tail_cons]
      split <;> rfl

/-- What an octet makes of the line before it, if it settles what comes of it. -/
def verdict? (cap : Nat) (line : Bytes) (octet : UInt8) :
    Option (Except Fault (Option String)) :=
  if octet = lineFeed then some (.ok (some (Text.Utf8.read (withoutReturn line))))
  else if cap ≤ line.length then some (.error (.bannerTooLong cap))
  else none

/-! ## What a line reader is offered -/

section

/-- These octets come first on the stream, and in time if there is a deadline. -/
def Offers (e : Endpoint C) (milliseconds : Nat) (octets : Bytes)
    (rest : List (Nat × Arrival)) : Prop :=
  ∃ stamped, e.timetable = arrivals stamped ++ rest ∧ stamped.map Prod.snd = octets ∧
    (milliseconds = 0 ∨ ∀ entry ∈ stamped, entry.1 < e.now + milliseconds)

variable {milliseconds : Nat} {e : Endpoint C}

/-- Octets that are delivered in pieces are offered, with those behind them in the rest. -/
theorem offers_of_cuts {octets more : Bytes} (hcuts : ReadScript.Cuts e.reads (octets ++ more)) :
    ∃ stamped ends, e.Offers 0 octets (arrivals stamped ++ ends) ∧
      stamped.map Prod.snd = more := by
  obtain ⟨stamped, ends, htable, hoctets⟩ := hcuts.timetable e.now
  obtain ⟨front, back, rfl, hfront, hback⟩ := List.map_eq_append_iff.mp hoctets
  refine ⟨back, ends, ⟨front, htable.trans ?_, hfront, .inl rfl⟩, hback⟩
  simp [arrivals]

theorem offers_of_timetable {stamped : List (Nat × UInt8)} {time : Nat} {octet : UInt8}
    {rest : List (Nat × Arrival)}
    (htable : e.timetable = arrivals stamped ++ (time, .more [octet]) :: rest) :
    e.Offers 0 (stamped.map Prod.snd ++ [octet]) rest :=
  ⟨stamped ++ [(time, octet)], by simp [htable, arrivals], by simp, .inl rfl⟩

theorem Offers.take {octets : Bytes} {rest : List (Nat × Arrival)}
    (hoffers : e.Offers milliseconds octets rest) (count : Nat) :
    ∃ later, e.Offers milliseconds (octets.take count) later := by
  obtain ⟨stamped, htable, rfl, hearly⟩ := hoffers
  refine ⟨arrivals (stamped.drop count) ++ rest, stamped.take count, ?_, List.map_take, ?_⟩
  · rw [htable, ← List.append_assoc, arrivals, arrivals, arrivals, ← List.map_append,
      List.take_append_drop]
  · exact hearly.imp id fun hbefore entry hmem => hbefore entry (List.mem_of_mem_take hmem)

end

variable [BlockCipher C]

/-- Reading goes on until the octet that settles what comes of the line, and ends with it. -/
theorem readLine_of_verdict {deadline : Option Nat} {line : Bytes} {e : Endpoint C}
    {stamped : List (Nat × UInt8)} {time : Nat} {octet : UInt8} {rest : List (Nat × Arrival)}
    {result : Except Fault (Option String)}
    (htable : e.timetable = arrivals stamped ++ (time, .more [octet]) :: rest)
    (hline : lineFeed ∉ stamped.map Prod.snd)
    (hfits : line.length + stamped.length ≤ e.config.maxBannerLine)
    (hverdict : verdict? e.config.maxBannerLine (line.reverse ++ stamped.map Prod.snd) octet =
      some result)
    (hearly : ∀ limit, deadline = some limit → time < limit)
    (hopen : (readLine deadline line e).2.closed = false) :
    (readLine deadline line e).1 = result ∧ (readLine deadline line e).2.now = time ∧
      (readLine deadline line e).2.timetable = rest := by
  -- an attempt takes one octet at most; those it leaves are what the next one starts from
  fun_induction readLine deadline line e generalizing stamped with
  | case1 line e next hattempt | case2 line e failure next hattempt =>
      cases finds_receive htable hattempt
  | case3 line e next hattempt =>
      cases finds_receive htable hattempt with
      | first => exact absurd List.mem_cons_self hline
      | last hnow hleft =>
          rw [List.map_nil, List.append_nil, verdict?, if_pos rfl, withoutReturn_reverse]
            at hverdict
          exact ⟨Option.some.inj hverdict, hnow, hleft⟩
  | case4 line e bytes next hattempt hfeed hlong =>
      obtain ⟨hsome, hfull⟩ := hlong
      rw [(lasts_receive hattempt).config] at hfull ⊢
      cases finds_receive htable hattempt with
      | nothing => exact absurd rfl hsome
      | first =>
          rw [List.length_cons] at hfits
          omega
      | last hnow hleft =>
          rw [List.map_nil, List.append_nil, verdict?, if_neg (by simpa using hfeed),
            if_pos (by simpa using hfull)] at hverdict
          exact ⟨Option.some.inj hverdict, hnow, hleft⟩
  | case5 line e bytes next hattempt hfeed hroom hlate =>
      -- no attempt outlasts the octet, and that comes before the deadline
      have hnow : next.now ≤ time :=
        now_le_of_receive hattempt (htable ▸ List.mem_append_right _ List.mem_cons_self)
      cases deadline with
      | none => cases hlate
      | some limit =>
          have hlimit := hearly limit rfl
          simp only [expired, decide_eq_true_eq] at hlate
          omega
  | case6 line e bytes next hattempt hfeed hroom hlate hclosed =>
      rw [hclosed] at hopen
      cases hopen
  | case7 line e bytes next hattempt hfeed hroom hlate hclosed ih =>
      rw [(lasts_receive hattempt).config] at hroom ih
      cases finds_receive htable hattempt with
      | nothing hleft => exact ih hleft hline hfits hverdict hopen
      | first hleft =>
          refine ih hleft (List.not_mem_of_not_mem_cons hline) ?_ (by simpa using hverdict) hopen
          simp only [List.length_cons, List.reverse_cons, List.reverse_nil, List.nil_append,
            List.length_append, List.length_nil] at hfits ⊢
          omega
      | last =>
          -- the octet would have settled the matter
          have hspare : ¬e.config.maxBannerLine ≤ line.length := by simpa using hroom
          rw [List.map_nil, List.append_nil, verdict?, if_neg (by simpa using hfeed),
            if_neg (by rwa [List.length_reverse])] at hverdict
          cases hverdict

/-! ## Reading one line -/

/-- The endpoint is open as long as it reads a line. -/
def OpenThroughout (milliseconds : Nat) (e : Endpoint C) : Prop :=
  (readBanner milliseconds e).2.closed = false

section

variable {milliseconds : Nat} {e : Endpoint C}

theorem StaysOpen.readLine (hopen : e.StaysOpen) (deadline : Option Nat) (line : Bytes) :
    (Endpoint.readLine deadline line e).2.StaysOpen := by
  fun_induction Endpoint.readLine deadline line e with
  | case1 | case2 | case3 | case4 | case5 | case6 => exact hopen.receive ‹_›
  | case7 line e bytes next hattempt _ _ _ _ ih => exact ih (hopen.receive hattempt)

theorem StaysOpen.openThroughout (hopen : e.StaysOpen) (milliseconds : Nat) :
    e.OpenThroughout milliseconds :=
  (hopen.readLine _ []).opened

/-- The reading ends with the octet that settles what comes of the line. -/
theorem readBanner_of_offers {octets : Bytes} {octet : UInt8} {rest : List (Nat × Arrival)}
    {result : Except Fault (Option String)} (hopen : e.OpenThroughout milliseconds)
    (hoffers : e.Offers milliseconds (octets ++ [octet]) rest) (hline : lineFeed ∉ octets)
    (hfits : octets.length ≤ e.config.maxBannerLine)
    (hverdict : verdict? e.config.maxBannerLine octets octet = some result) :
    (readBanner milliseconds e).1 = result ∧ (readBanner milliseconds e).2.timetable = rest := by
  obtain ⟨stamped, htable, hoctets, hearly⟩ := hoffers
  obtain ⟨front, back, rfl, rfl, hback⟩ := List.map_eq_append_iff.mp hoctets
  obtain ⟨⟨time, last⟩, rfl, rfl⟩ := List.map_eq_singleton_iff.mp hback
  have htime : ∀ limit, (if milliseconds = 0 then none else some (e.now + milliseconds)) =
      some limit → time < limit := by
    intro limit hlimit
    rcases hearly with rfl | hbefore
    · cases hlimit
    · split at hlimit <;> cases hlimit
      exact hbefore (time, last) (by simp)
  have hlisted : e.timetable = arrivals front ++ (time, .more [last]) :: rest :=
    htable.trans (by simp [arrivals])
  have hroom : ([] : Bytes).length + front.length ≤ e.config.maxBannerLine := by
    simpa using hfits
  obtain ⟨hresult, -, hleft⟩ := readLine_of_verdict hlisted hline hroom hverdict htime hopen
  exact ⟨hresult, hleft⟩

/-- A line is read up to its line feed. -/
theorem readBanner_of_line {line : Bytes} {rest : List (Nat × Arrival)}
    (hopen : e.OpenThroughout milliseconds) (hline : lineFeed ∉ line)
    (hfits : line.length ≤ e.config.maxBannerLine)
    (hoffers : e.Offers milliseconds (line ++ [lineFeed]) rest) :
    (readBanner milliseconds e).1 = .ok (some (Text.Utf8.read (withoutReturn line))) ∧
      (readBanner milliseconds e).2.timetable = rest :=
  readBanner_of_offers hopen hoffers hline hfits (if_pos rfl)

/-- A line that is too long is read up to the first octet for which there is no room. -/
theorem readBanner_of_tooLong {octets : Bytes} {rest : List (Nat × Arrival)}
    (hopen : e.OpenThroughout milliseconds) (hline : lineFeed ∉ octets)
    (hlong : octets.length = e.config.maxBannerLine + 1)
    (hoffers : e.Offers milliseconds octets rest) :
    (readBanner milliseconds e).1 = .error (.bannerTooLong e.config.maxBannerLine) ∧
      (readBanner milliseconds e).2.timetable = rest := by
  rcases List.eq_nil_or_concat' octets with rfl | ⟨front, last, rfl⟩
  · cases hlong
  have hfull : front.length = e.config.maxBannerLine := by simpa using hlong
  have hlast : last ≠ lineFeed := by
    rintro rfl
    simp at hline
  refine readBanner_of_offers hopen hoffers (fun hmem => hline (by simp [hmem]))
    (Nat.le_of_eq hfull) ?_
  rw [verdict?, if_neg hlast, if_pos (Nat.le_of_eq hfull.symm)]

end

/-! ## Lines with their ends -/

/-- How an endpoint that is offered lines reads them. -/
structure ReadsLines (milliseconds : Nat) (e : Endpoint C) : Prop where
  /-- A line that fits is read, and nothing behind its line feed is taken. -/
  line {line : Bytes} {rest : List (Nat × Arrival)} : lineFeed ∉ line →
    line.length ≤ e.config.maxBannerLine → e.Offers milliseconds (line ++ [lineFeed]) rest →
      (readBanner milliseconds e).1 = .ok (some (Text.Utf8.read (withoutReturn line))) ∧
      (readBanner milliseconds e).2.timetable = rest
  /-- However the stream is cut into pieces, exactly the octets behind the line are left. -/
  pieces {line more : Bytes} : milliseconds = 0 → lineFeed ∉ line →
    line.length ≤ e.config.maxBannerLine → ReadScript.Cuts e.reads (line ++ [lineFeed] ++ more) →
      (readBanner milliseconds e).1 = .ok (some (Text.Utf8.read (withoutReturn line))) ∧
      ∃ stamped ends, (readBanner milliseconds e).2.timetable = arrivals stamped ++ ends ∧
        stamped.map Prod.snd = more
  /-- For the first octets of a longer line the endpoint has no room. It has taken these and
  nothing behind them when it reports so. -/
  tooLong {octets : Bytes} {rest : List (Nat × Arrival)} : lineFeed ∉ octets →
    octets.length = e.config.maxBannerLine + 1 → e.Offers milliseconds octets rest →
      (readBanner milliseconds e).1 = .error (.bannerTooLong e.config.maxBannerLine) ∧
      (readBanner milliseconds e).2.timetable = rest
  /-- A line that another endpoint writes is read as it was written. -/
  written {D : Type} [BlockCipher D] {writer : Endpoint D} {text : String} : writer.Ready →
    '\n' ∉ text.toList → text.utf8ByteSize < e.config.maxBannerLine →
      ∃ octets sent, writeBanner (text ++ "\r\n") writer = (.ok (), sent) ∧
        sent.acceptedBytes = writer.acceptedBytes ++ octets ∧
        ∀ rest, e.Offers milliseconds octets rest →
          (readBanner milliseconds e).1 = .ok (some text) ∧
          (readBanner milliseconds e).2.timetable = rest

theorem readBanner_splits {milliseconds : Nat} {e : Endpoint C}
    (hopen : e.OpenThroughout milliseconds) : ReadsLines milliseconds e where
  line := readBanner_of_line hopen
  pieces := by
    rintro line more rfl hline hfits hcuts
    obtain ⟨stamped, ends, hoffers, hmore⟩ := offers_of_cuts hcuts
    obtain ⟨hresult, hleft⟩ := readBanner_of_line hopen hline hfits hoffers
    exact ⟨hresult, stamped, ends, hleft, hmore⟩
  tooLong := readBanner_of_tooLong hopen
  written := by
    intro D _ writer text hready htext hfits
    obtain ⟨sent, hsend, hsent⟩ := writeBanner_of_ready hready (text ++ "\r\n")
    refine ⟨_, sent, hsend, hsent, fun rest hoffers => ?_⟩
    have hend : Text.Utf8.encode "\r\n" = [13] ++ [lineFeed] := by decide
    rw [Text.Utf8.encode_append, hend, ← List.append_assoc] at hoffers
    have hline : lineFeed ∉ Text.Utf8.encode text ++ [13] := by
      intro hmem
      rcases List.mem_append.mp hmem with hmem | hmem
      · exact htext ((Text.Utf8.lineFeed_mem_encode_iff text).mp hmem)
      · cases List.mem_singleton.mp hmem
    have hread := readBanner_of_line hopen hline
      (by rw [List.length_append, Text.Utf8.length_encode]; exact hfits) hoffers
    rwa [withoutReturn, if_pos (by simp), List.dropLast_concat, Text.Utf8.read_encode] at hread

/-- A new endpoint that is not closed from its read script stays open. -/
theorem staysOpen_of_reads {config : Config} {valid : config.Valid}
    {reads : ReadScript (Protection Rehearsal.Cipher)} (hreads : .act .close ∉ reads) :
    StaysOpen { newEndpoint with config, valid, reads } :=
  ⟨⟨rfl, .inr ⟨rfl, rfl, rfl⟩⟩, hreads⟩

/-- A line comes in two pieces, with a pause and a passing failure between them and an octet
behind it. -/
def greetedReader : Endpoint Rehearsal.Cipher :=
  { newEndpoint with
    reads := [.data [104], .pause 5, .fail ⟨.interrupted, "again"⟩,
      .data [105, 13, lineFeed, 7]] }

theorem readBanner_splits_greeting :
    (readBanner 10 greetedReader).1 = .ok (some "hi") ∧
      (readBanner 10 greetedReader).2.timetable = [(5, .more [7])] := by
  have hstays : greetedReader.StaysOpen := staysOpen_of_reads (by simp)
  have hoffers : greetedReader.Offers 10 ([104, 105, 13] ++ [lineFeed]) [(5, .more [7])] :=
    ⟨[(0, 104), (5, 105), (5, 13), (5, lineFeed)], rfl, rfl, .inr (by decide)⟩
  have hread := (readBanner_splits (hstays.openThroughout 10)).line (by decide) (by decide) hoffers
  rwa [withoutReturn, if_pos (by decide),
    show List.dropLast [104, 105, 13] = Text.Utf8.encode "hi" by decide,
    Text.Utf8.read_encode] at hread

/-- What may end a line: a line feed, and a carriage return before it. -/
def lineEnds : List Bytes :=
  [[lineFeed], [13, lineFeed]]

/-- A carriage return at the end of a line takes up room like any other octet of the line,
although it is not part of what is read. -/
theorem banner_accepted_iff {e : Endpoint C} {content terminator : Bytes}
    {rest : List (Nat × Arrival)} (hopen : e.OpenThroughout 0) (hreturn : 13 ∉ content)
    (hfeed : lineFeed ∉ content) (hend : terminator ∈ lineEnds)
    (hoffers : e.Offers 0 (content ++ terminator) rest) :
    ((readBanner 0 e).1 = .ok (some (Text.Utf8.read content)) ↔
      content.length + terminator.length ≤ e.config.maxBannerLine + 1) ∧
    ((readBanner 0 e).1 = .error (.bannerTooLong e.config.maxBannerLine) ↔
      e.config.maxBannerLine + 1 < content.length + terminator.length) := by
  obtain ⟨returns, rfl, hreturns, hcontent⟩ : ∃ returns, terminator = returns ++ [lineFeed] ∧
      lineFeed ∉ returns ∧ withoutReturn (content ++ returns) = content := by
    simp only [lineEnds, List.mem_cons, List.not_mem_nil, or_false] at hend
    rcases hend with rfl | rfl
    · refine ⟨[], rfl, by simp, ?_⟩
      rw [List.append_nil, withoutReturn, if_neg fun hlast => hreturn (List.mem_of_getLast? hlast)]
    · exact ⟨[13], rfl, by decide, by simp [withoutReturn]⟩
  have hline : lineFeed ∉ content ++ returns := by simp [hfeed, hreturns]
  rw [← List.append_assoc] at hoffers
  have hlength : content.length + (returns ++ [lineFeed]).length =
      (content ++ returns).length + 1 := by simp [Nat.add_assoc]
  rw [hlength]
  by_cases hfits : (content ++ returns).length ≤ e.config.maxBannerLine
  · have hread := (readBanner_of_line hopen hline hfits hoffers).1
    rw [hcontent] at hread
    rw [hread]
    simp only [reduceCtorEq, true_iff, false_iff]
    omega
  · obtain ⟨later, hfirst⟩ := hoffers.take (e.config.maxBannerLine + 1)
    rw [List.take_append_of_le_length (by omega)] at hfirst
    have hread := (readBanner_of_tooLong hopen (fun hmem => hline (List.mem_of_mem_take hmem))
      (by rw [List.length_take]; omega) hfirst).1
    rw [hread]
    simp only [reduceCtorEq, true_iff, false_iff]
    omega

/-- There is room for a single octet, and the line has one besides its end. -/
def narrowReader (terminator : Bytes) : Endpoint Rehearsal.Cipher :=
  { newEndpoint with
    config := { maxBannerLine := 1 }
    valid := (Config.violation?_eq_none_iff _).mp rfl
    reads := [.data (120 :: terminator)] }

theorem banner_accepted_narrow :
    (readBanner 0 (narrowReader [lineFeed])).1 = .ok (some (Text.Utf8.read [120])) :=
  (banner_accepted_iff ((staysOpen_of_reads (by simp)).openThroughout 0) (by decide) (by decide)
    (by decide) ⟨[(0, 120), (0, lineFeed)], rfl, rfl, .inl rfl⟩).1.mpr (by decide)

theorem banner_refused_narrow :
    (narrowReader [13, lineFeed]).Offers 0 ([120] ++ [13, lineFeed]) [] ∧
    ([120] : Bytes).length ≤ (narrowReader [13, lineFeed]).config.maxBannerLine ∧
    (readBanner 0 (narrowReader [13, lineFeed])).1 = .error (.bannerTooLong 1) := by
  refine ⟨⟨[(0, 120), (0, 13), (0, lineFeed)], rfl, rfl, .inl rfl⟩, by decide, ?_⟩
  decide +kernel

end PacketLayer.Endpoint
