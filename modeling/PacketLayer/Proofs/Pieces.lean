import PacketLayer.Proofs.RoundTrip
import PacketLayer.Proofs.Verification

/-! # Reading from pieces

Octets come in pieces, with pauses and passing failures between them, and the reader takes
them in attempts. It takes no notice of any of this. Two endpoints that a reader cannot tell
apart, and whose streams deliver the same octets, are still so after anything that reading
consists of, and all of it ends in the same way.
-/

namespace PacketLayer

variable {P C : Type}

/-- A script delivers exactly these octets, in pieces that are not empty. There may be
pauses and passing failures between them, and the stream ends only behind the last. -/
inductive ReadScript.Cuts : ReadScript P → Bytes → Prop where
  | nil : Cuts [] []
  | data {items : ReadScript P} {octets bytes : Bytes} (hbytes : bytes ≠ [])
      (hcuts : Cuts items octets) : Cuts (.data bytes :: items) (bytes ++ octets)
  | fail {items : ReadScript P} {octets : Bytes} {failure : StreamFailure}
      (htransient : failure.kind.isTransient = true) (hcuts : Cuts items octets) :
      Cuts (.fail failure :: items) octets
  | pause {items : ReadScript P} {octets : Bytes} (milliseconds : Nat)
      (hcuts : Cuts items octets) : Cuts (.pause milliseconds :: items) octets
  | resumeAt {items : ReadScript P} {octets : Bytes} (time : Nat)
      (hcuts : Cuts items octets) : Cuts (.resumeAt time :: items) octets
  | eof {items : ReadScript P} (hcuts : Cuts items []) : Cuts (.eof :: items) []
  | empty {items : ReadScript P} (hcuts : Cuts items []) : Cuts (.data [] :: items) []

theorem ReadScript.Cuts.leftOver {items : ReadScript (Protection C)} {octets bytes : Bytes}
    (hcuts : Cuts items octets) (want : Nat) :
    Cuts (Endpoint.leftOver want bytes items) (bytes.drop want ++ octets) := by
  unfold Endpoint.leftOver
  split
  next hdrop =>
    rw [hdrop]
    exact hcuts
  next byte rest hdrop =>
    rw [hdrop]
    exact .data (by simp) hcuts

namespace Endpoint

open ReadScript

/-- No keep-alive message is asked for or on its way, and a handler does no more than count. -/
structure Calm (e : Endpoint C) : Prop where
  held : e.held = none
  owed : e.owed = 0
  queued : e.queued = 0
  counts : ∀ handler, e.keepAlive.handler = some handler → handler = .count

/-- Both lanes of an endpoint, and all else that a reader reads from and writes to. -/
def outlook (e : Endpoint C) :
    Lane C × Lane C × Option (Protection C) × Rekey.Policy × Signal × Bool :=
  (e.inbound, e.outbound, e.parked, e.rekey, e.signal, e.closed)

theorem outlook_eq_iff {e other : Endpoint C} : e.outlook = other.outlook ↔
    e.inbound = other.inbound ∧ e.outbound = other.outbound ∧ e.parked = other.parked ∧
      e.rekey = other.rekey ∧ e.signal = other.signal ∧ e.closed = other.closed := by
  simp only [outlook, Prod.mk.injEq]

/-- Time passes for a reader, and nothing else. -/
structure Idles (e next : Endpoint C) : Prop where
  outlook : next.outlook = e.outlook
  calm : Calm next

namespace Idles

variable {e middle next : Endpoint C}

theorem trans (hfirst : Idles e middle) (hsecond : Idles middle next) : Idles e next :=
  ⟨hsecond.outlook.trans hfirst.outlook, hsecond.calm⟩

theorem reread (h : Idles e next) (reads : ReadScript (Protection C)) :
    Idles e { next with reads } :=
  ⟨h.outlook, h.calm.held, h.calm.owed, h.calm.queued, h.calm.counts⟩

theorem closed_eq (h : Idles e next) : next.closed = e.closed :=
  (outlook_eq_iff.mp h.outlook).2.2.2.2.2

theorem parked_eq (h : Idles e next) : next.parked = e.parked :=
  (outlook_eq_iff.mp h.outlook).2.2.1

theorem inbound_eq (h : Idles e next) : next.inbound = e.inbound :=
  (outlook_eq_iff.mp h.outlook).1

end Idles

theorem Calm.still {e : Endpoint C} (hcalm : Calm e) : e.Still :=
  ⟨hcalm.held, hcalm.owed, hcalm.queued⟩

theorem Calm.idles_checkKeepAlive {e : Endpoint C} (hcalm : Calm e) : Idles e e.checkKeepAlive := by
  obtain ⟨hheld, howed, hqueued, hcounts⟩ := hcalm
  have hhandler : (e.keepAlive.poll e.now e.outbound.isProtected e.rekey.pending).2.handler =
      e.keepAlive.handler := by
    unfold KeepAlive.poll
    split <;> rfl
  unfold checkKeepAlive
  dsimp only
  split
  · exact ⟨rfl, hheld, howed, hqueued, hhandler ▸ hcounts⟩
  next handler hpolled =>
    obtain rfl : handler = .count := by
      refine hcounts handler ?_
      unfold KeepAlive.poll at hpolled
      split at hpolled
      · exact hpolled
      · cases hpolled
    exact ⟨rfl, hheld, howed, hqueued, hhandler ▸ hcounts⟩

variable [BlockCipher C]

theorem Calm.idles_waitUntil {e : Endpoint C} (hcalm : Calm e) (reader : ReaderState)
    (time : Nat) : Idles e (e.waitUntil reader time) := by
  obtain ⟨turn, hwaited⟩ := hcalm.still.waitUntil_eq reader time
  rw [hwaited]
  exact ⟨rfl, hcalm.held, hcalm.owed, hcalm.queued, hcalm.counts⟩

/-- What an attempt to read ends with, given the octets that a script delivers. -/
inductive Brings (want : Nat) (octets : Bytes) (e : Endpoint C) :
    Arrival × ReadScript (Protection C) × Endpoint C → Prop where
  | more {bytes more : Bytes} {left : ReadScript (Protection C)} {next : Endpoint C}
      (hoctets : octets = bytes ++ more) (hlength : bytes.length ≤ want)
      (hcuts : Cuts left more) (hnext : Idles e next) :
      Brings want octets e (.more bytes, left, next)
  | finished {left : ReadScript (Protection C)} {next : Endpoint C} (hnone : octets = [])
      (hcuts : Cuts left []) (hnext : Idles e next) :
      Brings want octets e (.finished, left, next)

omit [BlockCipher C] in
theorem Brings.after {want : Nat} {octets : Bytes} {e middle : Endpoint C}
    {result : Arrival × ReadScript (Protection C) × Endpoint C} (hmiddle : Idles e middle)
    (hbrings : Brings want octets middle result) : Brings want octets e result := by
  cases hbrings with
  | more hoctets hlength hcuts hnext => exact .more hoctets hlength hcuts (hmiddle.trans hnext)
  | finished hnone hcuts hnext => exact .finished hnone hcuts (hmiddle.trans hnext)

theorem arrive_of_cuts {items : ReadScript (Protection C)} {octets : Bytes}
    (hcuts : Cuts items octets) {e : Endpoint C} (hcalm : Calm e) (want deadline : Nat) :
    Brings want octets e (arrive want deadline items e) := by
  have hstill : Idles e e := ⟨rfl, hcalm⟩
  induction hcuts generalizing e with
  | nil => exact .finished rfl .nil hstill
  | @data items octets bytes hbytes hcuts ih =>
      have harrive : arrive want deadline (.data bytes :: items) e =
          (.more (bytes.take want), leftOver want bytes items, e) := by
        simp [arrive, hbytes]
      rw [harrive]
      refine .more ?_ (List.length_take_le want bytes) (hcuts.leftOver want) hstill
      rw [← List.append_assoc, List.take_append_drop]
  | @fail items octets failure htransient hcuts ih =>
      have harrive : arrive want deadline (.fail failure :: items) e = (.more [], items, e) := by
        simp [arrive, htransient]
      rw [harrive]
      exact .more rfl (Nat.zero_le _) hcuts hstill
  | @pause items octets milliseconds hcuts ih =>
      -- the pause ends within the attempt, or outlasts it and stays in the script
      have hwaited (time : Nat) := hcalm.idles_waitUntil .busy time
      simp only [arrive]
      split
      · exact .after (hwaited _) (ih (hwaited _).calm ⟨rfl, (hwaited _).calm⟩)
      · exact .more rfl (Nat.zero_le _) (hcuts.resumeAt _) (hwaited deadline)
  | @resumeAt items octets time hcuts ih =>
      have hwaited (time : Nat) := hcalm.idles_waitUntil .busy time
      simp only [arrive]
      split
      · exact .after (hwaited _) (ih (hwaited _).calm ⟨rfl, (hwaited _).calm⟩)
      · exact .more rfl (Nat.zero_le _) (hcuts.resumeAt _) (hwaited deadline)
  | eof hcuts => exact .finished rfl hcuts hstill
  | empty hcuts => exact .finished rfl hcuts hstill

/-- An attempt brings the next octets, some or none, or there are no more of them. -/
theorem receive_of_cuts {e next : Endpoint C} {octets : Bytes} (hcalm : Calm e)
    (hcuts : Cuts e.reads octets) {want limit : Nat} {arrival : Arrival}
    (hattempt : e.receive want limit = (arrival, next)) :
    Idles e next ∧ ((∃ bytes more, arrival = .more bytes ∧ octets = bytes ++ more ∧
      bytes.length ≤ want ∧ Cuts next.reads more) ∨
        arrival = .finished ∧ octets = [] ∧ Cuts next.reads []) := by
  have hbrings := arrive_of_cuts hcuts hcalm want (e.now + limit)
  rw [receive_eq] at hattempt
  generalize arrive want (e.now + limit) e.reads e = result at hbrings hattempt
  cases hbrings with
  | more hoctets hlength hleft hnext =>
      obtain ⟨rfl, rfl⟩ := Prod.mk.inj hattempt
      exact ⟨hnext.reread _, .inl ⟨_, _, rfl, hoctets, hlength, hleft⟩⟩
  | finished hnone hleft hnext =>
      obtain ⟨rfl, rfl⟩ := Prod.mk.inj hattempt
      exact ⟨hnext.reread _, .inr ⟨rfl, hnone, hleft⟩⟩

/-- What comes of wanting so many of the octets that a stream delivers, beside those at hand:
all of them if it delivers enough, and otherwise nothing. -/
def collected (raw : Bytes) (count : Nat) (octets : Bytes) : Option Bytes :=
  if count ≤ octets.length then some (raw ++ octets.take count) else none

/-- The octets wanted have been taken off the stream, as far as there are any. -/
structure Gathers (raw : Bytes) (count : Nat) (octets : Bytes) (e : Endpoint C)
    (outcome : Except Fault (Option Bytes) × Endpoint C) : Prop where
  result : outcome.1 = .ok (collected raw count octets)
  idles : Idles e outcome.2
  left : Cuts outcome.2.reads (octets.drop count)

/-- Octets that have arrived are at hand from then on. -/
theorem collected_append {raw bytes more : Bytes} {count : Nat} (hlength : bytes.length ≤ count) :
    collected (raw ++ bytes) (count - bytes.length) more = collected raw count (bytes ++ more) := by
  unfold collected
  rw [List.length_append, List.take_append, List.take_of_length_le hlength, List.append_assoc]
  exact if_congr (by omega) rfl rfl

omit [BlockCipher C] in
theorem Gathers.after {raw bytes more : Bytes} {count : Nat} {e middle : Endpoint C}
    {outcome : Except Fault (Option Bytes) × Endpoint C} (hlength : bytes.length ≤ count)
    (hmiddle : Idles e middle)
    (hgathers : Gathers (raw ++ bytes) (count - bytes.length) more middle outcome) :
    Gathers raw count (bytes ++ more) e outcome := by
  obtain ⟨hresult, hidles, hleft⟩ := hgathers
  refine ⟨collected_append hlength ▸ hresult, hmiddle.trans hidles, ?_⟩
  rw [List.drop_append, List.drop_of_length_le hlength]
  exact hleft

omit [BlockCipher C] in
/-- The end of the stream comes before any of the octets wanted. -/
theorem gathers_nothing {raw : Bytes} {count : Nat} {e next : Endpoint C} (hmissing : count ≠ 0)
    (hnext : Idles e next) (hleft : Cuts next.reads []) :
    Gathers raw count [] e (.ok none, next) := by
  refine ⟨?_, hnext, by rwa [List.drop_nil]⟩
  rw [collected, if_neg (by simpa using hmissing)]

omit [BlockCipher C] in
theorem gathers_at_hand {e : Endpoint C} {octets : Bytes} (hcalm : Calm e)
    (hcuts : Cuts e.reads octets) (raw : Bytes) : Gathers raw 0 octets e (.ok (some raw), e) := by
  refine ⟨?_, ⟨rfl, hcalm⟩, hcuts⟩
  rw [collected, if_pos (Nat.zero_le _), List.take_zero, List.append_nil]

theorem gathers_fill {raw octets : Bytes} {count : Nat} {e : Endpoint C} (hcalm : Calm e)
    (hopen : e.closed = false) (hcuts : Cuts e.reads octets) :
    Gathers raw count octets e (fill raw count e) := by
  fun_induction fill raw count e generalizing octets with
  | case1 raw e => exact gathers_at_hand hcalm hcuts raw
  | case2 raw count e hmissing next hattempt =>
      obtain ⟨hnext, ⟨_, _, hmore, -⟩ | ⟨-, rfl, hleft⟩⟩ := receive_of_cuts hcalm hcuts hattempt
      · cases hmore
      · exact gathers_nothing hmissing hnext hleft
  | case3 raw count e hmissing failure next hattempt =>
      obtain ⟨-, ⟨_, _, hmore, -⟩ | ⟨hfinished, -⟩⟩ := receive_of_cuts hcalm hcuts hattempt
      · cases hmore
      · cases hfinished
  | case4 raw count e hmissing bytes next hattempt hcomplete =>
      obtain ⟨hnext, ⟨_, more, ⟨⟩, rfl, hlength, hleft⟩ | ⟨hfinished, -⟩⟩ :=
        receive_of_cuts hcalm hcuts hattempt
      · refine .after hlength hnext ?_
        rw [Nat.sub_eq_zero_of_le hcomplete]
        exact gathers_at_hand hnext.calm hleft _
      · cases hfinished
  | case5 raw count e hmissing bytes next hattempt hcomplete hclosed =>
      have hnext := (receive_of_cuts hcalm hcuts hattempt).1
      rw [hnext.closed_eq, hopen] at hclosed
      cases hclosed
  | case6 raw count e hmissing bytes next hattempt hcomplete hclosed ih =>
      obtain ⟨hnext, ⟨_, more, ⟨⟩, rfl, hlength, hleft⟩ | ⟨hfinished, -⟩⟩ :=
        receive_of_cuts hcalm hcuts hattempt
      · have hchecked := hnext.calm.idles_checkKeepAlive
        refine .after hlength (hnext.trans hchecked) (ih hchecked.calm ?_ ?_)
        · rw [hchecked.closed_eq, hnext.closed_eq, hopen]
        · rwa [reads_checkKeepAlive]
      · cases hfinished

/-- With nothing parked, a first block is gathered like any octets. -/
theorem gathers_awaitFirstBlock (raw : Bytes) {octets : Bytes} {e : Endpoint C} (hcalm : Calm e)
    (hopen : e.closed = false) (hparked : e.parked = none) (hcuts : Cuts e.reads octets) :
    Gathers raw (e.inbound.blockSize - raw.length) octets e (awaitFirstBlock raw e) := by
  have hready : e.activateParked = e := activateParked_of_none hparked
  have hcount {raw bytes : Bytes} {e next : Endpoint C} (hnext : Idles e next) :
      e.inbound.blockSize - raw.length - bytes.length =
        next.inbound.blockSize - (raw ++ bytes).length := by
    rw [hnext.inbound_eq, List.length_append, Nat.sub_sub]
  -- with nothing parked, `ready` is the endpoint itself on every turn
  fun_induction awaitFirstBlock raw e generalizing octets with
  | case1 raw e ready =>
      rename_i hcomplete
      rw [show ready = e from hready] at hcomplete ⊢
      rw [Nat.sub_eq_zero_of_le hcomplete]
      exact gathers_at_hand hcalm hcuts raw
  | case2 raw e ready hmissing next =>
      rename_i hattempt
      rw [show ready = e from hready] at hmissing hattempt
      obtain ⟨hnext, ⟨_, _, hmore, -⟩ | ⟨-, rfl, hleft⟩⟩ := receive_of_cuts hcalm hcuts hattempt
      · cases hmore
      · exact gathers_nothing (by omega) hnext hleft
  | case3 raw e ready hmissing failure next =>
      rename_i hattempt
      rw [show ready = e from hready] at hattempt
      obtain ⟨-, ⟨_, _, hmore, -⟩ | ⟨hfinished, -⟩⟩ := receive_of_cuts hcalm hcuts hattempt
      · cases hmore
      · cases hfinished
  | case4 raw e ready hmissing bytes next hattempt hcomplete =>
      rename_i ih
      rw [show ready = e from hready] at hmissing hattempt hcomplete
      obtain ⟨hnext, ⟨_, more, ⟨⟩, rfl, hlength, hleft⟩ | ⟨hfinished, -⟩⟩ :=
        receive_of_cuts hcalm hcuts hattempt
      · refine .after hlength hnext ?_
        rw [hcount hnext]
        have hidle := hnext.parked_eq.trans hparked
        exact ih hnext.calm (hnext.closed_eq.trans hopen) hidle hleft
          (activateParked_of_none hidle)
      · cases hfinished
  | case5 raw e ready hmissing bytes next hattempt =>
      rename_i hclosed
      rw [show ready = e from hready] at hattempt
      have hnext := (receive_of_cuts hcalm hcuts hattempt).1
      rw [hnext.closed_eq, hopen] at hclosed
      cases hclosed
  | case6 raw e ready hmissing bytes next hattempt =>
      rename_i ih
      rw [show ready = e from hready] at hmissing hattempt
      obtain ⟨hnext, ⟨_, more, ⟨⟩, rfl, hlength, hleft⟩ | ⟨hfinished, -⟩⟩ :=
        receive_of_cuts hcalm hcuts hattempt
      · have hchecked := hnext.trans hnext.calm.idles_checkKeepAlive
        refine .after hlength hchecked ?_
        rw [hcount hchecked]
        have hidle := hchecked.parked_eq.trans hparked
        exact ih hchecked.calm (hchecked.closed_eq.trans hopen) hidle
          (by rwa [reads_checkKeepAlive]) (activateParked_of_none hidle)
      · cases hfinished

/-- Two open endpoints that a reader cannot tell apart. Their streams deliver the same octets. -/
structure Alike (e other : Endpoint C) : Prop where
  outlook : e.outlook = other.outlook
  opened : e.closed = false
  calm : Calm e
  calmOther : Calm other
  octets : ∃ octets, Cuts e.reads octets ∧ Cuts other.reads octets

omit [BlockCipher C] in
theorem Alike.openedOther {e other : Endpoint C} (halike : Alike e other) :
    other.closed = false :=
  (outlook_eq_iff.mp halike.outlook).2.2.2.2.2.symm.trans halike.opened

/-- What an act must leave alone for two endpoints to stay alike. -/
def poise (e : Endpoint C) : Option HeldMessage × Nat × Nat × Option Handler × Bool ×
    ReadScript (Protection C) :=
  (e.held, e.owed, e.queued, e.keepAlive.handler, e.closed, e.reads)

omit [BlockCipher C] in
theorem Calm.of_poise {e next : Endpoint C} (hcalm : Calm e) (hpoise : next.poise = e.poise) :
    Calm next := by
  simp only [poise, Prod.mk.injEq] at hpoise
  obtain ⟨hheld, howed, hqueued, hhandler, -, -⟩ := hpoise
  exact ⟨hheld.trans hcalm.held, howed.trans hcalm.owed, hqueued.trans hcalm.queued,
    hhandler ▸ hcalm.counts⟩

omit [BlockCipher C] in
theorem Alike.of_poise {e other next nextOther : Endpoint C} (halike : Alike e other)
    (hpoise : next.poise = e.poise) (hpoiseOther : nextOther.poise = other.poise)
    (houtlook : next.outlook = nextOther.outlook) : Alike next nextOther := by
  obtain ⟨-, hopen, hcalm, hcalmOther, octets, hcuts, hcutsOther⟩ := halike
  have hnext := hcalm.of_poise hpoise
  have hnextOther := hcalmOther.of_poise hpoiseOther
  simp only [poise, Prod.mk.injEq] at hpoise hpoiseOther
  obtain ⟨-, -, -, -, hclosed, hreads⟩ := hpoise
  obtain ⟨-, -, -, -, -, hreadsOther⟩ := hpoiseOther
  exact ⟨houtlook, hclosed.trans hopen, hnext, hnextOther, octets, hreads ▸ hcuts,
    hreadsOther ▸ hcutsOther⟩

omit [BlockCipher C] in
/-- A reader does not notice how often it has tried, nor when. -/
theorem Gathers.alike {raw octets : Bytes} {count : Nat} {e other : Endpoint C}
    {outcome outcomeOther : Except Fault (Option Bytes) × Endpoint C} (halike : Alike e other)
    (hgathers : Gathers raw count octets e outcome)
    (hgathersOther : Gathers raw count octets other outcomeOther) :
    outcome.1 = outcomeOther.1 ∧ Alike outcome.2 outcomeOther.2 := by
  refine ⟨hgathers.result.trans hgathersOther.result.symm, ?_,
    hgathers.idles.closed_eq.trans halike.opened, hgathers.idles.calm, hgathersOther.idles.calm,
    octets.drop count, hgathers.left, hgathersOther.left⟩
  rw [hgathers.idles.outlook, hgathersOther.idles.outlook, halike.outlook]

/-- An act ends in the same way on endpoints that are alike, and leaves them alike. -/
def Act.Indifferent {α : Type} (m : Act C α) : Prop :=
  ∀ e other, Alike e other → (m e).1 = (m other).1 ∧ Alike (m e).2 (m other).2

namespace Act.Indifferent

variable {α β : Type}

omit [BlockCipher C] in
/-- An act is indifferent if all that it does is settled by what a reader sees. -/
theorem of_outlook {m : Act C α} (hpoise : m.Keeps poise)
    (houtlook : ∀ e other, e.outlook = other.outlook →
      (m e).1 = (m other).1 ∧ (m e).2.outlook = (m other).2.outlook) : m.Indifferent := by
  intro e other halike
  obtain ⟨hresult, hnext⟩ := houtlook e other halike.outlook
  exact ⟨hresult, halike.of_poise (hpoise e) (hpoise other) hnext⟩

omit [BlockCipher C] in
theorem ofExcept (result : Except Fault α) : (Act.ofExcept result : Act C α).Indifferent :=
  of_outlook (fun _ => rfl) fun _ _ houtlook => ⟨rfl, houtlook⟩

omit [BlockCipher C] in
theorem ask {f : Endpoint C → α} (hf : ∀ e other, e.outlook = other.outlook → f e = f other) :
    (Act.ask f).Indifferent :=
  of_outlook (fun _ => rfl) fun e other houtlook =>
    ⟨congrArg Except.ok (hf e other houtlook), houtlook⟩

omit [BlockCipher C] in
theorem bind {m : Act C α} {f : α → Act C β} (hm : m.Indifferent)
    (hf : ∀ a, (f a).Indifferent) : (m >>= f).Indifferent := by
  intro e other halike
  obtain ⟨hresult, hnext⟩ := hm e other halike
  rcases hfirst : m e with ⟨result, next⟩
  rcases hsecond : m other with ⟨resultOther, nextOther⟩
  rw [hfirst, hsecond] at hresult hnext
  obtain rfl : result = resultOther := hresult
  cases result with
  | error fault =>
      rw [bind_of_error hfirst, bind_of_error hsecond]
      exact ⟨rfl, hnext⟩
  | ok a =>
      rw [bind_of_ok hfirst, bind_of_ok hsecond]
      exact hf a next nextOther hnext

end Act.Indifferent

theorem indifferent_fill (raw : Bytes) (count : Nat) :
    Act.Indifferent (fill raw count : Act C (Option Bytes)) := by
  intro e other halike
  obtain ⟨octets, hcuts, hcutsOther⟩ := halike.octets
  exact (gathers_fill halike.calm halike.opened hcuts).alike halike
    (gathers_fill halike.calmOther halike.openedOther hcutsOther)

omit [BlockCipher C] in
theorem alike_activateParked {e other : Endpoint C} (halike : Alike e other) :
    Alike e.activateParked other.activateParked := by
  have hpoise (e : Endpoint C) : e.activateParked.poise = e.poise := by
    unfold activateParked
    split <;> rfl
  refine halike.of_poise (hpoise e) (hpoise other) ?_
  obtain ⟨hinbound, houtbound, hparked, hrekey, hsignal, hclosed⟩ :=
    outlook_eq_iff.mp halike.outlook
  unfold activateParked
  rw [hparked]
  cases other.parked with
  | none => simp only [outlook, hinbound, houtbound, hparked, hrekey, hsignal, hclosed]
  | some protection =>
      simp only [outlook, activateInbound, publish, note, hinbound, houtbound, hrekey, hsignal,
        hclosed]

theorem indifferent_awaitFirstBlock :
    Act.Indifferent (awaitFirstBlock [] : Act C (Option Bytes)) := by
  intro e other halike
  have hready := alike_activateParked halike
  obtain ⟨octets, hcuts, hcutsOther⟩ := hready.octets
  have hlane := (outlook_eq_iff.mp hready.outlook).1
  have hgathers := gathers_awaitFirstBlock [] hready.calm hready.opened
    (parked_activateParked e) hcuts
  have hgathersOther := gathers_awaitFirstBlock [] hready.calmOther hready.openedOther
    (parked_activateParked other) hcutsOther
  rw [awaitFirstBlock_activateParked] at hgathers hgathersOther
  rw [hlane] at hgathers
  exact hgathers.alike hready hgathersOther

theorem indifferent_decipher (data : Bytes) : (decipher data : Act C Bytes).Indifferent := by
  refine .of_outlook (fun _ => rfl) fun e other houtlook => ?_
  obtain ⟨hinbound, houtbound, hparked, hrekey, hsignal, hclosed⟩ := outlook_eq_iff.mp houtlook
  simp only [decipher, outlook, hinbound, houtbound, hparked, hrekey, hsignal, hclosed, and_self]

omit [BlockCipher C] in
theorem indifferent_verify (expected received : Bytes) :
    (verify expected received : Act C Unit).Indifferent := by
  refine .of_outlook (fun e => ?_) fun e other houtlook => ?_
  · unfold verify
    split <;> rfl
  · unfold verify
    rw [(outlook_eq_iff.mp houtlook).1]
    split
    · exact ⟨rfl, houtlook⟩
    · exact ⟨rfl, houtlook⟩

omit [BlockCipher C] in
theorem indifferent_dump (direction : Direction) (bytes : Bytes) :
    (Act.update (dump direction bytes) : Act C Unit).Indifferent := by
  have hkept (e : Endpoint C) : (e.dump direction bytes).poise = e.poise ∧
      (e.dump direction bytes).outlook = e.outlook := by
    unfold dump
    split <;> exact ⟨rfl, rfl⟩
  refine .of_outlook (fun e => (hkept e).1) fun e other houtlook => ⟨rfl, ?_⟩
  exact ((hkept e).2.trans houtlook).trans (hkept other).2.symm

omit [BlockCipher C] in
theorem indifferent_note (event : Event) :
    (Act.update (note event) : Act C Unit).Indifferent :=
  .of_outlook (fun _ => rfl) fun _ _ houtlook => ⟨rfl, houtlook⟩

omit [BlockCipher C] in
theorem indifferent_advanceInbound : (Act.update advanceInbound : Act C Unit).Indifferent := by
  refine .of_outlook (fun _ => rfl) fun e other houtlook => ⟨rfl, ?_⟩
  obtain ⟨hinbound, houtbound, hparked, hrekey, hsignal, hclosed⟩ := outlook_eq_iff.mp houtlook
  simp only [Act.update, advanceInbound, outlook, hinbound, houtbound, hparked, hrekey, hsignal,
    hclosed]

omit [BlockCipher C] in
theorem indifferent_accountReceived (bytes : Nat) :
    Act.Indifferent (accountReceived bytes : Act C Unit) := by
  refine .of_outlook (fun e => ?_) fun e other houtlook => ?_
  · unfold accountReceived
    rcases e.rekey.recordReceived (UInt64.ofNat bytes) with ⟨_ | _ | _, rekey⟩
    · rfl
    · rfl
    · rfl
  · obtain ⟨hinbound, houtbound, hparked, hrekey, hsignal, hclosed⟩ := outlook_eq_iff.mp houtlook
    unfold accountReceived
    rw [hrekey]
    rcases other.rekey.recordReceived (UInt64.ofNat bytes) with ⟨_ | _ | _, rekey⟩
    · simp only [outlook, hinbound, houtbound, hparked, hsignal, hclosed, and_self]
    · simp only [outlook, hinbound, houtbound, hparked, hsignal, hclosed, and_self]
    · simp only [outlook, publish, note, hinbound, houtbound, hparked, hsignal, hclosed, and_self]

omit [BlockCipher C] in
theorem indifferent_deliver (header : Header) (frame : Bytes) :
    (deliver header frame : Act C Packet).Indifferent := by
  -- all that goes into the packet and its accounting is seen before anything changes
  have hdeliver : (deliver header frame : Act C Packet) =
      Act.ask (fun e => (e.message header frame, e.inbound.tagSize)) >>= fun seen =>
        Act.update advanceInbound >>= fun _ =>
          Act.update (note (.packet .inbound seen.1.describe seen.1.payload.length)) >>= fun _ =>
            (accountReceived (header.packetLength + seen.2 + 4) : Act C Unit) >>= fun _ =>
              pure seen.1 := rfl
  rw [hdeliver]
  refine .bind (.ask fun e other houtlook => ?_) fun seen => ?_
  · simp only [message, (outlook_eq_iff.mp houtlook).1]
  · refine .bind indifferent_advanceInbound fun _ => .bind (indifferent_note _) fun _ => ?_
    exact .bind (indifferent_accountReceived _) fun _ => .ofExcept (.ok seen.1)

theorem indifferent_authenticate (frame : Bytes) :
    (authenticate frame : Act C Bool).Indifferent := by
  have hauthenticate : (authenticate frame : Act C Bool) =
      Act.ask (·.inbound) >>= fun lane => Act.ofExcept (lane.sign frame) >>= fun expected =>
        (fill [] lane.tagSize : Act C (Option Bytes)) >>= fun
          | some received => verify expected received >>= fun _ => pure true
          | none => pure false := by
    funext e
    rw [authenticate, Act.ask_bind, Act.ask_bind]
    refine congrFun (Act.bind_congr fun expected => Act.bind_congr fun received? => ?_) e
    cases received? <;> rfl
  rw [hauthenticate]
  refine .bind (.ask fun e other houtlook => (outlook_eq_iff.mp houtlook).1) fun lane => ?_
  refine .bind (.ofExcept _) fun expected => .bind (indifferent_fill _ _) fun received? => ?_
  cases received? with
  | none => exact .ofExcept (.ok false)
  | some received => exact .bind (indifferent_verify _ _) fun _ => .ofExcept (.ok true)

theorem indifferent_finishPacket (header : Header) (frame rest : Bytes) :
    (finishPacket header frame rest : Act C (Option Packet)).Indifferent := by
  refine .bind (indifferent_authenticate frame) fun authentic => ?_
  cases authentic with
  | false => exact .ofExcept (.ok none)
  | true =>
      refine .bind (indifferent_dump _ _) fun _ => .bind (indifferent_deliver _ _) fun packet => ?_
      exact .ofExcept (.ok (some packet))

theorem indifferent_readRest (header : Header) (first carried : Bytes) :
    (readRest header first carried : Act C (Option Packet)).Indifferent := by
  refine .bind (indifferent_fill _ _) fun body? => ?_
  cases body? with
  | none => exact .ofExcept (.ok none)
  | some body =>
      exact .bind (indifferent_decipher body) fun rest => indifferent_finishPacket header _ rest

theorem indifferent_readFrom (raw : Bytes) :
    (readFrom raw : Act C (Option Packet)).Indifferent := by
  refine .bind (.ask fun e other houtlook => ?_) fun blockSize => ?_
  · rw [(outlook_eq_iff.mp houtlook).1]
  refine .bind (indifferent_decipher _) fun first => .bind (indifferent_dump _ _) fun _ => ?_
  refine .bind (.ofExcept _) fun header => ?_
  split
  · exact .ofExcept (.error (.shorterThanFirstRead header.frameLength))
  · exact indifferent_readRest header first _

theorem indifferent_readPacket : (readPacket : Act C (Option Packet)).Indifferent := by
  refine .bind indifferent_awaitFirstBlock fun raw? => ?_
  cases raw? with
  | none => exact .ofExcept (.ok none)
  | some raw => exact indifferent_readFrom raw

omit [BlockCipher C] in
theorem Act.Indifferent.noting {α : Type} {m : Act C α} (hm : m.Indifferent)
    (direction : Direction) : (Act.noting direction m).Indifferent := by
  intro e other halike
  obtain ⟨hresult, hnext⟩ := hm e other halike
  unfold Act.noting
  generalize m e = outcome at hresult hnext
  generalize m other = outcomeOther at hresult hnext
  obtain ⟨result, next⟩ := outcome
  obtain ⟨resultOther, nextOther⟩ := outcomeOther
  obtain rfl : result = resultOther := hresult
  cases result with
  | ok a => exact ⟨rfl, hnext⟩
  | error fault => exact ⟨rfl, (indifferent_note _ next nextOther hnext).2⟩

theorem indifferent_read : (read : Act C (Option Packet)).Indifferent := by
  intro e other halike
  have hread {e : Endpoint C} (hopen : e.closed = false) :
      read e = Act.noting .inbound readPacket e := by
    unfold read
    rw [hopen]
    rfl
  rw [hread halike.opened, hread halike.openedOther]
  exact indifferent_readPacket.noting .inbound e other halike

/-- Endpoints that are alike read the same, and are alike afterwards. -/
theorem indifferent_perform_read : (perform .read : Act C Reply).Indifferent := by
  intro e other halike
  have hcounted : Alike e.countOperation other.countOperation :=
    halike.of_poise rfl rfl halike.outlook
  obtain ⟨hresult, hread⟩ := indifferent_read _ _ hcounted
  obtain ⟨turn, hupkeep⟩ := hread.calm.still.upkeep_eq .idle
  obtain ⟨turnOther, hupkeepOther⟩ := hread.calmOther.still.upkeep_eq .idle
  rw [perform_read_eq, perform_read_eq, hresult, hupkeep, hupkeepOther]
  exact ⟨rfl, hread.of_poise rfl rfl hread.outlook⟩

/-- Reads so many times. -/
def readTimes (count : Nat) (e : Endpoint C) : List (Except Fault Reply) × Endpoint C :=
  run (List.replicate count .read) e

theorem readTimes_succ (count : Nat) (e : Endpoint C) :
    readTimes (count + 1) e =
      ((perform .read e).1 :: (readTimes count (perform .read e).2).1,
        (readTimes count (perform .read e).2).2) :=
  rfl

theorem readTimes_of_alike {e other : Endpoint C} (halike : Alike e other) (count : Nat) :
    (readTimes count e).1 = (readTimes count other).1 ∧
      Alike (readTimes count e).2 (readTimes count other).2 := by
  induction count generalizing e other with
  | zero => exact ⟨rfl, halike⟩
  | succ count ih =>
      obtain ⟨hresult, hnext⟩ := indifferent_perform_read e other halike
      obtain ⟨hresults, hlast⟩ := ih hnext
      rw [readTimes_succ, readTimes_succ, hresult, hresults]
      exact ⟨rfl, hlast⟩

/-- On a closed endpoint there is nothing to read. -/
theorem readTimes_of_closed {e : Endpoint C} (hcalm : Calm e) (hclosed : e.closed = true)
    (count : Nat) :
    (readTimes count e).1 = List.replicate count (.ok (.packet none)) ∧
      (readTimes count e).2.outlook = e.outlook ∧ (readTimes count e).2.reads = e.reads := by
  induction count generalizing e with
  | zero => exact ⟨rfl, rfl, rfl⟩
  | succ count ih =>
      have hcounted : Calm e.countOperation := hcalm.of_poise rfl
      have hread : read e.countOperation = (.ok none, e.countOperation) := if_pos hclosed
      obtain ⟨turn, hupkeep⟩ := hcounted.still.upkeep_eq .idle
      have hperform : perform .read e =
          (.ok (.packet none), { e.countOperation with turn }) := by
        rw [perform_read_eq, hread, hupkeep]
        rfl
      obtain ⟨hresults, hnext⟩ :=
        ih (e := { e.countOperation with turn }) (hcalm.of_poise rfl) hclosed
      rw [readTimes_succ, hperform]
      exact ⟨congrArg _ hresults, hnext⟩

/-- However the octets of a stream are cut into pieces and delayed, any number of reads have
the same results and leave lanes and rekey policy in the same state, with the same octets to
come. -/
theorem readTimes_of_cuts {e : Endpoint C} (hcalm : Calm e) {octets : Bytes}
    (hcuts : Cuts e.reads octets) {reads : ReadScript (Protection C)} (hother : Cuts reads octets)
    (count : Nat) :
    (readTimes count e).1 = (readTimes count { e with reads }).1 ∧
      (readTimes count e).2.outlook = (readTimes count { e with reads }).2.outlook ∧
      ∃ rest, Cuts (readTimes count e).2.reads rest ∧
        Cuts (readTimes count { e with reads }).2.reads rest := by
  have hcalmOther : Calm { e with reads } :=
    ⟨hcalm.held, hcalm.owed, hcalm.queued, hcalm.counts⟩
  rcases Bool.eq_false_or_eq_true e.closed with hclosed | hopen
  · obtain ⟨hresults, houtlook, hreads⟩ := readTimes_of_closed hcalm hclosed count
    obtain ⟨hresultsOther, houtlookOther, hreadsOther⟩ :=
      readTimes_of_closed hcalmOther hclosed count
    rw [hresults, hresultsOther, houtlook, houtlookOther, hreads, hreadsOther]
    exact ⟨rfl, rfl, octets, hcuts, hother⟩
  · have halike : Alike e { e with reads } :=
      ⟨rfl, hopen, hcalm, hcalmOther, octets, hcuts, hother⟩
    obtain ⟨hresults, hlast⟩ := readTimes_of_alike halike count
    exact ⟨hresults, hlast.outlook, hlast.octets⟩

/-- The octets of a reader, cut inside a header and inside a tag, with delays between. -/
def choppedOctets : ReadScript (Protection Rehearsal.Cipher) :=
  [.data (maskedOctets.take 3), .fail ⟨.interrupted, ""⟩, .data ((maskedOctets.drop 3).take 14),
    .pause 1000, .data (maskedOctets.drop 17)]

theorem readTimes_chopped :
    (readTimes 2 { maskedReader with reads := choppedOctets }).1 =
      [.ok (.packet (some ⟨[1], 0⟩)), .ok (.packet none)] := by
  have hwhole : (readTimes 2 maskedReader).1 =
      [.ok (.packet (some ⟨[1], 0⟩)), .ok (.packet none)] := by
    decide +kernel
  have hcalm : Calm maskedReader := ⟨rfl, rfl, rfl, by rintro _ ⟨⟩⟩
  have hcuts : Cuts maskedReader.reads maskedOctets := .data (by decide) .nil
  have hchopped : Cuts choppedOctets maskedOctets :=
    .data (by decide) (.fail rfl (.data (by decide) (.pause 1000 (.data (by decide) .nil))))
  rw [← (readTimes_of_cuts hcalm hcuts hchopped 2).1]
  exact hwhole

end Endpoint

end PacketLayer
