import PacketLayer.Proofs.Delivery
import PacketLayer.Proofs.Lanes
import PacketLayer.Rehearsal.StandIn

/-! # What a read accepts

A reader takes a packet in stages, and the octets may come in any pieces. It accepts
exactly what its lane calls genuine, and takes no octet more than that packet has.
-/

namespace PacketLayer.Endpoint

open ReadScript

variable {C : Type} [BlockCipher C]

/-- How the reading of a tag ends, with the octets to come. -/
inductive Authenticates (frame octets : Bytes) (e : Endpoint C) :
    Except Fault Bool × Endpoint C → Prop where
  | stopped {next : Endpoint C} (hclosed : next.closed = true)
      (hquiet : WriteScript.Quiet next.writes) : Authenticates frame octets e (.ok false, next)
  | fault {fault : Fault} (hsign : e.inbound.sign frame = .error fault) :
      Authenticates frame octets e (.error fault, e)
  | short {tag : Bytes} {next : Endpoint C} (hsign : e.inbound.sign frame = .ok tag)
      (hshort : octets.length < e.inbound.tagSize) (hnext : Undisturbed e next) :
      Authenticates frame octets e (.ok false, next)
  | mismatch {tag : Bytes} {next : Endpoint C} (hsign : e.inbound.sign frame = .ok tag)
      (henough : e.inbound.tagSize ≤ octets.length)
      (hdiffers : tag ≠ octets.take e.inbound.tagSize) (hnext : Undisturbed e next) :
      Authenticates frame octets e (.error (.tagMismatch e.inbound.sequence.value), next)
  | authentic {next : Endpoint C}
      (hsign : e.inbound.sign frame = .ok (octets.take e.inbound.tagSize))
      (henough : e.inbound.tagSize ≤ octets.length) (hnext : Undisturbed e next)
      (hrest : Delivers next.reads (octets.drop e.inbound.tagSize)) :
      Authenticates frame octets e (.ok true, next)

theorem authenticates {e : Endpoint C} {octets : Bytes} (hquiet : WriteScript.Quiet e.writes)
    (hdelivers : Delivers e.reads octets) (frame : Bytes) :
    Authenticates frame octets e (authenticate frame e) := by
  unfold authenticate
  rw [Act.ask_bind, id]
  cases hsign : e.inbound.sign frame with
  | error fault => exact .fault hsign
  | ok tag =>
      rw [Act.ofExcept_ok_bind]
      have hcollects := collects_fill hquiet hdelivers [] e.inbound.tagSize
      cases hfill : fill [] e.inbound.tagSize e with
      | mk result next =>
          rw [hfill] at hcollects
          cases hcollects with
          | stopped hclosed hnext =>
              rw [Act.bind_of_ok hfill]
              exact .stopped hclosed hnext.quiet
          | short hshort hnext =>
              rw [Act.bind_of_ok hfill]
              exact .short hsign hshort hnext
          | complete henough hrest hnext =>
              rw [Act.bind_of_ok hfill]
              dsimp only
              by_cases hsame : tag = octets.take e.inbound.tagSize
              · have hverify : verify tag ([] ++ octets.take e.inbound.tagSize) next =
                    (.ok (), next) := if_pos hsame
                rw [Act.bind_of_ok hverify]
                exact .authentic (hsame ▸ hsign) henough hnext hrest
              · have hverify : verify tag ([] ++ octets.take e.inbound.tagSize) next =
                    (.error (.tagMismatch next.inbound.sequence.value), next) := if_neg hsame
                rw [Act.bind_of_error hverify, hnext.inbound]
                exact .mismatch hsign henough hsame hnext

/-- How the reading of a packet ends, with all of its octets from the first one on. -/
inductive Reads (octets : Bytes) (e : Endpoint C) :
    Except Fault (Option Packet) × Endpoint C → Prop where
  | stopped {next : Endpoint C} (hclosed : next.closed = true)
      (hquiet : WriteScript.Quiet next.writes) : Reads octets e (.ok none, next)
  | refused {result : Except Fault (Option Packet)} {next : Endpoint C}
      (hrefused : e.inbound.Refuses octets result)
      (hsequence : next.inbound.sequence = e.inbound.sequence) : Reads octets e (result, next)
  | accepted {header : Header} {frame : Bytes} {last : Lane C} {middle : Endpoint C}
      (hgenuine : e.inbound.Genuine octets header frame last)
      (hmiddle : Undisturbed { e with inbound := last } middle)
      (hrest : Delivers middle.reads
        (octets.drop (header.frameLength + e.inbound.tagSize))) :
      Reads octets e ((do let packet ← deliver header frame; return some packet) middle)

theorem reads_finishPacket {e unfolded : Endpoint C} {octets frame rest : Bytes}
    {header : Header} {lane : Lane C} (hunfolds : e.inbound.Unfolds octets header frame lane)
    (hunfolded : Undisturbed { e with inbound := lane } unfolded)
    (hdelivers : Delivers unfolded.reads (octets.drop header.frameLength)) :
    Reads octets e (finishPacket header frame rest unfolded) := by
  obtain ⟨henough, htagSize, hsequence, hsign⟩ := hunfolds.lane_eq
  have hinbound : unfolded.inbound = lane := hunfolded.inbound
  have hauthenticates := authenticates hunfolded.quiet hdelivers frame
  simp only [← hinbound] at htagSize hsequence hsign
  unfold finishPacket
  cases hauthenticate : authenticate frame unfolded with
  | mk result next =>
      rw [hauthenticate] at hauthenticates
      cases hauthenticates with
      | stopped hclosed hquiet =>
          rw [Act.bind_of_ok hauthenticate]
          exact .stopped hclosed hquiet
      | fault hfault =>
          rw [Act.bind_of_error hauthenticate]
          exact .refused (.tagFault hunfolds (hsign frame ▸ hfault)) hsequence
      | short htag hshort hnext =>
          rw [Act.bind_of_ok hauthenticate]
          refine .refused (.shortTag hunfolds (hsign frame ▸ htag) ?_) ?_
          · rw [List.length_drop] at hshort
            omega
          · rw [hnext.inbound, hsequence]
      | mismatch htag hfits hdiffers hnext =>
          rw [Act.bind_of_error hauthenticate, hsequence]
          rw [htagSize] at hdiffers
          refine .refused (.mismatch hunfolds (hsign frame ▸ htag) ?_ hdiffers) ?_
          · rw [List.length_drop] at hfits
            omega
          · rw [hnext.inbound, hsequence]
      | authentic htag hfits hnext hrest =>
          rw [Act.bind_of_ok hauthenticate]
          rw [htagSize] at htag
          rw [List.drop_drop, htagSize] at hrest
          have hdumped := beside_dump hnext.quiet .inbound rest
          refine .accepted ⟨hunfolds, ?_, hsign frame ▸ htag⟩
            ((hunfolded.trans hnext).trans hdumped.toUndisturbed) (hdumped.reads ▸ hrest)
          rw [List.length_drop] at hfits
          omega

/-- Octets that are at hand already and octets still to come, taken up to one place. -/
theorem take_drop_of_carried {octets carried more : Bytes} {start stop : Nat}
    (hoctets : octets.drop start = carried ++ more) (hlong : start + carried.length ≤ stop) :
    (octets.take stop).drop start = carried ++ more.take (stop - (start + carried.length)) ∧
      octets.drop stop = more.drop (stop - (start + carried.length)) := by
  have hcarried : carried.length ≤ stop - start := by omega
  constructor
  · rw [List.drop_take, hoctets, List.take_append, List.take_of_length_le hcarried, Nat.sub_sub]
  · have hstop : stop = start + (stop - start) := by omega
    rw [hstop, ← List.drop_drop, hoctets, List.drop_append, List.drop_of_length_le hcarried,
      List.nil_append]
    congr 1
    omega

theorem reads_readRest {e opened : Endpoint C} {octets first carried more : Bytes} {lane : Lane C}
    (hopens : e.inbound.Opens octets first lane)
    (hopened : Undisturbed { e with inbound := lane } opened)
    (hdelivers : Delivers opened.reads more)
    (hoctets : octets.drop e.inbound.blockSize = carried ++ more)
    (hlong : first.length + carried.length ≤ (Header.ofBlock first).frameLength) :
    Reads octets e (readRest (Header.ofBlock first) first carried opened) := by
  obtain ⟨-, htagSize, hsequence, hsign, -⟩ := Lane.apply_eq hopens.deciphers
  have hfirst := hopens.length_eq
  have hlength := congrArg List.length hoctets
  have henough := hopens.enough
  rw [List.length_drop, List.length_append] at hlength
  have hcollects := collects_fill hopened.quiet hdelivers carried
    ((Header.ofBlock first).frameLength - (first.length + carried.length))
  unfold readRest
  cases hfill : fill carried
    ((Header.ofBlock first).frameLength - (first.length + carried.length)) opened with
  | mk result next =>
      rw [hfill] at hcollects
      cases hcollects with
      | stopped hclosed hnext =>
          rw [Act.bind_of_ok hfill]
          exact .stopped hclosed hnext.quiet
      | short hshort hnext =>
          rw [Act.bind_of_ok hfill]
          refine .refused (.shortFrame hopens (by omega)) ?_
          rw [(hopened.trans hnext).inbound, hsequence]
      | complete hcomplete hremaining hnext =>
          rw [Act.bind_of_ok hfill]
          dsimp only
          rw [hfirst] at hlong hremaining ⊢
          -- what is carried and what is filled up make the rest of the frame
          obtain ⟨hbody, hbehind⟩ := take_drop_of_carried hoctets hlong
          rw [← hbody]
          rw [← hbehind] at hremaining
          have hwhole : (Header.ofBlock first).frameLength ≤ octets.length := by omega
          have hnext := hopened.trans hnext
          have hinbound : next.inbound = lane := hnext.inbound
          cases hrest : lane.apply ((octets.take (Header.ofBlock first).frameLength).drop
              e.inbound.blockSize) with
          | mk result last =>
              have hdecipher : decipher ((octets.take (Header.ofBlock first).frameLength).drop
                  e.inbound.blockSize) next = (result, { next with inbound := last }) := by
                simp [decipher, hinbound, hrest]
              cases result with
              | error fault =>
                  rw [Act.bind_of_error hdecipher]
                  refine .refused (.restFault hopens hwhole hrest) ?_
                  exact (Lane.apply_eq hrest).2.2.1.trans hsequence
              | ok rest =>
                  rw [Act.bind_of_ok hdecipher]
                  exact reads_finishPacket (.intro hopens hwhole hrest) (hnext.relane last)
                    hremaining

/-- A packet of which a first block is there already is read to its end, unless more of
it is there than it has. -/
theorem reads_readFrom {e : Endpoint C} {raw more : Bytes} (hquiet : WriteScript.Quiet e.writes)
    (hdelivers : Delivers e.reads more) (hraw : e.inbound.blockSize ≤ raw.length)
    (hlong : ∀ first lane, e.inbound.Opens (raw ++ more) first lane →
      raw.length ≤ (Header.ofBlock first).frameLength) :
    Reads (raw ++ more) e (readFrom raw e) := by
  have htake : (raw ++ more).take e.inbound.blockSize = raw.take e.inbound.blockSize :=
    List.take_append_of_le_length hraw
  have hdrop : (raw ++ more).drop e.inbound.blockSize = raw.drop e.inbound.blockSize ++ more :=
    List.drop_append_of_le_length hraw
  have henough : e.inbound.blockSize ≤ (raw ++ more).length := by
    rw [List.length_append]
    omega
  unfold readFrom
  rw [Act.ask_bind]
  cases hblock : e.inbound.apply (raw.take e.inbound.blockSize) with
  | mk result lane =>
      have hdecipher : decipher (raw.take e.inbound.blockSize) e =
          (result, { e with inbound := lane }) := by
        simp [decipher, hblock]
      obtain ⟨-, -, hsequence, -, hlength⟩ := Lane.apply_eq hblock
      rw [← htake] at hblock
      cases result with
      | error fault =>
          rw [Act.bind_of_error hdecipher]
          exact .refused (.blockFault henough hblock) hsequence
      | ok first =>
          have hfirst : first.length = e.inbound.blockSize := by
            rw [hlength first rfl, List.length_take, Nat.min_eq_left hraw]
          have hparsed (header : Header) :
              Header.parse first e.inbound.blockSize = .ok header ↔
                header = .ofBlock first ∧ header.WellFormed e.inbound.blockSize :=
            Header.parse_eq_ok_iff e.inbound.plaintextBlockSize_le (Nat.le_of_eq hfirst.symm)
          have hopened : Beside { e with inbound := lane }
              (dump .inbound first { e with inbound := lane }) :=
            beside_dump (e := { e with inbound := lane }) hquiet .inbound first
          rw [Act.bind_of_ok hdecipher, Act.update_bind]
          cases hparse : Header.parse first e.inbound.blockSize with
          | error fault =>
              rw [Act.ofExcept_error_bind]
              refine .refused (.malformed henough hblock ?_ (Header.category_of_parse hparse)) ?_
              · intro hformed
                rw [(hparsed _).mpr ⟨rfl, hformed⟩] at hparse
                cases hparse
              · rw [hopened.inbound, hsequence]
          | ok header =>
              obtain ⟨rfl, hformed⟩ := (hparsed header).mp hparse
              have hopens : e.inbound.Opens (raw ++ more) first lane := ⟨henough, hblock, hformed⟩
              have hfits := hlong first lane hopens
              rw [Act.ofExcept_ok_bind, if_neg (Nat.not_lt.mpr hfits)]
              refine reads_readRest hopens hopened.toUndisturbed ?_ hdrop ?_
              · rw [hopened.reads]
                exact hdelivers
              · rw [hfirst, List.length_drop]
                omega

theorem Reads.after {e middle : Endpoint C} {octets : Bytes}
    {outcome : Except Fault (Option Packet) × Endpoint C} (hmiddle : Undisturbed e middle)
    (hreads : Reads octets middle outcome) : Reads octets e outcome := by
  cases hreads with
  | stopped hclosed hquiet => exact .stopped hclosed hquiet
  | refused hrefused hsequence =>
      rw [hmiddle.inbound] at hrefused hsequence
      exact .refused hrefused hsequence
  | accepted hgenuine hnext hrest =>
      rw [hmiddle.inbound] at hgenuine hrest
      exact .accepted hgenuine ((hmiddle.relane _).trans hnext) hrest

/-- A read that goes on with octets at hand reads the packet that they begin, unless they
are more than that packet has. -/
theorem reads_of_held {start e : Endpoint C} {held rest : Bytes}
    (hawait : awaitFirstBlock [] start = awaitFirstBlock held e)
    (hquiet : WriteScript.Quiet e.writes) (hdelivers : Delivers e.reads rest)
    (hlong : ∀ first lane, e.activateParked.inbound.Opens (held ++ rest) first lane →
      held.length ≤ (Header.ofBlock first).frameLength) :
    Reads (held ++ rest) e.activateParked (readPacket start) := by
  have hready : WriteScript.Quiet e.activateParked.writes := by
    unfold activateParked
    split <;> exact hquiet
  have harriving : Delivers e.activateParked.reads rest := by
    unfold activateParked
    split <;> exact hdelivers
  have hfill : awaitFirstBlock [] start =
      fill held (e.activateParked.inbound.blockSize - held.length) e.activateParked := by
    obtain ⟨tail, hflow, hend⟩ := harriving
    rw [hawait, ← awaitFirstBlock_activateParked]
    exact awaitFirstBlock_eq_fill (parked_activateParked e) hready hflow (.inr hend)
  have hcollects := collects_fill hready harriving held
    (e.activateParked.inbound.blockSize - held.length)
  rw [← hfill] at hcollects
  unfold readPacket
  cases hblock : awaitFirstBlock [] start with
  | mk result next =>
      rw [hblock] at hcollects
      cases hcollects with
      | stopped hclosed hnext =>
          rw [Act.bind_of_ok hblock]
          exact .stopped hclosed hnext.quiet
      | short hshort hnext =>
          rw [Act.bind_of_ok hblock]
          refine .refused (.shortBlock ?_) (congrArg Lane.sequence hnext.inbound)
          rw [List.length_append]
          omega
      | complete henough hrest hnext =>
          rw [Act.bind_of_ok hblock]
          have hlength : (held ++ rest.take (e.activateParked.inbound.blockSize -
              held.length)).length = max held.length next.inbound.blockSize := by
            rw [List.length_append, List.length_take, Nat.min_eq_left henough, hnext.inbound]
            omega
          have hreads := reads_readFrom hnext.quiet hrest (hlength ▸ Nat.le_max_right _ _) ?_
          · rw [List.append_assoc, List.take_append_drop] at hreads
            exact hreads.after hnext
          · intro first lane hopens
            have hformed := hopens.formed.blockSize_le
            rw [List.append_assoc, List.take_append_drop, hnext.inbound] at hopens
            rw [hlength]
            exact Nat.max_le.mpr ⟨hlong first lane hopens, hformed⟩

theorem reads_readPacket {e : Endpoint C} {octets : Bytes} (hquiet : WriteScript.Quiet e.writes)
    (hdelivers : Delivers e.reads octets) : Reads octets e.activateParked (readPacket e) :=
  reads_of_held rfl hquiet hdelivers fun _ _ _ => Nat.zero_le _

/-- The message that a frame carries. -/
def message (e : Endpoint C) (header : Header) (frame : Bytes) : Packet :=
  ⟨(frame.drop headerLength).take header.payloadLength, e.inbound.sequence.value⟩

omit [BlockCipher C] in
theorem accountReceived_eq (bytes : Nat) (e : Endpoint C) :
    ∃ next, accountReceived bytes e =
        ((e.rekey.recordReceived (UInt64.ofNat bytes)).1.map fun _ => (), next) ∧
      next.inbound = e.inbound ∧ next.parked = e.parked ∧ next.reads = e.reads ∧
      next.writes = e.writes ∧ next.rekey = (e.rekey.recordReceived (UInt64.ofNat bytes)).2 := by
  unfold accountReceived
  rcases hrecorded : e.rekey.recordReceived (UInt64.ofNat bytes) with ⟨_ | _ | _, rekey⟩
  · exact ⟨_, rfl, rfl, rfl, rfl, rfl, rfl⟩
  · exact ⟨_, rfl, rfl, rfl, rfl, rfl, rfl⟩
  · exact ⟨_, rfl, rfl, rfl, rfl, rfl, rfl⟩

omit [BlockCipher C] in
/-- Delivering a packet consumes its sequence number and counts it; only the peer's ignoring
a request for new keys stands against it. -/
theorem deliver_eq (header : Header) (frame : Bytes) (e : Endpoint C) :
    ∃ next, deliver header frame e =
        ((e.rekey.recordReceived (UInt64.ofNat (header.frameLength + e.inbound.tagSize))).1.map
          fun _ => e.message header frame, next) ∧
      next.inbound = e.inbound.advance ∧ next.parked = e.parked ∧ next.reads = e.reads ∧
      next.writes = e.writes ∧ next.rekey = (e.rekey.recordReceived
        (UInt64.ofNat (header.frameLength + e.inbound.tagSize))).2 := by
  have hcount : header.packetLength + e.inbound.tagSize + 4 =
      header.frameLength + e.inbound.tagSize := by
    unfold Header.frameLength
    omega
  let numbered := note (.packet .inbound (e.message header frame).describe
    (e.message header frame).payload.length) (advanceInbound e)
  let counting : Act C Unit := accountReceived (header.packetLength + e.inbound.tagSize + 4)
  have hdeliver : deliver header frame e =
      (counting >>= fun _ => (pure (e.message header frame) : Act C Packet)) numbered := rfl
  obtain ⟨next, haccount, hnext⟩ :=
    accountReceived_eq (header.packetLength + e.inbound.tagSize + 4) numbered
  rw [hcount] at haccount hnext
  refine ⟨next, ?_, hnext⟩
  rw [hdeliver]
  change _ = ((e.rekey.recordReceived _).1.map fun _ => (), next) at haccount
  cases hanswer : (e.rekey.recordReceived
      (UInt64.ofNat (header.frameLength + e.inbound.tagSize))).1 with
  | error fault =>
      rw [hanswer, ← hcount] at haccount
      exact Act.bind_of_error haccount
  | ok raised =>
      rw [hanswer, ← hcount] at haccount
      exact Act.bind_of_ok haccount

/-- A read accepts a packet if it consumes the sequence number and delivers the packet, or
finds that the peer ignores a request for new keys. -/
def Accepts (e : Endpoint C) (outcome : Except Fault (Option Packet) × Endpoint C) : Prop :=
  outcome.2.inbound.sequence = e.inbound.sequence.next ∧
    ((∃ packet, outcome.1 = .ok (some packet)) ∨
      ∃ count, outcome.1 = .error (.rekeyIgnored count))

/-- A read takes a packet with the given header and frame off the stream, and no more. The
rekey policy, which may have counted messages sent meanwhile, has the last word on it. -/
structure Takes (e : Endpoint C) (octets : Bytes) (header : Header) (frame : Bytes)
    (lane : Lane C) (outcome : Except Fault (Option Packet) × Endpoint C) : Prop where
  inbound : outcome.2.inbound = lane.advance
  parked : outcome.2.parked = e.parked
  consumed : Delivers outcome.2.reads (octets.drop (header.frameLength + e.inbound.tagSize))
  judged : ∃ (sent : List UInt64) (answer : Except Fault Bool),
    (e.rekey.after (sent.map .sent)).recordReceived
        (UInt64.ofNat (header.frameLength + e.inbound.tagSize)) = (answer, outcome.2.rekey) ∧
      outcome.1 = answer.map fun _ => some (e.message header frame)
  quiet : WriteScript.Quiet outcome.2.writes

theorem takes_deliver {e middle : Endpoint C} {octets frame : Bytes} {header : Header}
    {lane : Lane C} (hgenuine : e.inbound.Genuine octets header frame lane)
    (hmiddle : Undisturbed { e with inbound := lane } middle)
    (hrest : Delivers middle.reads (octets.drop (header.frameLength + e.inbound.tagSize))) :
    Takes e octets header frame lane
      ((do let packet ← deliver header frame; return some packet : Act C (Option Packet))
        middle) := by
  obtain ⟨-, htagSize, hsequence, -⟩ := hgenuine.unfolds.lane_eq
  have hinbound : middle.inbound = lane := hmiddle.inbound
  obtain ⟨sent, hcounted⟩ : ∃ sent : List UInt64,
      middle.rekey = e.rekey.after (sent.map .sent) := hmiddle.counted
  have hmessage : middle.message header frame = e.message header frame := by
    unfold message
    rw [hinbound, hsequence]
  obtain ⟨next, hdeliver, hnext, hparked, hreads, hwrites, hrekey⟩ :=
    deliver_eq header frame middle
  rw [hcounted, hinbound, htagSize] at hdeliver hrekey
  rw [hmessage] at hdeliver
  generalize hrecorded : (e.rekey.after (sent.map .sent)).recordReceived
    (UInt64.ofNat (header.frameLength + e.inbound.tagSize)) = recorded at hdeliver hrekey
  obtain ⟨answer, policy⟩ := recorded
  have hjudged : (e.rekey.after (sent.map .sent)).recordReceived
      (UInt64.ofNat (header.frameLength + e.inbound.tagSize)) = (answer, next.rekey) := by
    rw [hrecorded, hrekey]
  have hquiet : WriteScript.Quiet next.writes := hwrites ▸ hmiddle.quiet
  rw [← hreads] at hrest
  cases answer with
  | error fault =>
      rw [Act.bind_of_error hdeliver]
      exact ⟨hinbound ▸ hnext, hparked.trans hmiddle.parked, hrest, ⟨sent, _, hjudged, rfl⟩, hquiet⟩
  | ok raised =>
      rw [Act.bind_of_ok hdeliver]
      exact ⟨hinbound ▸ hnext, hparked.trans hmiddle.parked, hrest, ⟨sent, _, hjudged, rfl⟩, hquiet⟩

omit [BlockCipher C] in
theorem Takes.result {e : Endpoint C} {octets frame : Bytes} {header : Header} {lane : Lane C}
    {outcome : Except Fault (Option Packet) × Endpoint C}
    (htakes : Takes e octets header frame lane outcome) :
    outcome.1 = .ok (some (e.message header frame)) ∨
      ∃ count, outcome.1 = .error (.rekeyIgnored count) := by
  obtain ⟨sent, answer, hrecorded, hresult⟩ := htakes.judged
  have hanswers := Rekey.Policy.recordReceived_answers (e.rekey.after (sent.map .sent))
    (UInt64.ofNat (header.frameLength + e.inbound.tagSize))
  rw [hrecorded] at hanswers
  rw [hresult]
  rcases hanswers with ⟨raised, rfl⟩ | ⟨count, rfl⟩
  · exact .inl rfl
  · exact .inr ⟨count, rfl⟩

theorem Takes.accepts {e : Endpoint C} {octets frame : Bytes} {header : Header} {lane : Lane C}
    {outcome : Except Fault (Option Packet) × Endpoint C}
    (hgenuine : e.inbound.Genuine octets header frame lane)
    (htakes : Takes e octets header frame lane outcome) : Accepts e outcome := by
  obtain ⟨-, -, hsequence, -⟩ := hgenuine.unfolds.lane_eq
  refine ⟨?_, htakes.result.imp_left fun hresult => ⟨_, hresult⟩⟩
  rw [htakes.inbound, ← hsequence]
  rfl

omit [BlockCipher C] in
theorem Takes.of_stake {e : Endpoint C} {octets frame : Bytes} {header : Header} {lane : Lane C}
    {outcome noted : Except Fault (Option Packet) × Endpoint C}
    (htakes : Takes e octets header frame lane outcome) (hresult : noted.1 = outcome.1)
    (hstake : noted.2.stake = outcome.2.stake) : Takes e octets header frame lane noted := by
  simp only [stake, Prod.mk.injEq] at hstake
  obtain ⟨hinbound, hparked, -, hrekey, hwrites, hreads⟩ := hstake
  obtain ⟨hlane, hidle, hconsumed, hjudged, hquiet⟩ := htakes
  rw [← hrekey, ← hresult] at hjudged
  exact ⟨hinbound.trans hlane, hparked.trans hidle, hreads ▸ hconsumed, hjudged,
    hwrites ▸ hquiet⟩

/-- On an open endpoint a message is read as a packet, and a failure is noted. -/
theorem read_of_open {e : Endpoint C} (hopen : e.closed = false) :
    (read e).1 = (readPacket e).1 ∧ (read e).2.stake = (readPacket e).2.stake := by
  unfold read
  rw [hopen]
  cases hread : readPacket e with
  | mk result next =>
      cases result with
      | error fault => simp [Act.noting, hread, note, stake]
      | ok packet? => simp [Act.noting, hread]

/-- A read finds the endpoint closed, takes a genuine packet, or refuses the octets. -/
theorem read_outcome {e : Endpoint C} {octets : Bytes} (hquiet : WriteScript.Quiet e.writes)
    (hdelivers : Delivers e.reads octets) :
    ((read e).2.closed = true ∧ WriteScript.Quiet (read e).2.writes) ∨
    (∃ header frame lane, e.activateParked.inbound.Genuine octets header frame lane ∧
      Takes e.activateParked octets header frame lane (read e)) ∨
    (e.activateParked.inbound.Refuses octets (read e).1 ∧
      (read e).2.inbound.sequence = e.activateParked.inbound.sequence) := by
  cases hopen : e.closed with
  | true =>
      have hread : read e = (.ok none, e) := if_pos hopen
      rw [hread]
      exact .inl ⟨hopen, hquiet⟩
  | false =>
      obtain ⟨hresult, hstake⟩ := read_of_open hopen
      have houtcome := reads_readPacket hquiet hdelivers
      generalize readPacket e = outcome at houtcome hresult hstake
      cases houtcome with
      | stopped hclosed hstill =>
          simp only [stake, Prod.mk.injEq] at hstake
          obtain ⟨-, -, hsame, -, hwrites, -⟩ := hstake
          exact .inl ⟨hsame.trans hclosed, hwrites ▸ hstill⟩
      | refused hrefused hsequence =>
          refine .inr (.inr ⟨?_, (congrArg (·.1.sequence) hstake).trans hsequence⟩)
          rw [hresult]
          exact hrefused
      | accepted hgenuine hmiddle hrest =>
          exact .inr (.inl ⟨_, _, _, hgenuine,
            (takes_deliver hgenuine hmiddle hrest).of_stake hresult hstake⟩)

/-- A read accepts exactly the genuine packets, takes them off the stream to the last octet,
and refuses everything else with the result that its defect calls for. -/
theorem read_accepts_iff {e : Endpoint C} {octets : Bytes} (hquiet : WriteScript.Quiet e.writes)
    (hdelivers : Delivers e.reads octets) (hopen : (read e).2.closed = false) :
    (Accepts e.activateParked (read e) ↔
      ∃ header frame lane, e.activateParked.inbound.Genuine octets header frame lane) ∧
    (∀ header frame lane, e.activateParked.inbound.Genuine octets header frame lane →
      Takes e.activateParked octets header frame lane (read e)) ∧
    ((¬∃ header frame lane, e.activateParked.inbound.Genuine octets header frame lane) →
      e.activateParked.inbound.Refuses octets (read e).1) := by
  rcases read_outcome hquiet hdelivers with
    ⟨hclosed, -⟩ | ⟨header, frame, lane, hgenuine, htakes⟩ | ⟨hrefuses, hsequence⟩
  · rw [hopen] at hclosed
    cases hclosed
  · refine ⟨⟨fun _ => ⟨header, frame, lane, hgenuine⟩, fun _ => htakes.accepts hgenuine⟩, ?_, ?_⟩
    · intro header' frame' lane' hgenuine'
      obtain ⟨rfl, rfl, rfl⟩ := hgenuine.unfolds.unique hgenuine'.unfolds
      exact htakes
    · exact fun hnone => absurd ⟨header, frame, lane, hgenuine⟩ hnone
  · -- a refused packet leaves the sequence number as it was, and so cannot count as accepted
    refine ⟨⟨fun haccepts => ?_, ?_⟩, ?_, fun _ => hrefuses⟩
    · have hsame := congrArg SequenceNumber.value (hsequence.symm.trans haccepts.1)
      rw [SequenceNumber.value_next] at hsame
      exact absurd hsame (by grind)
    · rintro ⟨header, frame, lane, hgenuine⟩
      exact absurd hrefuses hgenuine.not_refuses
    · intro header frame lane hgenuine
      exact absurd hrefuses hgenuine.not_refuses

def newEndpoint : Endpoint Rehearsal.Cipher where
  config := {}
  valid := (Config.violation?_eq_none_iff {}).mp rfl
  rekey := { limits := {} }
  keepAlive := .disabled 0
  padding := .zeros
  noise := .zeros

/-- Keys under which every octet is masked and every packet has the same tag. -/
def maskedProtection (surplus : Nat) : Protection Rehearsal.Cipher :=
  ⟨.mask 32, min (minBlockSize + surplus) maxBlockSize, ⟨2, fun _ _ => .ok [7, 8]⟩, 2,
    Nat.le_min.mpr ⟨Nat.le_add_right _ _, by decide⟩, Nat.min_le_right _ _, Nat.le_refl 2⟩

/-- A masked packet with one payload octet, and one octet of the packet after it. -/
def maskedOctets : Bytes :=
  [32, 32, 32, 44, 42, 33] ++ List.replicate 10 32 ++ [7, 8] ++ [32]

def maskedReader : Endpoint Rehearsal.Cipher :=
  { newEndpoint with
    inbound := ⟨some (maskedProtection 0), {}⟩
    reads := [.data maskedOctets] }

theorem read_accepts_masked : Accepts maskedReader.activateParked (read maskedReader) := by
  have hopens : maskedReader.activateParked.inbound.Opens maskedOctets
      [0, 0, 0, 12, 10, 1, 0, 0] maskedReader.inbound :=
    ⟨by decide, rfl, by decide, ⟨2, rfl⟩, by decide, by decide⟩
  have hunfolds : maskedReader.activateParked.inbound.Unfolds maskedOctets ⟨12, 10⟩
      ([0, 0, 0, 12, 10, 1, 0, 0] ++ List.replicate 8 0) maskedReader.inbound :=
    .intro hopens (by decide) rfl
  exact (read_accepts_iff (by rintro _ ⟨⟩) (delivers_data maskedOctets)
    (by decide +kernel)).1.mpr ⟨_, _, _, hunfolds, by decide, rfl⟩

end PacketLayer.Endpoint
