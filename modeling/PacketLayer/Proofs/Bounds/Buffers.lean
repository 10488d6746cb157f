import PacketLayer.Proofs.Bounds.Access
import PacketLayer.Proofs.Course.Inbound
import PacketLayer.Proofs.Delivery

/-! # Reading into buffers

A packet can be read into buffers whose sizes are fixed before they are filled: a chunk for
each attempt at a first block, a buffer for the whole frame, and one for the tag. A reader
that does so checks every access and gives up at the first that fails. None ever fails, and
what is read is the same.
-/

namespace PacketLayer.Endpoint

variable {C : Type}

/-- A step of a reader that has no outcome if an access fails. -/
def Buffered (C α : Type) := Endpoint C → Option (Except Fault α × Endpoint C)

namespace Buffered

section Steps

variable {α β : Type}

instance : Monad (Buffered C) where
  pure a := fun e => some (.ok a, e)
  bind m f := fun e =>
    match m e with
    | none => none
    | some (.ok a, e) => f a e
    | some (.error fault, e) => some (.error fault, e)

/-- A step that makes no access. -/
def act (m : Act C α) : Buffered C α := fun e => some (m e)

/-- An access, which changes nothing. -/
def access (result? : Option α) : Buffered C α := fun e => result?.map fun a => (.ok a, e)

/-- Notes a failure of the step. -/
def noting (direction : Direction) (m : Buffered C α) : Buffered C α := fun e =>
  (m e).map fun outcome => Act.noting direction (fun _ => outcome) e

theorem access_bind {result? : Option α} {a : α} (h : result? = some a) (f : α → Buffered C β)
    (e : Endpoint C) : (access result? >>= f) e = f a e := by
  subst h
  rfl

/-- Steps in sequence do what other steps do, if each does after the same beginning. The
result of the beginning may be put in another form. -/
theorem bind_eq_of {γ : Type} {m : Buffered C α} {n : Act C γ} (change : γ → α)
    {f : α → Buffered C β} {g : γ → Act C β} {e : Endpoint C}
    (hm : m e = some ((n e).1.map change, (n e).2))
    (hf : ∀ c next, n e = (.ok c, next) → f (change c) next = some (g c next)) :
    (m >>= f) e = some ((n >>= g) e) := by
  change (match m e with
    | none => none
    | some (.ok a, e) => f a e
    | some (.error fault, e) => some (.error fault, e)) = _
  rw [hm]
  rcases houtcome : n e with ⟨fault | c, next⟩
  · rw [Act.bind_of_error houtcome]
    rfl
  · rw [Act.bind_of_ok houtcome]
    exact hf c next houtcome

theorem bind_eq {m : Buffered C α} {n : Act C α} {f : α → Buffered C β} {g : α → Act C β}
    {e : Endpoint C} (hm : m e = some (n e))
    (hf : ∀ a next, n e = (.ok a, next) → f a next = some (g a next)) :
    (m >>= f) e = some ((n >>= g) e) := by
  refine bind_eq_of id (hm.trans ?_) hf
  rcases n e with ⟨fault | a, next⟩ <;> rfl

end Steps

variable [BlockCipher C]

/-! ## The reader -/

/-- One attempt to read into a buffer, from one place up to another. The octets that arrive
are put there. -/
def receiveInto (start stop : Nat) (buffer : Bytes) (e : Endpoint C) :
    Option (Arrival × Bytes × Endpoint C) :=
  match buffer.slice? start stop with
  | none => none
  | some room =>
      match e.receive room.length e.config.pollInterval with
      | (.finished, next) => some (.finished, buffer, next)
      | (.failed failure, next) => some (.failed failure, buffer, next)
      | (.more bytes, next) =>
          (buffer.overwrite? start (start + bytes.length) bytes).map (.more bytes, ·, next)

/-- An attempt that asks to be repeated lowers the cost of the script. -/
theorem readCost_of_receiveInto {start stop : Nat} {bytes buffer filled : Bytes}
    {e next : Endpoint C} (hroom : start < stop)
    (hattempt : receiveInto start stop buffer e = some (.more bytes, filled, next)) :
    next.readCost < e.readCost := by
  unfold receiveInto at hattempt
  split at hattempt
  · cases hattempt
  next room hslice =>
    have hlength : room.length = stop - start := by
      unfold Bytes.slice? at hslice
      split at hslice
      next hplaces =>
        obtain rfl := Option.some.inj hslice
        rw [List.length_drop, List.length_take_of_le hplaces.2]
      next => cases hslice
    split at hattempt
    · cases hattempt
    · cases hattempt
    next arrived last hreceive =>
      obtain ⟨_, -, hsame⟩ := Option.map_eq_some_iff.mp hattempt
      obtain ⟨-, rfl⟩ := Prod.mk.inj (Prod.mk.inj hsame).2
      exact readCost_of_more (by omega) e.valid.pollInterval hreceive

/-- Reads until a whole first block is at hand, in addition to the octets already read. Each
attempt reads into a chunk as large as the largest block. -/
def awaitFirstBlock (raw : Bytes) (e : Endpoint C) :
    Option (Except Fault (Option Bytes) × Endpoint C) :=
  let ready := e.activateParked
  if _hcomplete : ready.inbound.blockSize ≤ raw.length then some (.ok (some raw), ready)
  else
    match _hwant : difference? ready.inbound.blockSize raw.length with
    | none => none
    | some want =>
        match _hattempt : receiveInto 0 want (List.replicate maxBlockSize 0) ready with
        | none => none
        | some (.finished, _, next) => some (.ok none, next)
        | some (.failed failure, _, next) => some (.error (.stream failure), next)
        | some (.more bytes, chunk, next) =>
            match chunk.slice? 0 bytes.length with
            | none => none
            | some arrived =>
                if ready.inbound.blockSize ≤ (raw ++ arrived).length then
                  awaitFirstBlock (raw ++ arrived) next
                else if next.closed then some (.ok none, next)
                else awaitFirstBlock (raw ++ arrived) next.checkKeepAlive
  termination_by e.readCost
  decreasing_by
    all_goals
      have hmissing : raw.length < ready.inbound.blockSize := Nat.lt_of_not_le _hcomplete
      rw [difference?_of_le (Nat.le_of_lt hmissing)] at _hwant
      obtain rfl := Option.some.inj _hwant
      have hless := readCost_of_receiveInto (Nat.sub_pos_of_lt hmissing) _hattempt
      rw [readCost_activateParked] at hless
    · exact hless
    · rwa [readCost_checkKeepAlive]

/-- Fills a buffer from a place on. -/
def fill (buffer : Bytes) (filled : Nat) (e : Endpoint C) :
    Option (Except Fault (Option Bytes) × Endpoint C) :=
  if _hcomplete : buffer.length ≤ filled then some (.ok (some buffer), e)
  else
    match _hattempt : receiveInto filled buffer.length buffer e with
    | none => none
    | some (.finished, _, next) => some (.ok none, next)
    | some (.failed failure, _, next) => some (.error (.stream failure), next)
    | some (.more bytes, buffer, next) =>
        if filled + bytes.length = buffer.length then some (.ok (some buffer), next)
        else if next.closed then some (.ok none, next)
        else fill buffer (filled + bytes.length) next.checkKeepAlive
  termination_by e.readCost
  decreasing_by
    rw [readCost_checkKeepAlive]
    exact readCost_of_receiveInto (Nat.lt_of_not_le _hcomplete) _hattempt

/-- Reads the tag of a deciphered frame and refuses a wrong one. -/
def authenticate (frame : Bytes) : Buffered C Bool := do
  let e ← act (Act.ask id)
  let expected ← act (Act.ofExcept (e.inbound.sign frame))
  let some received ← fill (List.replicate e.inbound.tagSize 0) 0 | return false
  act (verify expected received)
  return true

/-- Numbers, notes and counts a packet that passed every check. -/
def deliver (header : Header) (frame : Bytes) : Buffered C Packet := do
  let length ← access header.payloadLength?
  let payload ← access (frame.slice? headerLength (headerLength + length))
  act do
    let e ← Act.ask id
    let packet : Packet := ⟨payload, e.inbound.sequence.value⟩
    Act.update advanceInbound
    Act.update (note (.packet .inbound packet.describe payload.length))
    accountReceived (header.packetLength + e.inbound.tagSize + 4)
    return packet

/-- Ends the reading of a packet whose frame is deciphered. -/
def finishPacket (header : Header) (blockSize : Nat) (frame : Bytes) :
    Buffered C (Option Packet) := do
  if ← authenticate frame then
    let rest ← access (frame.slice? blockSize frame.length)
    act (Act.update (dump .inbound rest))
    let packet ← deliver header frame
    return some packet
  else return none

/-- Reads what follows the deciphered first block of a packet into a buffer for the whole
frame, and deciphers it there. -/
def readRest (header : Header) (blockSize : Nat) (first carried : Bytes) :
    Buffered C (Option Packet) := do
  let start := blockSize + carried.length
  let buffer ← access (Bytes.allocate? (4 + maxPacketLength) header.frameLength)
  let buffer ← access (buffer.overwrite? 0 blockSize first)
  let buffer ← access (buffer.overwrite? blockSize start carried)
  -- what is still to be filled begins within the buffer, or at its end
  let _room ← access (buffer.slice? start buffer.length)
  let some buffer ← fill buffer start | return none
  let body ← access (buffer.slice? blockSize buffer.length)
  let rest ← act (decipher body)
  let frame ← access (buffer.overwrite? blockSize buffer.length rest)
  finishPacket header blockSize frame

/-- Reads the packet that begins with the given octets, at least a first block. -/
def readFrom (raw : Bytes) : Buffered C (Option Packet) := do
  let blockSize ← act (Act.ask (·.inbound.blockSize))
  let block ← access (raw.slice? 0 blockSize)
  let first ← act (decipher block)
  act (Act.update (dump .inbound first))
  let parsed ← access (Header.parse? first blockSize)
  let header ← act (Act.ofExcept parsed)
  let carried ← access (raw.slice? blockSize raw.length)
  if header.frameLength < blockSize + carried.length then
    act (Act.fail (.shorterThanFirstRead header.frameLength))
  else readRest header blockSize first carried

/-- Reads one packet. -/
def readPacket : Buffered C (Option Packet) := do
  let some raw ← awaitFirstBlock [] | return none
  readFrom raw

/-- Reads one message. Nothing is read once the endpoint is closed. -/
def read : Buffered C (Option Packet) := fun e =>
  if e.closed then some (.ok none, e) else noting .inbound readPacket e

/-! ## Every access succeeds -/

/-- A buffer after an attempt to read behind what it holds already. -/
def written (before spare : Bytes) : Arrival → Bytes
  | .more bytes => before ++ bytes ++ spare.drop bytes.length
  | _ => before ++ spare

/-- An attempt to read into what is spare of a buffer. -/
theorem receiveInto_eq (before : Bytes) {spare : Bytes} {want : Nat} {arrival : Arrival}
    {e next : Endpoint C} (hwant : want ≤ spare.length)
    (hattempt : e.receive want e.config.pollInterval = (arrival, next)) :
    receiveInto before.length (before.length + want) (before ++ spare) e =
      some (arrival, written before spare arrival, next) := by
  have hroom : (spare.take want).length = want := List.length_take_of_le hwant
  have hslice : (before ++ spare).slice? before.length (before.length + want) =
      some (spare.take want) := by
    have hmiddle := Bytes.slice?_append before (spare.take want) (spare.drop want)
    rwa [hroom, List.append_assoc, List.take_append_drop] at hmiddle
  simp only [receiveInto, hslice, hroom, hattempt]
  cases arrival with
  | finished => rfl
  | failed failure => rfl
  | more bytes =>
      have hfits : bytes.length ≤ spare.length :=
        Nat.le_trans (length_of_receive hattempt) hwant
      simp only [Bytes.overwrite?_front before bytes spare hfits, Option.map_some, written]

/-- One attempt of a reader that waits for a first block. What is missing of the block fits
the chunk. -/
theorem awaitFirstBlock_of_short {raw : Bytes} {e : Endpoint C}
    (hshort : ¬e.activateParked.inbound.blockSize ≤ raw.length) :
    awaitFirstBlock raw e =
      match e.activateParked.receive (e.activateParked.inbound.blockSize - raw.length)
          e.activateParked.config.pollInterval with
      | (.finished, next) => some (.ok none, next)
      | (.failed failure, next) => some (.error (.stream failure), next)
      | (.more bytes, next) =>
          if e.activateParked.inbound.blockSize ≤ (raw ++ bytes).length then
            awaitFirstBlock (raw ++ bytes) next
          else if next.closed then some (.ok none, next)
          else awaitFirstBlock (raw ++ bytes) next.checkKeepAlive := by
  have hwant := difference?_of_le (Nat.le_of_not_le hshort)
  have hchunk : e.activateParked.inbound.blockSize - raw.length ≤
      (List.replicate maxBlockSize (0 : UInt8)).length := by
    have hblock := e.activateParked.inbound.blockSize_le_max
    rw [List.length_replicate]
    omega
  rw [awaitFirstBlock, dif_neg hshort]
  split
  next hnone => cases hwant.symm.trans hnone
  next want hsome =>
    obtain rfl := Option.some.inj (hwant.symm.trans hsome)
    rcases hattempt : e.activateParked.receive
      (e.activateParked.inbound.blockSize - raw.length)
      e.activateParked.config.pollInterval with ⟨arrival, next⟩
    have hinto := receiveInto_eq [] hchunk hattempt
    rw [List.length_nil, Nat.zero_add, List.nil_append] at hinto
    -- the four ways in which the attempt into the chunk can end
    split
    next hnone => cases hinto.symm.trans hnone
    next hended =>
      cases hinto.symm.trans hended
      rfl
    next hended =>
      cases hinto.symm.trans hended
      rfl
    next bytes chunk last hended =>
      cases hinto.symm.trans hended
      have hslice : (written [] (List.replicate maxBlockSize 0) (.more bytes)).slice? 0
          bytes.length = some bytes := by
        have hfront := Bytes.slice?_append [] bytes
          ((List.replicate maxBlockSize 0).drop bytes.length)
        rwa [List.length_nil, Nat.zero_add] at hfront
      split
      next hnone => cases hslice.symm.trans hnone
      next arrived hsome =>
        obtain rfl := Option.some.inj (hslice.symm.trans hsome)
        rfl

/-- Waiting for a first block stays within the chunk. -/
theorem awaitFirstBlock_eq (raw : Bytes) (e : Endpoint C) :
    awaitFirstBlock raw e = some (Endpoint.awaitFirstBlock raw e) := by
  fun_induction Endpoint.awaitFirstBlock raw e with
  | case1 raw e ready hcomplete => rw [awaitFirstBlock, dif_pos hcomplete]
  | case2 raw e ready hshort next hattempt => rw [awaitFirstBlock_of_short hshort, hattempt]
  | case3 raw e ready hshort failure next hattempt =>
      rw [awaitFirstBlock_of_short hshort, hattempt]
  | case4 raw e ready hshort bytes next hattempt hcomplete ih =>
      rw [awaitFirstBlock_of_short hshort, hattempt]
      exact (if_pos hcomplete).trans ih
  | case5 raw e ready hshort bytes next hattempt hcomplete hclosed =>
      rw [awaitFirstBlock_of_short hshort, hattempt]
      exact (if_neg hcomplete).trans (if_pos hclosed)
  | case6 raw e ready hshort bytes next hattempt hcomplete hclosed ih =>
      rw [awaitFirstBlock_of_short hshort, hattempt]
      exact (if_neg hcomplete).trans ((if_neg hclosed).trans ih)

/-- One attempt of a reader that fills a buffer with something spare. -/
theorem fill_of_spare {raw spare : Bytes} {e : Endpoint C} (hspare : spare.length ≠ 0) :
    fill (raw ++ spare) raw.length e =
      match e.receive spare.length e.config.pollInterval with
      | (.finished, next) => some (.ok none, next)
      | (.failed failure, next) => some (.error (.stream failure), next)
      | (.more bytes, next) =>
          if spare.length ≤ bytes.length then some (.ok (some (raw ++ bytes)), next)
          else if next.closed then some (.ok none, next)
          else fill (raw ++ bytes ++ spare.drop bytes.length) (raw ++ bytes).length
            next.checkKeepAlive := by
  have hroom : ¬(raw ++ spare).length ≤ raw.length := by
    rw [List.length_append]
    omega
  rcases hattempt : e.receive spare.length e.config.pollInterval with ⟨arrival, next⟩
  have hinto := receiveInto_eq raw (Nat.le_refl spare.length) hattempt
  rw [← List.length_append] at hinto
  rw [fill, dif_neg hroom]
  split
  next hnone => cases hinto.symm.trans hnone
  next hended =>
    cases hinto.symm.trans hended
    rfl
  next hended =>
    cases hinto.symm.trans hended
    rfl
  next bytes buffer last hended =>
    cases hinto.symm.trans hended
    have hlength := length_of_receive hattempt
    have hwritten : (written raw spare (.more bytes)).length = raw.length + spare.length := by
      simp only [written, List.length_append, List.length_drop]
      omega
    -- the buffer is full exactly when nothing is left of what was spare
    have hfull : raw.length + bytes.length = (written raw spare (.more bytes)).length ↔
        spare.length ≤ bytes.length := by omega
    simp only [hfull]
    by_cases hcomplete : spare.length ≤ bytes.length
    · simp [hcomplete, written, List.drop_of_length_le]
    · simp [hcomplete, written]

/-- Filling a buffer stays within it. -/
theorem fill_eq (raw spare : Bytes) (e : Endpoint C) :
    fill (raw ++ spare) raw.length e = some (Endpoint.fill raw spare.length e) := by
  generalize hcount : spare.length = count
  fun_induction Endpoint.fill raw count e generalizing spare with
  | case1 raw e =>
      obtain rfl := List.eq_nil_of_length_eq_zero hcount
      rw [fill, dif_pos (by simp), List.append_nil]
  | case2 raw count e hmissing next hattempt =>
      subst hcount
      rw [fill_of_spare hmissing, hattempt]
  | case3 raw count e hmissing failure next hattempt =>
      subst hcount
      rw [fill_of_spare hmissing, hattempt]
  | case4 raw count e hmissing bytes next hattempt hcomplete =>
      subst hcount
      rw [fill_of_spare hmissing, hattempt]
      exact if_pos hcomplete
  | case5 raw count e hmissing bytes next hattempt hcomplete hclosed =>
      subst hcount
      rw [fill_of_spare hmissing, hattempt]
      exact (if_neg hcomplete).trans (if_pos hclosed)
  | case6 raw count e hmissing bytes next hattempt hcomplete hclosed ih =>
      subst hcount
      rw [fill_of_spare hmissing, hattempt]
      exact (if_neg hcomplete).trans ((if_neg hclosed).trans (ih _ List.length_drop))

/-- Octets in front of those collected stay in front. -/
theorem fill_append (front raw : Bytes) (count : Nat) (e : Endpoint C) :
    Endpoint.fill (front ++ raw) count e =
      (Except.map (Option.map (front ++ ·)) (Endpoint.fill raw count e).1,
        (Endpoint.fill raw count e).2) := by
  fun_induction Endpoint.fill raw count e with
  | case1 raw e => rw [Endpoint.fill, dif_pos rfl]; rfl
  | case2 raw count e hmissing next hattempt => rw [fill_of_missing hmissing, hattempt]; rfl
  | case3 raw count e hmissing failure next hattempt =>
      rw [fill_of_missing hmissing, hattempt]
      rfl
  | case4 raw count e hmissing bytes next hattempt hcomplete =>
      rw [fill_of_missing hmissing, hattempt]
      refine (if_pos hcomplete).trans ?_
      rw [List.append_assoc]
      rfl
  | case5 raw count e hmissing bytes next hattempt hcomplete hclosed =>
      rw [fill_of_missing hmissing, hattempt]
      exact (if_neg hcomplete).trans (if_pos hclosed)
  | case6 raw count e hmissing bytes next hattempt hcomplete hclosed ih =>
      rw [fill_of_missing hmissing, hattempt]
      refine (if_neg hcomplete).trans ((if_neg hclosed).trans ?_)
      rw [List.append_assoc]
      exact ih

theorem authenticate_eq (frame : Bytes) (e : Endpoint C) :
    authenticate frame e = some (Endpoint.authenticate frame e) := by
  refine bind_eq rfl fun start next hask => bind_eq rfl fun expected last hsign => ?_
  have hfill := fill_eq [] (List.replicate start.inbound.tagSize 0) last
  rw [List.length_replicate] at hfill
  refine bind_eq hfill fun received? final hreceived => ?_
  cases received? with
  | none => rfl
  | some received => exact bind_eq rfl fun _ _ _ => rfl

omit [BlockCipher C] in
theorem deliver_eq {header : Header} {frame : Bytes} {blockSize : Nat}
    (hformed : header.WellFormed blockSize) (hframe : frame.length = header.frameLength)
    (e : Endpoint C) : deliver header frame e = some (Endpoint.deliver header frame e) := by
  have hpayload : frame.slice? headerLength (headerLength + header.payloadLength) =
      some ((frame.drop headerLength).take header.payloadLength) := by
    have hfits := hformed.padding_fits
    rw [Bytes.slice?, if_pos, List.drop_take, Nat.add_sub_cancel_left]
    rw [hframe, Header.frameLength, Header.payloadLength, headerLength]
    omega
  rw [deliver, access_bind hformed.payloadLength?_eq, access_bind hpayload]
  rfl

theorem finishPacket_eq {header : Header} {first rest : Bytes} {blockSize : Nat}
    (hformed : header.WellFormed blockSize) (hfirst : first.length = blockSize)
    (hframe : (first ++ rest).length = header.frameLength) (e : Endpoint C) :
    finishPacket header blockSize (first ++ rest) e =
      some (Endpoint.finishPacket header (first ++ rest) rest e) := by
  refine bind_eq (authenticate_eq _ e) fun authentic next _ => ?_
  cases authentic with
  | false => rfl
  | true =>
      have hrest := Bytes.slice?_from first rest
      rw [hfirst] at hrest
      exact (access_bind hrest _ next).trans (bind_eq rfl fun _ last _ =>
        bind_eq (deliver_eq hformed hframe last) fun _ _ _ => rfl)

theorem length_of_decipher {data output : Bytes} {e next : Endpoint C}
    (hdecipher : decipher data e = (.ok output, next)) : output.length = data.length := by
  rcases happly : e.inbound.apply data with ⟨result, inbound⟩
  simp only [decipher, happly, Prod.mk.injEq] at hdecipher
  exact (Lane.apply_eq happly).2.2.2.2 output hdecipher.1

theorem readRest_eq {header : Header} {first carried : Bytes} {blockSize : Nat}
    (hformed : header.WellFormed blockSize) (hfirst : first.length = blockSize)
    (hcarried : blockSize + carried.length ≤ header.frameLength) (e : Endpoint C) :
    readRest header blockSize first carried e =
      some (Endpoint.readRest header first carried e) := by
  subst hfirst
  have hallocated : Bytes.allocate? (4 + maxPacketLength) header.frameLength = some _ :=
    Bytes.allocate?_of_le (Nat.add_le_add_left hformed.packetLength_le 4)
  -- the first block and the octets carried over are copied to the front of the buffer
  have hblock := Bytes.overwrite?_front [] first (List.replicate header.frameLength 0)
    (by rw [List.length_replicate]; omega)
  rw [List.length_nil, Nat.zero_add, List.nil_append, List.nil_append] at hblock
  have hmore := Bytes.overwrite?_front first carried
    ((List.replicate header.frameLength 0).drop first.length)
    (by rw [List.length_drop, List.length_replicate]; omega)
  rw [List.drop_drop] at hmore
  have hstart : (first ++ carried).length = first.length + carried.length := List.length_append
  have hroom := Bytes.slice?_from (first ++ carried)
    ((List.replicate header.frameLength 0).drop (first.length + carried.length))
  rw [hstart] at hroom
  rw [readRest, access_bind hallocated, access_bind hblock, access_bind hmore, access_bind hroom]
  have hfill := fill_eq (first ++ carried)
    ((List.replicate header.frameLength 0).drop (first.length + carried.length)) e
  rw [hstart, List.length_drop, List.length_replicate, fill_append] at hfill
  refine bind_eq_of _ hfill fun body? next hbody => ?_
  cases body? with
  | none => rfl
  | some body =>
      refine (access_bind (Bytes.slice?_from first body) _ next).trans ?_
      refine bind_eq rfl fun rest last hrest => ?_
      have hlength := length_of_decipher hrest
      have hcopied := Bytes.overwrite?_append hlength first []
      rw [List.append_nil, List.append_nil, hlength, ← List.length_append] at hcopied
      refine (access_bind hcopied _ last).trans (finishPacket_eq hformed rfl ?_ last)
      obtain ⟨octets, -, hfilled⟩ := passes_fill e.inbound [] carried _ e
      obtain ⟨rfl, hoctets⟩ := hfilled body (congrArg Prod.fst hbody)
      rw [List.length_append, hlength, List.length_append, hoctets]
      omega

/-- Once a first block is at hand, every access of the reader succeeds. -/
theorem readFrom_eq {raw : Bytes} {e : Endpoint C} (hblock : e.inbound.blockSize ≤ raw.length) :
    readFrom raw e = some (Endpoint.readFrom raw e) := by
  refine bind_eq rfl fun blockSize next hsize => ?_
  obtain ⟨hsame, rfl⟩ := Prod.mk.inj hsize
  obtain rfl := Except.ok.inj hsame
  refine (access_bind (Bytes.slice?_zero hblock) _ e).trans ?_
  refine bind_eq rfl fun first opened hfirst => bind_eq rfl fun _ dumped _ => ?_
  have hlength : first.length = e.inbound.blockSize :=
    (length_of_decipher hfirst).trans (List.length_take_of_le hblock)
  refine (access_bind (Header.parse?_eq first _) _ dumped).trans ?_
  refine bind_eq rfl fun header parsed hparse => ?_
  refine (access_bind (Bytes.slice?_to_end hblock) _ parsed).trans ?_
  have hwhole : e.inbound.blockSize + (raw.drop e.inbound.blockSize).length = raw.length := by
    rw [List.length_drop]
    omega
  have hformed := Header.wellFormed_of_parse (congrArg Prod.fst hparse)
  dsimp only
  rw [hwhole]
  split
  · rfl
  next hfits =>
    exact readRest_eq hformed hlength (hwhole ▸ Nat.le_of_not_lt hfits) parsed

theorem readPacket_eq (e : Endpoint C) : readPacket e = some (Endpoint.readPacket e) := by
  refine bind_eq (awaitFirstBlock_eq [] e) fun raw? next hraw => ?_
  cases raw? with
  | none => rfl
  | some raw =>
      have hawaited := awaited_awaitFirstBlock [] e
      rw [hraw] at hawaited
      cases hawaited with
      | missed _ hnone => exact absurd rfl (hnone raw)
      | begun _ _ hblock => exact readFrom_eq hblock

theorem read_eq (e : Endpoint C) : read e = some (Endpoint.read e) := by
  unfold read Endpoint.read
  split
  · rfl
  · rw [noting, readPacket_eq]
    rfl

end Buffered

end PacketLayer.Endpoint
