import PacketLayer.Proofs.Delivery
import PacketLayer.Proofs.Marks.Sending

/-! # Marks in reading

Marks make no difference to what a read takes off the stream, and so to no operation at all:
twins answer every operation alike and remain twins.
-/

namespace PacketLayer.Endpoint

variable {C : Type} [BlockCipher C] {e other : Endpoint C}

/-! ## Receiving octets -/

/-- The read script has been followed in the same way. -/
structure Receives (outcome outcomeOther : Arrival × ReadScript (Protection C) × Endpoint C) :
    Prop where
  arrival_eq : outcome.1 = outcomeOther.1
  script_eq : outcome.2.1 = outcomeOther.2.1
  twins : Twins outcome.2.2 outcomeOther.2.2

theorem receives_arrive (want deadline : Nat) (items : ReadScript (Protection C))
    (htwins : Twins e other) :
    Receives (arrive want deadline items e) (arrive want deadline items other) := by
  induction items generalizing e other with
  | nil => exact ⟨rfl, rfl, htwins⟩
  | cons item items ih =>
      cases item with
      | data bytes =>
          unfold arrive
          split
          · exact ⟨rfl, rfl, htwins⟩
          · exact ⟨rfl, rfl, htwins⟩
      | eof => exact ⟨rfl, rfl, htwins⟩
      | fail failure => exact ⟨rfl, rfl, htwins⟩
      | pause milliseconds =>
          simp only [arrive, ← htwins.now_eq]
          split
          · exact ih (htwins.waitUntil .busy _)
          · exact ⟨rfl, rfl, htwins.waitUntil .busy _⟩
      | resumeAt time =>
          simp only [arrive, ← htwins.now_eq]
          split
          · exact ih (htwins.waitUntil .busy _)
          · exact ⟨rfl, rfl, htwins.waitUntil .busy _⟩
      | installOutbound protection => exact ih (htwins.installOutbound protection)
      | act action => exact ih (htwins.act .busy action)

/-- An attempt comes to the same. -/
theorem Twins.receive (htwins : Twins e other) {want limit : Nat} {arrival : Arrival}
    {next : Endpoint C} (hattempt : e.receive want limit = (arrival, next)) :
    ∃ nextOther, other.receive want limit = (arrival, nextOther) ∧ Twins next nextOther := by
  have hreads : e.reads = other.reads := htwins.seen_eq reads fun _ _ => rfl
  obtain ⟨harrival, hscript, hnext⟩ := receives_arrive want (e.now + limit) e.reads htwins
  unfold Endpoint.receive at hattempt ⊢
  rw [← htwins.now_eq, ← hreads]
  obtain ⟨rfl, rfl⟩ := Prod.mk.inj hattempt
  refine ⟨_, Prod.ext harrival.symm rfl, ?_⟩
  rw [← hscript]
  exact hnext.change (fun next => { next with reads := _ }) fun _ _ => rfl

/-- What octets that arrive come to, while more are wanted. -/
theorem fill_of_more {raw bytes : Bytes} {count : Nat} {e next : Endpoint C} (hmissing : count ≠ 0)
    (hattempt : e.receive count e.config.pollInterval = (.more bytes, next)) :
    fill raw count e =
      if count ≤ bytes.length then (.ok (some (raw ++ bytes)), next)
      else if next.closed then (.ok none, next)
      else fill (raw ++ bytes) (count - bytes.length) next.checkKeepAlive := by
  rw [fill_of_missing hmissing, hattempt]

theorem blind_fill (raw : Bytes) (count : Nat) :
    Act.Blind (fill raw count : Act C (Option Bytes)) := by
  intro e other htwins
  fun_induction fill raw count e generalizing other with
  | case1 raw e =>
      rw [fill, dif_pos rfl]
      exact .ok _ htwins
  | case2 raw count e hmissing next hattempt =>
      obtain ⟨nextOther, hother, hnext⟩ := htwins.receive hattempt
      rw [fill_of_missing hmissing, ← htwins.config_eq, hother]
      exact .ok _ hnext
  | case3 raw count e hmissing failure next hattempt =>
      obtain ⟨nextOther, hother, hnext⟩ := htwins.receive hattempt
      rw [fill_of_missing hmissing, ← htwins.config_eq, hother]
      exact .error _ hnext
  | case4 raw count e hmissing bytes next hattempt hcomplete =>
      obtain ⟨nextOther, hother, hnext⟩ := htwins.receive hattempt
      rw [htwins.config_eq] at hother
      rw [fill_of_more hmissing hother, if_pos hcomplete]
      exact .ok _ hnext
  | case5 raw count e hmissing bytes next hattempt hfew hclosed =>
      obtain ⟨nextOther, hother, hnext⟩ := htwins.receive hattempt
      rw [htwins.config_eq] at hother
      rw [fill_of_more hmissing hother, if_neg hfew, if_pos (hnext.closed_eq ▸ hclosed)]
      exact .ok _ hnext
  | case6 raw count e hmissing bytes next hattempt hfew hopen ih =>
      obtain ⟨nextOther, hother, hnext⟩ := htwins.receive hattempt
      rw [htwins.config_eq] at hother
      rw [fill_of_more hmissing hother, if_neg hfew, if_neg (hnext.closed_eq ▸ hopen)]
      exact ih _ hnext.checkKeepAlive

omit [BlockCipher C] in
theorem Twins.blockSize_eq (htwins : Twins e other) :
    e.inbound.blockSize = other.inbound.blockSize :=
  htwins.seen_eq (fun e => e.inbound.blockSize) fun _ _ => rfl

/-- What octets that arrive come to at the twin of an endpoint that waits for a first block. -/
theorem Twins.awaitFirstBlock_of_more (htwins : Twins e other) {raw bytes : Bytes}
    {next : Endpoint C} (hmissing : ¬e.activateParked.inbound.blockSize ≤ raw.length)
    (hattempt : e.activateParked.receive (e.activateParked.inbound.blockSize - raw.length)
      e.activateParked.config.pollInterval = (.more bytes, next)) :
    ∃ nextOther, Twins next nextOther ∧ awaitFirstBlock raw other =
      if e.activateParked.inbound.blockSize ≤ (raw ++ bytes).length then
        awaitFirstBlock (raw ++ bytes) nextOther
      else if next.closed then (.ok none, nextOther)
      else awaitFirstBlock (raw ++ bytes) nextOther.checkKeepAlive := by
  have hready := htwins.activateParked
  obtain ⟨nextOther, hother, hnext⟩ := hready.receive hattempt
  rw [hready.blockSize_eq] at hmissing
  refine ⟨nextOther, hnext, ?_⟩
  rw [awaitFirstBlock_of_short rfl hmissing, ← hready.blockSize_eq, ← hready.config_eq, hother,
    hnext.closed_eq]

theorem blind_awaitFirstBlock (raw : Bytes) :
    Act.Blind (awaitFirstBlock raw : Act C (Option Bytes)) := by
  intro e other htwins
  fun_induction awaitFirstBlock raw e generalizing other with
  | case1 raw e ready hcomplete =>
      have hready := htwins.activateParked
      rw [awaitFirstBlock, dif_pos (hready.blockSize_eq ▸ hcomplete)]
      exact .ok _ hready
  | case2 raw e ready hmissing next hattempt =>
      have hready := htwins.activateParked
      obtain ⟨nextOther, hother, hnext⟩ := hready.receive hattempt
      rw [hready.blockSize_eq] at hmissing
      rw [awaitFirstBlock_of_short rfl hmissing, ← hready.blockSize_eq, ← hready.config_eq, hother]
      exact .ok _ hnext
  | case3 raw e ready hmissing failure next hattempt =>
      have hready := htwins.activateParked
      obtain ⟨nextOther, hother, hnext⟩ := hready.receive hattempt
      rw [hready.blockSize_eq] at hmissing
      rw [awaitFirstBlock_of_short rfl hmissing, ← hready.blockSize_eq, ← hready.config_eq, hother]
      exact .error _ hnext
  | case4 raw e ready hmissing bytes next hattempt hcomplete ih =>
      obtain ⟨nextOther, hnext, hother⟩ := htwins.awaitFirstBlock_of_more hmissing hattempt
      rw [hother, if_pos hcomplete]
      exact ih _ hnext
  | case5 raw e ready hmissing bytes next hattempt hfew hclosed =>
      obtain ⟨nextOther, hnext, hother⟩ := htwins.awaitFirstBlock_of_more hmissing hattempt
      rw [hother, if_neg hfew, if_pos hclosed]
      exact .ok _ hnext
  | case6 raw e ready hmissing bytes next hattempt hfew hopen ih =>
      obtain ⟨nextOther, hnext, hother⟩ := htwins.awaitFirstBlock_of_more hmissing hattempt
      rw [hother, if_neg hfew, if_neg hopen]
      exact ih _ hnext.checkKeepAlive

/-! ## Reading a packet -/

theorem blind_decipher (data : Bytes) : (decipher data : Act C Bytes).Blind :=
  .of_commutes fun _ _ => rfl

omit [BlockCipher C] in
theorem blind_dump (direction : Direction) (bytes : Bytes) :
    (Act.update (dump direction bytes) : Act C Unit).Blind :=
  .update fun _ _ htwins => htwins.dump direction bytes

omit [BlockCipher C] in
theorem blind_verify (expected received : Bytes) :
    (verify expected received : Act C Unit).Blind := by
  refine .of_commutes fun marks e => ?_
  unfold verify
  split <;> rfl

theorem blind_authenticate (frame : Bytes) : (authenticate frame : Act C Bool).Blind := by
  intro e other htwins
  have hsign := htwins.seen_eq (fun e => e.inbound.sign frame) fun _ _ => rfl
  have hsize := htwins.seen_eq (fun e => e.inbound.tagSize) fun _ _ => rfl
  unfold authenticate
  rw [Act.ask_bind, Act.ask_bind, id, id, hsign, hsize]
  refine .bind (Act.Blind.ofExcept _ e other htwins) fun expected => ?_
  refine Act.Blind.bind (blind_fill _ _) fun received? => ?_
  cases received? with
  | none => exact .pure false
  | some received => exact .bind (blind_verify _ _) fun _ => .pure true

omit [BlockCipher C] in
theorem blind_accountReceived (bytes : Nat) :
    Act.Blind (accountReceived bytes : Act C Unit) := by
  intro e other htwins
  have hrekey := htwins.seen_eq rekey fun _ _ => rfl
  unfold accountReceived
  rw [← hrekey]
  obtain ⟨answer, rekey⟩ := e.rekey.recordReceived (UInt64.ofNat bytes)
  have hcounted := htwins.change (fun e => { e with rekey }) fun _ _ => rfl
  rcases answer with fault | (_ | _)
  · exact .error fault hcounted
  · exact .ok () hcounted
  · exact .ok () (hcounted.note _).publish

omit [BlockCipher C] in
theorem blind_deliver (header : Header) (frame : Bytes) :
    (deliver header frame : Act C Packet).Blind := by
  intro e other htwins
  have hinbound := htwins.seen_eq inbound fun _ _ => rfl
  unfold deliver
  rw [Act.ask_bind, Act.ask_bind, id, id, hinbound]
  refine Act.Blind.bind (.of_commutes fun _ _ => rfl) (fun _ => ?_) e other htwins
  refine .bind (.update fun _ _ htwins => htwins.note _) fun _ => ?_
  exact .bind (blind_accountReceived _) fun _ => .pure _

theorem blind_checkFrame (header : Header) (frame rest : Bytes) :
    (checkFrame header frame rest : Act C (Option (Header × Bytes))).Blind := by
  refine .bind (blind_authenticate frame) fun authentic => ?_
  cases authentic with
  | false => exact .pure none
  | true => exact .bind (blind_dump .inbound rest) fun _ => .pure _

theorem blind_takeRest (header : Header) (first carried : Bytes) :
    (takeRest header first carried : Act C (Option (Header × Bytes))).Blind := by
  refine .bind (blind_fill carried _) fun body? => ?_
  cases body? with
  | none => exact .pure none
  | some body => exact .bind (blind_decipher body) fun rest => blind_checkFrame header _ rest

theorem blind_takeFrom (raw : Bytes) :
    (takeFrom raw : Act C (Option (Header × Bytes))).Blind := by
  unfold takeFrom
  refine .bind (.ask fun _ _ => rfl) fun blockSize => ?_
  refine .bind (blind_decipher _) fun first => ?_
  refine .bind (blind_dump .inbound first) fun _ => ?_
  refine .bind (.ofExcept _) fun header => ?_
  split
  · exact .fail _
  · exact blind_takeRest header first _

theorem blind_readPacket : (readPacket : Act C (Option Packet)).Blind := by
  rw [readPacket_eq]
  refine .bind (.bind (blind_awaitFirstBlock []) fun raw? => ?_) fun taken? => ?_
  · cases raw? with
    | none => exact .pure none
    | some raw => exact blind_takeFrom raw
  · cases taken? with
    | none => exact .pure none
    | some taken => exact .bind (blind_deliver taken.1 taken.2) fun _ => .pure _

theorem blind_read : (read : Act C (Option Packet)).Blind := by
  intro e other htwins
  unfold read
  rw [← htwins.closed_eq]
  split
  · exact .ok none htwins
  · exact blind_readPacket.noting .inbound e other htwins

/-! ## Reading a line -/

omit [BlockCipher C] in
theorem Twins.bannerLimit_eq (htwins : Twins e other) (deadline : Option Nat) :
    e.bannerLimit deadline = other.bannerLimit deadline :=
  htwins.seen_eq (bannerLimit deadline) fun _ _ => rfl

/-- What octets that arrive come to at the twin of an endpoint that reads a line. -/
theorem Twins.readLine_of_more (htwins : Twins e other) {deadline : Option Nat}
    {line bytes : Bytes} {next : Endpoint C}
    (hattempt : e.receive 1 (e.bannerLimit deadline) = (.more bytes, next)) :
    ∃ nextOther, Twins next nextOther ∧ readLine deadline line other =
      if bytes = [lineFeed] then
        (.ok (some (Text.Utf8.read (dropCarriageReturn line).reverse)), nextOther)
      else if bytes ≠ [] ∧ next.config.maxBannerLine ≤ line.length then
        (.error (.bannerTooLong next.config.maxBannerLine), nextOther)
      else if next.expired deadline then (.error .bannerDeadline, nextOther)
      else if next.closed then
        (.ok (some (Text.Utf8.read (bytes.reverse ++ line).reverse)), nextOther)
      else readLine deadline (bytes.reverse ++ line) nextOther := by
  obtain ⟨nextOther, hother, hnext⟩ := htwins.receive hattempt
  have hexpired := hnext.seen_eq (expired deadline) fun _ _ => rfl
  refine ⟨nextOther, hnext, ?_⟩
  rw [readLine, ← htwins.bannerLimit_eq, hother, hnext.config_eq, hnext.closed_eq, hexpired]
  rfl

theorem blind_readLine (deadline : Option Nat) (line : Bytes) :
    Act.Blind (readLine deadline line : Act C (Option String)) := by
  intro e other htwins
  fun_induction readLine deadline line e generalizing other with
  | case1 line e next hattempt =>
      obtain ⟨nextOther, hother, hnext⟩ := htwins.receive hattempt
      rw [readLine, ← htwins.bannerLimit_eq, hother]
      exact .ok _ hnext
  | case2 line e failure next hattempt =>
      obtain ⟨nextOther, hother, hnext⟩ := htwins.receive hattempt
      rw [readLine, ← htwins.bannerLimit_eq, hother]
      exact .error _ hnext
  | case3 line e next hattempt =>
      obtain ⟨nextOther, hnext, hother⟩ := htwins.readLine_of_more hattempt
      rw [hother, if_pos rfl]
      exact .ok _ hnext
  | case4 line e bytes next hattempt hline hlong =>
      obtain ⟨nextOther, hnext, hother⟩ := htwins.readLine_of_more hattempt
      rw [hother, if_neg hline, if_pos hlong]
      exact .error _ hnext
  | case5 line e bytes next hattempt hline hfits hlate =>
      obtain ⟨nextOther, hnext, hother⟩ := htwins.readLine_of_more hattempt
      rw [hother, if_neg hline, if_neg hfits, if_pos hlate]
      exact .error _ hnext
  | case6 line e bytes next hattempt hline hfits hearly hclosed =>
      obtain ⟨nextOther, hnext, hother⟩ := htwins.readLine_of_more hattempt
      rw [hother, if_neg hline, if_neg hfits, if_neg hearly, if_pos hclosed]
      exact .ok _ hnext
  | case7 line e bytes next hattempt hline hfits hearly hopen ih =>
      obtain ⟨nextOther, hnext, hother⟩ := htwins.readLine_of_more hattempt
      rw [hother, if_neg hline, if_neg hfits, if_neg hearly, if_neg hopen]
      exact ih _ hnext

/-! ## Runs -/

theorem blind_start (operation : Operation (Protection C)) :
    (start operation : Act C Reply).Blind := by
  cases operation with
  | write payload => exact .bind (blind_write payload) fun _ => .pure _
  | read => exact .bind blind_read fun _ => .pure _
  | readBanner milliseconds =>
      refine .bind (fun e other htwins => ?_) fun _ => .pure _
      unfold readBanner
      rw [htwins.now_eq]
      exact blind_readLine _ [] e other htwins
  | writeBanner line => exact .bind (blind_writeBanner line) fun _ => .pure _
  | installOutbound protection =>
      exact .bind (.update fun _ _ htwins => htwins.awaitOutbound.installOutbound protection)
        fun _ => .pure _
  | installInbound protection =>
      exact .bind (.update fun _ _ htwins => htwins.installInbound .idle protection)
        fun _ => .pure _
  | feed items =>
      exact .bind (.of_commutes fun _ _ => rfl) fun _ => .pure _
  | scriptWrites items =>
      refine .bind (.update fun _ _ htwins => ?_) fun _ => .pure _
      exact htwins.rescript (List.rel_append htwins.marks.writes (WriteScript.Twins.refl items))
  | scriptFlushes items =>
      exact .bind (.of_commutes fun _ _ => rfl) fun _ => .pure _
  | setKeepAlive interval handler =>
      exact .bind (.of_commutes fun _ _ => rfl) fun _ => .pure _
  | advance milliseconds =>
      refine .bind (.update fun _ _ htwins => ?_) fun _ => .pure _
      rw [htwins.now_eq]
      exact htwins.advanceTo _
  | close => exact .bind (.of_commutes fun _ _ => rfl) fun _ => .pure _

theorem blind_perform (operation : Operation (Protection C)) :
    (perform operation : Act C Reply).Blind := by
  intro e other htwins
  have hstarted := blind_start operation _ _ htwins.countOperation
  exact .of_eq hstarted.result_eq (hstarted.twins.upkeep .idle)

/-- Twins answer alike whatever is done with them, and remain twins. -/
theorem Twins.run (htwins : Twins e other) (operations : List (Operation (Protection C))) :
    (run operations e).1 = (run operations other).1 ∧
      Twins (run operations e).2 (run operations other).2 := by
  induction operations generalizing e other with
  | nil => exact ⟨rfl, htwins⟩
  | cons operation operations ih =>
      have hperformed := blind_perform operation e other htwins
      obtain ⟨hresults, hlast⟩ := ih hperformed.twins
      exact ⟨congrArg₂ List.cons hperformed.result_eq hresults, hlast⟩

end PacketLayer.Endpoint
