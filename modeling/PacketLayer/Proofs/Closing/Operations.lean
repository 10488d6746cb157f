import PacketLayer.Proofs.Closing.Sparing
import PacketLayer.Proofs.Delivery

/-! # Operations on a spared endpoint

For as long as nobody has closed an endpoint, everything that is done with it comes to the
same as if nobody were going to. Octets are received and packets are read and written alike,
and so whole runs agree.
-/

namespace PacketLayer.Endpoint

variable {C : Type} [BlockCipher C]

/-! ## Receiving -/

omit [BlockCipher C] in
theorem spare_leftOver (want : Nat) (bytes : Bytes) (items : ReadScript (Protection C)) :
    leftOver want bytes (ReadScript.spare items) =
      ReadScript.spare (leftOver want bytes items) := by
  unfold leftOver
  split <;> rfl

/-- An attempt that leaves the endpoint open brings the same. -/
theorem spare_arrive (want deadline : Nat) (items : ReadScript (Protection C)) {e : Endpoint C}
    (hopen : (arrive want deadline items e).2.2.closed = false) :
    arrive want deadline (ReadScript.spare items) e.spare =
      ((arrive want deadline items e).1,
        ReadScript.spare (arrive want deadline items e).2.1,
        (arrive want deadline items e).2.2.spare) := by
  induction items generalizing e with
  | nil => rfl
  | cons item items ih =>
      change arrive want deadline (item.spare :: ReadScript.spare items) e.spare = _
      -- a wait within the attempt leaves the endpoint open, since what follows it does
      have hwaited (time : Nat)
          (hlast : (arrive want deadline items (e.waitUntil .busy time)).2.2.closed = false) :
          e.spare.waitUntil .busy time = (e.waitUntil .busy time).spare :=
        spare_waitUntil .busy time ((lasts_arrive want deadline items _).opened hlast)
      cases item with
      | data bytes =>
          simp only [ReadItem.spare, arrive]
          split
          · rfl
          · rw [spare_leftOver]
      | eof => rfl
      | fail failure => rfl
      | pause milliseconds =>
          simp only [ReadItem.spare, arrive, now_spare] at hopen ⊢
          split at hopen
          next hreached =>
            simp only [hreached, if_true]
            rw [hwaited _ hopen, ih hopen]
          next hmissed =>
            simp only [hmissed, if_false]
            rw [spare_waitUntil .busy deadline hopen]
            rfl
      | resumeAt time =>
          simp only [ReadItem.spare, arrive, now_spare] at hopen ⊢
          split at hopen
          next hreached =>
            simp only [hreached, if_true]
            rw [hwaited _ hopen, ih hopen]
          next hmissed =>
            simp only [hmissed, if_false]
            rw [spare_waitUntil .busy deadline hopen]
            rfl
      | installOutbound protection => exact ih hopen
      | act action =>
          by_cases hcloses : action = .close
          · subst hcloses
            have hclosed := (lasts_arrive want deadline items _).opened hopen
            cases hclosed
          · obtain ⟨spared, hitem, -, hacted⟩ := spare_act .busy hcloses e
            rw [hitem, arrive, arrive, hacted]
            exact ih hopen

theorem spare_receive {want limit : Nat} {arrival : Arrival} {e next : Endpoint C}
    (hattempt : e.receive want limit = (arrival, next)) (hopen : next.closed = false) :
    e.spare.receive want limit = (arrival, next.spare) := by
  obtain ⟨rfl, rfl⟩ := Prod.mk.inj hattempt
  have harrived := spare_arrive want (e.now + limit) e.reads (e := e) hopen
  exact congrArg leaving harrived

omit [BlockCipher C] in
/-- A handler that closes counts as well. -/
theorem spare_checkKeepAlive (e : Endpoint C) :
    e.spare.checkKeepAlive = e.checkKeepAlive.spare := by
  have hpoll := KeepAlive.poll_spare e.now e.outbound.isProtected e.rekey.pending e.keepAlive
  unfold checkKeepAlive
  dsimp only [spare]
  rw [hpoll]
  rcases e.keepAlive.poll e.now e.outbound.isProtected e.rekey.pending with ⟨handler?, schedule⟩
  rcases handler? with _ | handler
  · rfl
  · cases handler <;> rfl

omit [BlockCipher C] in
theorem spare_activateParked (e : Endpoint C) :
    e.spare.activateParked = e.activateParked.spare := by
  unfold activateParked
  rw [parked_spare]
  split <;> rfl

/-! ## Reading -/

omit [BlockCipher C] in
theorem Act.Lasting.spares {α : Type} {m : Act C α} (hm : m.Lasting)
    (hsame : ∀ e, (m e).2.closed = false → m e.spare = ((m e).1, (m e).2.spare)) : m.Spares :=
  ⟨fun e => (hm e).closed, hsame⟩

theorem spares_fill (raw : Bytes) (count : Nat) :
    Act.Spares (fill raw count : Act C (Option Bytes)) := by
  refine (lasting_fill raw count).spares fun e hopen => ?_
  fun_induction fill raw count e with
  | case1 raw e => rw [fill, dif_pos rfl]
  | case2 raw count e hmissing next hattempt
  | case3 raw count e hmissing failure next hattempt =>
      rw [fill_of_missing hmissing, config_spare, spare_receive hattempt hopen]
  | case4 raw count e hmissing bytes next hattempt hcomplete =>
      rw [fill_of_missing hmissing, config_spare, spare_receive hattempt hopen]
      exact if_pos hcomplete
  | case5 raw count e hmissing bytes next hattempt hshort hclosed =>
      rw [hclosed] at hopen
      cases hopen
  | case6 raw count e hmissing bytes next hattempt hshort hstill ih =>
      rw [fill_of_missing hmissing, config_spare,
        spare_receive hattempt (eq_false_of_ne_true hstill)]
      simp only [hshort, closed_spare, Bool.false_eq_true, if_false, spare_checkKeepAlive]
      exact ih hopen

theorem spares_awaitFirstBlock (raw : Bytes) :
    Act.Spares (awaitFirstBlock raw : Act C (Option Bytes)) := by
  refine (lasting_awaitFirstBlock raw).spares fun e hopen => ?_
  fun_induction awaitFirstBlock raw e with
  | case1 raw e ready hcomplete =>
      rw [awaitFirstBlock, spare_activateParked, dif_pos (by exact hcomplete)]
  | case2 raw e ready hshort next hattempt
  | case3 raw e ready hshort failure next hattempt =>
      have hready : e.spare.activateParked = ready.spare := spare_activateParked e
      rw [awaitFirstBlock_of_short hready hshort, inbound_spare, config_spare,
        spare_receive hattempt hopen]
  | case4 raw e ready hshort bytes next hattempt hcomplete ih =>
      have hready : e.spare.activateParked = ready.spare := spare_activateParked e
      have hnext := (lasting_awaitFirstBlock (raw ++ bytes) next).opened hopen
      rw [awaitFirstBlock_of_short hready hshort, inbound_spare, config_spare,
        spare_receive hattempt hnext]
      simp only [hcomplete, if_true]
      exact ih hopen
  | case5 raw e ready hshort bytes next hattempt _ hclosed =>
      rw [hclosed] at hopen
      cases hopen
  | case6 raw e ready hshort bytes next hattempt hfew hstill ih =>
      have hready : e.spare.activateParked = ready.spare := spare_activateParked e
      rw [awaitFirstBlock_of_short hready hshort, inbound_spare, config_spare,
        spare_receive hattempt (eq_false_of_ne_true hstill)]
      simp only [hfew, closed_spare, Bool.false_eq_true, if_false, spare_checkKeepAlive]
      exact ih hopen

theorem heedless_decipher (data : Bytes) : (decipher data : Act C Bytes).Heedless :=
  fun _ => rfl

omit [BlockCipher C] in
theorem heedless_deliver (header : Header) (frame : Bytes) :
    (deliver header frame : Act C Packet).Heedless := by
  have haccount (bytes : Nat) : Act.Heedless (C := C) (accountReceived bytes) := by
    intro e
    unfold accountReceived
    rw [rekey_spare]
    dsimp only
    split <;> rfl
  refine .ask (fun _ => rfl) fun e => .bind (fun _ => rfl) fun _ => .bind (fun _ => rfl) fun _ => ?_
  exact .bind (haccount _) fun _ => .pure _

omit [BlockCipher C] in
theorem heedless_verify (expected received : Bytes) :
    (verify expected received : Act C Unit).Heedless := by
  intro e
  unfold verify
  split <;> rfl

omit [BlockCipher C] in
theorem spares_pure {α : Type} (a : α) : (pure a : Act C α).Spares :=
  (Act.Heedless.pure a).spares (lasting_pure a)

omit [BlockCipher C] in
theorem spares_ofExcept {α : Type} (result : Except Fault α) :
    (Act.ofExcept result : Act C α).Spares :=
  (Act.Heedless.ofExcept result).spares (lasting_ofExcept result)

omit [BlockCipher C] in
theorem spares_dump (direction : Direction) (bytes : Bytes) :
    (Act.update (dump direction bytes) : Act C Unit).Spares :=
  (Act.heedless_dump direction bytes).spares (lasts_dump direction bytes)

theorem spares_decipher (data : Bytes) : (decipher data : Act C Bytes).Spares :=
  (heedless_decipher data).spares (lasting_decipher data)

theorem spares_authenticate (frame : Bytes) : (authenticate frame : Act C Bool).Spares := by
  refine .ask (fun _ => rfl) fun e => .bind (spares_ofExcept _) fun expected => ?_
  refine .bind (spares_fill [] _) fun received? => ?_
  cases received? with
  | none => exact spares_pure false
  | some received =>
      exact .bind ((heedless_verify expected received).spares (lasting_verify expected received))
        fun _ => spares_pure true

theorem spares_readFrom (raw : Bytes) : (readFrom raw : Act C (Option Packet)).Spares := by
  have hask : (Act.ask fun e : Endpoint C => e.inbound.blockSize).Heedless := fun _ => rfl
  refine .bind (hask.spares (lasting_ask _)) fun blockSize => ?_
  refine .bind (spares_decipher _) fun first => .bind (spares_dump .inbound first) fun _ => ?_
  refine .bind (spares_ofExcept _) fun header => ?_
  split
  · exact spares_ofExcept (.error _)
  refine .bind (spares_fill _ _) fun body? => ?_
  cases body? with
  | none => exact spares_pure none
  | some body =>
      refine .bind (spares_decipher body) fun rest => ?_
      refine .bind (spares_authenticate _) fun authentic => ?_
      cases authentic with
      | false => exact spares_pure none
      | true =>
          refine .bind (spares_dump .inbound rest) fun _ => ?_
          exact .bind ((heedless_deliver _ _).spares (lasting_deliver _ _)) fun _ => spares_pure _

theorem spares_read : (read : Act C (Option Packet)).Spares := by
  have hpacket : (readPacket : Act C (Option Packet)).Spares := by
    refine .bind (spares_awaitFirstBlock []) fun raw? => ?_
    cases raw? with
    | none => exact spares_pure none
    | some raw => exact spares_readFrom raw
  refine lasting_read.spares fun e hopen => ?_
  have hbefore := (lasting_read e).opened hopen
  have hread (e : Endpoint C) (hopen : e.closed = false) :
      read e = Act.noting .inbound readPacket e := by
    rw [read, hopen]
    rfl
  rw [hread e hbefore] at hopen ⊢
  rw [hread e.spare rfl]
  exact (hpacket.noting .inbound).same e hopen

theorem spares_readLine (deadline : Option Nat) (line : Bytes) :
    Act.Spares (readLine deadline line : Act C (Option String)) := by
  have hlimit (e : Endpoint C) : e.spare.bannerLimit deadline = e.bannerLimit deadline := by
    cases deadline <;> rfl
  have hexpired (e : Endpoint C) : e.spare.expired deadline = e.expired deadline := by
    cases deadline <;> rfl
  refine Act.Lasting.spares (lasts_readLine deadline line) fun e hopen => ?_
  fun_induction readLine deadline line e with
  | case1 line e next hattempt
  | case2 line e failure next hattempt =>
      rw [readLine, hlimit, spare_receive hattempt hopen]
  | case3 line e next hattempt =>
      rw [readLine, hlimit, spare_receive hattempt hopen]
      rfl
  | case4 line e bytes next hattempt hline hlong =>
      rw [readLine, hlimit, spare_receive hattempt hopen]
      simp only [hline, if_false, config_spare]
      exact if_pos hlong
  | case5 line e bytes next hattempt hline hfits hlate =>
      rw [readLine, hlimit, spare_receive hattempt hopen]
      simp only [hline, config_spare, hfits, hexpired, hlate, if_false, dite_true]
  | case6 line e bytes next hattempt _ _ _ hclosed =>
      rw [hclosed] at hopen
      cases hopen
  | case7 line e bytes next hattempt hline hfits hearly hstill ih =>
      rw [readLine, hlimit, spare_receive hattempt (eq_false_of_ne_true hstill)]
      simp only [hline, config_spare, hfits, hexpired, hearly, closed_spare, if_false]
      exact ih hopen

/-! ## Writing -/

theorem spares_sendAll (bytes : Bytes) : Act.Spares (C := C) (sendAll bytes) := by
  refine (lasting_sendAll bytes).spares fun e hopen => ?_
  rcases sendBefore_spare e.attempt bytes e with ⟨-, hclosed⟩ | hsame
  · rw [sendAll, hclosed] at hopen
    cases hopen
  · exact hsame

omit [BlockCipher C] in
theorem spares_flush : (flush : Act C Unit).Spares :=
  heedless_flush.spares lasting_flush

theorem spares_completePacket (frameLength : Nat) :
    (completePacket frameLength : Act C Unit).Spares :=
  (heedless_completePacket frameLength).spares (lasting_completePacket frameLength)

theorem spares_sendPacket (payload : Bytes) : (sendPacket payload : Act C Unit).Spares := by
  have hseals : (sealPacket payload : Act C SealedPacket).Spares :=
    ⟨fun e => (lasts_sealPacket payload e).closed, fun e _ => heedless_sealPacket payload e⟩
  exact .bind hseals fun packet => .bind (spares_sendAll packet.bytes) fun _ =>
    spares_completePacket packet.frameLength

theorem spares_sendLine (text : String) : (sendLine text : Act C Unit).Spares :=
  .bind (spares_sendAll _) fun _ => spares_flush

/-- What an endpoint does once the outbound lane is free, unless it was closed before. -/
def onceFree (send : Act C Unit) : Act C Unit := fun e =>
  if e.closed then (.error .closed, e) else send e.awaitOutbound

theorem Act.Spares.onceFree {send : Act C Unit} (hsend : send.Spares) :
    (onceFree send).Spares where
  closed := by
    intro e hclosed
    rw [Endpoint.onceFree, if_pos hclosed]
    exact hclosed
  same := by
    intro e hopen
    unfold Endpoint.onceFree at hopen ⊢
    split at hopen
    next hclosed =>
      rw [hclosed] at hopen
      cases hopen
    next hstill =>
      have hfree : e.awaitOutbound.closed = false := hsend.opened hopen
      rw [if_neg hstill, closed_spare, if_neg Bool.false_ne_true, spare_awaitOutbound hfree]
      exact hsend.same _ hopen

theorem spares_write (payload : Bytes) : (write payload : Act C Unit).Spares :=
  ((spares_sendPacket payload).noting .outbound).onceFree

theorem spares_writeBanner (text : String) : (writeBanner text : Act C Unit).Spares :=
  (spares_sendLine text).onceFree

theorem spares_replaceOutbound (protection : Protection C) :
    (Act.update (replaceOutbound protection) : Act C Unit).Spares where
  closed := fun e => (lasts_awaitOutbound e).closed
  same := fun e hopen => congrArg (fun free => (Except.ok (), installOutbound protection free))
    (spare_awaitOutbound (e := e) hopen)

/-! ## Runs -/

/-- An operation that leaves the endpoint open comes to the same if it is spared. -/
theorem start_spare (operation : Operation (Protection C)) {e : Endpoint C}
    (hopen : (start operation e).2.closed = false) :
    start operation.spare e.spare =
      ((start operation e).1, (start operation e).2.spare) := by
  have hthen {α : Type} {m : Act C α} (hm : m.Spares) (reply : α → Reply) :
      (m >>= fun a => pure (reply a) : Act C Reply).Spares :=
    .bind hm fun a => spares_pure (reply a)
  cases operation with
  | write payload => exact (hthen (spares_write payload) _).same e hopen
  | read => exact (hthen spares_read _).same e hopen
  | readBanner milliseconds =>
      exact (hthen (spares_readLine (if milliseconds = 0 then none else some (e.now + milliseconds))
        []) _).same e hopen
  | writeBanner text => exact (hthen (spares_writeBanner text) _).same e hopen
  | installOutbound protection => exact (hthen (spares_replaceOutbound protection) _).same e hopen
  | feed items =>
      have hfed : ReadScript.spare (e.reads ++ items) =
          ReadScript.spare e.reads ++ ReadScript.spare items := List.map_append
      exact congrArg (fun reads => (Except.ok Reply.done, { e.spare with reads })) hfed.symm
  | scriptWrites items =>
      have hfed : WriteScript.spare (e.writes ++ items) =
          WriteScript.spare e.writes ++ WriteScript.spare items := List.map_append
      exact congrArg (fun writes => (Except.ok Reply.done, { e.spare with writes })) hfed.symm
  | close => cases hopen
  | installInbound | scriptFlushes | setKeepAlive | advance => rfl

theorem perform_spare (operation : Operation (Protection C)) {e : Endpoint C}
    (hopen : (perform operation e).2.closed = false) :
    perform operation.spare e.spare =
      ((perform operation e).1, (perform operation e).2.spare) := by
  have hstarted : (start operation e.countOperation).2.closed = false :=
    (lasts_upkeep .idle _).opened hopen
  have hsame := congrArg (fun outcome => (outcome.1, outcome.2.upkeep .idle))
    (start_spare operation hstarted)
  exact hsame.trans
    (congrArg ((start operation e.countOperation).1, ·) (spare_upkeep .idle hopen))

/-- A run that leaves the endpoint open comes to the same if it is spared. -/
theorem run_spare (operations : List (Operation (Protection C))) {e : Endpoint C}
    (hopen : (run operations e).2.closed = false) :
    run (operations.map Operation.spare) e.spare =
      ((run operations e).1, (run operations e).2.spare) := by
  induction operations generalizing e with
  | nil => rfl
  | cons operation operations ih =>
      have hfirst := perform_spare operation
        ((lasts_run operations (perform operation e).2).opened hopen)
      have hrest := ih (e := (perform operation e).2) hopen
      simp only [List.map_cons, run, hfirst, hrest]

end PacketLayer.Endpoint
