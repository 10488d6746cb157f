import PacketLayer.Proofs.Closing.Operations

/-! # Writing on an endpoint that is closed meanwhile

A write that has the outbound lane when the endpoint is closed fails because of that, or it
ends as it would have ended anyway. It fails because of that only with octets of its packet
left, and until then the stream has accepted the octets before them, one after another.
-/

namespace PacketLayer.Endpoint

variable {C : Type}

/-! ## What is left -/

/-- The stream has accepted octets up to some that are left. -/
structure CutOff (octets left : Bytes) (e next : Endpoint C) : Prop where
  unsent : left ≠ []
  sent : ∃ sent, octets = sent ++ left ∧ next.acceptedBytes = e.acceptedBytes ++ sent

theorem CutOff.refl {octets : Bytes} (hoctets : octets ≠ []) (e : Endpoint C) :
    CutOff octets octets e e :=
  ⟨hoctets, [], rfl, (List.append_nil _).symm⟩

theorem CutOff.trans {octets between left : Bytes} {e middle next : Endpoint C}
    (hfirst : CutOff octets between e middle) (hsecond : CutOff between left middle next) :
    CutOff octets left e next := by
  obtain ⟨-, sent, rfl, haccepted⟩ := hfirst
  obtain ⟨hleft, more, rfl, hmore⟩ := hsecond
  exact ⟨hleft, sent ++ more, (List.append_assoc _ _ _).symm,
    by rw [hmore, haccepted, List.append_assoc]⟩

/-- What sending comes to: it is over, or there are octets left for another attempt, or there
are octets left and the endpoint is closed. -/
inductive Reaches (octets : Bytes) (e : Endpoint C) : Progress → Endpoint C → Prop where
  | sent (next : Endpoint C) : Reaches octets e .sent next
  | failed (failure : StreamFailure) (next : Endpoint C) :
      Reaches octets e (.failed (.stream failure)) next
  | blocked {shipment : Shipment} {next : Endpoint C}
      (hcut : CutOff octets shipment.rest e next) : Reaches octets e (.blocked shipment) next
  | closed {left : Bytes} {next : Endpoint C} (hcut : CutOff octets left e next) :
      Reaches octets e (.failed .closed) next

theorem Reaches.after {octets between : Bytes} {e middle next : Endpoint C} {progress : Progress}
    (hfirst : CutOff octets between e middle) (hreaches : Reaches between middle progress next) :
    Reaches octets e progress next := by
  cases hreaches with
  | sent => exact .sent next
  | failed failure => exact .failed failure next
  | blocked hcut => exact .blocked (hfirst.trans hcut)
  | closed hcut => exact .closed (hfirst.trans hcut)

theorem acceptedBytes_act (reader : ReaderState) (action : Action (Protection C))
    (e : Endpoint C) : (e.act reader action).acceptedBytes = e.acceptedBytes := by
  cases action with
  | installInbound protection => cases reader <;> rfl
  | close | setKeepAlive => rfl

theorem reaches_await {rest : Bytes} (hrest : rest ≠ []) (attempt pause : Alarm)
    (e : Endpoint C) : Reaches rest e (e.await rest attempt pause) e := by
  unfold await
  split
  · exact .blocked (.refl hrest e)
  split
  · exact .closed (.refl hrest e)
  · exact .blocked (.refl hrest e)

theorem reaches_transmit (reader : ReaderState) (items : WriteScript (Protection C))
    {rest : Bytes} (hrest : rest ≠ []) (attempt : Alarm) (e : Endpoint C) :
    Reaches rest e (transmit reader items rest attempt e).1
      (transmit reader items rest attempt e).2.2 := by
  induction items generalizing rest attempt e with
  | nil => exact .sent _
  | cons item items ih =>
      cases item with
      | accept count =>
          unfold transmit
          dsimp only
          split
          · exact .failed _ _
          split
          · exact .sent _
          next hmore =>
            have hcut : CutOff rest (rest.drop count) e
                { e with accepted := rest.take count :: e.accepted } :=
              ⟨by simpa using hmore, rest.take count, (List.take_append_drop _ _).symm,
                by simp [acceptedBytes]⟩
            split
            · exact .closed hcut
            · exact .after hcut (ih hcut.unsent _ _)
      | fail failure =>
          unfold transmit
          split
          · exact .failed _ _
          split
          · exact .closed (.refl hrest e)
          · exact ih hrest _ e
      | pause milliseconds =>
          unfold transmit
          split
          · exact ih hrest _ e
          · exact reaches_await hrest _ _ e
      | resumeAt pause =>
          unfold transmit
          split
          · exact ih hrest _ e
          · exact reaches_await hrest _ _ e
      | act action =>
          have hacted : CutOff rest rest e (e.act reader action) :=
            ⟨hrest, [], rfl, by rw [acceptedBytes_act, List.append_nil]⟩
          exact .after hacted (ih hrest _ _)

theorem reaches_proceed (reader : ReaderState) (rest : Bytes) (attempt : Alarm)
    (e : Endpoint C) :
    Reaches rest e (proceed reader rest attempt e).1 (proceed reader rest attempt e).2 := by
  unfold proceed
  split
  · exact .sent e
  next hsome =>
    have hrest : rest ≠ [] := fun hempty => hsome (by rw [hempty]; rfl)
    have hreaches := reaches_transmit reader e.writes hrest attempt e
    rcases htransmit : transmit reader e.writes rest attempt e with ⟨progress, writes, next⟩
    rw [htransmit] at hreaches
    cases hreaches with
    | sent => exact .sent _
    | failed failure => exact .failed failure _
    | blocked hcut => exact .blocked ⟨hcut.unsent, hcut.sent⟩
    | closed hcut => exact .closed ⟨hcut.unsent, hcut.sent⟩

/-- Sending fails because the endpoint is closed only with octets left. -/
theorem sendBefore_cutOff {attempt : Alarm} {rest : Bytes} {e : Endpoint C}
    (hclosed : (sendBefore attempt rest e).1 = .error .closed) :
    ∃ left, CutOff rest left e (sendBefore attempt rest e).2 := by
  fun_induction sendBefore attempt rest e with
  | case1 attempt rest e next houtcome => cases hclosed
  | case2 attempt rest e fault next houtcome =>
      obtain rfl := Except.error.inj hclosed
      have hreaches := reaches_proceed .idle rest attempt e
      rw [houtcome] at hreaches
      cases hreaches with
      | closed hcut => exact ⟨_, hcut⟩
  | case3 attempt rest e shipment next houtcome ih =>
      have hreaches := reaches_proceed .idle rest attempt e
      rw [houtcome] at hreaches
      cases hreaches with
      | blocked hcut =>
          obtain ⟨left, hrest⟩ := ih hclosed
          exact ⟨left, hcut.trans ⟨hrest.unsent, hrest.sent⟩⟩

/-- Ending a packet or a line does not fail because the endpoint is closed. -/
theorem flush_ne_closed (e : Endpoint C) : (flush e).1 ≠ .error .closed := by
  unfold flush
  split <;> rintro ⟨⟩

theorem sendLine_cutOff {text : String} {e : Endpoint C}
    (hclosed : (sendLine text e).1 = .error .closed) :
    ∃ left, CutOff (Text.Utf8.encode text) left e (sendLine text e).2 := by
  unfold sendLine at hclosed ⊢
  rcases hsent : sendAll (Text.Utf8.encode text) e with ⟨fault | _, next⟩
  · rw [Act.bind_of_error hsent] at hclosed ⊢
    obtain rfl := Except.error.inj hclosed
    have hcut := sendBefore_cutOff (congrArg Prod.fst hsent)
    rwa [← sendAll, hsent] at hcut
  · rw [Act.bind_of_ok hsent] at hclosed
    exact absurd hclosed (flush_ne_closed next)

variable [BlockCipher C]

/-- Nothing of a packet goes out while it is sealed. -/
theorem keeps_acceptedBytes_sealPacket (payload : Bytes) :
    (sealPacket payload : Act C SealedPacket).Keeps acceptedBytes := by
  refine .bind (fun _ => rfl) fun packet => .bind (fun _ => rfl) fun _ => ?_
  refine .bind (fun e => ?_) fun _ => .bind (fun _ => rfl) fun e => ?_
  · change (e.dump .outbound packet).acceptedBytes = e.acceptedBytes
    unfold dump
    split <;> rfl
  refine .bind (fun _ => rfl) fun tag => .bind (fun _ => rfl) fun enciphered => ?_
  exact .bind (fun _ => rfl) fun _ _ => rfl

/-- What is left of a packet if its sending is cut short: some octets, or all if it was not
even sealed. -/
inductive Severed (payload : Bytes) (e next : Endpoint C) : Prop where
  | unsealed {fault : Fault} (hsealed : (sealPacket payload e).1 = .error fault)
      (hnothing : next.acceptedBytes = e.acceptedBytes)
  | unsent {packet : SealedPacket} {left : Bytes} (hsealed : (sealPacket payload e).1 = .ok packet)
      (hcut : CutOff packet.bytes left e next)

theorem sendPacket_severed {payload : Bytes} {e : Endpoint C}
    (hclosed : (sendPacket payload e).1 = .error .closed) :
    Severed payload e (sendPacket payload e).2 := by
  have hkept := keeps_acceptedBytes_sealPacket payload e
  unfold sendPacket at hclosed ⊢
  rcases hsealed : sealPacket payload e with ⟨fault | packet, between⟩
  all_goals rw [hsealed] at hkept
  · rw [Act.bind_of_error hsealed]
    exact .unsealed (congrArg Prod.fst hsealed) hkept
  · rw [Act.bind_of_ok hsealed] at hclosed ⊢
    rcases hsent : sendAll packet.bytes between with ⟨fault | _, next⟩
    · rw [Act.bind_of_error hsent] at hclosed ⊢
      obtain rfl := Except.error.inj hclosed
      obtain ⟨left, hcut⟩ := sendBefore_cutOff (congrArg Prod.fst hsent)
      rw [← sendAll, hsent] at hcut
      refine .unsent (congrArg Prod.fst hsealed) ⟨hcut.unsent, ?_⟩
      rw [← hkept]
      exact hcut.sent
    · rw [Act.bind_of_ok hsent] at hclosed
      have hflushed := flush_ne_closed next
      unfold completePacket at hclosed
      rcases hflush : (flush : Act C Unit) next with ⟨fault | _, last⟩
      all_goals rw [hflush] at hflushed
      · rw [Act.bind_of_error hflush] at hclosed
        exact absurd hclosed hflushed
      · rw [Act.bind_of_ok hflush] at hclosed
        cases hclosed

/-! ## What comes of it -/

/-- An operation that comes to the same on an endpoint that is spared, unless it fails because
the endpoint is closed. -/
def Act.Interruptible {α : Type} (m : Act C α) : Prop :=
  ∀ e, (m e).1 = .error .closed ∨ m e.spare = ((m e).1, (m e).2.spare)

namespace Act

variable {α β : Type}

omit [BlockCipher C] in
theorem Heedless.interruptible {m : Act C α} (hm : m.Heedless) : m.Interruptible :=
  fun e => .inr (hm e)

omit [BlockCipher C] in
theorem Interruptible.bind {m : Act C α} {f : α → Act C β} (hm : m.Interruptible)
    (hf : ∀ a, (f a).Interruptible) : (m >>= f).Interruptible := by
  intro e
  rcases houtcome : m e with ⟨fault | a, next⟩
  · rw [bind_of_error houtcome]
    refine (hm e).imp (fun hclosed => ?_) fun hsame => ?_
    · rw [houtcome] at hclosed
      exact congrArg Except.error (Except.error.inj hclosed)
    · rw [houtcome] at hsame
      exact bind_of_error hsame
  · rw [bind_of_ok houtcome]
    rcases hm e with hclosed | hsame
    · rw [houtcome] at hclosed
      cases hclosed
    · rw [houtcome] at hsame
      rw [bind_of_ok hsame]
      exact hf a next

omit [BlockCipher C] in
theorem Interruptible.noting (direction : Direction) {m : Act C α} (hm : m.Interruptible) :
    (Act.noting direction m).Interruptible := by
  intro e
  have hspared := hm e
  rcases houtcome : m e with ⟨fault | a, next⟩
  all_goals
    rw [houtcome] at hspared
    simp only [Act.noting, houtcome]
  · refine hspared.imp_right fun hsame => ?_
    rw [hsame]
    rfl
  · refine hspared.imp_right fun hsame => ?_
    rw [hsame]

end Act

omit [BlockCipher C] in
theorem interruptible_sendAll (bytes : Bytes) : Act.Interruptible (C := C) (sendAll bytes) :=
  fun e => (sendBefore_spare e.attempt bytes e).imp_left And.left

theorem interruptible_sendPacket (payload : Bytes) :
    (sendPacket payload : Act C Unit).Interruptible :=
  .bind (heedless_sealPacket payload).interruptible fun packet =>
    .bind (interruptible_sendAll packet.bytes) fun _ =>
      (heedless_completePacket packet.frameLength).interruptible

omit [BlockCipher C] in
theorem interruptible_sendLine (text : String) : (sendLine text : Act C Unit).Interruptible :=
  .bind (interruptible_sendAll _) fun _ => heedless_flush.interruptible

/-- What waits for the outbound lane is interrupted at the most, unless the endpoint is closed
before the lane is free. -/
theorem Act.Interruptible.onceFree {send : Act C Unit} (hsend : send.Interruptible)
    {e : Endpoint C} (hfree : e.awaitOutbound.closed = false) :
    (onceFree send e).1 = .error .closed ∨
      onceFree send e.spare = ((onceFree send e).1, (onceFree send e).2.spare) := by
  have hopen := (lasts_awaitOutbound e).opened hfree
  simp only [Endpoint.onceFree, hopen, closed_spare, Bool.false_eq_true, if_false,
    spare_awaitOutbound hfree]
  exact hsend _

/-- A write that has the outbound lane when its endpoint is closed fails because of that, or
ends as it would have ended anyway. -/
theorem write_of_free (payload : Bytes) {e : Endpoint C} (hfree : e.awaitOutbound.closed = false) :
    (write payload e).1 = .error .closed ∨ (write payload e).1 = (write payload e.spare).1 := by
  rcases ((interruptible_sendPacket payload).noting .outbound).onceFree hfree with hclosed | hsame
  · exact .inl hclosed
  · exact .inr (congrArg Prod.fst hsame).symm

theorem writeBanner_of_free (text : String) {e : Endpoint C}
    (hfree : e.awaitOutbound.closed = false) :
    (writeBanner text e).1 = .error .closed ∨
      (writeBanner text e).1 = (writeBanner text e.spare).1 := by
  rcases (interruptible_sendLine text).onceFree hfree with hclosed | hsame
  · exact .inl hclosed
  · exact .inr (congrArg Prod.fst hsame).symm

theorem write_severed {payload : Bytes} {e : Endpoint C} (hopen : e.closed = false)
    (hclosed : (write payload e).1 = .error .closed) :
    Severed payload e.awaitOutbound (write payload e).2 := by
  have hsevered : _ → Severed payload e.awaitOutbound _ := sendPacket_severed
  simp only [write, hopen, Bool.false_eq_true, if_false, Act.noting] at hclosed ⊢
  rcases hsent : sendPacket payload e.awaitOutbound with ⟨fault | _, next⟩
  all_goals rw [hsent] at hsevered hclosed
  · cases hsevered hclosed with
    | unsealed hsealed hnothing => exact .unsealed hsealed hnothing
    | unsent hsealed hcut => exact .unsent hsealed ⟨hcut.unsent, hcut.sent⟩
  · cases hclosed

theorem writeBanner_cutOff {text : String} {e : Endpoint C} (hopen : e.closed = false)
    (hclosed : (writeBanner text e).1 = .error .closed) :
    ∃ left, CutOff (Text.Utf8.encode text) left e.awaitOutbound (writeBanner text e).2 := by
  simp only [writeBanner, hopen, Bool.false_eq_true, if_false] at hclosed ⊢
  exact sendLine_cutOff hclosed

end PacketLayer.Endpoint
