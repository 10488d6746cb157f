import PacketLayer.Proofs.Bounds
import PacketLayer.Proofs.Discretion.Sending
import PacketLayer.Proofs.Failures

/-! # Discretion in receiving

When an attempt to read ends depends on the lengths of what arrives, and so does everything
that goes on beside it. Endpoints that are akin take octets of the same number off their
streams, and stay akin.
-/

namespace PacketLayer

variable {C : Type} [BlockCipher C]

theorem ReadItem.Akin.length_eq {item other : ReadItem (Protection C)} (hakin : item.Akin other) :
    item.octets.length = other.octets.length := by
  cases hakin with
  | data hlength => exact hlength
  | _ => rfl

theorem ReadScript.length_octets_eq {script other : ReadScript (Protection C)}
    (hakin : List.Forall₂ ReadItem.Akin script other) :
    script.octets.length = other.octets.length := by
  induction hakin with
  | nil => rfl
  | cons hitem _ ih =>
      rw [octets, octets, List.flatMap_cons, List.flatMap_cons, List.length_append,
        List.length_append, hitem.length_eq]
      exact congrArg _ ih

omit [BlockCipher C] in
theorem ReadScript.length_octets (script : ReadScript (Protection C)) :
    script.octets.length = script.unread := by
  induction script with
  | nil => rfl
  | cons item items ih =>
      have hitem : item.octets.length = item.unread := by
        cases item <;> rfl
      rw [octets, List.flatMap_cons, List.length_append, hitem, unread]
      exact congrArg _ ih

omit [BlockCipher C] in
theorem ReadScript.octets_leftOver (want : Nat) (bytes : Bytes)
    (items : ReadScript (Protection C)) :
    octets (Endpoint.leftOver want bytes items) = bytes.drop want ++ octets items := by
  unfold Endpoint.leftOver
  split
  next hnone =>
    rw [hnone]
    rfl
  next byte rest hsome =>
    rw [hsome]
    rfl

theorem ReadScript.akin_leftOver {bytes bytesOther : Bytes}
    (hlength : bytes.length = bytesOther.length) {items itemsOther : ReadScript (Protection C)}
    (hitems : List.Forall₂ ReadItem.Akin items itemsOther) (want : Nat) :
    List.Forall₂ ReadItem.Akin (Endpoint.leftOver want bytes items)
      (Endpoint.leftOver want bytesOther itemsOther) := by
  have hdrop : (bytes.drop want).length = (bytesOther.drop want).length := by
    rw [List.length_drop, List.length_drop, hlength]
  unfold Endpoint.leftOver
  generalize bytes.drop want = rest at hdrop
  generalize bytesOther.drop want = restOther at hdrop
  cases rest with
  | nil =>
      obtain rfl := List.eq_nil_of_length_eq_zero hdrop.symm
      exact hitems
  | cons byte rest =>
      cases restOther with
      | nil => cases hdrop
      | cons byteOther restOther => exact .cons (.data hdrop) hitems

namespace Endpoint

variable {octets others : Bytes} {e other : Endpoint C}

namespace Akin

theorem length_eq (hakin : Akin octets others e other) : octets.length = others.length := by
  obtain ⟨-, -, -, -, -, hreads, rfl, rfl⟩ := hakin.hidden
  exact ReadScript.length_octets_eq hreads

theorem reread (hakin : Akin octets others e other) {left leftOther : ReadScript (Protection C)}
    (hleft : List.Forall₂ ReadItem.Akin left leftOther) :
    Akin left.octets leftOther.octets { e with reads := left }
      { other with reads := leftOther } := by
  obtain ⟨hidden, hsilent, hhidden⟩ := hakin
  exact .intro { hidden with reads := leftOther } hsilent
    { hhidden with reads := hleft, octets_eq := rfl, others_eq := rfl }

theorem activateParked (hakin : Akin octets others e other) :
    Akin octets others e.activateParked other.activateParked := by
  obtain ⟨hidden, hsilent, hhidden⟩ := hakin
  unfold Endpoint.activateParked
  rw [show (e.withHidden hidden).parked = e.parked from rfl]
  split
  · exact .intro hidden hsilent hhidden
  next protection _ =>
    exact .intro { hidden with inbound := hidden.inbound.install protection } hsilent
      { hhidden with inbound := hhidden.inbound.install protection }

theorem runHandler (hakin : Akin octets others e other) (handler : Handler) :
    Akin octets others (e.runHandler handler) (other.runHandler handler) := by
  refine hakin.outside (Endpoint.runHandler handler) ⟨fun hidden e => ?_, fun e => ?_⟩
  all_goals cases handler <;> rfl

theorem checkKeepAlive (hakin : Akin octets others e other) :
    Akin octets others e.checkKeepAlive other.checkKeepAlive := by
  have hpoll : other.keepAlive.poll other.now other.outbound.isProtected other.rekey.pending =
      e.keepAlive.poll e.now e.outbound.isProtected e.rekey.pending := by
    have hprotected : e.outbound.isProtected = other.outbound.isProtected :=
      hakin.hidden.outbound.isProtected_eq
    rw [hprotected]
    obtain ⟨hidden, hsilent, hhidden⟩ := hakin
    rfl
  unfold Endpoint.checkKeepAlive
  rw [hpoll]
  dsimp only
  have hscheduled (keepAlive : KeepAlive Handler) :
      Akin octets others { e with keepAlive } { other with keepAlive } :=
    hakin.outside (fun e => { e with keepAlive }) ⟨fun _ _ => rfl, fun _ => rfl⟩
  split
  · exact hscheduled _
  · exact ((hscheduled _).note _).runHandler _

end Akin

/-! ## Attempts -/

/-- Attempts bring the next octets in the same number, or end in the same way without any. -/
inductive Received (octets others : Bytes) (want : Nat) :
    Arrival × Endpoint C → Arrival × Endpoint C → Prop where
  | more (count : Nat) {next nextOther : Endpoint C} (hwant : count ≤ want)
      (henough : count ≤ octets.length)
      (hakin : Akin (octets.drop count) (others.drop count) next nextOther) :
      Received octets others want (.more (octets.take count), next)
        (.more (others.take count), nextOther)
  | finished {next nextOther : Endpoint C} (hakin : Akin octets others next nextOther) :
      Received octets others want (.finished, next) (.finished, nextOther)
  | failed {next nextOther : Endpoint C} (failure : StreamFailure)
      (hakin : Akin octets others next nextOther) :
      Received octets others want (.failed failure, next) (.failed failure, nextOther)

theorem Received.nothing {next nextOther : Endpoint C} (hakin : Akin octets others next nextOther)
    (want : Nat) : Received octets others want (.more [], next) (.more [], nextOther) :=
  .more 0 (Nat.zero_le _) (Nat.zero_le _) hakin

/-- A piece is taken as far as it is wanted. -/
theorem received_data (want : Nat) {bytes bytesOther : Bytes}
    (hlength : bytes.length = bytesOther.length) {items itemsOther : ReadScript (Protection C)}
    (hitems : List.Forall₂ ReadItem.Akin items itemsOther) (hakin : Akin octets others e other) :
    Received (bytes ++ items.octets) (bytesOther ++ itemsOther.octets) want
      (.more (bytes.take want), { e with reads := leftOver want bytes items })
      (.more (bytesOther.take want),
        { other with reads := leftOver want bytesOther itemsOther }) := by
  have hcut (bytes rest : Bytes) : (bytes ++ rest).take (min want bytes.length) = bytes.take want ∧
      (bytes ++ rest).drop (min want bytes.length) = bytes.drop want ++ rest := by
    rw [List.take_append_of_le_length (Nat.min_le_right _ _),
      List.drop_append_of_le_length (Nat.min_le_right _ _), ← List.take_eq_take_min,
      ← List.drop_eq_drop_min]
    exact ⟨rfl, rfl⟩
  obtain ⟨htake, hdrop⟩ := hcut bytes items.octets
  obtain ⟨htakeOther, hdropOther⟩ := hcut bytesOther itemsOther.octets
  rw [← hlength] at htakeOther hdropOther
  have hleft := hakin.reread (ReadScript.akin_leftOver hlength hitems want)
  rw [ReadScript.octets_leftOver, ReadScript.octets_leftOver, ← hdrop, ← hdropOther] at hleft
  have hmore : Received (bytes ++ items.octets) (bytesOther ++ itemsOther.octets) want _ _ :=
    .more _ (Nat.min_le_left _ _) (by rw [List.length_append]; omega) hleft
  rwa [htake, htakeOther] at hmore

theorem received_arrive (want deadline : Nat) {items itemsOther : ReadScript (Protection C)}
    (hitems : List.Forall₂ ReadItem.Akin items itemsOther) (hakin : Akin octets others e other) :
    Received items.octets itemsOther.octets want (leaving (arrive want deadline items e))
      (leaving (arrive want deadline itemsOther other)) := by
  induction hitems generalizing octets others e other with
  | nil => exact .finished (hakin.reread .nil)
  | @cons item itemOther items itemsOther hitem hitems ih =>
      cases hitem with
      | @data bytes bytesOther hlength =>
          by_cases hempty : bytes = []
          · obtain rfl := hempty
            obtain rfl := List.eq_nil_of_length_eq_zero hlength.symm
            exact .finished (hakin.reread hitems)
          · have hemptyOther : bytesOther ≠ [] := by
              rintro rfl
              exact hempty (List.eq_nil_of_length_eq_zero hlength)
            have harrives {bytes : Bytes} (hbytes : bytes ≠ [])
                (items : ReadScript (Protection C)) (e : Endpoint C) :
                leaving (arrive want deadline (.data bytes :: items) e) =
                  (.more (bytes.take want), { e with reads := leftOver want bytes items }) := by
              simp [arrive, leaving, hbytes]
            rw [harrives hempty, harrives hemptyOther]
            exact received_data want hlength hitems hakin
      | eof => exact .finished (hakin.reread hitems)
      | fail failure =>
          simp only [arrive]
          split
          · exact .nothing (hakin.reread hitems) want
          · exact .failed failure (hakin.reread hitems)
      | pause milliseconds =>
          simp only [arrive, ← hakin.now_eq]
          split
          · exact ih (akin_waitUntil .busy _ hakin)
          · exact .nothing ((akin_waitUntil .busy _ hakin).reread (.cons (.resumeAt _) hitems)) want
      | resumeAt time =>
          simp only [arrive, ← hakin.now_eq]
          split
          · exact ih (akin_waitUntil .busy _ hakin)
          · exact .nothing ((akin_waitUntil .busy _ hakin).reread (.cons (.resumeAt _) hitems)) want
      | installOutbound hdependable => exact ih (hakin.installOutbound hdependable)
      | act action => exact ih (hakin.act .busy action)

theorem received (want limit : Nat) (hakin : Akin octets others e other) :
    Received octets others want (e.receive want limit) (other.receive want limit) := by
  obtain ⟨-, -, -, -, -, hreads, rfl, rfl⟩ := hakin.hidden
  rw [receive_eq, receive_eq, ← hakin.now_eq]
  exact received_arrive want _ hreads hakin

namespace Akin

variable {want limit : Nat} {next : Endpoint C}

theorem receive_finished (hakin : Akin octets others e other)
    (hattempt : e.receive want limit = (.finished, next)) :
    ∃ nextOther, other.receive want limit = (.finished, nextOther) ∧
      Akin octets others next nextOther := by
  have hreceived := received want limit hakin
  rw [hattempt] at hreceived
  generalize other.receive want limit = outcome at hreceived ⊢
  cases hreceived with
  | finished hnext => exact ⟨_, rfl, hnext⟩

theorem receive_failed {failure : StreamFailure} (hakin : Akin octets others e other)
    (hattempt : e.receive want limit = (.failed failure, next)) :
    ∃ nextOther, other.receive want limit = (.failed failure, nextOther) ∧
      Akin octets others next nextOther := by
  have hreceived := received want limit hakin
  rw [hattempt] at hreceived
  generalize other.receive want limit = outcome at hreceived ⊢
  cases hreceived with
  | failed failure hnext => exact ⟨_, rfl, hnext⟩

theorem receive_more {bytes : Bytes} (hakin : Akin octets others e other)
    (hattempt : e.receive want limit = (.more bytes, next)) :
    ∃ count nextOther, count ≤ want ∧ count ≤ octets.length ∧ bytes = octets.take count ∧
      other.receive want limit = (.more (others.take count), nextOther) ∧
      Akin (octets.drop count) (others.drop count) next nextOther := by
  have hreceived := received want limit hakin
  rw [hattempt] at hreceived
  generalize other.receive want limit = outcome at hreceived ⊢
  cases hreceived with
  | more count hwant henough hnext => exact ⟨count, _, hwant, henough, rfl, rfl, hnext⟩

theorem length_take_eq (hakin : Akin octets others e other) (count : Nat) :
    (octets.take count).length = (others.take count).length := by
  rw [List.length_take, List.length_take, hakin.length_eq]

end Akin

/-! ## Collecting octets -/

/-- Octets are collected in addition to those at hand, in the same number if at all. -/
inductive Collected (octets others raw rawOther : Bytes) (enough : Nat → Endpoint C → Prop) :
    Except Fault (Option Bytes) × Endpoint C → Except Fault (Option Bytes) × Endpoint C → Prop where
  | complete (count : Nat) {next nextOther : Endpoint C} (hcount : enough count next)
      (henough : count ≤ octets.length)
      (hakin : Akin (octets.drop count) (others.drop count) next nextOther) :
      Collected octets others raw rawOther enough (.ok (some (raw ++ octets.take count)), next)
        (.ok (some (rawOther ++ others.take count)), nextOther)
  | nothing (count : Nat) {next nextOther : Endpoint C}
      (hakin : Akin (octets.drop count) (others.drop count) next nextOther) :
      Collected octets others raw rawOther enough (.ok none, next) (.ok none, nextOther)
  | failed (count : Nat) {next nextOther : Endpoint C} (fault : Fault)
      (hakin : Akin (octets.drop count) (others.drop count) next nextOther) :
      Collected octets others raw rawOther enough (.error fault, next) (.error fault, nextOther)

/-- Octets that were brought before count as well. -/
theorem Collected.after {raw rawOther : Bytes} {count : Nat} (hcount : count ≤ octets.length)
    {enough sufficient : Nat → Endpoint C → Prop}
    (hsufficient : ∀ more next, sufficient more next → enough (count + more) next)
    {outcome outcomeOther : Except Fault (Option Bytes) × Endpoint C}
    (hcollected : Collected (octets.drop count) (others.drop count) (raw ++ octets.take count)
      (rawOther ++ others.take count) sufficient outcome outcomeOther) :
    Collected octets others raw rawOther enough outcome outcomeOther := by
  cases hcollected with
  | complete more hmore henough hakin =>
      rw [List.append_assoc, List.append_assoc, ← List.take_add, ← List.take_add]
      rw [List.drop_drop, List.drop_drop] at hakin
      rw [List.length_drop] at henough
      exact .complete _ (hsufficient _ _ hmore) (by omega) hakin
  | nothing more hakin =>
      rw [List.drop_drop, List.drop_drop] at hakin
      exact .nothing _ hakin
  | failed more fault hakin =>
      rw [List.drop_drop, List.drop_drop] at hakin
      exact .failed _ fault hakin

theorem collected_fill (raw rawOther : Bytes) (count : Nat) (hakin : Akin octets others e other) :
    Collected octets others raw rawOther (fun taken _ => taken = count) (fill raw count e)
      (fill rawOther count other) := by
  fun_induction fill raw count e generalizing octets others rawOther other with
  | case1 raw e =>
      have hcomplete : Collected octets others raw rawOther (fun taken _ => taken = 0) _ _ :=
        .complete 0 rfl (Nat.zero_le _) hakin
      simpa [fill] using hcomplete
  | case2 raw count e hmissing next hattempt =>
      obtain ⟨nextOther, hother, hnext⟩ := hakin.receive_finished hattempt
      rw [fill_of_missing hmissing, ← hakin.config_eq, hother]
      exact .nothing 0 hnext
  | case3 raw count e hmissing failure next hattempt =>
      obtain ⟨nextOther, hother, hnext⟩ := hakin.receive_failed hattempt
      rw [fill_of_missing hmissing, ← hakin.config_eq, hother]
      exact .failed 0 _ hnext
  | case4 raw count e hmissing bytes next hattempt hcomplete =>
      obtain ⟨taken, nextOther, hwant, henough, rfl, hother, hnext⟩ := hakin.receive_more hattempt
      rw [fill_of_missing hmissing, ← hakin.config_eq, hother]
      dsimp only
      rw [if_pos (hakin.length_take_eq taken ▸ hcomplete)]
      rw [List.length_take_of_le henough] at hcomplete
      exact .complete taken (Nat.le_antisymm hwant hcomplete) henough hnext
  | case5 raw count e hmissing bytes next hattempt hshort hclosed =>
      obtain ⟨taken, nextOther, hwant, henough, rfl, hother, hnext⟩ := hakin.receive_more hattempt
      rw [fill_of_missing hmissing, ← hakin.config_eq, hother]
      dsimp only
      rw [if_neg (hakin.length_take_eq taken ▸ hshort), if_pos (hnext.closed_eq ▸ hclosed)]
      exact .nothing taken hnext
  | case6 raw count e hmissing bytes next hattempt hshort hstill ih =>
      obtain ⟨taken, nextOther, hwant, henough, rfl, hother, hnext⟩ := hakin.receive_more hattempt
      rw [fill_of_missing hmissing, ← hakin.config_eq, hother]
      dsimp only
      rw [if_neg (hakin.length_take_eq taken ▸ hshort), if_neg (hnext.closed_eq ▸ hstill),
        ← hakin.length_take_eq taken]
      rw [List.length_take_of_le henough] at ih ⊢
      exact (ih _ hnext.checkKeepAlive).after henough fun more _ hmore => by omega

/-- One attempt of the other reader that waits for a first block. -/
theorem Akin.awaitFirstBlock_of_short {raw rawOther : Bytes} {ready : Endpoint C}
    (hakin : Akin octets others e other) (hready : e.activateParked = ready)
    (hlength : raw.length = rawOther.length) (hshort : ¬ready.inbound.blockSize ≤ raw.length) :
    awaitFirstBlock rawOther other =
      match other.activateParked.receive (ready.inbound.blockSize - raw.length)
          ready.config.pollInterval with
      | (.finished, next) => (.ok none, next)
      | (.failed failure, next) => (.error (.stream failure), next)
      | (.more bytes, next) =>
          if ready.inbound.blockSize ≤ (rawOther ++ bytes).length then
            awaitFirstBlock (rawOther ++ bytes) next
          else if next.closed then (.ok none, next)
          else awaitFirstBlock (rawOther ++ bytes) next.checkKeepAlive := by
  subst hready
  have hsize : e.activateParked.inbound.blockSize = other.activateParked.inbound.blockSize :=
    hakin.activateParked.hidden.inbound.blockSize_eq
  rw [hsize, hlength] at hshort
  rw [hsize, hlength, hakin.activateParked.config_eq]
  exact Endpoint.awaitFirstBlock_of_short rfl hshort

/-- A first block is awaited for as long at both endpoints. -/
theorem collected_awaitFirstBlock {raw rawOther : Bytes} (hlength : raw.length = rawOther.length)
    (hakin : Akin octets others e other) :
    Collected octets others raw rawOther
      (fun taken next => next.inbound.blockSize ≤ raw.length + taken) (awaitFirstBlock raw e)
      (awaitFirstBlock rawOther other) := by
  have hgrows {octets others raw rawOther : Bytes} {e other : Endpoint C} {taken : Nat}
      (hakin : Akin octets others e other) (hlength : raw.length = rawOther.length)
      (henough : taken ≤ octets.length) :
      (raw ++ octets.take taken).length = (rawOther ++ others.take taken).length ∧
        ∀ (more : Nat) (next : Endpoint C),
          next.inbound.blockSize ≤ (raw ++ octets.take taken).length + more →
          next.inbound.blockSize ≤ raw.length + (taken + more) := by
    rw [List.length_append, List.length_append, hlength, hakin.length_take_eq taken]
    refine ⟨rfl, fun more next hmore => ?_⟩
    rw [← hakin.length_take_eq taken, List.length_take_of_le henough] at hmore
    omega
  fun_induction awaitFirstBlock raw e generalizing octets others rawOther other with
  | case1 raw e ready =>
      rename_i hcomplete
      have hready := hakin.activateParked
      have hsize : ready.inbound.blockSize = other.activateParked.inbound.blockSize :=
        hready.hidden.inbound.blockSize_eq
      have hcollected : Collected octets others raw rawOther
          (fun taken next => next.inbound.blockSize ≤ raw.length + taken) _ _ :=
        .complete 0 hcomplete (Nat.zero_le _) hready
      rw [awaitFirstBlock, dif_pos (hlength ▸ hsize ▸ hcomplete)]
      simpa using hcollected
  | case2 raw e ready hshort next =>
      rename_i hattempt
      obtain ⟨nextOther, hother, hnext⟩ := hakin.activateParked.receive_finished hattempt
      rw [hakin.awaitFirstBlock_of_short rfl hlength hshort, hother]
      exact .nothing 0 hnext
  | case3 raw e ready hshort failure next =>
      rename_i hattempt
      obtain ⟨nextOther, hother, hnext⟩ := hakin.activateParked.receive_failed hattempt
      rw [hakin.awaitFirstBlock_of_short rfl hlength hshort, hother]
      exact .failed 0 _ hnext
  | case4 raw e ready hshort bytes next hattempt hcomplete =>
      rename_i ih
      obtain ⟨taken, nextOther, hwant, henough, rfl, hother, hnext⟩ :=
        hakin.activateParked.receive_more hattempt
      obtain ⟨hgrown, hmore⟩ := hgrows hakin hlength henough
      rw [hakin.awaitFirstBlock_of_short rfl hlength hshort, hother]
      dsimp only
      rw [if_pos (hgrown ▸ hcomplete)]
      exact (ih hgrown hnext).after henough fun more next => hmore more next
  | case5 raw e ready hshort bytes next hattempt hfew =>
      rename_i hclosed
      obtain ⟨taken, nextOther, hwant, henough, rfl, hother, hnext⟩ :=
        hakin.activateParked.receive_more hattempt
      obtain ⟨hgrown, -⟩ := hgrows hakin hlength henough
      rw [hakin.awaitFirstBlock_of_short rfl hlength hshort, hother]
      dsimp only
      rw [if_neg (hgrown ▸ hfew), if_pos (hnext.closed_eq ▸ hclosed)]
      exact .nothing taken hnext
  | case6 raw e ready hshort bytes next hattempt hfew hstill =>
      rename_i ih
      obtain ⟨taken, nextOther, hwant, henough, rfl, hother, hnext⟩ :=
        hakin.activateParked.receive_more hattempt
      obtain ⟨hgrown, hmore⟩ := hgrows hakin hlength henough
      rw [hakin.awaitFirstBlock_of_short rfl hlength hshort, hother]
      dsimp only
      rw [if_neg (hgrown ▸ hfew), if_neg (hnext.closed_eq ▸ hstill)]
      exact (ih hgrown hnext.checkKeepAlive).after henough fun more next => hmore more next

/-! ## Lines -/

theorem unread_readLine (deadline : Option Nat) (line : Bytes) (e : Endpoint C) :
    ReadScript.unread (readLine deadline line e).2.reads ≤ ReadScript.unread e.reads := by
  fun_induction readLine deadline line e with
  | case7 line e bytes next hattempt _ _ _ _ ih =>
      have hunread := unread_receive hattempt
      omega
  | _ =>
      have hunread := unread_receive ‹_›
      dsimp only
      omega

theorem Akin.unread_eq (hakin : Akin octets others e other) :
    ReadScript.unread e.reads = octets.length := by
  rw [← ReadScript.length_octets, show e.reads.octets = octets from hakin.hidden.octets_eq]

theorem Akin.unread_other_eq (hakin : Akin octets others e other) :
    ReadScript.unread other.reads = others.length := by
  obtain ⟨-, -, -, -, -, -, -, rfl⟩ := hakin.hidden
  exact (ReadScript.length_octets _).symm

theorem readLine_of_more {deadline : Option Nat} {line bytes : Bytes} {e next : Endpoint C}
    (hattempt : e.receive 1 (e.bannerLimit deadline) = (.more bytes, next)) :
    readLine deadline line e =
      if bytes = [lineFeed] then
        (.ok (some (Text.Utf8.read (dropCarriageReturn line).reverse)), next)
      else if bytes ≠ [] ∧ next.config.maxBannerLine ≤ line.length then
        (.error (.bannerTooLong next.config.maxBannerLine), next)
      else if next.expired deadline then (.error .bannerDeadline, next)
      else if next.closed then
        (.ok (some (Text.Utf8.read (bytes.reverse ++ line).reverse)), next)
      else readLine deadline (bytes.reverse ++ line) next := by
  rw [readLine, hattempt]
  rfl

/-- A line is read alike as far as the octets to come are the same. -/
theorem agree_readLine (deadline : Option Nat) (line : Bytes) (hakin : Akin octets others e other)
    {common : Nat} (hcommon : octets.take common = others.take common)
    (hwithin : octets.length ≤ ReadScript.unread (readLine deadline line e).2.reads + common) :
    ∃ taken ≤ octets.length, Akin (octets.drop taken) (others.drop taken)
      (readLine deadline line e).2 (readLine deadline line other).2 := by
  have hlimit {octets others : Bytes} {e other : Endpoint C} (hakin : Akin octets others e other) :
      other.bannerLimit deadline = e.bannerLimit deadline := by
    unfold bannerLimit
    rw [hakin.config_eq, hakin.now_eq]
  have hexpired {octets others : Bytes} {e other : Endpoint C}
      (hakin : Akin octets others e other) : other.expired deadline = e.expired deadline := by
    unfold expired
    rw [hakin.now_eq]
  -- what an attempt brings is the same if it stays within the common octets
  have hbrings {octets others : Bytes} {e other next : Endpoint C} {bytes : Bytes} {common : Nat}
      (hakin : Akin octets others e other) (hcommon : octets.take common = others.take common)
      (hattempt : e.receive 1 (e.bannerLimit deadline) = (.more bytes, next))
      (hwithin : octets.length ≤ ReadScript.unread next.reads + common) :
      ∃ taken nextOther, taken ≤ octets.length ∧ taken ≤ common ∧
        other.receive 1 (other.bannerLimit deadline) = (.more bytes, nextOther) ∧
        Akin (octets.drop taken) (others.drop taken) next nextOther := by
    obtain ⟨taken, nextOther, -, henough, rfl, hother, hnext⟩ := hakin.receive_more hattempt
    have hfew : taken ≤ common := by
      rw [hnext.unread_eq, List.length_drop] at hwithin
      omega
    have hsame := congrArg (List.take taken) hcommon
    rw [List.take_take, List.take_take, Nat.min_eq_left hfew] at hsame
    rw [← hlimit hakin, ← hsame] at hother
    exact ⟨taken, nextOther, henough, hfew, hother, hnext⟩
  fun_induction readLine deadline line e generalizing octets others other common with
  | case1 line e next hattempt =>
      obtain ⟨nextOther, hother, hnext⟩ := hakin.receive_finished hattempt
      rw [readLine, hlimit hakin, hother]
      exact ⟨0, Nat.zero_le _, hnext⟩
  | case2 line e failure next hattempt =>
      obtain ⟨nextOther, hother, hnext⟩ := hakin.receive_failed hattempt
      rw [readLine, hlimit hakin, hother]
      exact ⟨0, Nat.zero_le _, hnext⟩
  | case3 line e next hattempt =>
      obtain ⟨taken, nextOther, henough, -, hother, hnext⟩ := hbrings hakin hcommon hattempt hwithin
      rw [readLine_of_more hother, if_pos rfl]
      exact ⟨taken, henough, hnext⟩
  | case4 line e bytes next hattempt hline hlong =>
      obtain ⟨taken, nextOther, henough, -, hother, hnext⟩ := hbrings hakin hcommon hattempt hwithin
      rw [readLine_of_more hother, if_neg hline, ← hnext.config_eq, if_pos hlong]
      exact ⟨taken, henough, hnext⟩
  | case5 line e bytes next hattempt hline hfits hlate =>
      obtain ⟨taken, nextOther, henough, -, hother, hnext⟩ := hbrings hakin hcommon hattempt hwithin
      rw [readLine_of_more hother, if_neg hline, ← hnext.config_eq, if_neg hfits, hexpired hnext,
        if_pos hlate]
      exact ⟨taken, henough, hnext⟩
  | case6 line e bytes next hattempt hline hfits hearly hclosed =>
      obtain ⟨taken, nextOther, henough, -, hother, hnext⟩ := hbrings hakin hcommon hattempt hwithin
      rw [readLine_of_more hother, if_neg hline, ← hnext.config_eq, if_neg hfits, hexpired hnext,
        if_neg hearly, ← hnext.closed_eq, if_pos hclosed]
      exact ⟨taken, henough, hnext⟩
  | case7 line e bytes next hattempt hline hfits hearly hstill ih =>
      have hless := unread_readLine deadline (bytes.reverse ++ line) next
      obtain ⟨taken, nextOther, henough, hfew, hother, hnext⟩ :=
        hbrings hakin hcommon hattempt (by omega)
      have hrest : (octets.drop taken).take (common - taken) =
          (others.drop taken).take (common - taken) := by
        rw [← List.drop_take, ← List.drop_take, hcommon]
      obtain ⟨more, hmore, hlast⟩ := ih hnext hrest (by rw [List.length_drop]; omega)
      rw [List.length_drop] at hmore
      rw [List.drop_drop, List.drop_drop] at hlast
      rw [readLine_of_more hother, if_neg hline, ← hnext.config_eq, if_neg hfits, hexpired hnext,
        if_neg hearly, ← hnext.closed_eq, if_neg hstill]
      exact ⟨taken + more, by omega, hlast⟩

end Endpoint

end PacketLayer
