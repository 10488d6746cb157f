import PacketLayer.Proofs.Acceptance
import PacketLayer.Proofs.Course.Inbound
import PacketLayer.Proofs.Course.Takings

/-! # The course of a run

Every operation takes an endpoint along a course, and what the outside learns of it is what
the operation shows. A chronicle puts the courses of a run together, operation by operation.
-/

namespace PacketLayer

variable {C : Type}

/-- The packet that an operation delivers, if it delivers one. -/
def packet? : Except Fault Reply → Option Packet
  | .ok (.packet packet?) => packet?
  | .ok .done | .ok (.line _) | .error _ => none

namespace Endpoint

variable [BlockCipher C]

/-- What the outside learns of an operation. -/
def tidingsOf (operation : Operation (Protection C)) (e : Endpoint C) : List Tiding :=
  match operation with
  | .write payload =>
      [.answered ⟨.message payload, e.closed, (perform operation e).1.map fun _ => ()⟩]
  | .writeBanner text =>
      [.answered ⟨.line text, e.closed, (perform operation e).1.map fun _ => ()⟩]
  | .read => tidingsOfRead e.countOperation
  | .readBanner _ | .installOutbound _ | .installInbound _ | .feed _ | .scriptWrites _
  | .scriptFlushes _ | .setKeepAlive _ _ | .advance _ | .close => []

/-- What the outside learns of operations that are carried out in order. -/
def tidingsOfRun : List (Operation (Protection C)) → Endpoint C → List Tiding
  | [], _ => []
  | operation :: operations, e =>
      tidingsOf operation e ++ tidingsOfRun operations (perform operation e).2

/-- A read that verifies nothing delivers nothing. -/
theorem read_of_unverified {e : Endpoint C} (hnone : verification e = none) (packet : Packet) :
    (read e).1 ≠ .ok (some packet) := by
  cases hopen : e.closed with
  | true =>
      rw [read, if_pos hopen]
      rintro ⟨⟩
  | false =>
      have htaken := taken_takeFrame e
      rw [verification, hopen] at hnone
      rw [(read_of_open hopen).1, readPacket_eq]
      rcases htake : takeFrame e with ⟨result, next⟩
      rw [htake] at htaken hnone
      cases htaken with
      | whole => cases hnone
      | missed _ hmissed =>
          rcases result with fault | (_ | taken)
          · rw [Act.bind_of_error htake]
            rintro ⟨⟩
          · rw [Act.bind_of_ok htake]
            rintro ⟨⟩
          · exact absurd rfl (hmissed taken)

/-- A read that verifies a frame delivers its packet, unless the peer ignores a request for
new keys. -/
theorem read_of_verified {e : Endpoint C} {verified : UInt32 × Bytes}
    (hverified : verification e = some verified) :
    (read e).1 = .ok (some (packetOf verified)) ∨
      ∃ count, (read e).1 = .error (.rekeyIgnored count) := by
  cases hopen : e.closed with
  | true =>
      rw [verification, hopen] at hverified
      cases hverified
  | false =>
      have htaken := taken_takeFrame e
      rw [verification, hopen] at hverified
      rw [(read_of_open hopen).1, readPacket_eq]
      rcases htake : takeFrame e with ⟨result, next⟩
      rw [htake] at htaken hverified
      cases htaken with
      | missed _ hmissed =>
          rcases result with fault | (_ | taken)
          · cases hverified
          · cases hverified
          · exact absurd rfl (hmissed taken)
      | @whole lane octets frame header _ _ hgenuine _ =>
          obtain rfl := Option.some.inj hverified
          obtain ⟨last, hdeliver, -⟩ := deliver_eq header frame next
          have hpacket : next.message header frame =
              packetOf (next.inbound.sequence.value, frame) := by
            rw [message, hgenuine.unfolds.header_eq]
            rfl
          rw [Act.bind_of_ok htake, deliverTaken, Act.bind_pure_eq, hdeliver, hpacket]
          rcases Rekey.Policy.recordReceived_answers next.rekey
            (UInt64.ofNat (header.frameLength + next.inbound.tagSize)) with
            ⟨raised, hanswer⟩ | ⟨count, hanswer⟩
          · rw [hanswer]
            exact .inl rfl
          · rw [hanswer]
            exact .inr ⟨count, rfl⟩

/-- The result of a request is the result of the operation that makes it. -/
theorem map_done (result : Except Fault Unit) :
    (result.map fun _ => Reply.done).map (fun _ => ()) = result := by
  cases result <;> rfl

/-- What an operation does as any other party might, it does at once. -/
theorem leads_act (operation : Operation (Protection C)) {action : Action (Protection C)}
    (haction : operation.action? = some action) (e : Endpoint C) :
    Leads (e.during (.ordered operation)) [] ((e.act .idle action).during .free) := by
  have hsame : (e.act .idle action).during .free =
      { e.during .free with endpoint := e.act .idle action } := by
    cases action <;> rfl
  rw [hsame]
  exact .of_does (.acted (.operation (s := e.during (.ordered operation)) rfl haction)) trivial

/-- An operation goes its course before keep-alive messages are looked after. -/
theorem leads_start (operation : Operation (Protection C)) (e : Endpoint C) :
    Leads (e.countOperation.during (.ordered operation)) (tidingsOf operation e)
      ((start operation e.countOperation).2.during .free) := by
  cases operation with
  | write payload =>
      have hstart : start (.write payload) e.countOperation = _ :=
        Act.bind_pure_eq (write payload) (fun _ => Reply.done) e.countOperation
      have hresult : (perform (.write payload) e).1.map (fun _ => ()) =
          (write payload e.countOperation).1 := by
        rw [perform, hstart]
        exact map_done _
      rw [hstart, tidingsOf, hresult]
      exact (passes_write payload e.countOperation).mono Deed.Writes.inside
  | writeBanner text =>
      have hstart : start (.writeBanner text) e.countOperation = _ :=
        Act.bind_pure_eq (writeBanner text) (fun _ => Reply.done) e.countOperation
      have hresult : (perform (.writeBanner text) e).1.map (fun _ => ()) =
          (writeBanner text e.countOperation).1 := by
        rw [perform, hstart]
        exact map_done _
      rw [hstart, tidingsOf, hresult]
      exact (passes_writeBanner text e.countOperation).mono Deed.Writes.inside
  | read =>
      have hstart : start .read e.countOperation = _ :=
        Act.bind_pure_eq read Reply.packet e.countOperation
      rw [hstart, tidingsOf]
      exact leads_read e.countOperation
  | readBanner milliseconds =>
      have hstart : start (.readBanner milliseconds) e.countOperation = _ :=
        Act.bind_pure_eq (readBanner milliseconds) Reply.line e.countOperation
      rw [hstart, tidingsOf]
      exact leads_readBanner milliseconds e.countOperation
  | installOutbound protection =>
      exact (passes_replaceOutbound protection e.countOperation).mono Deed.Writes.inside
  | installInbound protection =>
      exact leads_act (.installInbound protection) rfl e.countOperation
  | setKeepAlive interval handler =>
      exact leads_act (.setKeepAlive interval handler) rfl e.countOperation
  | close => exact leads_act .close rfl e.countOperation
  | feed items => exact .of_does (.supplied rfl (.reads items)) trivial
  | scriptWrites items =>
      have hsupplied : Leads (e.countOperation.during (.ordered (.scriptWrites items))) [] _ :=
        .of_does (.supplied rfl (.writes items)) trivial
      exact hsupplied.aside (e := { e.countOperation with
        writes := e.countOperation.writes ++ items }) rfl
  | scriptFlushes items => exact .of_does (.supplied rfl (.flushes items)) trivial
  | advance milliseconds => exact .of_does (.leapt rfl) trivial

theorem leads_perform (operation : Operation (Protection C)) (e : Endpoint C) :
    Leads (e.during (.ordered operation)) (tidingsOf operation e)
      ((perform operation e).2.during .free) := by
  have hcounted : Leads (e.during (.ordered operation)) []
      (e.countOperation.during (.ordered operation)) :=
    .of_does (.aside (s := e.during (.ordered operation)) (e := e.countOperation) rfl) trivial
  have htended : Leads ((start operation e.countOperation).2.during .free) []
      ((perform operation e).2.during .free) :=
    (passes_through ((passes_upkeep (s := (start operation e.countOperation).2.during .free) rfl
      (e := (start operation e.countOperation).2) trivial).mono Deed.Tends.writes)).mono
      Deed.Writes.inside
  have hleads := hcounted.trans ((leads_start operation e).append htended)
  rwa [List.append_nil] at hleads

/-- The deeds of a run, operation by operation: each is asked for and takes the endpoint to
where it leaves it, and the outside learns of its deeds what it shows. -/
inductive Chronicle : List (Operation (Protection C)) → Endpoint C → List (Deed C) → Prop where
  | done (e : Endpoint C) : Chronicle [] e []
  | step {operation : Operation (Protection C)} {operations : List (Operation (Protection C))}
      {e : Endpoint C} {deeds more : List (Deed C)}
      (hcourse : Course (e.during (.ordered operation)) deeds
        ((perform operation e).2.during .free))
      (htidings : deeds.filterMap Deed.tiding = tidingsOf operation e)
      (hinside : ∀ deed ∈ deeds, deed.Inside)
      (hrest : Chronicle operations (perform operation e).2 more) :
      Chronicle (operation :: operations) e (.asked operation :: (deeds ++ more))

theorem exists_chronicle (operations : List (Operation (Protection C))) (e : Endpoint C) :
    ∃ deeds, Chronicle operations e deeds := by
  induction operations generalizing e with
  | nil => exact ⟨[], .done e⟩
  | cons operation operations ih =>
      obtain ⟨deeds, hcourse, htidings, hinside⟩ := leads_perform operation e
      obtain ⟨more, hrest⟩ := ih (perform operation e).2
      exact ⟨_, .step hcourse htidings hinside hrest⟩

theorem run_cons (operation : Operation (Protection C))
    (operations : List (Operation (Protection C))) (e : Endpoint C) :
    run (operation :: operations) e =
      ((perform operation e).1 :: (run operations (perform operation e).2).1,
        (run operations (perform operation e).2).2) :=
  rfl

namespace Chronicle

variable {operations : List (Operation (Protection C))} {e : Endpoint C} {deeds : List (Deed C)}

/-- The courses of the operations make one course. -/
theorem course (hchronicle : Chronicle operations e deeds) :
    Course (e.during .free) deeds ((run operations e).2.during .free) := by
  induction hchronicle with
  | done e => exact .done _
  | @step operation operations e deeds more hcourse _ _ _ ih =>
      rw [run_cons]
      exact .step (.asked (s := e.during .free) operation rfl) (hcourse.append ih)

theorem tidings (hchronicle : Chronicle operations e deeds) :
    deeds.filterMap Deed.tiding = tidingsOfRun operations e := by
  induction hchronicle with
  | done e => rfl
  | step _ htidings _ _ ih =>
      rw [List.filterMap_cons_none rfl, List.filterMap_append, htidings, ih, tidingsOfRun]

end Chronicle

/-- What deeds take is what operations ask for and what scripts hold, each once and in order,
up to what is left in the end. -/
def Accords (operations : List (Operation (Protection C))) (e : Endpoint C)
    (deeds : List (Deed C)) : Prop :=
  ∀ origin, e.cues origin ++ operations.flatMap (Operation.cues origin) =
    deeds.flatMap (Deed.cues origin) ++ (run operations e).2.cues origin

theorem Chronicle.accords {operations : List (Operation (Protection C))} {e : Endpoint C}
    {deeds : List (Deed C)} (hchronicle : Chronicle operations e deeds) :
    Accords operations e deeds := by
  intro origin
  have hscripts (e : Endpoint C) : (e.during .free).cues origin = e.cues origin := by
    cases origin with
    | operation => rfl
    | reads | writes => exact List.append_nil _
  have hbrought : deeds.flatMap (Deed.brings origin) =
      operations.flatMap (Operation.cues origin) := by
    induction hchronicle with
    | done e => rfl
    | @step operation operations e deeds more _ _ hinside _ ih =>
        rw [List.flatMap_cons, List.flatMap_append, Deed.brings_of_inside origin hinside,
          List.nil_append, ih, List.flatMap_cons, Deed.brings]
  have htaken := hchronicle.course.cues_eq origin
  rwa [hscripts, hscripts, hbrought] at htaken

/-- What operations verify that are carried out in order: numbers and frames. -/
def verifiedOfRun (operations : List (Operation (Protection C))) (e : Endpoint C) :
    List (UInt32 × Bytes) :=
  (tidingsOfRun operations e).filterMap Tiding.verified?

/-- An operation delivers what it verifies, unless the peer ignores a request for new keys. -/
inductive Judged : List (UInt32 × Bytes) → Except Fault Reply → Prop where
  | nothing {result : Except Fault Reply} (hnone : packet? result = none) : Judged [] result
  | delivered (verified : UInt32 × Bytes) :
      Judged [verified] (.ok (.packet (some (packetOf verified))))
  | ignored (verified : UInt32 × Bytes) (count : UInt32) :
      Judged [verified] (.error (.rekeyIgnored count))

theorem verified_tidingsOfRead (e : Endpoint C) :
    (tidingsOfRead e).filterMap Tiding.verified? = (verification e).toList := by
  unfold tidingsOfRead
  split
  next hclosed =>
    rw [verification, if_pos hclosed]
    rfl
  next => cases verification e <;> rfl

theorem judged_perform (operation : Operation (Protection C)) (e : Endpoint C) :
    Judged ((tidingsOf operation e).filterMap Tiding.verified?) (perform operation e).1 := by
  have hperform : (perform operation e).1 = (start operation e.countOperation).1 := rfl
  rw [hperform]
  cases operation with
  | read =>
      have hstart : start .read e.countOperation = _ :=
        Act.bind_pure_eq read Reply.packet e.countOperation
      rw [hstart, tidingsOf, verified_tidingsOfRead]
      cases hverified : verification e.countOperation with
      | none =>
          refine .nothing ?_
          rcases hread : (read e.countOperation).1 with fault | (_ | packet)
          · rfl
          · rfl
          · exact absurd hread (read_of_unverified hverified packet)
      | some verified =>
          rcases read_of_verified hverified with hread | ⟨count, hread⟩
          · rw [hread]
            exact .delivered verified
          · rw [hread]
            exact .ignored verified count
  | write payload =>
      have hstart : start (.write payload) e.countOperation = _ :=
        Act.bind_pure_eq (write payload) (fun _ => Reply.done) e.countOperation
      rw [hstart]
      refine .nothing ?_
      cases (write payload e.countOperation).1 <;> rfl
  | writeBanner text =>
      have hstart : start (.writeBanner text) e.countOperation = _ :=
        Act.bind_pure_eq (writeBanner text) (fun _ => Reply.done) e.countOperation
      rw [hstart]
      refine .nothing ?_
      cases (writeBanner text e.countOperation).1 <;> rfl
  | readBanner milliseconds =>
      have hstart : start (.readBanner milliseconds) e.countOperation = _ :=
        Act.bind_pure_eq (readBanner milliseconds) Reply.line e.countOperation
      rw [hstart]
      refine .nothing ?_
      cases (readBanner milliseconds e.countOperation).1 <;> rfl
  | _ => exact .nothing rfl

theorem verifiedOfRun_cons (operation : Operation (Protection C))
    (operations : List (Operation (Protection C))) (e : Endpoint C) :
    verifiedOfRun (operation :: operations) e =
      (tidingsOf operation e).filterMap Tiding.verified? ++
        verifiedOfRun operations (perform operation e).2 := by
  rw [verifiedOfRun, tidingsOfRun, List.filterMap_append, verifiedOfRun]

/-- Whatever a run delivers, it has verified. -/
theorem delivered_sublist (operations : List (Operation (Protection C))) (e : Endpoint C) :
    ((run operations e).1.filterMap packet?).Sublist
      ((verifiedOfRun operations e).map packetOf) := by
  induction operations generalizing e with
  | nil => exact .refl _
  | cons operation operations ih =>
      have hrest := ih (perform operation e).2
      have hjudged := judged_perform operation e
      rw [run_cons, verifiedOfRun_cons, List.map_append]
      generalize (tidingsOf operation e).filterMap Tiding.verified? = verified at hjudged
      generalize (perform operation e).1 = result at hjudged
      cases hjudged with
      | nothing hnone =>
          rw [List.filterMap_cons_none hnone]
          exact hrest
      | delivered verified => exact hrest.cons_cons _
      | ignored verified count => exact hrest.cons _

end Endpoint

end PacketLayer
